import Manuscript.Article.Date
import Manuscript.Doi
import Manuscript.Xml.Reader

/-!
Articles in the Journal Article Tag Suite: reading one, finding its parts, and the identifiers and
dates that it states about itself.
-/

set_option autoImplicit false

namespace Manuscript

/-- An article as a tree, with the document type if it was read from a text. -/
structure Article where
  doctype : Option String
  tree : Node

namespace Article

inductive Fault where
  | xml (cause : Xml.Error)
  | root (kinds : String)
  deriving DecidableEq

def Fault.message : Fault → String
  | .xml cause => "Problem parsing the JATS document, please ensure it is XML: " ++ cause.message
  | .root kinds =>
    "JATS must be structured as <!DOCTYPE><article>...</article>, found root <" ++ kinds ++ ">"

/-- The article that a root element is, or that it holds as its only part. -/
def ofRoot (root : Node) : Except Fault Node :=
  if root.is "article" then pure root
  else if root.is "pmc-articleset" then
    match root.kids.filter fun n => !n.isOneOf ["text", "comment"] with
    | [n] => if n.is "article" then pure n else throw (.root "pmc-articleset")
    | _ => throw (.root "pmc-articleset")
  else throw (.root root.kind)

/-- Reads an article. The text must have one root element. -/
def parse (s : String) : Except Fault Article :=
  match Xml.parse s with
  | .error cause => throw (.xml cause)
  | .ok document =>
    match document.elements with
    | [root] => do pure ⟨document.doctype, ← ofRoot root⟩
    | roots => throw (.root (String.intercalate "><" (roots.map (·.kind))))

def ofTree (tree : Node) : Article := ⟨none, tree⟩

/-! ### Parts -/

def front? (a : Article) : Option Node := a.tree.findKind? "front"

def body? (a : Article) : Option Node := a.tree.findKind? "body"

def back? (a : Article) : Option Node := a.tree.findKind? "back"

def abstract? (a : Article) : Option Node := a.front?.bind (·.findKind? "abstract")

def floatsGroups (a : Article) : List Node := a.tree.findKinds "floats-group"

def refList? (a : Article) : Option Node := a.back?.bind (·.findKind? "ref-list")

def references (a : Article) : List Node :=
  match a.refList? with
  | some list => list.findKinds "ref"
  | none => []

def updateBody (a : Article) (f : Node → Node) : Article :=
  { a with tree := a.tree.updateFirst (·.is "body") f }

def updateBack (a : Article) (f : Node → Node) : Article :=
  { a with tree := a.tree.updateFirst (·.is "back") f }

/-! ### Identifiers -/

def statedId? (type : String) (n : Node) : Option String :=
  (n.find? fun m => m.attrText? "pub-id-type" == some type).bind fun m =>
    Text.nonEmpty? (Text.trim m.toText)

def formedDoi? (n : Node) : Option String :=
  (n.find? fun m => m.isOneOf ["article-id", "pub-id"] && Doi.validate m.toText).map
    fun m => Text.trim m.toText

/-- What counts as the digital object identifier: the stated one, or else the first that has the
form of one. -/
def doiText? (n : Node) : Option String :=
  (statedId? "doi" n).orElse fun _ => formedDoi? n

def doi? (a : Article) : Option String := (a.front?.bind doiText?).bind Doi.normalize

def pmid? (a : Article) : Option String := a.front?.bind (statedId? "pmid")

/-- The PubMed Central identifier without its letters and a colon. -/
def pmc? (a : Article) : Option String :=
  (a.front?.bind (statedId? "pmc")).map fun pmc =>
    let number := (Text.after? "PMC" pmc).getD pmc
    (Text.after? ":" number).getD number

def journalId? (a : Article) (type : String) : Option String :=
  (a.tree.find? fun n => n.is "journal-id" && n.attrText? "journal-id-type" == some type).map
    Node.toText

def journalTitle? (a : Article) : Option String :=
  (a.tree.findKind? "journal-title").bind fun n => Text.nonEmpty? n.toText

def publisher? (a : Article) : Option String :=
  (a.tree.findKind? "publisher-name").bind fun n => Text.nonEmpty? n.toText

/-- What is known of the licence: its address, or else the text of its reference, or else where its
only link leads, or else its text. -/
def license? (a : Article) : Option String := do
  let license ← a.tree.findKind? "license"
  match license.attrText? "xlink:href" with
  | some address => some address
  | none =>
    match license.findKind? "ali:license_ref" with
    | some reference => some reference.toText
    | none =>
      match license.findKinds "ext-link" with
      | [link] => link.attrText? "xlink:href"
      | _ => Text.nonEmpty? (Text.trim license.toText)

/-! ### Dates -/

def publicationDate? (a : Article) : Option Node :=
  a.front?.bind fun front =>
    (front.findKinds "pub-date").find? fun date => (date.findKind? "day").isSome

def historyDate? (a : Article) (type : String) : Option Node :=
  a.tree.find? fun n => n.is "date" && n.attrText? "date-type" == some type

def publicationYear? (a : Article) : Option String :=
  (a.publicationDate?.bind (·.findKind? "year")).bind fun n => Text.nonEmpty? n.toText

end Article

end Manuscript
