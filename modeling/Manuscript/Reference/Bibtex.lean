import Manuscript.Text.Blank
import Manuscript.Text.Case
import Manuscript.Text.Letter
import Manuscript.Text.Search
import Manuscript.Tree.Search

/-!
BibTeX entries for citations. The parts of a citation become fields in the order in which they
stand; pages, authors and editors follow.
-/

set_option autoImplicit false

namespace Manuscript.Reference

/-- An entry, unless no field was found, and the parts of the citation that are no field. -/
structure Bibtex where
  entry : Option String
  skipped : List String

namespace Bibtex

def braced (s : String) : String := "\x7b" ++ s ++ "\x7d"

def field (name value : String) : String := "  " ++ name ++ " = " ++ braced value

def textOf (n : Node) : String := Text.trim n.toText

/-- The name of a person or a group, family name first. -/
def personName (n : Node) : String :=
  if n.is "etal" then "others"
  else if n.is "collab" then braced (textOf n)
  else
    match (n.findKind? "surname").map textOf, (n.findKind? "given-names").map textOf with
    | none, none => textOf n
    | some surname, none => surname
    | none, some given => given
    | some surname, some given => surname ++ ", " ++ given

def isPerson (n : Node) : Bool := n.isOneOf ["name", "string-name", "collab", "etal"]

def kindOf (publication : Option String) : String :=
  match publication with
  | some "journal" | some "preprint" | some "eprint" => "article"
  | some "book" => "book"
  | some "report" => "techreport"
  | some "confproc" => "inproceedings"
  | some "thesis" => "phdthesis"
  | _ => "misc"

structure Draft where
  lines : List String := []
  authors : List String := []
  editors : List String := []
  patent : List String := []
  firstPage : Option String := none
  lastPage : Option String := none
  /-- A first page that stands in the text between the parts. -/
  loosePage : Option String := none
  hasTitle : Bool := false
  skipped : List String := []

namespace Draft

def add (d : Draft) (name value : String) : Draft :=
  { d with lines := d.lines ++ [field name value] }

def addTitle (d : Draft) (title : String) : Draft := { d.add "title" title with hasTitle := true }

/-- The number in a text that is a comma, a space, a number and a full stop. -/
def loosePage? (s : String) : Option String :=
  match s.toList with
  | ',' :: ' ' :: rest =>
    let digits := rest.takeWhile Text.isDigit
    if !digits.isEmpty && rest.dropWhile Text.isDigit == ['.'] then some (String.ofList digits)
    else none
  | _ => none

/-- Takes in the text between the parts: a loose page, or a part of a patent's title. -/
def addText (isPatent : Bool) (d : Draft) (text : String) : Draft :=
  match loosePage? text with
  | some page => { d with loosePage := some page }
  | none =>
    if isPatent && Text.contains "patent" (Text.lower text) then
      { d with patent := text :: d.patent }
    else d

/-- Takes in the source of a citation, which may be its title or what it is part of. -/
def addSource (kind : String) (d : Draft) (text : String) : Draft :=
  if kind = "book" then d.addTitle text
  else if kind = "inbook" then d.add "booktitle" text
  else d.add "journal" text

def addPersons (d : Draft) (group : Node) : Draft :=
  let names := (group.findAll isPerson).map personName
  if group.attrText? "person-group-type" == some "editor" then
    { d with editors := d.editors ++ names }
  else { d with authors := d.authors ++ names }

def addPart (key kind : String) (isPatent : Bool) (d : Draft) (part : Node) : Draft :=
  let text := textOf part
  match part.kind with
  | "label" | "pub-id" => d
  | "text" => d.addText isPatent text
  | "article-title" | "part-title" | "chapter-title" | "data-title" => d.addTitle text
  | "source" => d.addSource kind text
  | "year" => d.add "year" text
  | "patent" => { d with patent := d.patent ++ [text] }
  | "issue" => d.add "number" text
  | "volume" => d.add "volume" text
  | "conf-name" => d.add "booktitle" text
  | "institution" => d.add "institution" text
  | "edition" => d.add "edition" text
  | "publisher-name" => d.add "publisher" text
  | "publisher-loc" | "conf-loc" => d.add "address" text
  | "uri" => d.add "howpublished" ("\\url" ++ braced ((part.attrText? "xlink:href").getD text))
  | "date-in-citation" =>
    d.add "note"
      (if part.attrText? "content-type" == some "access-date" then "Accessed: " ++ text else text)
  | "fpage" => { d with firstPage := some text }
  | "lpage" => { d with lastPage := some text }
  | "person-group" => d.addPersons part
  | "name" | "string-name" | "collab" | "etal" =>
    { d with authors := d.authors ++ [personName part] }
  | other => { d with skipped := d.skipped ++ [key ++ ":" ++ other ++ " -> " ++ text] }

def patentLines (d : Draft) : List String :=
  if d.hasTitle || d.patent.isEmpty then [] else [field "title" (String.intercalate " " d.patent)]

def pageLines (d : Draft) : List String :=
  match d.firstPage.orElse fun _ => d.loosePage with
  | none => []
  | some first =>
    [field "pages" (match d.lastPage with
      | some last => first ++ "--" ++ last
      | none => first)]

def personLines (name : String) (persons : List String) : List String :=
  if persons.isEmpty then [] else [field name (String.intercalate " and " persons)]

def fields (d : Draft) : List String :=
  d.lines ++ d.patentLines ++ d.pageLines ++ personLines "author" d.authors
    ++ personLines "editor" d.editors

end Draft

def entryText (kind key : String) (fields : List String) : String :=
  String.intercalate ",\n" (("@" ++ kind ++ "\x7b" ++ key) :: fields) ++ "\n\x7d"

def ofCitation (cite : Node) (key : String) : Bibtex :=
  let publication :=
    (cite.attrText? "publication-type").orElse fun _ => cite.attrText? "citation-type"
  let kind :=
    if cite.anyBelow (·.isOneOf ["part-title", "chapter-title"]) then "inbook"
    else kindOf publication
  let d := cite.kids.foldl (Draft.addPart key kind (publication == some "patent")) {}
  let fields := d.fields
  ⟨if fields.isEmpty then none else some (entryText kind key fields), d.skipped⟩

end Bibtex

end Manuscript.Reference
