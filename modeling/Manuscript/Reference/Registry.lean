import Manuscript.Article.Basic
import Manuscript.Reference.Bibtex
import Manuscript.Reference.Identifier

/-!
What the entries of a reference list stand for. A citation is resolved to a digital object
identifier or to a key of the bibliography, a note to a numbered footnote; the registry maps
identifiers to resolutions and keeps count.
-/

set_option autoImplicit false

namespace Manuscript.Reference

inductive Resolution where
  /-- The address of a digital object identifier, or a key of the bibliography. -/
  | cite (label : String)
  | footnote (number : String)
  deriving DecidableEq

def Resolution.cite? : Resolution → Option String
  | .cite label => some label
  | .footnote _ => none

abbrev Lookup := Dict (List Resolution)

structure Counts where
  total : Nat := 0
  dois : Nat := 0
  bibtex : Nat := 0
  footnotes : Nat := 0
  unprocessed : Nat := 0
  deriving DecidableEq

structure Registry where
  lookup : Lookup := .empty
  /-- The notes as footnotes, numbered from one. -/
  footnotes : List Node := []
  bibtex : List String := []
  counts : Counts := {}
  /-- The kinds of parts of entries that are not understood, each once. -/
  lostRefs : List String := []
  /-- The parts of citations that are no field of the bibliography. -/
  lostItems : List String := []

inductive Fault where
  | notAReference (kind : String)
  | withoutId (index : Nat)
  deriving DecidableEq

def Fault.message : Fault → String
  | .notAReference kind => "Unexpected type for reference: " ++ kind
  | .withoutId index =>
    "Encountered \"ref\" without id (reference #" ++ toString index ++ " in ref-list)"

/-- What citations are resolved with: what is known of PubMed identifiers, and whether digital
object identifiers are used at all. -/
structure Sources where
  pmids : Pmid.Findings := .empty
  dois : Bool := true

namespace Registry

def empty : Registry := {}

def footnoteGroup? (r : Registry) : Option Node :=
  if r.footnotes.isEmpty then none else some (.branch "fn-group" r.footnotes)

def bibliography? (r : Registry) : Option String :=
  if r.bibtex.isEmpty then none else some (String.intercalate "\n\n" r.bibtex)

def enter (r : Registry) (name : Option String) (resolutions : List Resolution) : Registry :=
  match name with
  | some name => { r with lookup := r.lookup.insert name resolutions }
  | none => r

def addEntry (r : Registry) (b : Bibtex) : Registry :=
  match b.entry with
  | some entry =>
    { r with
      bibtex := r.bibtex ++ [entry]
      lostItems := r.lostItems ++ b.skipped
      counts := { r.counts with bibtex := r.counts.bibtex + 1 } }
  | none => { r with counts := { r.counts with unprocessed := r.counts.unprocessed + 1 } }

/-- Resolves a citation; `key` is its key in the bibliography if it has to go there. -/
def addCitation (sources : Sources) (r : Registry) (cite : Node) (key : String) :
    String × Registry :=
  match if sources.dois then doi? sources.pmids cite else none with
  | some doi => (Doi.url doi, { r with counts := { r.counts with dois := r.counts.dois + 1 } })
  | none => (key, r.addEntry (.ofCitation cite key))

def addNote (r : Registry) (note : Node) : String × Registry :=
  let number := toString (r.footnotes.length + 1)
  let footnote := { note with kind := "fn" }.setAttr "id" (.string number)
  (number,
    { r with
      footnotes := r.footnotes ++ [footnote]
      counts := { r.counts with footnotes := r.counts.footnotes + 1 } })

def addLost (r : Registry) (kind : String) : Registry :=
  if r.lostRefs.contains kind then r else { r with lostRefs := r.lostRefs ++ [kind] }

def isCitation (n : Node) : Bool :=
  n.isOneOf ["element-citation", "mixed-citation"] && !Text.isBlankText n.toText

/-- Takes in one part of the entry with the identifier `owner`. A part that is resolved and has an
identifier of its own can be cited by it. -/
def addPart (sources : Sources) (owner : String) (r : Registry) (part : Node) :
    List Resolution × Registry :=
  let own := part.attrText? "id"
  if isCitation part then
    let (label, r) := r.addCitation sources part (own.getD owner)
    ([.cite label], r.enter own [.cite label])
  else if part.is "note" then
    let (number, r) := r.addNote part
    ([.footnote number], r.enter own [.footnote number])
  else if part.is "label" then ([], r)
  else ([], r.addLost part.kind)

def addParts (sources : Sources) (owner : String) :
    Registry → List Node → List Resolution × Registry
  | r, [] => ([], r)
  | r, part :: parts =>
    let (first, r) := r.addPart sources owner part
    let (rest, r) := addParts sources owner r parts
    (first ++ rest, r)

def add (sources : Sources) (r : Registry) (index : Nat) (ref : Node) : Except Fault Registry :=
  if !ref.is "ref" then throw (.notAReference ref.kind)
  else match ref.attrText? "id" with
    | none => throw (.withoutId index)
    | some name =>
      let r := { r with counts := { r.counts with total := r.counts.total + 1 } }
      let (resolutions, r) := r.addParts sources name ref.kids
      pure (r.enter (some name) resolutions)

def addAll (sources : Sources) (r : Registry) (index : Nat) : List Node → Except Fault Registry
  | [] => pure r
  | ref :: refs => do addAll sources (← r.add sources index ref) (index + 1) refs

def isLettered (name candidate : String) : Bool :=
  match Text.rest? name.toList candidate.toList with
  | some [c] => Text.isLowerLatin c
  | _ => false

/-- What an identifier without resolutions stands for: all that those with one more letter do. -/
def inherit (lookup : Lookup) (name : String) : Lookup :=
  let inherited := (lookup.entries.filter fun entry => isLettered name entry.1).flatMap (·.2)
  if inherited.isEmpty then lookup else lookup.insert name inherited

/-- Lets every identifier without resolutions inherit, in increasing order. -/
def inheritAll (r : Registry) : Registry :=
  let bare := (r.lookup.entries.filter (·.2.isEmpty)).map (·.1)
  { r with lookup := bare.foldl inherit r.lookup }

def ofReferences (sources : Sources) (refs : List Node) : Except Fault Registry := do
  pure (← addAll sources .empty 0 refs).inheritAll

/-- The labels under which an entry is cited; an entry that is not cited counts by its
identifier. -/
def labels (r : Registry) (ref : Node) : List String :=
  match ref.attrText? "id" with
  | none => []
  | some name =>
    let cites := ((r.lookup.find? name).getD []).filterMap Resolution.cite?
    if cites.isEmpty then [name] else cites

def firstOccurrences (texts : List String) : List String :=
  texts.foldl (fun out s => if out.contains s then out else out ++ [s]) []

/-- The labels of a reference list in its order, each once. -/
def order (r : Registry) (refs : List Node) : List String :=
  firstOccurrences (refs.flatMap r.labels)

end Registry

end Manuscript.Reference
