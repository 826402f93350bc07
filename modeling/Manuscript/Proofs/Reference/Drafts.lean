import Manuscript.Proofs.Reference.Braces

/-!
What the parts of a citation leave in the draft of its entry. Each part does one of nine things to
the draft, so that each field of it can be read off the parts for itself: the lines are what the
parts define, the pages are the last ones given, and what is skipped is what is reported.
-/

set_option autoImplicit false

namespace Manuscript.Reference.Bibtex

open Manuscript.Node

/-- The field that a part defines in a line of its own, and its value. -/
def definition? (kind : String) (part : Node) : Option (String × String) :=
  let text := textOf part
  match part.kind with
  | "article-title" | "part-title" | "chapter-title" | "data-title" => some ("title", text)
  | "source" =>
    some (if kind = "book" then "title" else if kind = "inbook" then "booktitle" else "journal",
      text)
  | "year" => some ("year", text)
  | "issue" => some ("number", text)
  | "volume" => some ("volume", text)
  | "conf-name" => some ("booktitle", text)
  | "institution" => some ("institution", text)
  | "edition" => some ("edition", text)
  | "publisher-name" => some ("publisher", text)
  | "publisher-loc" | "conf-loc" => some ("address", text)
  | "uri" => some ("howpublished", "\\url" ++ braced ((part.attrText? "xlink:href").getD text))
  | "date-in-citation" =>
    some ("note",
      if part.attrText? "content-type" == some "access-date" then "Accessed: " ++ text else text)
  | _ => none

def ownNames : List String :=
  ["title", "booktitle", "journal", "year", "number", "volume", "institution", "edition",
    "publisher", "address", "howpublished", "note"]

/-- The kinds of the parts that are labels, identifiers, texts between the parts or persons. -/
def exemptKinds : List String :=
  ["label", "pub-id", "text", "person-group", "name", "string-name", "collab", "etal"]

/-- The kinds of the parts that share a field with others. -/
def sharedKinds : List String := ["patent", "fpage", "lpage"]

/-- The kinds of the parts that define no field of their own and are not reported. -/
def placedKinds : List String := sharedKinds ++ exemptKinds

/-- How a part is reported that no entry has a place for. -/
def report? (key kind : String) (part : Node) : Option String :=
  if (definition? kind part).isNone && !part.isOneOf placedKinds then
    some (key ++ ":" ++ part.kind ++ " -> " ++ textOf part)
  else none

/-- The text of a part, if it is of a kind. -/
def textIf? (kind : String) (part : Node) : Option String :=
  if part.kind = kind then some (textOf part) else none

/-- The page that stands in a text between the parts. -/
def loose? (part : Node) : Option String := (textIf? "text" part).bind Draft.loosePage?

/-- A text between the parts of a patent that names it. -/
def patentText? (isPatent : Bool) (part : Node) : Option String :=
  (textIf? "text" part).filter fun text =>
    (Draft.loosePage? text).isNone && isPatent && Text.contains "patent" (Text.lower text)

def isEditors (part : Node) : Bool := part.attrText? "person-group-type" == some "editor"

/-- The persons that a part adds to the editors or to the authors. -/
def personsOf (asEditors : Bool) (part : Node) : List String :=
  if part.kind = "person-group" then
    if isEditors part = asEditors then (part.findAll isPerson).map personName else []
  else if isPerson part && !asEditors then [personName part]
  else []

section
variable {key kind : String} {isPatent : Bool} {part : Node}

theorem placed_of_kind {k : String} (isOne : part.kind = k)
    (placed : placedKinds.contains k = true) : part.isOneOf placedKinds = true := by
  rw [isOneOf, isOne, placed]

theorem isOneOf_placedKinds_iff : part.isOneOf placedKinds = true ↔
    part.kind = "patent" ∨ part.kind = "fpage" ∨ part.kind = "lpage" ∨ part.kind = "label" ∨
      part.kind = "pub-id" ∨ part.kind = "text" ∨ part.kind = "person-group" ∨
      part.kind = "name" ∨ part.kind = "string-name" ∨ part.kind = "collab" ∨
      part.kind = "etal" := by
  simp [isOneOf, placedKinds, sharedKinds, exemptKinds]

theorem definition?_of_placed (placed : part.isOneOf placedKinds = true) :
    definition? kind part = none := by
  rw [isOneOf_placedKinds_iff] at placed
  rcases placed with h | h | h | h | h | h | h | h | h | h | h <;> simp [definition?, h]

theorem mem_ownNames {name value : String} (defined : definition? kind part = some (name, value)) :
    name ∈ ownNames := by
  unfold definition? at defined
  simp only at defined
  split at defined
  case h_5 =>
    cases defined
    repeat' split
    all_goals decide
  all_goals cases defined
  all_goals decide

namespace Draft

def define (d : Draft) (name value : String) : Draft :=
  { d.add name value with hasTitle := d.hasTitle || name == "title" }

/-- What becomes of a draft when it takes in a part. -/
inductive Taken (key kind : String) (isPatent : Bool) (d : Draft) (part : Node) : Draft → Prop
  | nothing (silent : part.isOneOf ["label", "pub-id"] = true) : Taken key kind isPatent d part d
  | text (isText : part.kind = "text") :
      Taken key kind isPatent d part (d.addText isPatent (textOf part))
  | field {name value : String} (defined : definition? kind part = some (name, value)) :
      Taken key kind isPatent d part (d.define name value)
  | patent (isOne : part.kind = "patent") :
      Taken key kind isPatent d part { d with patent := d.patent ++ [textOf part] }
  | firstPage (isOne : part.kind = "fpage") :
      Taken key kind isPatent d part { d with firstPage := some (textOf part) }
  | lastPage (isOne : part.kind = "lpage") :
      Taken key kind isPatent d part { d with lastPage := some (textOf part) }
  | group (isOne : part.kind = "person-group") : Taken key kind isPatent d part (d.addPersons part)
  | person (isOne : isPerson part = true) :
      Taken key kind isPatent d part { d with authors := d.authors ++ [personName part] }
  | other {item : String} (reported : report? key kind part = some item) :
      Taken key kind isPatent d part { d with skipped := d.skipped ++ [item] }

theorem addTitle_eq (d : Draft) (title : String) : d.addTitle title = d.define "title" title := by
  simp [addTitle, define]

theorem add_eq (d : Draft) {name : String} (other : (name == "title") = false) (value : String) :
    d.add name value = d.define name value := by
  simp [define, other, add]

theorem taken_addSource (isOne : part.kind = "source") (d : Draft) :
    Taken key kind isPatent d part (d.addSource kind (textOf part)) := by
  unfold addSource
  split
  · next book =>
    rw [addTitle_eq]
    exact .field (by simp [definition?, isOne, book])
  · next other =>
    split
    · next inBook =>
      rw [add_eq d (by decide)]
      exact .field (by simp [definition?, isOne, inBook])
    · next alone =>
      rw [add_eq d (by decide)]
      exact .field (by simp [definition?, isOne, other, alone])

theorem taken_addPart (key kind : String) (isPatent : Bool) (d : Draft) (part : Node) :
    Taken key kind isPatent d part (d.addPart key kind isPatent part) := by
  unfold addPart
  simp only
  split
  case h_1 isOne | h_2 isOne => exact .nothing (by simp [isOneOf, isOne])
  case h_3 isOne => exact .text isOne
  case h_4 isOne | h_5 isOne | h_6 isOne | h_7 isOne =>
    rw [addTitle_eq]
    exact .field (by simp [definition?, isOne])
  case h_8 isOne => exact taken_addSource isOne d
  case h_10 isOne => exact .patent isOne
  case h_9 isOne | h_11 isOne | h_12 isOne | h_13 isOne | h_14 isOne | h_15 isOne | h_16 isOne |
      h_17 isOne | h_18 isOne | h_19 isOne | h_20 isOne =>
    rw [add_eq d (by decide)]
    exact .field (by simp [definition?, isOne])
  case h_21 isOne => exact .firstPage isOne
  case h_22 isOne => exact .lastPage isOne
  case h_23 isOne => exact .group isOne
  case h_24 isOne | h_25 isOne | h_26 isOne | h_27 isOne =>
    exact .person (by simp [isPerson, isOneOf, isOne])
  case h_28 =>
    -- The kind is none of those above, so in particular none that has a place.
    have unplaced : part.isOneOf placedKinds = false := by
      rw [Bool.eq_false_iff, ne_eq, isOneOf_placedKinds_iff]
      simp only [not_or]
      and_intros <;> assumption
    exact .other (by simp [report?, definition?, unplaced])

/-- A draft of which each field is read off the parts. -/
def ofParts (key kind : String) (isPatent : Bool) (parts : List Node) : Draft where
  lines := (parts.filterMap (definition? kind)).map fun (name, value) => field name value
  authors := parts.flatMap (personsOf false)
  editors := parts.flatMap (personsOf true)
  patent := (parts.filterMap (patentText? isPatent)).reverse ++ parts.filterMap (textIf? "patent")
  firstPage := (parts.filterMap (textIf? "fpage")).getLast?
  lastPage := (parts.filterMap (textIf? "lpage")).getLast?
  loosePage := (parts.filterMap loose?).getLast?
  hasTitle := (parts.filterMap (definition? kind)).any (·.1 == "title")
  skipped := parts.filterMap (report? key kind)

/-- The draft with a part taken in, each field of it for itself. -/
def read (key kind : String) (isPatent : Bool) (d : Draft) (part : Node) : Draft where
  lines := d.lines ++ (definition? kind part).toList.map fun (name, value) => field name value
  authors := d.authors ++ personsOf false part
  editors := d.editors ++ personsOf true part
  patent := (patentText? isPatent part).toList ++ d.patent ++ (textIf? "patent" part).toList
  firstPage := (textIf? "fpage" part).or d.firstPage
  lastPage := (textIf? "lpage" part).or d.lastPage
  loosePage := (loose? part).or d.loosePage
  hasTitle := d.hasTitle || (definition? kind part).toList.any (·.1 == "title")
  skipped := d.skipped ++ (report? key kind part).toList

theorem read_of_placed (placed : part.isOneOf placedKinds = true) (d : Draft) :
    d.read key kind isPatent part =
      { d with
        authors := d.authors ++ personsOf false part
        editors := d.editors ++ personsOf true part
        patent := (patentText? isPatent part).toList ++ d.patent ++ (textIf? "patent" part).toList
        firstPage := (textIf? "fpage" part).or d.firstPage
        lastPage := (textIf? "lpage" part).or d.lastPage
        loosePage := (loose? part).or d.loosePage } := by
  simp [read, definition?_of_placed placed, report?, placed]

theorem read_of_unplaced (unplaced : part.isOneOf placedKinds = false) (d : Draft) :
    d.read key kind isPatent part =
      { d with
        lines := d.lines ++ (definition? kind part).toList.map fun (name, value) => field name value
        hasTitle := d.hasTitle || (definition? kind part).toList.any (·.1 == "title")
        skipped := d.skipped ++ (report? key kind part).toList } := by
  rw [Bool.eq_false_iff, ne_eq, isOneOf_placedKinds_iff] at unplaced
  simp only [not_or] at unplaced
  simp [read, textIf?, loose?, patentText?, personsOf, isPerson, isOneOf, unplaced]

theorem read_addText (isOne : part.kind = "text") (d : Draft) :
    d.read key kind isPatent part = d.addText isPatent (textOf part) := by
  rw [read_of_placed (placed_of_kind isOne (by decide))]
  have text (other : String) (apart : "text" ≠ other) : textIf? other part = none := by
    simp [textIf?, isOne, apart]
  have nobody (asEditors : Bool) : personsOf asEditors part = [] := by
    simp [personsOf, isPerson, isOneOf, isOne]
  have own : textIf? "text" part = some (textOf part) := by simp [textIf?, isOne]
  simp only [text _ (by decide : "text" ≠ "patent"), text _ (by decide : "text" ≠ "fpage"),
    text _ (by decide : "text" ≠ "lpage"), nobody, loose?, patentText?, own, addText]
  cases loose : loosePage? (textOf part) with
  | some page => simp [loose, Option.filter]
  | none =>
    cases named : isPatent && Text.contains "patent" (Text.lower (textOf part)) <;>
      simp [Option.filter_some, loose, Bool.and_assoc, -Bool.and_eq_true, named]

theorem read_of_taken {d next : Draft} (taken : Taken key kind isPatent d part next) :
    next = d.read key kind isPatent part := by
  cases taken with
  | nothing silent =>
    simp only [isOneOf, List.contains_iff_mem, List.mem_cons, List.not_mem_nil, or_false] at silent
    rcases silent with isOne | isOne
    all_goals
      rw [read_of_placed (placed_of_kind isOne (by decide))]
      simp [textIf?, loose?, patentText?, personsOf, isPerson, isOneOf, isOne]
  | text isOne => exact (read_addText isOne d).symm
  | field defined =>
    -- What defines a field is neither placed nor reported.
    have unplaced : part.isOneOf placedKinds = false := by
      rw [Bool.eq_false_iff]
      intro placed
      rw [definition?_of_placed placed] at defined
      cases defined
    rw [read_of_unplaced unplaced]
    simp [report?, defined, define, add]
  | patent isOne | firstPage isOne | lastPage isOne =>
    rw [read_of_placed (placed_of_kind isOne (by decide))]
    simp [textIf?, loose?, patentText?, personsOf, isPerson, isOneOf, isOne]
  | group isOne =>
    rw [read_of_placed (placed_of_kind isOne (by decide))]
    unfold addPersons
    cases editors : isEditors part <;> rw [isEditors] at editors <;>
      simp [textIf?, loose?, patentText?, personsOf, isEditors, editors, isOne]
  | person isOne =>
    have named := isOne
    simp only [isPerson, isOneOf, List.contains_iff_mem, List.mem_cons, List.not_mem_nil,
      or_false] at named
    rcases named with named | named | named | named
    all_goals
      rw [read_of_placed (placed_of_kind named (by decide))]
      simp [textIf?, loose?, patentText?, personsOf, isOne, named]
  | other reported =>
    obtain ⟨fresh, same⟩ := Option.ite_none_right_eq_some.1 reported
    simp only [Bool.and_eq_true, Bool.not_eq_true', Option.isNone_iff_eq_none] at fresh
    rw [read_of_unplaced fresh.2]
    simp [fresh.1, reported]

theorem addPart_eq_read (key kind : String) (isPatent : Bool) (d : Draft) (part : Node) :
    d.addPart key kind isPatent part = d.read key kind isPatent part :=
  read_of_taken (taken_addPart key kind isPatent d part)

theorem ofParts_concat (key kind : String) (isPatent : Bool) (parts : List Node) (part : Node) :
    ofParts key kind isPatent (parts ++ [part]) =
      (ofParts key kind isPatent parts).read key kind isPatent part := by
  have one {α : Type} (f : Node → Option α) : [part].filterMap f = (f part).toList := by
    cases h : f part <;> simp [h]
  have last {α : Type} (front : List α) (x : Option α) :
      (front ++ x.toList).getLast? = x.or front.getLast? := by
    cases x <;> simp
  -- Texts that name a patent go to the front of its title, so the last of them comes first.
  have reversed {α : Type} (x : Option α) : x.toList.reverse = x.toList := by cases x <;> rfl
  simp only [ofParts, read, List.filterMap_append, one, List.flatMap_append,
    List.flatMap_singleton, List.map_append, last, List.any_append, List.reverse_append, reversed,
    List.append_assoc]

/-- The draft of a citation, read off its parts. -/
theorem foldl_addPart (key kind : String) (isPatent : Bool) (front parts : List Node) :
    parts.foldl (addPart key kind isPatent) (ofParts key kind isPatent front) =
      ofParts key kind isPatent (front ++ parts) := by
  induction parts generalizing front with
  | nil => rw [List.append_nil, List.foldl_nil]
  | cons part parts ih =>
    rw [List.foldl_cons, addPart_eq_read, ← ofParts_concat, ih, List.append_assoc,
      List.singleton_append]

end Draft

end

def isOfPatent (cite : Node) : Bool :=
  ((cite.attrText? "publication-type").orElse fun _ => cite.attrText? "citation-type") ==
    some "patent"

theorem draftOf_eq (cite : Node) (key : String) :
    draftOf cite key = .ofParts key (kindFor cite) (isOfPatent cite) cite.kids :=
  Draft.foldl_addPart key (kindFor cite) (isOfPatent cite) [] cite.kids

end Manuscript.Reference.Bibtex
