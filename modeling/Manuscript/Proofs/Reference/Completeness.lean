import Manuscript.Proofs.Reference.Inheritance

/-!
The registry of a reference list is complete. What adding an entry does to a registry is summed up
in one relation, which holds of parts, entries and lists of entries alike; with distinct identifiers
no entry is overwritten, so that each one stands for its parts in the end.
-/

set_option autoImplicit false

namespace Manuscript.Reference.Registry

open Manuscript.Node

/-! ### What parts stand for -/

/-- Whether a part of an entry is resolved: a citation that is not blank, or a note. -/
def isResolved (part : Node) : Bool := isCitation part || part.is "note"

def noteCount (parts : List Node) : Nat := parts.countP (·.is "note")

def footnoteOf (number : Nat) (note : Node) : Node :=
  { note with kind := "fn" }.setAttr "id" (.string (toString number))

/-- The notes among parts as footnotes, where so many notes stand before them. -/
def footnotesFrom (notes : Nat) (parts : List Node) : List Node :=
  (parts.filter (·.is "note")).mapIdx fun i note => footnoteOf (notes + i + 1) note

theorem length_footnotesFrom (notes : Nat) (parts : List Node) :
    (footnotesFrom notes parts).length = noteCount parts := by
  rw [footnotesFrom, List.length_mapIdx, noteCount, List.countP_eq_length_filter]

theorem footnotesFrom_append (notes : Nat) (front back : List Node) :
    footnotesFrom notes (front ++ back) =
      footnotesFrom notes front ++ footnotesFrom (notes + noteCount front) back := by
  have shift (i : Nat) : notes + (i + noteCount front) = notes + noteCount front + i := by omega
  rw [footnotesFrom, List.filter_append, List.mapIdx_append, ← List.countP_eq_length_filter]
  simp only [← noteCount.eq_def, shift]
  rfl

/-- The label under which a citation of the entry `owner` is cited. -/
def citedAs (sources : Sources) (owner : String) (cite : Node) : String :=
  match if sources.dois then doi? sources.pmids cite else none with
  | some doi => Doi.url doi
  | none => (cite.attrText? "id").getD owner

/-- The resolved parts of the entry `owner` with what they stand for, where so many notes stand
before them. -/
def resolved (sources : Sources) (owner : String) : Nat → List Node → List (Node × Resolution)
  | _, [] => []
  | notes, part :: parts =>
    if isCitation part then
      (part, .cite (citedAs sources owner part)) :: resolved sources owner notes parts
    else if part.is "note" then
      (part, .footnote (toString (notes + 1))) :: resolved sources owner (notes + 1) parts
    else resolved sources owner notes parts

/-- What the resolved parts with identifiers of their own enter. -/
def ownEntries (parts : List (Node × Resolution)) : List (String × List Resolution) :=
  parts.filterMap fun part => (part.1.attrText? "id").map (·, [part.2])

def entriesFrom (sources : Sources) : Nat → List Node → List (String × List Resolution)
  | _, [] => []
  | notes, ref :: refs =>
    let name := (ref.attrText? "id").getD ""
    let parts := resolved sources name notes ref.kids
    ownEntries parts ++ [(name, parts.map (·.2))] ++
      entriesFrom sources (notes + noteCount ref.kids) refs

def enterAll (lookup : Lookup) (entries : List (String × List Resolution)) : Lookup :=
  entries.foldl (fun lookup entry => lookup.insert entry.1 entry.2) lookup

/-- What has become of citations, in numbers. -/
def citationCount (r : Registry) : Nat := r.counts.dois + r.counts.bibtex + r.counts.unprocessed

/-! ### What adding does -/

/-- What a registry has more than before, if `refs` entries with `parts` were added. -/
structure Grown (entries : List (String × List Resolution)) (parts : List Node) (refs : Nat)
    (r after : Registry) : Prop where
  lookup : after.lookup = enterAll r.lookup entries
  footnotes : after.footnotes = r.footnotes ++ footnotesFrom r.footnotes.length parts
  total : after.counts.total = r.counts.total + refs
  citations : citationCount after = citationCount r + parts.countP isCitation
  noted : after.counts.footnotes + r.footnotes.length =
    r.counts.footnotes + after.footnotes.length
  booked : after.counts.bibtex + r.bibtex.length = r.counts.bibtex + after.bibtex.length

namespace Grown

section
variable {entries entries' : List (String × List Resolution)} {parts parts' : List Node}
  {refs refs' : Nat} {r middle after : Registry}

theorem refl (r : Registry) : Grown [] [] 0 r r :=
  ⟨rfl, (List.append_nil _).symm, rfl, rfl, rfl, rfl⟩

theorem length_footnotes (grown : Grown entries parts refs r after) :
    after.footnotes.length = r.footnotes.length + noteCount parts := by
  rw [grown.footnotes, List.length_append, length_footnotesFrom]

theorem trans (first : Grown entries parts refs r middle)
    (second : Grown entries' parts' refs' middle after) :
    Grown (entries ++ entries') (parts ++ parts') (refs + refs') r after := by
  constructor
  case lookup => rw [second.lookup, first.lookup, enterAll, enterAll, enterAll, List.foldl_append]
  case footnotes =>
    rw [second.footnotes, first.length_footnotes, first.footnotes, List.append_assoc,
      footnotesFrom_append]
  case total => rw [second.total, first.total, Nat.add_assoc]
  case citations => rw [second.citations, first.citations, List.countP_append, Nat.add_assoc]
  case noted =>
    have := first.noted
    have := second.noted
    omega
  case booked =>
    have := first.booked
    have := second.booked
    omega

end

end Grown

section
variable {sources : Sources} {owner : String} {r : Registry} {part : Node}

theorem grown_enter (r : Registry) (name : Option String) (resolutions : List Resolution) :
    Grown (name.map (·, resolutions)).toList [] 0 r (r.enter name resolutions) := by
  cases name <;> exact ⟨rfl, (List.append_nil _).symm, rfl, rfl, rfl, rfl⟩

theorem not_note_of_isCitation (cite : isCitation part = true) : part.is "note" = false := by
  simp only [isCitation, Bool.and_eq_true, isOneOf, List.contains_iff_mem, List.mem_cons,
    List.not_mem_nil, or_false] at cite
  rcases cite.1 with kind | kind <;> rw [is, kind] <;> rfl

theorem fst_addCitation (r : Registry) (cite : Node) : (r.addCitation sources cite
    ((cite.attrText? "id").getD owner)).1 = citedAs sources owner cite := by
  unfold addCitation citedAs
  cases if sources.dois then doi? sources.pmids cite else none <;> rfl

theorem grown_of_citation {after : Registry} (cite : isCitation part = true)
    (lookup : after.lookup = r.lookup) (footnotes : after.footnotes = r.footnotes)
    (total : after.counts.total = r.counts.total)
    (citations : citationCount after = citationCount r + 1)
    (noted : after.counts.footnotes = r.counts.footnotes)
    (booked : after.counts.bibtex + r.bibtex.length = r.counts.bibtex + after.bibtex.length) :
    Grown [] [part] 0 r after := by
  have none : footnotesFrom r.footnotes.length [part] = [] := by
    simp [footnotesFrom, not_note_of_isCitation cite]
  have one : [part].countP isCitation = 1 := by simp [cite]
  exact ⟨lookup, by rw [none, footnotes, List.append_nil], total, by rw [one, citations],
    by rw [noted, footnotes], booked⟩

theorem grown_addCitation (cite : isCitation part = true) (key : String) :
    Grown [] [part] 0 r (r.addCitation sources part key).2 := by
  unfold addCitation
  split
  · exact grown_of_citation cite rfl rfl rfl (by simp only [citationCount]; omega) rfl rfl
  · unfold addEntry
    split
    · refine grown_of_citation cite rfl rfl rfl (by simp only [citationCount]; omega) rfl ?_
      simp only [List.length_append, List.length_singleton]
      omega
    · exact grown_of_citation cite rfl rfl rfl (by simp only [citationCount]; omega) rfl rfl

theorem grown_addNote (note : part.is "note" = true) : Grown [] [part] 0 r (r.addNote part).2 := by
  have one : footnotesFrom r.footnotes.length [part] =
      [footnoteOf (r.footnotes.length + 1) part] := by
    simp [footnotesFrom, note]
  have other : [part].countP isCitation = 0 := by
    rw [List.countP_eq_zero, List.forall_mem_singleton]
    intro cite
    rw [not_note_of_isCitation cite] at note
    cases note
  refine ⟨rfl, by rw [one]; rfl, rfl, by rw [other]; rfl, ?_, rfl⟩
  simp only [addNote, List.length_append, List.length_singleton]
  omega

theorem grown_of_lost {after : Registry} (cite : isCitation part = false)
    (note : part.is "note" = false) (lookup : after.lookup = r.lookup)
    (footnotes : after.footnotes = r.footnotes) (counts : after.counts = r.counts)
    (bibtex : after.bibtex = r.bibtex) : Grown [] [part] 0 r after := by
  have none : footnotesFrom r.footnotes.length [part] = [] := by simp [footnotesFrom, note]
  have other : [part].countP isCitation = 0 := by simp [cite]
  refine ⟨lookup, by rw [none, footnotes, List.append_nil], by rw [counts]; rfl, ?_, ?_, ?_⟩
  · rw [other, citationCount, counts]
    rfl
  · rw [counts, footnotes]
  · rw [counts, bibtex]

theorem grown_addLost (cite : isCitation part = false) (note : part.is "note" = false) :
    Grown [] [part] 0 r (r.addLost part.kind) := by
  unfold addLost
  split <;> exact grown_of_lost cite note rfl rfl rfl rfl

theorem ownEntries_singleton (part : Node) (resolution : Resolution) :
    ownEntries [(part, resolution)] =
      ((part.attrText? "id").map (·, [resolution])).toList := by
  rw [ownEntries, List.filterMap_cons]
  cases part.attrText? "id" <;> rfl

theorem ownEntries_append (parts parts' : List (Node × Resolution)) :
    ownEntries (parts ++ parts') = ownEntries parts ++ ownEntries parts' :=
  List.filterMap_append ..

/-- What a part adds, and what it stands for. -/
theorem grown_addPart (sources : Sources) (owner : String) (r : Registry) (part : Node) :
    Grown (ownEntries (resolved sources owner r.footnotes.length [part])) [part] 0 r
      (r.addPart sources owner part).2 ∧
    (r.addPart sources owner part).1 =
      (resolved sources owner r.footnotes.length [part]).map (·.2) := by
  unfold addPart
  simp only
  split
  · next cite =>
    have parts : resolved sources owner r.footnotes.length [part] =
        [(part, .cite (citedAs sources owner part))] := by
      rw [resolved, if_pos cite]
      rfl
    rw [parts, ownEntries_singleton, ← fst_addCitation r part]
    exact ⟨(grown_addCitation cite _).trans (grown_enter _ _ _), rfl⟩
  · next other =>
    have cite : isCitation part = false := by simpa using other
    split
    · next note =>
      have parts : resolved sources owner r.footnotes.length [part] =
          [(part, .footnote (toString (r.footnotes.length + 1)))] := by
        rw [resolved, if_neg other, if_pos note]
        rfl
      rw [parts, ownEntries_singleton]
      exact ⟨(grown_addNote note).trans (grown_enter _ _ _), rfl⟩
    · next silent =>
      have note : part.is "note" = false := by simpa using silent
      have parts : resolved sources owner r.footnotes.length [part] = [] := by
        rw [resolved, if_neg other, if_neg silent]
        rfl
      rw [parts]
      split
      · exact ⟨grown_of_lost cite note rfl rfl rfl rfl, rfl⟩
      · exact ⟨grown_addLost cite note, rfl⟩

theorem resolved_append (sources : Sources) (owner : String) (notes : Nat)
    (front back : List Node) :
    resolved sources owner notes (front ++ back) = resolved sources owner notes front ++
      resolved sources owner (notes + noteCount front) back := by
  induction front generalizing notes with
  | nil => rfl
  | cons part front ih =>
    simp only [List.cons_append, resolved, noteCount, List.countP_cons]
    split
    · next cite =>
      rw [ih, not_note_of_isCitation cite]
      rfl
    · split
      · rw [ih, List.cons_append, Nat.add_right_comm]
        rfl
      · exact ih notes

theorem grown_addParts (sources : Sources) (owner : String) (r : Registry) (parts : List Node) :
    Grown (ownEntries (resolved sources owner r.footnotes.length parts)) parts 0 r
      (addParts sources owner r parts).2 ∧
    (addParts sources owner r parts).1 =
      (resolved sources owner r.footnotes.length parts).map (·.2) := by
  induction parts generalizing r with
  | nil => exact ⟨.refl r, rfl⟩
  | cons part parts ih =>
    obtain ⟨first, stands⟩ := grown_addPart sources owner r part
    obtain ⟨later, stand⟩ := ih (r.addPart sources owner part).2
    rw [first.length_footnotes] at later stand
    have split := resolved_append sources owner r.footnotes.length [part] parts
    rw [List.singleton_append] at split
    rw [split, ownEntries_append, List.map_append, ← stands, ← stand]
    exact ⟨first.trans later, rfl⟩

/-! ### Entries -/

theorem entriesFrom_cons (sources : Sources) (notes : Nat) (ref : Node) (refs : List Node) :
    entriesFrom sources notes (ref :: refs) = entriesFrom sources notes [ref] ++
      entriesFrom sources (notes + noteCount ref.kids) refs := by
  simp only [entriesFrom, List.append_nil]

theorem exists_add (sources : Sources) (r : Registry) (index : Nat) {ref : Node} {name : String}
    (isRef : ref.is "ref" = true) (named : ref.attrText? "id" = some name) :
    ∃ after, r.add sources index ref = .ok after ∧
      Grown (entriesFrom sources r.footnotes.length [ref]) ref.kids 1 r after := by
  -- The entry is counted before its parts are added; `next` is the registry in between.
  obtain ⟨next, same⟩ : ∃ next : Registry,
      next = { r with counts := { r.counts with total := r.counts.total + 1 } } := ⟨_, rfl⟩
  have counted : Grown [] [] 1 r next := by
    rw [same]
    exact ⟨rfl, (List.append_nil _).symm, rfl, rfl, rfl, rfl⟩
  obtain ⟨parts, stand⟩ := grown_addParts sources name next ref.kids
  have entered := grown_enter (next.addParts sources name ref.kids).2 (some name)
    (next.addParts sources name ref.kids).1
  refine ⟨(next.addParts sources name ref.kids).2.enter (some name)
    (next.addParts sources name ref.kids).1, ?_, ?_⟩
  · rw [add, isRef, named, same]
    rfl
  · have entries : entriesFrom sources r.footnotes.length [ref] =
        ownEntries (resolved sources name r.footnotes.length ref.kids) ++
          [(name, (resolved sources name r.footnotes.length ref.kids).map (·.2))] := by
      simp only [entriesFrom, named, Option.getD_some, List.append_nil]
    have notes : next.footnotes = r.footnotes := by rw [same]
    rw [notes] at parts stand
    have grown := (counted.trans parts).trans entered
    rw [stand, List.append_nil] at grown
    rw [entries, ← stand]
    exact stand ▸ grown

theorem exists_addAll (sources : Sources) (r : Registry) (index : Nat) {refs : List Node}
    (isRef : ∀ ref ∈ refs, ref.is "ref" = true)
    (named : ∀ ref ∈ refs, ∃ name, ref.attrText? "id" = some name) :
    ∃ after, addAll sources r index refs = .ok after ∧
      Grown (entriesFrom sources r.footnotes.length refs) (refs.flatMap kids) refs.length r
        after := by
  induction refs generalizing r index with
  | nil => exact ⟨r, rfl, .refl r⟩
  | cons ref refs ih =>
    obtain ⟨here, others⟩ := List.forall_mem_cons.1 isRef
    obtain ⟨⟨name, identifier⟩, names⟩ := List.forall_mem_cons.1 named
    obtain ⟨next, one, first⟩ := exists_add sources r index here identifier
    obtain ⟨after, rest, later⟩ := ih next (index + 1) others names
    refine ⟨after, ?_, ?_⟩
    · rw [addAll, one]
      exact rest
    · rw [first.length_footnotes] at later
      rw [entriesFrom_cons, List.flatMap_cons, List.length_cons, Nat.add_comm refs.length]
      exact first.trans later

end

/-! ### Lookups -/

theorem find?_enterAll_of_not_mem (lookup : Lookup)
    {entries : List (String × List Resolution)} {name : String} (absent : name ∉ entries.map (·.1)) :
    (enterAll lookup entries).find? name = lookup.find? name := by
  induction entries generalizing lookup with
  | nil => rfl
  | cons entry entries ih =>
    simp only [List.map_cons, List.mem_cons, not_or] at absent
    have later := ih (lookup.insert entry.1 entry.2) absent.2
    rw [Dict.find?_insert, if_neg absent.1] at later
    exact later

theorem find?_enterAll {lookup : Lookup} {entries : List (String × List Resolution)}
    (distinct : (entries.map (·.1)).Nodup) {name : String} {resolutions : List Resolution}
    (mem : (name, resolutions) ∈ entries) :
    (enterAll lookup entries).find? name = some resolutions := by
  induction entries generalizing lookup with
  | nil => cases mem
  | cons entry entries ih =>
    obtain ⟨fresh, rest⟩ := List.nodup_cons.1 distinct
    rcases List.mem_cons.1 mem with rfl | mem
    · -- No later entry has this name, so none overwrites it.
      have kept := find?_enterAll_of_not_mem (lookup.insert name resolutions) fresh
      rw [Dict.find?_insert, if_pos rfl] at kept
      exact kept
    · exact ih rest mem

theorem isSome_find?_enterAll {lookup : Lookup} {entries : List (String × List Resolution)}
    {name : String} (mem : name ∈ entries.map (·.1)) :
    ((enterAll lookup entries).find? name).isSome = true := by
  induction entries generalizing lookup with
  | nil => cases mem
  | cons entry entries ih =>
    by_cases later : name ∈ entries.map (·.1)
    · exact ih later
    · have same : name = entry.1 := (List.mem_cons.1 mem).resolve_right later
      have kept := find?_enterAll_of_not_mem (lookup.insert entry.1 entry.2) later
      rw [Dict.find?_insert, if_pos same] at kept
      exact Option.isSome_iff_exists.2 ⟨_, kept⟩

/-! ### Complete registries -/

/-- The identifiers under which something is entered: those of entries and of their resolved
parts. -/
def identifiers (refs : List Node) : List String :=
  refs.flatMap fun ref =>
    (ref.kids.filter isResolved).filterMap (·.attrText? "id") ++ (ref.attrText? "id").toList

/-- Whether a part, with so many notes before it in the list, has the resolution that it should:
a label if it is a citation, if it is a note the number of its footnote; and whether it can be found
by an identifier of its own. -/
structure Answers (r : Registry) (notes : Nat) (part : Node) (resolution : Resolution) : Prop where
  cite : isCitation part = true → ∃ label, resolution = .cite label
  note : part.is "note" = true → resolution = .footnote (toString (notes + 1)) ∧
    r.footnotes[notes]? = some (footnoteOf (notes + 1) part)
  own : ∀ name, part.attrText? "id" = some name → r.lookup.find? name = some [resolution]

/-- Whether a registry has all of a list of entries: for each entry with a resolved part one
resolution for each such part, in order, all notes as footnotes, and the right counts. -/
structure Complete (refs : List Node) (r : Registry) : Prop where
  entry : ∀ {before after : List Node} {ref : Node} {name : String},
    refs = before ++ ref :: after → ref.attrText? "id" = some name →
    ref.kids.any isResolved = true → ∃ resolutions, r.lookup.find? name = some resolutions ∧
      resolutions.length = ref.kids.countP isResolved ∧
      ∀ {front back : List Node} {part : Node}, ref.kids = front ++ part :: back →
        isResolved part = true → ∃ resolution,
          resolutions[front.countP isResolved]? = some resolution ∧
          r.Answers (noteCount (before.flatMap kids) + noteCount front) part resolution
  total : r.counts.total = refs.length
  noted : r.counts.footnotes = noteCount (refs.flatMap kids)
  footnotes : r.footnotes.length = noteCount (refs.flatMap kids)
  booked : r.counts.bibtex = r.bibtex.length
  citations : r.counts.dois + r.counts.bibtex + r.counts.unprocessed =
    (refs.flatMap kids).countP isCitation

section
variable {sources : Sources}

theorem map_fst_resolved (sources : Sources) (owner : String) (notes : Nat) (parts : List Node) :
    (resolved sources owner notes parts).map (·.1) = parts.filter isResolved := by
  induction parts generalizing notes with
  | nil => rfl
  | cons part parts ih =>
    rw [resolved, List.filter_cons, isResolved]
    split
    · next cite => rw [cite, List.map_cons, ih]; rfl
    · next other =>
      split
      · next note => rw [note, Bool.or_true, List.map_cons, ih]; rfl
      · next silent =>
        rw [Bool.not_eq_true] at other silent
        rw [other, silent]
        exact ih notes

theorem length_resolved (sources : Sources) (owner : String) (notes : Nat) (parts : List Node) :
    (resolved sources owner notes parts).length = parts.countP isResolved := by
  rw [List.countP_eq_length_filter, ← map_fst_resolved sources owner notes, List.length_map]

theorem keys_ownEntries (parts : List (Node × Resolution)) :
    (ownEntries parts).map (·.1) = (parts.map (·.1)).filterMap (·.attrText? "id") := by
  rw [ownEntries, List.map_filterMap, List.filterMap_map]
  simp [Function.comp_def]

theorem keys_entriesFrom (sources : Sources) {refs : List Node} (notes : Nat)
    (named : ∀ ref ∈ refs, ∃ name, ref.attrText? "id" = some name) :
    (entriesFrom sources notes refs).map (·.1) = identifiers refs := by
  induction refs generalizing notes with
  | nil => rfl
  | cons ref refs ih =>
    obtain ⟨⟨name, identifier⟩, others⟩ := List.forall_mem_cons.1 named
    rw [entriesFrom, identifiers, List.flatMap_cons, List.map_append, List.map_append, ih _ others,
      keys_ownEntries, map_fst_resolved, identifier]
    rfl

theorem entriesFrom_append (sources : Sources) (notes : Nat) (before after : List Node) :
    entriesFrom sources notes (before ++ after) = entriesFrom sources notes before ++
      entriesFrom sources (notes + noteCount (before.flatMap kids)) after := by
  induction before generalizing notes with
  | nil => rfl
  | cons ref before ih =>
    rw [List.cons_append, entriesFrom_cons, ih, entriesFrom_cons sources notes ref before,
      List.flatMap_cons, noteCount, noteCount, noteCount, List.countP_append, Nat.add_assoc,
      List.append_assoc]

theorem exists_resolved_cons (sources : Sources) (owner : String) (notes : Nat) {part : Node}
    (parts : List Node) (isOne : isResolved part = true) : ∃ resolution notes',
      resolved sources owner notes (part :: parts) =
        (part, resolution) :: resolved sources owner notes' parts ∧
      (isCitation part = true → ∃ label, resolution = .cite label) ∧
      (part.is "note" = true → resolution = .footnote (toString (notes + 1))) := by
  rw [resolved]
  split
  · next cite =>
    refine ⟨_, notes, rfl, fun _ => ⟨_, rfl⟩, fun note => ?_⟩
    rw [not_note_of_isCitation cite] at note
    cases note
  · next other =>
    split
    · exact ⟨_, notes + 1, rfl, fun cite => absurd cite other, fun _ => rfl⟩
    · next silent =>
      simp [isResolved, other, silent] at isOne

theorem getElem?_footnotesFrom {notes : Nat} {front back : List Node} {note : Node}
    (isNote : note.is "note" = true) :
    (footnotesFrom notes (front ++ note :: back))[noteCount front]? =
      some (footnoteOf (notes + noteCount front + 1) note) := by
  have first : footnotesFrom (notes + noteCount front) (note :: back) =
      footnoteOf (notes + noteCount front + 1) note ::
        footnotesFrom (notes + noteCount front + 1) back := by
    have split := footnotesFrom_append (notes + noteCount front) [note] back
    have one : noteCount [note] = 1 := by simp [noteCount, isNote]
    have alone : footnotesFrom (notes + noteCount front) [note] =
        [footnoteOf (notes + noteCount front + 1) note] := by
      simp [footnotesFrom, isNote]
    rw [one, alone] at split
    exact split
  rw [footnotesFrom_append, first, ← length_footnotesFrom notes front,
    List.getElem?_append_right (Nat.le_refl _), Nat.sub_self, List.getElem?_cons_zero]

theorem mem_entriesFrom (sources : Sources) (before after : List Node) {ref : Node} {name : String}
    (identifier : ref.attrText? "id" = some name) {entry : String × List Resolution}
    (mem : entry ∈ ownEntries (resolved sources name (noteCount (before.flatMap kids)) ref.kids) ∨
      entry = (name,
        (resolved sources name (noteCount (before.flatMap kids)) ref.kids).map (·.2))) :
    entry ∈ entriesFrom sources 0 (before ++ ref :: after) := by
  rw [entriesFrom_append, Nat.zero_add, entriesFrom, identifier, Option.getD_some]
  refine List.mem_append_right _ (List.mem_append_left _ ?_)
  rcases mem with own | rfl
  · exact List.mem_append_left _ own
  · exact List.mem_append_right _ (List.mem_singleton_self _)

theorem exists_answers {r : Registry} {before after front back : List Node} {ref part : Node}
    {owner : String} (split : ref.kids = front ++ part :: back) (isOne : isResolved part = true)
    (footnotes : r.footnotes = footnotesFrom 0 ((before ++ ref :: after).flatMap kids))
    (own : ∀ {name : String} {resolution : Resolution}, (name, [resolution]) ∈
      ownEntries (resolved sources owner (noteCount (before.flatMap kids)) ref.kids) →
        r.lookup.find? name = some [resolution]) :
    ∃ resolution, ((resolved sources owner (noteCount (before.flatMap kids)) ref.kids).map
        (·.2))[front.countP isResolved]? = some resolution ∧
      r.Answers (noteCount (before.flatMap kids) + noteCount front) part resolution := by
  obtain ⟨resolution, notes, parts, cite, note⟩ := exists_resolved_cons sources owner
    (noteCount (before.flatMap kids) + noteCount front) back isOne
  rw [split, resolved_append, parts] at own ⊢
  refine ⟨resolution, ?_, cite, fun isNote => ⟨note isNote, ?_⟩, fun name identifier => own ?_⟩
  · rw [List.map_append, ← length_resolved sources owner (noteCount (before.flatMap kids)) front,
      List.getElem?_append_right (Nat.le_of_eq (List.length_map _)), List.length_map, Nat.sub_self,
      List.map_cons, List.getElem?_cons_zero]
  · have place : (before ++ ref :: after).flatMap kids =
        (before.flatMap kids ++ front) ++ part :: (back ++ after.flatMap kids) := by
      rw [List.flatMap_append, List.flatMap_cons, split]
      simp only [List.append_assoc, List.cons_append]
    have count : noteCount (before.flatMap kids ++ front) =
        noteCount (before.flatMap kids) + noteCount front := List.countP_append
    rw [footnotes, place, ← count, getElem?_footnotesFrom isNote, Nat.zero_add]
  · rw [ownEntries, List.mem_filterMap]
    exact ⟨(part, resolution), by simp, by rw [identifier]; rfl⟩

section
variable {refs : List Node} {r : Registry}
  (grown : Grown (entriesFrom sources 0 refs) (refs.flatMap kids) refs.length .empty r)
  (named : ∀ ref ∈ refs, ∃ name, ref.attrText? "id" = some name)
include grown named

theorem find?_of_grown (distinct : (identifiers refs).Nodup) {name : String}
    {resolutions : List Resolution} (mem : (name, resolutions) ∈ entriesFrom sources 0 refs)
    (nonempty : resolutions ≠ []) : r.inheritAll.lookup.find? name = some resolutions := by
  rw [← keys_entriesFrom sources 0 named] at distinct
  refine find?_inheritAll ?_ nonempty
  rw [grown.lookup]
  exact find?_enterAll distinct mem

theorem complete_of_grown (distinct : (identifiers refs).Nodup) :
    Complete refs r.inheritAll := by
  have found {name : String} {resolutions : List Resolution}
      (mem : (name, resolutions) ∈ entriesFrom sources 0 refs) (nonempty : resolutions ≠ []) :
      r.inheritAll.lookup.find? name = some resolutions :=
    find?_of_grown grown named distinct mem nonempty
  have footnotes : r.footnotes = footnotesFrom 0 (refs.flatMap kids) := grown.footnotes
  have count : r.footnotes.length = noteCount (refs.flatMap kids) := by
    rw [footnotes, length_footnotesFrom]
  constructor
  case entry =>
    intro before after ref name place identifier some
    subst place
    have length : ((resolved sources name (noteCount (before.flatMap kids)) ref.kids).map
        (·.2)).length = ref.kids.countP isResolved := by
      rw [List.length_map, length_resolved]
    -- An entry inherits only if it has no resolution itself.
    have nonempty : (resolved sources name (noteCount (before.flatMap kids)) ref.kids).map
        (·.2) ≠ [] := by
      obtain ⟨part, child, isOne⟩ := List.any_eq_true.1 some
      have positive := List.countP_pos_iff.2 ⟨part, child, isOne⟩
      intro none
      rw [none] at length
      exact absurd length (Nat.ne_of_lt positive)
    refine ⟨_, found (mem_entriesFrom sources before after identifier (.inr rfl)) nonempty, length,
      fun split isOne => exists_answers split isOne footnotes fun mem => ?_⟩
    exact found (mem_entriesFrom sources before after identifier (.inl mem)) (List.cons_ne_nil _ _)
  case total => exact grown.total.trans (Nat.zero_add _)
  case noted =>
    have noted : r.counts.footnotes + 0 = 0 + r.footnotes.length := grown.noted
    exact noted.trans (by rw [Nat.zero_add, count])
  case footnotes => exact count
  case booked =>
    have booked : r.counts.bibtex + 0 = 0 + r.bibtex.length := grown.booked
    exact booked.trans (Nat.zero_add _)
  case citations => exact grown.citations.trans (Nat.zero_add _)

end

end

theorem named_of_addAll {sources : Sources} {r after : Registry} {index : Nat} {refs : List Node}
    (added : addAll sources r index refs = .ok after) :
    ∀ ref ∈ refs, ref.is "ref" = true ∧ ∃ name, ref.attrText? "id" = some name := by
  induction refs generalizing r index with
  | nil => exact List.forall_mem_nil _
  | cons ref refs ih =>
    rw [addAll] at added
    cases one : r.add sources index ref with
    | error fault => rw [one] at added; cases added
    | ok next =>
      rw [one] at added
      refine List.forall_mem_cons.2 ⟨?_, ih added⟩
      unfold add at one
      split at one
      · cases one
      · next isRef =>
        split at one
        · cases one
        · next name identifier => exact ⟨by simpa using isRef, name, identifier⟩

/-- A registered list has all identifiers of its entries among the keys of the registry. -/
theorem isSome_find?_of_mem {sources : Sources} {refs : List Node} {r : Registry} {ref : Node}
    {name : String} (registered : ofReferences sources refs = .ok r) (mem : ref ∈ refs)
    (identifier : ref.attrText? "id" = some name) : (r.lookup.find? name).isSome = true := by
  unfold ofReferences at registered
  cases added : addAll sources .empty 0 refs with
  | error fault => rw [added] at registered; cases registered
  | ok next =>
    rw [added] at registered
    cases registered
    have named := named_of_addAll added
    obtain ⟨after, again, grown⟩ := exists_addAll sources .empty 0
      (fun ref mem => (named ref mem).1) (fun ref mem => (named ref mem).2)
    rw [added] at again
    cases again
    rw [isSome_find?_inheritAll, grown.lookup]
    apply isSome_find?_enterAll
    rw [keys_entriesFrom sources _ fun ref mem => (named ref mem).2]
    refine List.mem_flatMap.2 ⟨ref, mem, List.mem_append_right _ ?_⟩
    rw [identifier]
    exact List.mem_singleton_self name

theorem exists_grown (sources : Sources) (a : Article)
    (named : ∀ ref ∈ a.references, ∃ name, ref.attrText? "id" = some name) :
    ∃ r, ofReferences sources a.references = .ok r.inheritAll ∧
      Grown (entriesFrom sources 0 a.references) (a.references.flatMap kids) a.references.length
        .empty r := by
  have isRef : ∀ ref ∈ a.references, ref.is "ref" = true := by
    unfold Article.references
    split
    · exact fun ref mem => (List.mem_filter.1 mem).2
    · exact List.forall_mem_nil _
  obtain ⟨r, added, grown⟩ := exists_addAll sources .empty 0 isRef named
  refine ⟨r, ?_, grown⟩
  rw [ofReferences, added]
  rfl

/-- A reference list in which every entry has an identifier, and no identifier is used twice, is
registered without loss: the registry stands for each entry and each of its parts. -/
theorem exists_complete_registry (sources : Sources) (a : Article)
    (named : ∀ ref ∈ a.references, (ref.attrText? "id").isSome = true)
    (distinct : (identifiers a.references).Nodup) :
    ∃ r, ofReferences sources a.references = .ok r ∧ Complete a.references r := by
  have names : ∀ ref ∈ a.references, ∃ name, ref.attrText? "id" = some name :=
    fun ref mem => Option.isSome_iff_exists.1 (named ref mem)
  obtain ⟨r, registered, grown⟩ := exists_grown sources a names
  exact ⟨r.inheritAll, registered, complete_of_grown grown names distinct⟩

/-- An article with two entries: a citation with an identifier and a note, a note with one and a
citation. -/
def notedArticle : Article :=
  let named (kind id : String) (text : String) : Node :=
    (branch kind [.text text]).setAttr "id" (.string id)
  .ofTree (branch "article" [branch "back" [branch "ref-list"
    [(branch "ref" [named "mixed-citation" "c1" "A", branch "note" [.text "B"]]).setAttr "id"
        (.string "r1"),
      (branch "ref" [named "note" "n2" "C", branch "mixed-citation" [.text "10.1000/d"]]).setAttr
        "id" (.string "r2")]]])

theorem exists_complete_registry_noted :
    (∀ ref ∈ notedArticle.references, (ref.attrText? "id").isSome = true) ∧
    (identifiers notedArticle.references).Nodup ∧
    ∃ r, ofReferences {} notedArticle.references = .ok r ∧ Complete notedArticle.references r := by
  have named : ∀ ref ∈ notedArticle.references, (ref.attrText? "id").isSome = true := by
    decide +kernel
  have distinct : (identifiers notedArticle.references).Nodup := by decide +kernel
  exact ⟨named, distinct, exists_complete_registry {} notedArticle named distinct⟩

example : (ofReferences {} notedArticle.references).toOption.map (·.lookup.entries) = some
    [("c1", [.cite "c1"]), ("n2", [.footnote "2"]), ("r1", [.cite "c1", .footnote "1"]),
      ("r2", [.footnote "2", .cite "https://doi.org/10.1000/d"])] := by
  decide +kernel

end Manuscript.Reference.Registry
