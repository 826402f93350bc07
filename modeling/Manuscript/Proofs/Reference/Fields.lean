import Manuscript.Proofs.Reference.Drafts

/-!
Which fields an entry defines, and how often. Pages, authors and editors are collected into one
field each, and the title of a patent gives way to any other; the other fields stand in an entry as
often as there are parts that define them, so that an entry defines none twice exactly if no two
parts of its citation define the same.
-/

set_option autoImplicit false

namespace Manuscript.Reference.Bibtex

open Manuscript.Node

/-- The name that a line of an entry begins with. -/
def fieldName (line : String) : String := String.ofList ((line.toList.drop 2).takeWhile (· != ' '))

/-- Whether a name can be told from what follows it in a line. -/
def isWord (name : String) : Bool := name.toList.all (· != ' ')

/-- The fields that the parts of a citation define, as often as they do. -/
def definedNames (cite : Node) : List String :=
  (cite.kids.filterMap (definition? (kindFor cite))).map (·.1)

theorem fieldName_field {name : String} (word : isWord name = true) (value : String) :
    fieldName (field name value) = name := by
  have spelled : (field name value).toList.drop 2 =
      name.toList ++ ' ' :: ("= ".toList ++ (braced value).toList) := by
    simp [field]
  rw [fieldName, spelled, List.takeWhile_append_of_pos (List.all_eq_true.1 word),
    List.takeWhile_cons_of_neg (by decide), List.append_nil, String.ofList_toList]

theorem isWord_of_mem_ownNames {name : String} (mem : name ∈ ownNames) : isWord name = true :=
  List.all_eq_true.1 (by decide : ownNames.all isWord = true) name mem

theorem sublist_fieldName_field {name : String} (word : isWord name = true) (value : String) :
    ([field name value].map fieldName).Sublist [name] := by
  simp only [List.map_singleton, fieldName_field word, List.Sublist.refl]

namespace Draft

theorem fieldNames_ofParts (key kind : String) (isPatent : Bool) (parts : List Node) :
    (ofParts key kind isPatent parts).lines.map fieldName =
      (parts.filterMap (definition? kind)).map (·.1) := by
  rw [ofParts, List.map_map]
  refine List.map_congr_left fun line mem => ?_
  obtain ⟨part, -, defined⟩ := List.mem_filterMap.1 mem
  exact fieldName_field (isWord_of_mem_ownNames (mem_ownNames defined)) line.2

theorem fieldNames_patentLines (d : Draft) : (d.patentLines.map fieldName).Sublist ["title"] := by
  unfold patentLines
  split
  · exact List.nil_sublist _
  · exact sublist_fieldName_field (by decide) _

theorem fieldNames_pageLines (d : Draft) : (d.pageLines.map fieldName).Sublist ["pages"] := by
  unfold pageLines
  split
  · exact List.nil_sublist _
  · exact sublist_fieldName_field (by decide) _

theorem fieldNames_personLines {name : String} (word : isWord name = true)
    (persons : List String) : ((personLines name persons).map fieldName).Sublist [name] := by
  unfold personLines
  split
  · exact List.nil_sublist _
  · exact sublist_fieldName_field word _

end Draft

theorem mem_ownNames_of_definedNames {cite : Node} {name : String}
    (mem : name ∈ definedNames cite) : name ∈ ownNames := by
  obtain ⟨⟨_, value⟩, defined, rfl⟩ := List.mem_map.1 mem
  obtain ⟨part, -, defined⟩ := List.mem_filterMap.1 defined
  exact mem_ownNames defined

theorem titled_of_mem_definedNames {cite : Node} (mem : "title" ∈ definedNames cite)
    (key : String) : (draftOf cite key).hasTitle = true := by
  obtain ⟨defined, part, named⟩ := List.mem_map.1 mem
  rw [draftOf_eq, Draft.ofParts, List.any_eq_true]
  exact ⟨defined, part, by rw [named]; decide⟩

/-- The fields of an entry: those that parts define, and behind them at most one of each other. -/
theorem exists_fieldNames_eq (cite : Node) (key : String) :
    ∃ others, (draftOf cite key).fields.map fieldName = definedNames cite ++ others ∧
      others.Nodup ∧ ∀ name ∈ others, name ∉ definedNames cite := by
  obtain ⟨d, draft⟩ : ∃ d, d = draftOf cite key := ⟨_, rfl⟩
  let rest := d.pageLines ++ (Draft.personLines "author" d.authors ++
    Draft.personLines "editor" d.editors)
  have fields : d.fields = d.lines ++ (d.patentLines ++ rest) := by
    simp [Draft.fields, rest]
  have lines : d.lines.map fieldName = definedNames cite := by
    rw [draft, draftOf_eq, Draft.fieldNames_ofParts, definedNames]
  have later : (rest.map fieldName).Sublist ["pages", "author", "editor"] := by
    simp only [rest, List.map_append]
    exact d.fieldNames_pageLines.append
      ((Draft.fieldNames_personLines (by decide) _).append
        (Draft.fieldNames_personLines (by decide) _))
  refine ⟨d.patentLines.map fieldName ++ rest.map fieldName, ?_, ?_, fun name mem own => ?_⟩
  · rw [← draft, fields, List.map_append, List.map_append, lines]
  · exact (d.fieldNames_patentLines.append later).nodup (by decide)
  · rcases List.mem_append.1 mem with title | other
    · -- The title of a patent stands only if no part has defined one.
      rw [List.mem_singleton.1 (d.fieldNames_patentLines.subset title)] at own
      have none : d.patentLines = [] := by
        rw [Draft.patentLines, draft, titled_of_mem_definedNames own key]
        rfl
      rw [none] at title
      cases title
    · exact (by decide : ∀ name ∈ ["pages", "author", "editor"], name ∉ ownNames) name
        (later.subset other) (mem_ownNames_of_definedNames own)

/-- An entry defines no field twice exactly if no two parts of its citation define the same. A field
that is none of theirs stands in it at most once in any case. -/
theorem defines_once_iff {cite : Node} {key entry : String}
    (stated : (ofCitation cite key).entry = some entry) :
    entry = entryText (kindFor cite) key (draftOf cite key).fields ∧
    (((draftOf cite key).fields.map fieldName).Nodup ↔ (definedNames cite).Nodup) ∧
    ∀ name ∉ definedNames cite, ((draftOf cite key).fields.map fieldName).count name ≤ 1 := by
  rw [entry_ofCitation] at stated
  obtain ⟨-, same⟩ := Option.ite_none_left_eq_some.1 stated
  obtain ⟨others, names, once, apart⟩ := exists_fieldNames_eq cite key
  refine ⟨(Option.some.inj same).symm, ?_, fun name absent => ?_⟩
  · rw [names, List.nodup_append]
    exact ⟨And.left, fun nodup =>
      ⟨nodup, once, fun name mem other behind same => apart other behind (same ▸ mem)⟩⟩
  · rw [names, List.count_append, List.count_eq_zero.2 absent, Nat.zero_add]
    exact List.nodup_iff_count.1 once name

/-- Two years of one citation are two fields of its entry. -/
example :
    let year : Node := branch "year" [.text "2020"]
    let cite : Node := branch "mixed-citation" [year, year]
    definedNames cite = ["year", "year"] ∧ (ofCitation cite "r1").entry =
      some "@misc\x7br1,\n  year = \x7b2020\x7d,\n  year = \x7b2020\x7d\n\x7d" := by
  decide +kernel

end Manuscript.Reference.Bibtex
