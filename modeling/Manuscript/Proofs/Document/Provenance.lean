import Manuscript.Proofs.Citation.Conservation
import Manuscript.Proofs.Document.WellFormed
import Manuscript.Proofs.Reference.Completeness

/-!
Where the labels of a document come from. A citation that the registry does not know keeps its
label; every other one has a label that the registry gives, or that of an entry without citations
that stands in a range.
-/

set_option autoImplicit false

namespace Manuscript.Reference.Registry

/-- The labels of the citations that an identifier stands for. -/
def cites (r : Registry) (name : String) : List String :=
  ((r.lookup.find? name).getD []).filterMap Resolution.cite?

theorem mem_cites_iff {r : Registry} {name s : String} :
    s ∈ r.cites name ↔ .cite s ∈ (r.lookup.find? name).getD [] :=
  Myst.Citation.mem_filterMap_cite?_iff

def HasEntry (refs : List Node) (name : String) : Prop :=
  ∃ ref ∈ refs, ref.attrText? "id" = some name

/-- Whether an identifier can be cited by a text: a label that it stands for, or the identifier
itself if it is that of an entry that stands for no citation. -/
def StandsFor (r : Registry) (refs : List Node) (name s : String) : Prop :=
  s ∈ r.cites name ∨ s = name ∧ r.cites name = [] ∧ HasEntry refs name

theorem mem_of_mem_firstOccurrences {s : String} {texts : List String}
    (mem : s ∈ firstOccurrences texts) : s ∈ texts := by
  have grow : ∀ (rest out : List String), s ∈ rest.foldl
      (fun out s => if out.contains s then out else out ++ [s]) out → s ∈ out ∨ s ∈ rest := by
    intro rest
    induction rest with
    | nil => exact fun out mem => .inl mem
    | cons t rest ih =>
      intro out mem
      rcases ih _ mem with inside | later
      · simp only at inside
        split at inside
        · exact .inl inside
        · rcases List.mem_append.1 inside with inside | new
          · exact .inl inside
          · exact .inr (List.mem_singleton.1 new ▸ List.mem_cons_self)
      · exact .inr (List.mem_cons_of_mem _ later)
  exact (grow texts [] mem).resolve_left List.not_mem_nil

theorem standsFor_of_mem_order {r : Registry} {refs : List Node} {s : String}
    (mem : s ∈ r.order refs) : ∃ name, r.StandsFor refs name s := by
  obtain ⟨ref, place, mem⟩ := List.mem_flatMap.1 (mem_of_mem_firstOccurrences mem)
  unfold labels at mem
  split at mem
  · cases mem
  · next name identifier =>
    refine ⟨name, ?_⟩
    simp only at mem
    split at mem
    · next none =>
      exact .inr ⟨List.mem_singleton.1 mem, List.isEmpty_iff.1 none, ref, place, identifier⟩
    · exact .inl mem

end Manuscript.Reference.Registry

namespace Manuscript

open Node Myst Myst.Citation Reference

/-! ### What citing and cleaning keep -/

/-- Whether the label of a node satisfies `Q`, if the node is a citation with a label. -/
def Labelled (Q : String → Prop) (n : Node) : Prop :=
  isCite n = true → ∀ label ∈ n.attrText? "label", Q label

/-- Whether a text is read as a label. -/
def ReadAs (s label : String) : Prop := (Label.ofText? s).map (·.label) = some label

section
variable {Q : String → Prop}

theorem labelled_of_other {n : Node} (other : isCite n = false) : Labelled Q n :=
  fun cite => absurd (other.symm.trans cite) (by decide)

theorem lasting_labelled {order : List String}
    (ranged : ∀ l m s label, Q l → Q m → Spanned order l m s → ReadAs s label → Q label) :
    Lasting order (Labelled Q) := by
  constructor
  case children => exact fun _ here => here
  case stripped => exact fun here => here
  case retexted => exact fun _ _ _ here => here
  case marked =>
    intro n value here cite
    rw [attrText?_setKind]
    exact here cite
  case grouped => exact fun _ _ => labelled_of_other rfl
  case regrouped =>
    intro g h isOne kind _ _ _
    exact labelled_of_other (isCite_of_isGroup (beq_iff_eq.2 (kind.trans (kind_of_isGroup isOne))))
  case listed =>
    intro kind first last l m s cite label here cite' label' here' spanned _ name found
    rw [attrText?_citeOf] at found
    exact ranged l m s name (here cite l label) (here' cite' m label') spanned found

theorem labelled_removeWhere (removed : Node → Bool) {n : Node}
    (all : Everywhere (Labelled Q) n) : Everywhere (Labelled Q) (removeWhere removed n) := by
  refine everywhere_removeWhere (fun m all => ?_) all
  rw [removeWhere_eq]
  exact all.here

theorem labelled_clean {tree : Node} (all : Everywhere (Labelled Q) tree) :
    Everywhere (Labelled Q) (clean tree) := by
  refine everywhere_clean (fun _ here => here) (fun _ => labelled_of_other rfl)
    (fun n s text here => ?_) all
  exact here

/-! ### What resolving brings -/

theorem labelled_expansion {resolutions : List Resolution}
    (known : ∀ s, .cite s ∈ resolutions → ∀ label, ReadAs s label → Q label) :
    ∀ m ∈ expansion resolutions, Everywhere (Labelled Q) m := by
  refine everywhere_expansion (fun number _ => ?_) (fun _ => labelled_of_other rfl) ?_
  · apply labelled_of_other
    rw [isCite, is, kind_pointer]
    rfl
  · intro s mem _ label found
    rw [attrText?_setKind, attrText?_pointer] at found
    exact known s mem label found

theorem exists_find?_of_resolutions? {lookup : Lookup} {n : Node} {resolutions : List Resolution}
    (found : resolutions? lookup n = some resolutions) :
    ∃ name, lookup.find? name = some resolutions := by
  unfold resolutions? at found
  split at found
  · cases first : (n.attrText? "label").bind lookup.find? with
    | some others =>
      rw [first] at found
      cases found
      obtain ⟨label, _, entry⟩ := Option.bind_eq_some_iff.1 first
      exact ⟨label, entry⟩
    | none =>
      rw [first] at found
      obtain ⟨identifier, _, entry⟩ := Option.bind_eq_some_iff.1 found
      exact ⟨identifier, entry⟩
  · cases found

theorem labelled_resolveBelow {lookup : Lookup}
    (unknown : ∀ label, lookup.find? label = none → Q label)
    (known : ∀ name s, .cite s ∈ (lookup.find? name).getD [] → ∀ label, ReadAs s label → Q label)
    {n : Node} (kept : resolutions? lookup n = none) :
    Everywhere (Labelled Q) (resolveBelow lookup n) := by
  refine everywhere_resolveBelow (fun _ here => here) (fun c resolutions found => ?_) ?_ kept
  · obtain ⟨name, entry⟩ := exists_find?_of_resolutions? found
    refine labelled_expansion fun s inside => known name s ?_
    rw [entry]
    exact inside
  · intro m _ kept cite label found
    have isOne : m.is "cite" = true := cite
    have own : m.attrText? "label" = some label := found
    simp only [resolutions?, isOne, own, if_true, Option.bind_some] at kept
    cases entry : lookup.find? label with
    | none => exact unknown label entry
    | some resolutions =>
      rw [entry] at kept
      cases kept

end

/-! ### Documents -/

/-- Labels that are cited at first, and those that ranges between cited labels add. -/
inductive CitedFrom (order : List String) (given : String → Prop) : String → Prop
  | given {label : String} (cited : given label) : CitedFrom order given label
  | ranged {l m s label : String} (first : CitedFrom order given l) (last : CitedFrom order given m)
      (spanned : Spanned order l m s) (read : ReadAs s label) : CitedFrom order given label

namespace Conversion

/-- The document of an article with its citations resolved, but not grouped. -/
def resolved (options : Options) (a : Article) (registry : Registry) : Node :=
  resolveBelow registry.lookup (emit options.formulas (prepare a registry.footnoteGroup?)).1

def grouped (options : Options) (a : Article) (registry : Registry) : Node :=
  (groupCitations (registry.order a.references) (resolved options a registry)).1

/-- Whether a label is cited in the document before its citations are grouped. -/
def CitesAtFirst (options : Options) (a : Article) (registry : Registry) (label : String) : Prop :=
  label ∈ citedLabels (resolved options a registry)

end Conversion

open Conversion

section
variable {a : Article} {options : Options} {registry : Registry}

/-- Every citation of a resolved document has a label that the registry does not know or that an
identifier stands for. -/
theorem labelled_resolved : Everywhere (Labelled fun label => registry.lookup.find? label = none ∨
    ∃ name s, s ∈ registry.cites name ∧ ReadAs s label) (resolved options a registry) := by
  have root : resolutions? registry.lookup (emit options.formulas
      (prepare a registry.footnoteGroup?)).1 = none := by
    rw [emit_fst]
    rfl
  refine labelled_resolveBelow ?_ ?_ root
  · exact fun label none => .inl none
  · exact fun name s mem label read => .inr ⟨name, s, Registry.mem_cites_iff.2 mem, read⟩

/-- The citations of a document are those that it has before grouping and those of ranges. -/
theorem labelled_of_convert {c : Conversion}
    (registered : Registry.ofReferences options.sources a.references = .ok registry)
    (converted : a.convert options = .ok c) :
    Everywhere (Labelled (CitedFrom (registry.order a.references)
      (CitesAtFirst options a registry))) c.tree := by
  unfold Article.convert at converted
  rw [registered] at converted
  cases converted
  have first : Everywhere (Labelled (CitedFrom (registry.order a.references)
      (CitesAtFirst options a registry))) (resolved options a registry) :=
    fun n mem cite label found => .given (mem_citedLabels_iff.2 ⟨n, mem, cite, found⟩)
  have lasting := lasting_labelled (Q := CitedFrom (registry.order a.references)
    (CitesAtFirst options a registry)) fun _ _ _ _ first last spanned read =>
      .ranged first last spanned read
  -- Backwards through what is done to the rendered article.
  exact labelled_clean (labelled_removeWhere _ (labelled_removeWhere _
    (lasting.everywhere_groupCitations first)))

end

namespace Reference.Registry

/-- Whether the registry gives a citation by an identifier: it gives one by that name, or a text for
another one that is read as it, or another text. -/
def Gives (r : Registry) (label : String) : Prop :=
  label ∈ r.cites label ∨
    ∃ name s, (name ≠ label ∨ s ≠ label) ∧ s ∈ r.cites name ∧ ReadAs s label

theorem gives_of_mem_cites {r : Registry} {name s label : String} (mem : s ∈ r.cites name)
    (read : ReadAs s label) : r.Gives label := by
  by_cases same : name = label ∧ s = label
  · obtain ⟨rfl, rfl⟩ := same
    exact .inl mem
  · exact .inr ⟨name, s, Classical.not_and_iff_not_or_not.1 same, mem, read⟩

end Reference.Registry

section
variable {a : Article} {options : Options} {registry : Registry}

theorem gives_of_citesAtFirst {label : String}
    (registered : Registry.ofReferences options.sources a.references = .ok registry)
    (entry : Registry.HasEntry a.references label) (cited : CitesAtFirst options a registry label) :
    registry.Gives label := by
  obtain ⟨n, mem, cite, found⟩ := mem_citedLabels_iff.1 cited
  rcases labelled_resolved n mem cite label found with unknown | ⟨name, s, inside, read⟩
  · obtain ⟨ref, place, identifier⟩ := entry
    have known := Registry.isSome_find?_of_mem registered place identifier
    rw [unknown] at known
    cases known
  · exact Registry.gives_of_mem_cites inside read

/-- Before citations are grouped, an entry is cited by its identifier only as the registry gives it.
The same holds of the document, but for the entries without citations that a range runs over. -/
theorem cited_entry_stands (a : Article) (options : Options) {c : Conversion} {registry : Registry}
    (registered : Registry.ofReferences options.sources a.references = .ok registry)
    (converted : a.convert options = .ok c) {label : String}
    (entry : Registry.HasEntry a.references label) :
    (CitesAtFirst options a registry label → registry.Gives label) ∧
    ∀ n ∈ c.tree.nodes, isCite n = true → n.attrText? "label" = some label →
      registry.Gives label ∨ ¬CitesAtFirst options a registry label ∧
        ∃ l m s, CitedFrom (registry.order a.references) (CitesAtFirst options a registry) l ∧
          CitedFrom (registry.order a.references) (CitesAtFirst options a registry) m ∧
          Spanned (registry.order a.references) l m s ∧ ReadAs s label ∧
          Registry.HasEntry a.references s ∧ registry.cites s = [] := by
  have before := gives_of_citesAtFirst registered entry
  refine ⟨before, fun n mem cite found => ?_⟩
  by_cases first : CitesAtFirst options a registry label
  · exact .inl (before first)
  · cases labelled_of_convert registered converted n mem cite label found with
    | given cited => exact absurd cited first
    | @ranged l m s _ start stop spanned read =>
      obtain ⟨name, cited | ⟨rfl, none, raw⟩⟩ := Registry.standsFor_of_mem_order spanned.mem_order
      · exact .inl (Registry.gives_of_mem_cites cited read)
      · exact .inr ⟨first, l, m, s, start, stop, spanned, read, raw, none⟩

end

/-- Whether every citation by the identifier of an entry is one that the registry gives for it. -/
def CitesAsRegistered (a : Article) (registry : Registry) (c : Conversion) : Prop :=
  ∀ n ∈ c.tree.nodes, isCite n = true → ∀ label ∈ n.attrText? "label",
    Registry.HasEntry a.references label →
      .cite label ∈ (registry.lookup.find? label).getD []

instance (refs : List Node) (name : String) : Decidable (Registry.HasEntry refs name) :=
  inferInstanceAs (Decidable (∃ ref ∈ refs, ref.attrText? "id" = some name))

instance (a : Article) (registry : Registry) (c : Conversion) :
    Decidable (CitesAsRegistered a registry c) :=
  inferInstanceAs (Decidable (∀ n ∈ c.tree.nodes, isCite n = true →
    ∀ label ∈ n.attrText? "label", Registry.HasEntry a.references label →
      .cite label ∈ (registry.lookup.find? label).getD []))

def citationOf (rid text : String) : Node :=
  ((branch "xref" [.text text]).setAttr "ref-type" (.string "bibr")).setAttr "rid" (.string rid)

def identified (kind id : String) (kids : List Node) : Node :=
  (branch kind kids).setAttr "id" (.string id)

/-- An article that cites a range of three entries, the second of which is a note. -/
def notedRange : Article :=
  .ofTree (branch "article" [
    branch "body" [branch "p" [citationOf "r1" "1", .text "–", citationOf "r3" "3"]],
    branch "back" [branch "ref-list" [
      identified "ref" "r1" [branch "mixed-citation" [.text "A"]],
      identified "ref" "r2" [branch "note" [branch "p" [.text "N"]]],
      identified "ref" "r3" [branch "mixed-citation" [.text "B"]]]]])

/-- An article in which the citation of one entry has the identifier of another entry. -/
def sharedIdentifier : Article :=
  .ofTree (branch "article" [
    branch "body" [branch "p" [citationOf "r1" "1"]],
    branch "back" [branch "ref-list" [
      identified "ref" "r1" [identified "mixed-citation" "r2" [.text "A"]],
      identified "ref" "r2" [branch "mixed-citation" [.text "10.1000/b"]]]]])

/-- An article with an entry whose citation has the identifier of the entry with one more space. -/
def spacedIdentifier : Article :=
  .ofTree (branch "article" [
    branch "body" [branch "p" [citationOf "r 1" "1"]],
    branch "back" [branch "ref-list" [
      identified "ref" "r 1" [identified "mixed-citation" "r  1" [.text "A"]]]]])

theorem exists_ok {α β : Type} {result : Except α β} (fine : result.toOption.isSome = true) :
    ∃ value, result = .ok value := by
  cases result with
  | ok value => exact ⟨value, rfl⟩
  | error fault => cases fine

theorem cited_entry_stands_notedRange : ∃ registry c,
    Registry.ofReferences {} notedRange.references = .ok registry ∧
    notedRange.convert {} = .ok c ∧ Registry.HasEntry notedRange.references "r2" ∧
    (∃ n ∈ c.tree.nodes, isCite n = true ∧ n.attrText? "label" = some "r2") ∧
    (CitesAtFirst {} notedRange registry "r2" → registry.Gives "r2") ∧
    ∀ n ∈ c.tree.nodes, isCite n = true → n.attrText? "label" = some "r2" →
      registry.Gives "r2" ∨ ¬CitesAtFirst {} notedRange registry "r2" ∧
        ∃ l m s, CitedFrom (registry.order notedRange.references)
            (CitesAtFirst {} notedRange registry) l ∧
          CitedFrom (registry.order notedRange.references)
            (CitesAtFirst {} notedRange registry) m ∧
          Spanned (registry.order notedRange.references) l m s ∧ ReadAs s "r2" ∧
          Registry.HasEntry notedRange.references s ∧ registry.cites s = [] := by
  obtain ⟨registry, registered⟩ : ∃ registry,
      Registry.ofReferences {} notedRange.references = .ok registry :=
    exists_ok (by decide +kernel)
  obtain ⟨c, converted, cited⟩ : ∃ c, notedRange.convert {} = .ok c ∧
      ∃ n ∈ c.tree.nodes, isCite n = true ∧ n.attrText? "label" = some "r2" :=
    ⟨_, rfl, by decide +kernel⟩
  have entry : Registry.HasEntry notedRange.references "r2" := by decide +kernel
  exact ⟨registry, c, registered, converted, entry, cited,
    cited_entry_stands notedRange {} registered converted entry⟩

/-- Whether the document of an article cites an entry other than as the registry has it. -/
def Miscites (a : Article) : Prop :=
  ∃ registry c, Registry.ofReferences {} a.references = .ok registry ∧ a.convert {} = .ok c ∧
    ¬CitesAsRegistered a registry c

/-- A range cites an entry that is a note; a citation may have the identifier of an entry that
stands for another one; and an identifier may be read as another text. -/
theorem not_citesAsRegistered :
    Miscites notedRange ∧ Miscites sharedIdentifier ∧ Miscites spacedIdentifier := by
  refine ⟨?_, ?_, ?_⟩
  all_goals
    refine ⟨_, _, rfl, rfl, ?_⟩
    decide +kernel

end Manuscript
