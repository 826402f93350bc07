import Manuscript.Myst.Citation.Resolution
import Manuscript.Proofs.Tree.Passage

/-!
What resolving puts in the place of a citation: references to footnotes, and one group that cites
all labels. Everything else stays where it is.
-/

set_option autoImplicit false

namespace Manuscript.Myst.Citation

open Manuscript.Node Manuscript.Reference

/-! ### Pointers -/

theorem kind_pointer (kind label : String) : (pointer kind label).kind = kind := by
  unfold pointer
  split <;> rfl

theorem children_pointer (kind label : String) : (pointer kind label).children = none := by
  unfold pointer
  split <;> rfl

theorem attrText?_pointer (kind s : String) :
    (pointer kind s).attrText? "label" = (Label.ofText? s).map (·.label) := by
  unfold pointer
  cases Label.ofText? s <;>
    simp [attrText?, attr?, leaf, setAttr, Dict.find?_insert, Json.asString?]

/-! ### Expansions -/

def citing (labels : List String) : Node :=
  parenthetical (.branch "citeGroup" (labels.map (pointer "cite")))

theorem kids_citing (labels : List String) : (citing labels).kids =
    labels.map fun s => (pointer "cite" s).setAttr "kind" (.string "parenthetical") := by
  show List.map _ (List.map _ _) = _
  rw [List.map_map]
  rfl

theorem mem_expansion_iff {resolutions : List Resolution} {m : Node} : m ∈ expansion resolutions ↔
    (∃ number, .footnote number ∈ resolutions ∧ m = pointer "footnoteReference" number) ∨
      resolutions.filterMap Resolution.cite? ≠ [] ∧
        m = citing (resolutions.filterMap Resolution.cite?) := by
  rw [expansion, List.mem_append, List.mem_filterMap]
  apply or_congr
  · constructor
    · rintro ⟨resolution, mem, found⟩
      cases resolution with
      | cite label => cases found
      | footnote number => exact ⟨number, mem, (Option.some.inj found).symm⟩
    · rintro ⟨number, mem, rfl⟩
      exact ⟨.footnote number, mem, rfl⟩
  · cases resolutions.filterMap Resolution.cite? <;> simp [citing]

theorem mem_filterMap_cite?_iff {resolutions : List Resolution} {s : String} :
    s ∈ resolutions.filterMap Resolution.cite? ↔ .cite s ∈ resolutions := by
  rw [List.mem_filterMap]
  constructor
  · rintro ⟨resolution, mem, same⟩
    cases resolution with
    | cite label => cases same; exact mem
    | footnote number => cases same
  · exact fun mem => ⟨_, mem, rfl⟩

theorem everywhere_expansion {p : Node → Prop} {resolutions : List Resolution}
    (note : ∀ number, .footnote number ∈ resolutions → p (pointer "footnoteReference" number))
    (group : ∀ labels, p (citing labels))
    (cite : ∀ s, .cite s ∈ resolutions →
      p ((pointer "cite" s).setAttr "kind" (.string "parenthetical"))) :
    ∀ m ∈ expansion resolutions, Everywhere p m := by
  have leaf {kind s : String} {m : Node} (same : m.children = (pointer kind s).children)
      (here : p m) : Everywhere p m := by
    rw [everywhere_iff, kids, same, children_pointer]
    exact ⟨here, List.forall_mem_nil _⟩
  intro m mem
  rcases mem_expansion_iff.1 mem with ⟨number, inside, rfl⟩ | ⟨-, rfl⟩
  · exact leaf rfl (note number inside)
  · rw [everywhere_iff, kids_citing]
    refine ⟨group _, List.forall_mem_map.2 fun s inside => ?_⟩
    exact leaf rfl (cite s (mem_filterMap_cite?_iff.1 inside))

/-! ### Trees -/

theorem resolveForest_eq (lookup : Lookup) (ns : List Node) :
    resolveForest lookup ns = ns.flatMap fun n =>
      match resolutions? lookup n with
      | some resolutions => expansion resolutions
      | none => [resolveBelow lookup n] := by
  induction ns with
  | nil => rfl
  | cons n ns ih =>
    rw [List.flatMap_cons, ← ih, resolveForest, resolveAll]
    cases resolutions? lookup n <;> rfl

theorem resolveBelow_eq (lookup : Lookup) (n : Node) :
    resolveBelow lookup n = n.mapChildren (resolveForest lookup) := by
  obtain ⟨k, children, v, a⟩ := n
  cases children <;> rfl

theorem isCite_of_resolutions? {lookup : Lookup} {n : Node} {resolutions : List Resolution}
    (found : resolutions? lookup n = some resolutions) : isCite n = true := by
  unfold resolutions? at found
  split at found
  · assumption
  · cases found

theorem resolutions?_of_label {lookup : Lookup} {n : Node} {name : String}
    {resolutions : List Resolution} (cite : isCite n = true)
    (label : n.attrText? "label" = some name) (found : lookup.find? name = some resolutions) :
    resolutions? lookup n = some resolutions := by
  have isOne : n.is "cite" = true := cite
  rw [resolutions?, if_pos isOne, label, Option.bind_some, found]
  rfl

section
variable {lookup : Lookup} {p : Node → Prop}

/-- A property that hangs on nothing below a node holds of all that is left by resolving if it holds
of what comes in and of what stays. -/
theorem everywhere_resolveBelow (free : KidsFree p)
    (replaced : ∀ c resolutions, resolutions? lookup c = some resolutions →
      ∀ m ∈ expansion resolutions, Everywhere p m) {n : Node}
    (all : Everywhere (fun m => resolutions? lookup m = none → p m) n)
    (kept : resolutions? lookup n = none) : Everywhere p (resolveBelow lookup n) := by
  induction n using induction_on_kids with
  | node n ih =>
    rw [resolveBelow_eq, everywhere_iff, kids_mapChildren rfl, resolveForest_eq]
    refine ⟨free.mapChildren _ (all.here kept), fun m mem => ?_⟩
    obtain ⟨c, child, mem⟩ := List.mem_flatMap.1 mem
    split at mem
    · next resolutions found => exact replaced c resolutions found m mem
    · next other =>
      rw [List.mem_singleton.1 mem]
      exact ih c child (all.below c child) other

end

end Manuscript.Myst.Citation
