import Manuscript.Body.BackMatter
import Manuscript.Proofs.Document.Assembly
import Manuscript.Proofs.Emission.Texts
import Manuscript.Proofs.Tree.Removal
import Mathlib.Data.List.Perm.Basic

/-!
Floating supplements at the end of a body. All of them come there, in their order and behind one
separator, and what else the body has keeps its own. They are moved and not copied but for those
that stand in other floats: these go along with the floats around them as well.
-/

set_option autoImplicit false

namespace Manuscript.Node

mutual
theorem values_eq : (n : Node) → n.values = n.nodes.filterMap (·.value)
  | ⟨k, none, v, a⟩ => by cases v <;> rfl
  | ⟨k, some cs, v, a⟩ => by
    rw [values, forestValues_eq cs, nodes, descendants]
    cases v <;> rfl

theorem forestValues_eq : (ns : List Node) → forestValues ns = (forestNodes ns).filterMap (·.value)
  | [] => rfl
  | n :: ns => by
    rw [forestValues, values_eq n, forestValues_eq ns, ← List.filterMap_append, nodes,
      List.cons_append, forestNodes]
end

theorem values_eq_append (n : Node) : n.values = n.value.toList ++ forestValues n.kids := by
  obtain ⟨k, children, v, a⟩ := n
  cases children with
  | none => exact (List.append_nil _).symm
  | some cs => rfl

theorem forestValues_append (xs ys : List Node) :
    forestValues (xs ++ ys) = forestValues xs ++ forestValues ys := by
  simp only [forestValues_eq, forestNodes_append, List.filterMap_append]

theorem forestValues_eq_flatMap (ns : List Node) : forestValues ns = ns.flatMap values := by
  induction ns with
  | nil => rfl
  | cons n ns ih => rw [forestValues, ih, List.flatMap_cons]

theorem perm_forestValues (p : Node → Bool) (ns : List Node) : (forestValues ns).Perm
    (forestValues (removeFrom p ns) ++ (outermostIn p ns).flatMap values) := by
  have left : (sparedIn p ns).filterMap (·.value) = forestValues (removeFrom p ns) := by
    rw [forestValues_eq, forestNodes_removeFrom, List.filterMap_map]
    simp only [Function.comp_def, value_removeWhere]
  have gone : ((outermostIn p ns).flatMap nodes).filterMap (·.value) =
      (outermostIn p ns).flatMap values := by
    rw [List.filterMap_flatMap]
    exact congrArg (List.flatMap · _) (funext fun n => (values_eq n).symm)
  rw [forestValues_eq, ← left, ← gone, ← List.filterMap_append]
  exact (perm_forestNodes p ns).filterMap _

end Manuscript.Node

namespace Manuscript.Body

open Manuscript.Node

/-! ### Floats in floats -/

/-- The floats of a body that stand in another one. -/
def nestedFloats (body : Node) : List Node := (outermost isFloat body).flatMap (findAll isFloat)

theorem isFloat_removeWhere (p : Node → Bool) (n : Node) :
    isFloat (removeWhere p n) = isFloat n := by
  obtain ⟨k, children, v, a⟩ := n
  cases children <;> rfl

theorem isFloat_eraseAttr (n : Node) : isFloat (n.eraseAttr "position") = false := by
  simp [isFloat, eraseAttr, attrText?, attr?, Dict.find?_erase]

theorem floats_isEmpty_iff {body : Node} :
    (floats body).isEmpty = true ↔ ∀ m ∈ body.descendants, isFloat m = false := by
  simp [floats, findAll, List.filter_eq_nil_iff]

/-- The floats come behind a separator, behind all that is left of the body. -/
theorem kids_moveFloats (body : Node) : (moveFloats body).kids = removeFrom isFloat body.kids ++
    if (floats body).isEmpty then [] else separator :: floats body := by
  unfold moveFloats
  split
  · next none =>
    rw [floats_isEmpty_iff, descendants_eq] at none
    rw [removeFrom_eq_self none, List.append_nil]
  · next some =>
    rw [Conversion.kids_appendBehindSeparator, if_neg some, kids_removeWhere, removeFrom_eq_map]

theorem value_moveFloats (body : Node) : (moveFloats body).value = body.value := by
  unfold moveFloats appendBehindSeparator
  split
  · rfl
  · exact value_removeWhere isFloat body

theorem findAll_eraseAttr (n : Node) (name : String) (p : Node → Bool) :
    (n.eraseAttr name).findAll p = n.findAll p := by
  rw [findAll, findAll, descendants_eq, descendants_eq]
  rfl

/-- What is still marked as floating are the floats in each of the floats. -/
theorem findAll_isFloat_moveFloats (body : Node) :
    (moveFloats body).findAll isFloat = (body.findAll isFloat).flatMap (findAll isFloat) := by
  have left : (forestNodes (removeFrom isFloat body.kids)).filter isFloat = [] := by
    rw [forestNodes_removeFrom, List.filter_eq_nil_iff]
    refine List.forall_mem_map.2 fun m mem => ?_
    rw [isFloat_removeWhere, not_removed_of_mem_sparedIn mem]
    exact Bool.false_ne_true
  have moved (ns : List Node) : (forestNodes (ns.map (·.eraseAttr "position"))).filter isFloat =
      ns.flatMap (findAll isFloat) := by
    induction ns with
    | nil => rfl
    | cons n ns ih =>
      rw [List.map_cons, forestNodes, List.filter_cons_of_neg (by simp [isFloat_eraseAttr]),
        List.filter_append, ih, List.flatMap_cons]
      exact congrArg (· ++ _) (findAll_eraseAttr n _ isFloat)
  -- The separator is no float, and without floats there is none to look into.
  rw [findAll, descendants_eq, kids_moveFloats, forestNodes_append, List.filter_append, left,
    List.nil_append, ← moved]
  split
  · next none =>
    rw [List.isEmpty_iff] at none
    rw [← floats, none]
  · rfl

theorem values_eraseAttr (n : Node) (name : String) : (n.eraseAttr name).values = n.values := by
  rw [values_eq_append, values_eq_append n]
  rfl

theorem forestValues_floats (body : Node) :
    (forestValues (floats body)).Perm
      ((outermost isFloat body).flatMap values ++ (nestedFloats body).flatMap values) := by
  have same : forestValues (floats body) = (body.findAll isFloat).flatMap values := by
    rw [forestValues_eq_flatMap, floats, List.flatMap_map]
    exact congrArg (List.flatMap · _) (funext fun n => values_eraseAttr n _)
  rw [same, findAll_eq_flatMap, List.flatMap_assoc, nestedFloats, List.flatMap_assoc]
  exact (List.flatMap_append_perm _ _ _).symm

/-- A body has its texts once with its floats at the end, and those of the floats in other floats
once more for each float around them. -/
theorem perm_values_moveFloats (body : Node) :
    (moveFloats body).values.Perm (body.values ++ (nestedFloats body).flatMap values) := by
  have split : (moveFloats body).values =
      body.value.toList ++ forestValues (removeFrom isFloat body.kids) ++
        forestValues (floats body) := by
    rw [values_eq_append, value_moveFloats, kids_moveFloats, forestValues_append,
      List.append_assoc]
    split
    · next none => rw [List.isEmpty_iff.1 none]
    · rfl
  have body' := perm_forestValues isFloat body.kids
  rw [← outermost_eq] at body'
  calc (moveFloats body).values
    _ = body.value.toList ++ forestValues (removeFrom isFloat body.kids) ++
        forestValues (floats body) := split
    List.Perm _ (body.value.toList ++ forestValues (removeFrom isFloat body.kids) ++
        ((outermost isFloat body).flatMap values ++ (nestedFloats body).flatMap values)) :=
      (forestValues_floats body).append_left _
    _ = body.value.toList ++ (forestValues (removeFrom isFloat body.kids) ++
        (outermost isFloat body).flatMap values) ++ (nestedFloats body).flatMap values := by
      simp only [List.append_assoc]
    List.Perm _ (body.value.toList ++ forestValues body.kids ++
        (nestedFloats body).flatMap values) :=
      (body'.symm.append_left _).append_right _
    _ = body.values ++ (nestedFloats body).flatMap values := by rw [values_eq_append]

/-! ### Moved, not copied -/

/-- All floats of a body come to its end, in their order and behind one separator, and the rest of
it keeps its own. None is left to move, and no text comes twice, exactly if no float that has texts,
or for the former no float at all, stands in another one. -/
theorem moveFloats_accounts (body : Node) :
    (floats body).length = body.count isFloat ∧
    ((moveFloats body).kids = removeFrom isFloat body.kids ++
      if (floats body).isEmpty then [] else separator :: floats body) ∧
    (forestNodes (removeFrom isFloat body.kids) =
      (spared isFloat body).map (removeWhere isFloat) ∧
      (spared isFloat body).Sublist body.descendants) ∧
    ((moveFloats body).findAll isFloat = [] ↔ nestedFloats body = []) ∧
    ((moveFloats body).values.Perm body.values ↔ (nestedFloats body).flatMap values = []) := by
  refine ⟨List.length_map _, kids_moveFloats body, ⟨?_, spared_sublist isFloat body⟩, ?_, ?_⟩
  · rw [forestNodes_removeFrom, spared_eq]
  · rw [findAll_isFloat_moveFloats, nestedFloats, List.flatMap_eq_nil_iff, List.flatMap_eq_nil_iff]
    constructor
    · exact fun none m mem => none m (List.mem_filter.2 (of_mem_outermost mem).symm)
    · intro none m mem
      rw [findAll_eq_flatMap] at mem
      obtain ⟨outer, place, mem⟩ := List.mem_flatMap.1 mem
      rw [none outer place, List.mem_singleton] at mem
      exact mem ▸ none outer place
  · have moved := perm_values_moveFloats body
    constructor
    · intro same
      have lengths := moved.length_eq.symm.trans same.length_eq
      rw [List.length_append] at lengths
      exact List.eq_nil_of_length_eq_zero (by omega)
    · intro none
      rwa [none, List.append_nil] at moved

/-- A float in a float. -/
def nestedBody : Node :=
  .branch "body" [
    .branch "supplementary-material" [.text "A", .branch "supplementary-material" [.text "B"]
      (Dict.empty.insert "position" (.string "float"))]
      (Dict.empty.insert "position" (.string "float"))]

example : (nestedFloats nestedBody).flatMap values = ["B"] ∧
    (moveFloats nestedBody).values = ["A", "B", "B"] := by decide

end Manuscript.Body
