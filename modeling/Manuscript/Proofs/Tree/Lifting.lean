import Manuscript.Proofs.Tree.Everywhere

/-!
Lifting nodes out of a tree. What is left are the nodes that are not lifted, in document order, each
with its children lifted in turn; where nothing is to be lifted, nothing changes.
-/

set_option autoImplicit false

namespace Manuscript.Node

section
variable {lifted : Node → Bool}

/-! ### Nothing to lift -/

theorem liftFrom_eq_self_of {ns : List Node} (same : ∀ n ∈ ns, liftNode lifted n = [n]) :
    liftFrom lifted ns = ns := by
  induction ns with
  | nil => rfl
  | cons n ns ih =>
    obtain ⟨first, rest⟩ := List.forall_mem_cons.1 same
    rw [liftFrom, first, ih rest, List.singleton_append]

theorem liftNode_eq_self {n : Node} (none : Everywhere (fun m => lifted m = false) n) :
    liftNode lifted n = [n] := by
  induction n using induction_on_kids with
  | node n ih =>
    have below : liftFrom lifted n.kids = n.kids :=
      liftFrom_eq_self_of fun c child => ih c child (none.below c child)
    rw [liftNode_eq, none.here, if_neg Bool.false_ne_true]
    obtain ⟨k, children, v, a⟩ := n
    cases children with
    | none => rfl
    | some cs => exact congrArg (fun cs => [Node.mk k (some cs) v a]) below

theorem liftFrom_eq_self {ns : List Node}
    (none : ∀ n ∈ ns, Everywhere (fun m => lifted m = false) n) : liftFrom lifted ns = ns :=
  liftFrom_eq_self_of fun n mem => liftNode_eq_self (none n mem)

/-- Lifting leaves nothing to lift, if what is lifted does not hang on children. -/
theorem not_lifted_of_mem_liftFrom (lifted : Node → Bool)
    (free : ∀ n cs, lifted (Node.withKids n cs) = lifted n) (ns : List Node) :
    ∀ m ∈ liftFrom lifted ns, Everywhere (fun m => lifted m = false) m := by
  have kidsFree : KidsFree fun m => lifted m = false := fun cs here => (free _ cs).trans here
  have stays (n : Node) (here : lifted n = false) :
      lifted (n.mapChildren (liftFrom lifted)) = false := kidsFree.mapChildren _ here
  exact everywhere_liftFrom stays fun _ _ _ _ kept => kept

/-! ### What is left -/

theorem forestNodes_singleton (n : Node) : forestNodes [n] = n :: forestNodes n.kids := by
  rw [forestNodes, forestNodes, List.append_nil, descendants_eq]

theorem forestNodes_cons (n : Node) (ns : List Node) :
    forestNodes (n :: ns) = forestNodes [n] ++ forestNodes ns :=
  forestNodes_append [n] ns

/-- The nodes that are not lifted, each with what is left of its children. -/
def remaining (lifted : Node → Bool) (ns : List Node) : List Node :=
  (ns.filter (!lifted ·)).map (mapChildren (liftFrom lifted))

theorem forestNodes_liftFrom_of {ns : List Node}
    (each : ∀ n ∈ ns, forestNodes (liftNode lifted n) = remaining lifted (forestNodes [n])) :
    forestNodes (liftFrom lifted ns) = remaining lifted (forestNodes ns) := by
  induction ns with
  | nil => rfl
  | cons n ns ih =>
    obtain ⟨first, rest⟩ := List.forall_mem_cons.1 each
    rw [liftFrom, forestNodes_append, first, ih rest, forestNodes_cons n ns, remaining, remaining,
      remaining, List.filter_append, List.map_append]

theorem forestNodes_liftNode (lifted : Node → Bool) (n : Node) :
    forestNodes (liftNode lifted n) = remaining lifted (forestNodes [n]) := by
  induction n using induction_on_kids with
  | node n ih =>
    have below := forestNodes_liftFrom_of ih
    rw [liftNode_eq, forestNodes_singleton, remaining]
    cases here : lifted n with
    | true => simpa [here, remaining] using below
    | false =>
      rw [if_neg Bool.false_ne_true, forestNodes_singleton, kids_mapChildren rfl, below]
      simp [here, remaining]

/-- Lifting takes the nodes that it lifts out of the document order, and no others. -/
theorem forestNodes_liftFrom (lifted : Node → Bool) (ns : List Node) :
    forestNodes (liftFrom lifted ns) = remaining lifted (forestNodes ns) :=
  forestNodes_liftFrom_of fun n _ => forestNodes_liftNode lifted n

end

end Manuscript.Node
