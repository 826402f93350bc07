import Manuscript.Proofs.Tree.Lifting
import Manuscript.Proofs.Tree.Removal

/-!
What a rewriting does, described by recursion on the forest that is visited. The rewriting itself
works off a queue into which the children of lifted nodes are put back; the description has no
queue, it visits these children before it goes on with the siblings. The calls of the visit are part
of the description, and the rewriting makes just these calls: a visit that notes down its calls
finds them in its state.
-/

set_option autoImplicit false

namespace Manuscript.Node

/-! ### The description -/

namespace Verdict
variable {n : Node}

/-- The node in the form in which it stays, if it stays. -/
def kept? : Verdict n → Option Node
  | .keep kept _ => some kept
  | .remove | .lift _ _ => none

def gone : Verdict n → List Node
  | .remove => n.descendants
  | .keep _ _ | .lift _ _ => []

/-- Whether the visit has left the children of the node alone. A removed node has none left. -/
def KeepsKids : Verdict n → Prop
  | .keep kept _ => kept.kids = n.kids
  | .lift lifted _ => lifted.kids = n.kids
  | .remove => True

end Verdict

/-- A call of a visit: the node that it is called on and what becomes of the node. -/
structure Call where
  node : Node
  verdict : Verdict node

/-- Whether the node of a call is removed or lifted. -/
def Call.alters (c : Call) : Bool := c.verdict.kept?.isNone

section
variable {σ : Type} {visit : σ → (n : Node) → Verdict n × σ} {s t : σ} {n : Node}
  {ns below : List Node} {calls : List Call}

/-- What is left of a forest that is visited in a state, with the calls of the visit and the state
after them. The children of a node that stays are visited before its siblings, and so are those of
a node that is lifted; what is left of these takes the place of the node. -/
inductive Visits (visit : σ → (n : Node) → Verdict n × σ) :
    σ → List Node → List Node → List Call → σ → Prop where
  | nil {s : σ} : Visits visit s [] [] [] s
  | keep {s t u v : σ} {n kept : Node} {ns below out : List Node} {calls more : List Call}
      {small : kept.size ≤ n.size} (here : visit s n = (.keep kept small, t))
      (inner : Visits visit t kept.kids below calls u) (rest : Visits visit u ns out more v) :
      Visits visit s (n :: ns) (kept.mapChildren (fun _ => below) :: out)
        (⟨n, .keep kept small⟩ :: (calls ++ more)) v
  | remove {s t u : σ} {n : Node} {ns out : List Node} {more : List Call}
      (here : visit s n = (.remove, t)) (rest : Visits visit t ns out more u) :
      Visits visit s (n :: ns) out (⟨n, .remove⟩ :: more) u
  | lift {s t u v : σ} {n lifted : Node} {ns below out : List Node} {calls more : List Call}
      {small : lifted.size ≤ n.size} (here : visit s n = (.lift lifted small, t))
      (inner : Visits visit t lifted.kids below calls u) (rest : Visits visit u ns out more v) :
      Visits visit s (n :: ns) (below ++ out) (⟨n, .lift lifted small⟩ :: (calls ++ more)) v

/-- The visit that also notes down its calls. -/
def recorded (visit : σ → (n : Node) → Verdict n × σ) (s : σ × List Call) (n : Node) :
    Verdict n × (σ × List Call) :=
  ((visit s.1 n).1, (visit s.1 n).2, s.2 ++ [⟨n, (visit s.1 n).1⟩])

/-! ### The queue -/

theorem rewriteQueue_keep {kept : Node} {small : kept.size ≤ n.size}
    (here : visit s n = (.keep kept small, t)) (ns : List Node) :
    rewriteQueue visit s (n :: ns) =
      let inner := rewriteQueue visit t kept.kids
      let outer := rewriteQueue visit inner.state ns
      ⟨kept.mapChildren (fun _ => inner.forest) :: outer.forest, inner.changed || outer.changed,
        outer.state⟩ := by
  rw [rewriteQueue, here]
  rfl

theorem rewriteQueue_remove (here : visit s n = (.remove, t)) (ns : List Node) :
    rewriteQueue visit s (n :: ns) =
      { rewriteQueue visit t ns with changed := true } := by
  rw [rewriteQueue, here]

theorem rewriteQueue_lift {lifted : Node} {small : lifted.size ≤ n.size}
    (here : visit s n = (.lift lifted small, t)) (ns : List Node) :
    rewriteQueue visit s (n :: ns) =
      { rewriteQueue visit t (lifted.kids ++ ns) with changed := true } := by
  rw [rewriteQueue, here]

theorem rewriteQueue_append (visit : σ → (n : Node) → Verdict n × σ) (s : σ) (ms ns : List Node) :
    rewriteQueue visit s (ms ++ ns) =
      let first := rewriteQueue visit s ms
      let rest := rewriteQueue visit first.state ns
      ⟨first.forest ++ rest.forest, first.changed || rest.changed, rest.state⟩ := by
  induction s, ms using rewriteQueue.induct visit with
  | case1 s => simp [rewriteQueue]
  | case2 s n ms kept small t here inner inner_ih outer_ih =>
    simp only [inner] at outer_ih
    simp only [List.cons_append, rewriteQueue_keep here, outer_ih, Bool.or_assoc]
  | case3 s n ms t here ih =>
    simp only [List.cons_append, rewriteQueue_remove here, ih, Bool.true_or]
  | case4 s n ms lifted small t here ih =>
    -- The children go in front of the first part, which is followed by the second as before.
    rw [List.append_assoc] at ih
    simp only [List.cons_append, rewriteQueue_lift here, ih, Bool.true_or]

namespace Visits

/-- The queue leaves what the description says. -/
theorem rewriteQueue_eq (run : Visits visit s ns below calls t) :
    rewriteQueue visit s ns = ⟨below, calls.any Call.alters, t⟩ := by
  induction run with
  | nil => rw [rewriteQueue]; rfl
  | keep here _ _ inner_ih rest_ih =>
    simp [rewriteQueue_keep here, inner_ih, rest_ih, Call.alters, Verdict.kept?]
  | remove here _ ih =>
    simp [rewriteQueue_remove here, ih, Call.alters, Verdict.kept?]
  | lift here _ _ inner_ih rest_ih =>
    simp [rewriteQueue_lift here, rewriteQueue_append, inner_ih, rest_ih, Call.alters,
      Verdict.kept?]

theorem noted (run : Visits visit s ns below calls t) (log : List Call) :
    Visits (recorded visit) (s, log) ns below calls (t, log ++ calls) := by
  have note {s t : σ} {n : Node} {verdict : Verdict n} (here : visit s n = (verdict, t))
      (log : List Call) : recorded visit (s, log) n = (verdict, (t, log ++ [⟨n, verdict⟩])) := by
    rw [recorded, here]
  induction run generalizing log with
  | nil => simpa using Visits.nil
  | keep here _ _ inner_ih rest_ih =>
    simpa using Visits.keep (note here log) (inner_ih _) (rest_ih _)
  | remove here _ ih => simpa using Visits.remove (note here log) (ih _)
  | lift here _ _ inner_ih rest_ih =>
    simpa using Visits.lift (note here log) (inner_ih _) (rest_ih _)

/-- The description determines what it describes. -/
theorem unique {below' : List Node} {calls' : List Call} {t' : σ}
    (one : Visits visit s ns below calls t) (other : Visits visit s ns below' calls' t') :
    below' = below ∧ calls' = calls ∧ t' = t := by
  -- The queue has one result, and with the notes the calls are part of it.
  have same := (other.noted []).rewriteQueue_eq.symm.trans (one.noted []).rewriteQueue_eq
  simp only [Rewritten.mk.injEq, Prod.mk.injEq, List.nil_append] at same
  exact ⟨same.1, same.2.2.2, same.2.2.1⟩

theorem length_le (run : Visits visit s ns below calls t) : calls.length ≤ forestSize ns := by
  induction run with
  | nil => exact Nat.le_refl 0
  | @keep _ _ _ _ n kept _ _ _ _ _ small _ _ _ inner_ih rest_ih =>
    have := size_eq kept
    simp only [forestSize, List.length_cons, List.length_append]
    omega
  | @remove _ _ _ n _ _ _ _ _ ih =>
    have := size_pos n
    simp only [forestSize, List.length_cons]
    omega
  | @lift _ _ _ _ n lifted _ _ _ _ _ small _ _ _ inner_ih rest_ih =>
    have := size_eq lifted
    simp only [forestSize, List.length_cons, List.length_append]
    omega

/-- A node that stays has what is left of its children as its children, also if it is a leaf. -/
theorem kids_mapChildren {kept : Node} (inner : Visits visit s kept.kids below calls t) :
    (kept.mapChildren fun _ => below).kids = below := by
  obtain ⟨k, children, v, a⟩ := kept
  cases children with
  | none => cases inner; rfl
  | some cs => rfl

/-- The nodes that are left are those that stay, in the order of the calls. -/
theorem forestNodes_map (run : Visits visit s ns below calls t) :
    (forestNodes below).map (mapChildren fun _ => []) =
      (calls.filterMap (·.verdict.kept?)).map (mapChildren fun _ => []) := by
  induction run with
  | nil => rfl
  | @keep _ _ _ _ _ kept _ _ _ _ _ _ _ inner _ inner_ih rest_ih =>
    have bare (below : List Node) :
        (kept.mapChildren fun _ => below).mapChildren (fun _ => []) =
          kept.mapChildren fun _ => [] := by
      simp [mapChildren, Function.comp_def]
    rw [forestNodes, descendants_eq, inner.kids_mapChildren]
    simp [inner_ih, rest_ih, bare, Verdict.kept?]
  | remove _ _ ih => simpa [Verdict.kept?] using ih
  | lift _ _ _ inner_ih rest_ih => simp [forestNodes_append, inner_ih, rest_ih, Verdict.kept?]

/-- Where the children of nodes are left alone, the calls and what goes together with removed nodes
make up the document order. -/
theorem forestNodes_eq (alone : ∀ s n, (visit s n).1.KeepsKids)
    (run : Visits visit s ns below calls t) :
    forestNodes ns = calls.flatMap fun c => c.node :: c.verdict.gone := by
  have kids {s t : σ} {n : Node} {verdict : Verdict n} (here : visit s n = (verdict, t)) :
      verdict.KeepsKids := by
    have kept := alone s n
    rwa [here] at kept
  induction run with
  | nil => rfl
  | keep here _ _ inner_ih rest_ih =>
    rw [forestNodes, descendants_eq, ← show _ = _ from kids here, inner_ih, rest_ih]
    simp [Verdict.gone]
  | remove _ _ ih => simp [forestNodes, ih, Verdict.gone]
  | lift here _ _ inner_ih rest_ih =>
    rw [forestNodes, descendants_eq, ← show _ = _ from kids here, inner_ih, rest_ih]
    simp [Verdict.gone]

theorem rewrite_eq {root : Node} (run : Visits visit s root.kids below calls t) :
    rewrite visit s root = (root.mapChildren fun _ => below, calls.any Call.alters, t) := by
  obtain ⟨k, children, v, a⟩ := root
  cases children with
  | none => cases run; rfl
  | some cs =>
    have left : rewriteQueue visit s cs = _ := run.rewriteQueue_eq
    simp only [rewrite, left]
    rfl

end Visits

/-- Every forest can be visited. What is still to be visited gets smaller with every call, as no
verdict makes a node larger. -/
theorem exists_visits (visit : σ → (n : Node) → Verdict n × σ) (s : σ) (ns : List Node) :
    ∃ below calls t, Visits visit s ns below calls t := by
  cases ns with
  | nil => exact ⟨[], [], s, .nil⟩
  | cons n ns =>
    have first := size_pos n
    rcases here : visit s n with ⟨verdict, t⟩
    cases verdict with
    | keep kept small =>
      have := size_eq kept
      obtain ⟨below, calls, u, inner⟩ := exists_visits visit t kept.kids
      obtain ⟨out, more, v, rest⟩ := exists_visits visit u ns
      exact ⟨_, _, _, .keep here inner rest⟩
    | remove =>
      obtain ⟨out, more, u, rest⟩ := exists_visits visit t ns
      exact ⟨_, _, _, .remove here rest⟩
    | lift lifted small =>
      have := size_eq lifted
      obtain ⟨below, calls, u, inner⟩ := exists_visits visit t lifted.kids
      obtain ⟨out, more, v, rest⟩ := exists_visits visit u ns
      exact ⟨_, _, _, .lift here inner rest⟩
termination_by forestSize ns
decreasing_by all_goals simp only [forestSize]; omega

end

/-! ### Clearing a tree of some nodes -/

section
variable {p : Node → Bool}

theorem size_le_self (n : Node) : n.size ≤ n.size := Nat.le_refl _

def removing (p : Node → Bool) (s : Unit) (n : Node) : Verdict n × Unit :=
  (if p n then .remove else .keep n n.size_le_self, s)

def lifting (p : Node → Bool) (s : Unit) (n : Node) : Verdict n × Unit :=
  (if p n then .lift n n.size_le_self else .keep n n.size_le_self, s)

/-- Whether a visit makes a tree into one that has no node that satisfies `p` below its root, with
word of whether there was any, and leaves that one as it is. -/
structure Clears (p : Node → Bool) (visit : Unit → (n : Node) → Verdict n × Unit)
    (root left : Node) : Prop where
  result : rewrite visit () root = (left, root.anyBelow p, ())
  cleared : left.anyBelow p = false
  again : rewrite visit () left = (left, false, ())

theorem isEmpty_outermost (p : Node → Bool) (n : Node) :
    (outermost p n).isEmpty = !n.anyBelow p := by
  rw [Bool.eq_iff_iff, List.isEmpty_iff, Bool.not_eq_true', anyBelow, List.any_eq_false]
  constructor
  · intro none m mem here
    have found : m ∈ n.findAll p := List.mem_filter.2 ⟨mem, here⟩
    rw [findAll_eq_flatMap, none] at found
    cases found
  · intro none
    refine List.eq_nil_iff_forall_not_mem.2 fun m mem => ?_
    obtain ⟨here, below⟩ := of_mem_outermost mem
    exact none m below here

theorem rewrite_removing (p : Node → Bool) (root : Node) :
    rewrite (removing p) () root = (removeWhere p root, root.anyBelow p, ()) := by
  let find? (n : Node) : Option Unit := if p n then some () else none
  have same : removing p = takeOut find? fun s _ => s := by
    funext s n
    rw [removing, takeOut]
    cases here : p n <;> simp [find?, here]
  have found : (fun n => (find? n).isSome) = p := by
    funext n
    cases here : p n <;> simp [find?, here]
  rw [same, rewrite_takeOut, found, isEmpty_outermost, Bool.not_not]

theorem mapChildren_eq (f : List Node → List Node) (n : Node) :
    n.mapChildren f = n.mapChildren fun _ => f n.kids := by
  obtain ⟨k, children, v, a⟩ := n
  cases children <;> rfl

theorem visits_lifting (p : Node → Bool) (ns : List Node) :
    Visits (lifting p) () ns (liftFrom p ns)
      ((forestNodes ns).map fun n => ⟨n, (lifting p () n).1⟩) () := by
  cases ns with
  | nil => exact .nil
  | cons n ns =>
    have := size_eq n
    have inner := visits_lifting p n.kids
    have rest := visits_lifting p ns
    rw [liftFrom, liftNode_eq, forestNodes, descendants_eq, List.map_cons, List.map_append]
    cases here : p n with
    | true =>
      have visited : lifting p () n = (.lift n n.size_le_self, ()) := by simp [lifting, here]
      rw [if_pos rfl, visited]
      exact .lift visited inner rest
    | false =>
      have visited : lifting p () n = (.keep n n.size_le_self, ()) := by simp [lifting, here]
      rw [if_neg Bool.false_ne_true, visited, mapChildren_eq]
      exact .keep visited inner rest
termination_by forestSize ns
decreasing_by all_goals simp only [forestSize]; omega

theorem rewrite_lifting (p : Node → Bool) (root : Node) :
    rewrite (lifting p) () root = (liftWhere p root, root.anyBelow p, ()) := by
  have alters : (forestNodes root.kids).any (fun n => Call.alters ⟨n, (lifting p () n).1⟩) =
      root.anyBelow p := by
    rw [anyBelow, descendants_eq]
    congr
    funext n
    cases here : p n <;> simp [Call.alters, lifting, here, Verdict.kept?]
  rw [(visits_lifting p root.kids).rewrite_eq, List.any_map, ← mapChildren_eq]
  exact congrArg (fun changed => (liftWhere p root, changed, ())) alters

theorem liftWhere_eq_self {n : Node} (none : n.anyBelow p = false) : liftWhere p n = n := by
  rw [anyBelow, List.any_eq_false] at none
  have below : ∀ c ∈ n.kids, Everywhere (fun m => p m = false) c :=
    forall_mem_descendants_iff.1 fun m mem => Bool.eq_false_iff.2 (none m mem)
  obtain ⟨k, children, v, a⟩ := n
  cases children with
  | none => rfl
  | some cs => exact congrArg (fun cs => Node.mk k (some cs) v a) (liftFrom_eq_self below)

end

/-- What a predicate on kinds says does not hang on the children, so that what is cleared stays
clear. -/
theorem clears_removing (kinds : String → Bool) (root : Node) :
    Clears (fun n => kinds n.kind) (removing fun n => kinds n.kind) root
      (removeWhere (fun n => kinds n.kind) root) := by
  have cleared : (removeWhere (fun n => kinds n.kind) root).anyBelow (fun n => kinds n.kind) =
      false := by
    rw [anyBelow, descendants_removeWhere, List.any_map, List.any_eq_false]
    intro m mem
    simpa using not_removed_of_mem_spared mem
  refine ⟨rewrite_removing _ root, cleared, ?_⟩
  rw [rewrite_removing, cleared, removeWhere_eq_self_of_descendants fun m mem =>
    Bool.eq_false_iff.2 (List.any_eq_false.1 cleared m mem)]

theorem clears_lifting (kinds : String → Bool) (root : Node) :
    Clears (fun n => kinds n.kind) (lifting fun n => kinds n.kind) root
      (liftWhere (fun n => kinds n.kind) root) := by
  have cleared : (liftWhere (fun n => kinds n.kind) root).anyBelow (fun n => kinds n.kind) =
      false := by
    rw [anyBelow, List.any_eq_false]
    have none := not_lifted_of_mem_liftFrom (fun n => kinds n.kind) (fun _ _ => rfl) root.kids
    rw [← kids_liftWhere] at none
    exact fun m mem => Bool.eq_false_iff.1 (forall_mem_descendants_iff.2 none m mem)
  refine ⟨rewrite_lifting _ root, cleared, ?_⟩
  rw [rewrite_lifting, cleared, liftWhere_eq_self cleared]

/-! ### All of it -/

/-- A rewriting does what the description says, which holds of one forest, one list of calls and one
state. It calls the visit just so, says whether a node was removed or lifted, and leaves the nodes
that stay in the order of the calls. If the visit leaves the children of nodes alone, the calls go
through the nodes below the root in document order and leave out those below removed nodes. Removing
and lifting by kinds are rewritings that leave no node of these kinds and, done again, nothing to
do. -/
theorem rewrite_meets_description {σ : Type} (visit : σ → (n : Node) → Verdict n × σ) (s : σ)
    (root : Node) :
    (∃ below calls t,
      (∀ below' calls' t', Visits visit s root.kids below' calls' t' ↔
        below' = below ∧ calls' = calls ∧ t' = t) ∧
      rewrite visit s root = (root.mapChildren fun _ => below, calls.any Call.alters, t) ∧
      rewrite (recorded visit) (s, []) root =
        (root.mapChildren fun _ => below, calls.any Call.alters, (t, calls)) ∧
      calls.length ≤ root.descendants.length ∧
      (forestNodes below).map (mapChildren fun _ => []) =
        (calls.filterMap (·.verdict.kept?)).map (mapChildren fun _ => []) ∧
      ((∀ s n, (visit s n).1.KeepsKids) →
        root.descendants = calls.flatMap fun c => c.node :: c.verdict.gone)) ∧
    ∀ kinds : String → Bool,
      Clears (fun n => kinds n.kind) (removing fun n => kinds n.kind) root
        (removeWhere (fun n => kinds n.kind) root) ∧
      Clears (fun n => kinds n.kind) (lifting fun n => kinds n.kind) root
        (liftWhere (fun n => kinds n.kind) root) := by
  refine ⟨?_, fun kinds => ⟨clears_removing kinds root, clears_lifting kinds root⟩⟩
  obtain ⟨below, calls, t, run⟩ := exists_visits visit s root.kids
  have noted : Visits (recorded visit) (s, []) root.kids below calls (t, calls) := run.noted []
  refine ⟨below, calls, t, fun below' calls' t' => ⟨run.unique, ?_⟩, run.rewrite_eq,
    noted.rewrite_eq, ?_, run.forestNodes_map, fun alone => ?_⟩
  · rintro ⟨rfl, rfl, rfl⟩
    exact run
  · rw [descendants_eq, ← forestSize_eq_length]
    exact run.length_le
  · rw [descendants_eq]
    exact run.forestNodes_eq alone

/-- A visit that numbers the nodes that stay, by its calls. It lifts wrappers and removes what is
marked as gone. -/
def numbered (calls : Nat) (n : Node) : Verdict n × Nat :=
  (if n.is "wrap" then .lift n n.size_le_self
    else if n.is "gone" then .remove
    else .keep { n with value := some (toString calls) }
      (Nat.le_of_eq (by rw [size_eq, size_eq n]; rfl)),
    calls + 1)

def wrapped : Node :=
  .branch "root" [.branch "wrap" [.branch "wrap" [.branch "p" [.text "a"]]],
    .branch "gone" [.text "b"], .text "c"]

theorem numbered_wrapped :
    wrapped.descendants = (rewrite (recorded numbered) (0, []) wrapped).2.2.2.flatMap
      (fun c => c.node :: c.verdict.gone) ∧
    (rewrite (recorded numbered) (0, []) wrapped).2.2.2.map (·.node.kind) =
      ["wrap", "wrap", "p", "text", "gone", "text"] ∧
    (rewrite numbered 0 wrapped).1 =
      .branch "root" [⟨"p", some [.text "3"], some "2", .empty⟩, .text "5"] := by
  obtain ⟨⟨below, calls, t, -, -, noted, -, -, order⟩, -⟩ :=
    rewrite_meets_description numbered 0 wrapped
  refine ⟨?_, ?_, ?_⟩
  · rw [noted]
    refine order fun s n => ?_
    unfold numbered
    dsimp only
    split
    · rfl
    · split
      · trivial
      · rfl
  · simp [rewrite, rewriteQueue, recorded, numbered, wrapped, branch, text, scalar, is, kids]
  · simp [rewrite, rewriteQueue, numbered, wrapped, branch, text, scalar, is, kids, withKids]
    decide

end Manuscript.Node
