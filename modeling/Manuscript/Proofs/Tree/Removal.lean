import Manuscript.Proofs.Tree.Passage

/-!
Removal from a tree. The nodes that it takes out and the nodes that it leaves make up the tree: the
former are what the outermost of the nodes to remove hold, themselves included, and the latter are
all others, in their order. A rewriting that removes some nodes and keeps the others as they are is
a removal, and its state has met what was taken out, in document order.
-/

set_option autoImplicit false

namespace Manuscript.Node

section
variable {p : Node → Bool}

mutual
/-- The nodes below that do not satisfy `p` and are not below a node that does, in document
order. -/
def spared (p : Node → Bool) : Node → List Node
  | ⟨_, none, _, _⟩ => []
  | ⟨_, some cs, _, _⟩ => sparedIn p cs

def sparedIn (p : Node → Bool) : List Node → List Node
  | [] => []
  | n :: ns => (if p n then [] else n :: spared p n) ++ sparedIn p ns
end

theorem spared_eq (n : Node) : spared p n = sparedIn p n.kids := by
  obtain ⟨k, children, v, a⟩ := n
  cases children <;> rfl

theorem outermost_eq (n : Node) : outermost p n = outermostIn p n.kids := by
  obtain ⟨k, children, v, a⟩ := n
  cases children <;> rfl

/-! ### What is left -/

theorem removeFrom_eq_self {ns : List Node} (kept : ∀ m ∈ forestNodes ns, p m = false) :
    removeFrom p ns = ns := by
  have whole (n : Node) (mem : n ∈ ns) : Everywhere (fun m => p m = false) n :=
    fun m inside => kept m (mem_forestNodes_iff.2 ⟨n, mem, inside⟩)
  have all : ns.filter (!p ·) = ns :=
    List.filter_eq_self.2 fun n mem => by rw [(whole n mem).here]; rfl
  have same : ns.map (removeWhere p) = ns.map id :=
    List.map_congr_left fun n mem => removeWhere_eq_self (whole n mem)
  rw [removeFrom_eq_map, all, same, List.map_id]

theorem removeWhere_eq_self_of_descendants {n : Node} (kept : ∀ m ∈ n.descendants, p m = false) :
    removeWhere p n = n := by
  obtain ⟨k, children, v, a⟩ := n
  cases children with
  | none => rfl
  | some cs => rw [removeWhere, removeFrom_eq_self kept]

mutual
theorem descendants_removeWhere (p : Node → Bool) :
    (n : Node) → (removeWhere p n).descendants = (spared p n).map (removeWhere p)
  | ⟨_, none, _, _⟩ => rfl
  | ⟨_, some cs, _, _⟩ => forestNodes_removeFrom p cs

theorem forestNodes_removeFrom (p : Node → Bool) :
    (ns : List Node) → forestNodes (removeFrom p ns) = (sparedIn p ns).map (removeWhere p)
  | [] => rfl
  | n :: ns => by
    rw [removeFrom, sparedIn]
    cases p n with
    | true => exact forestNodes_removeFrom p ns
    | false =>
      simp only [Bool.false_eq_true, if_false, forestNodes, List.map_append, List.map_cons,
        List.cons_append, descendants_removeWhere p n, forestNodes_removeFrom p ns]
end

mutual
theorem not_removed_of_mem_spared : {n m : Node} → m ∈ spared p n → p m = false
  | ⟨_, none, _, _⟩, _, mem => by cases mem
  | ⟨_, some _, _, _⟩, _, mem => not_removed_of_mem_sparedIn mem

theorem not_removed_of_mem_sparedIn : {ns : List Node} → {m : Node} → m ∈ sparedIn p ns →
    p m = false
  | [], _, mem => by cases mem
  | n :: ns, m, mem => by
    rw [sparedIn, List.mem_append] at mem
    rcases mem with here | mem
    · split at here
      · cases here
      · next kept =>
        rcases List.mem_cons.1 here with rfl | below
        · simpa using kept
        · exact not_removed_of_mem_spared below
    · exact not_removed_of_mem_sparedIn mem
end

mutual
theorem spared_sublist (p : Node → Bool) : (n : Node) → (spared p n).Sublist n.descendants
  | ⟨_, none, _, _⟩ => .slnil
  | ⟨_, some cs, _, _⟩ => sparedIn_sublist p cs

theorem sparedIn_sublist (p : Node → Bool) :
    (ns : List Node) → (sparedIn p ns).Sublist (forestNodes ns)
  | [] => .slnil
  | n :: ns => by
    rw [sparedIn, forestNodes, ← List.cons_append]
    refine .append ?_ (sparedIn_sublist p ns)
    cases p n with
    | true => exact List.nil_sublist _
    | false => exact (spared_sublist p n).cons_cons n
end

mutual
theorem size_eq_length : (n : Node) → n.size = 1 + n.descendants.length
  | ⟨_, none, _, _⟩ => rfl
  | ⟨_, some cs, _, _⟩ => congrArg (1 + ·) (forestSize_eq_length cs)

theorem forestSize_eq_length : (ns : List Node) → forestSize ns = (forestNodes ns).length
  | [] => rfl
  | n :: ns => by
    rw [forestSize, forestNodes, size_eq_length n, forestSize_eq_length ns, List.length_cons,
      List.length_append]
    omega
end

theorem not_removed_of_size_le {n : Node} (large : n.size ≤ (removeWhere p n).size) :
    ∀ m ∈ n.descendants, p m = false := by
  rw [size_eq_length, size_eq_length (removeWhere p n), descendants_removeWhere,
    List.length_map] at large
  have all : spared p n = n.descendants :=
    (spared_sublist p n).eq_of_length_le (by omega)
  exact fun m mem => not_removed_of_mem_spared (all ▸ mem)

/-! ### What is taken out -/

mutual
theorem perm_descendants (p : Node → Bool) : (n : Node) →
    n.descendants.Perm (spared p n ++ (outermost p n).flatMap nodes)
  | ⟨_, none, _, _⟩ => .nil
  | ⟨_, some cs, _, _⟩ => perm_forestNodes p cs

theorem perm_forestNodes (p : Node → Bool) : (ns : List Node) →
    (forestNodes ns).Perm (sparedIn p ns ++ (outermostIn p ns).flatMap nodes)
  | [] => .nil
  | n :: ns => by
    rw [forestNodes, sparedIn, outermostIn, List.flatMap_append, ← List.cons_append]
    have first : (n :: n.descendants).Perm ((if p n then [] else n :: spared p n) ++
        (if p n then [n] else outermost p n).flatMap nodes) := by
      cases p n with
      | true => simp [nodes]
      | false => simpa using perm_descendants p n
    -- What is taken out of the first tree comes behind what is left of the others.
    refine (first.append (perm_forestNodes p ns)).trans ?_
    simp only [List.append_assoc]
    refine .append_left _ ?_
    simp only [← List.append_assoc]
    exact List.perm_append_comm.append_right _
end

mutual
theorem filter_descendants (p : Node → Bool) : (n : Node) →
    n.descendants.filter p = (outermost p n).flatMap fun m => m :: m.findAll p
  | ⟨_, none, _, _⟩ => rfl
  | ⟨_, some cs, _, _⟩ => filter_forestNodes p cs

theorem filter_forestNodes (p : Node → Bool) : (ns : List Node) →
    (forestNodes ns).filter p = (outermostIn p ns).flatMap fun m => m :: m.findAll p
  | [] => rfl
  | n :: ns => by
    rw [forestNodes, outermostIn, List.flatMap_append, List.filter_cons, List.filter_append,
      filter_forestNodes p ns]
    cases p n with
    | true => simp [findAll]
    | false => simp [filter_descendants p n]
end

/-- The nodes that satisfy `p` are the outermost of them, each followed by those below it. -/
theorem findAll_eq_flatMap (n : Node) :
    n.findAll p = (outermost p n).flatMap fun m => m :: m.findAll p :=
  filter_descendants p n

theorem of_mem_outermost {n m : Node} (mem : m ∈ outermost p n) :
    p m = true ∧ m ∈ n.descendants := by
  have found : m ∈ n.findAll p := by
    rw [findAll_eq_flatMap]
    exact List.mem_flatMap.2 ⟨m, mem, List.mem_cons_self⟩
  exact (List.mem_filter.1 found).symm

/-! ### Removal as a relation -/

mutual
/-- Whether a tree without the outermost of some nodes is another tree, and which nodes these are,
in document order. The root is never one of them. -/
inductive Pruned (p : Node → Prop) : Node → Node → List Node → Prop where
  | leaf {kind : String} {value : Option String} {attrs : Dict Json} :
      Pruned p ⟨kind, none, value, attrs⟩ ⟨kind, none, value, attrs⟩ []
  | node {kind : String} {children left : List Node} {value : Option String} {attrs : Dict Json}
      {gone : List Node} (below : PrunedAll p children left gone) :
      Pruned p ⟨kind, some children, value, attrs⟩ ⟨kind, some left, value, attrs⟩ gone

inductive PrunedAll (p : Node → Prop) : List Node → List Node → List Node → Prop where
  | nil : PrunedAll p [] [] []
  | taken {n : Node} {ns left gone : List Node} (here : p n) (rest : PrunedAll p ns left gone) :
      PrunedAll p (n :: ns) left (n :: gone)
  | kept {n n' : Node} {ns left inner gone : List Node} (other : ¬ p n) (here : Pruned p n n' inner)
      (rest : PrunedAll p ns left gone) : PrunedAll p (n :: ns) (n' :: left) (inner ++ gone)
end

mutual
theorem pruned_removeWhere (p : Node → Bool) :
    (n : Node) → Pruned (p · = true) n (removeWhere p n) (outermost p n)
  | ⟨_, none, _, _⟩ => .leaf
  | ⟨_, some cs, _, _⟩ => .node (prunedAll_removeFrom p cs)

theorem prunedAll_removeFrom (p : Node → Bool) :
    (ns : List Node) → PrunedAll (p · = true) ns (removeFrom p ns) (outermostIn p ns)
  | [] => .nil
  | n :: ns => by
    rw [removeFrom, outermostIn]
    split
    · next here => exact .taken here (prunedAll_removeFrom p ns)
    · next other => exact .kept other (pruned_removeWhere p n) (prunedAll_removeFrom p ns)
end

mutual
theorem Pruned.unique {p : Node → Prop} {n left left' : Node} {gone gone' : List Node}
    (one : Pruned p n left gone) (other : Pruned p n left' gone') : left = left' ∧ gone = gone' := by
  cases one with
  | leaf =>
    cases other
    exact ⟨rfl, rfl⟩
  | node below =>
    obtain _ | below' := other
    obtain ⟨rfl, rfl⟩ := below.unique below'
    exact ⟨rfl, rfl⟩

theorem PrunedAll.unique {p : Node → Prop} {ns left left' : List Node} {gone gone' : List Node}
    (one : PrunedAll p ns left gone) (other : PrunedAll p ns left' gone') :
    left = left' ∧ gone = gone' := by
  cases one with
  | nil =>
    cases other
    exact ⟨rfl, rfl⟩
  | taken here rest =>
    cases other with
    | taken _ rest' =>
      obtain ⟨rfl, rfl⟩ := rest.unique rest'
      exact ⟨rfl, rfl⟩
    | kept other => exact absurd here other
  | kept apart here rest =>
    cases other with
    | taken here' => exact absurd here' apart
    | kept _ here' rest' =>
      obtain ⟨rfl, rfl⟩ := here.unique here'
      obtain ⟨rfl, rfl⟩ := rest.unique rest'
      exact ⟨rfl, rfl⟩
end

mutual
theorem Pruned.eq_self {p : Node → Prop} {n left : Node} (pruned : Pruned p n left []) :
    left = n := by
  cases pruned with
  | leaf => rfl
  | node below => rw [below.eq_self]

theorem PrunedAll.eq_self {p : Node → Prop} {ns left : List Node}
    (pruned : PrunedAll p ns left []) : left = ns := by
  generalize none : [] = gone at pruned
  cases pruned with
  | nil => rfl
  | taken => cases none
  | kept _ here rest =>
    obtain ⟨rfl, rfl⟩ := List.nil_eq_append_iff.1 none
    rw [here.eq_self, rest.eq_self]
end

/-! ### Removal as a rewriting -/

/-- The visit that keeps every node as it is, unless `find?` has something for it: then the node is
removed, and the state takes in what is found. -/
def takeOut {σ α : Type} (find? : Node → Option α) (take : σ → α → σ) (s : σ) (n : Node) :
    Verdict n × σ :=
  match find? n with
  | some found => (.remove, take s found)
  | none => (.keep n (Nat.le_refl _), s)

section
variable {σ α : Type} (find? : Node → Option α) (take : σ → α → σ)

mutual
theorem rewriteQueue_takeOut_kids (s : σ) : (n : Node) →
    rewriteQueue (takeOut find? take) s n.kids =
      ⟨removeFrom (fun m => (find? m).isSome) n.kids,
        !(outermost (fun m => (find? m).isSome) n).isEmpty,
        ((outermost (fun m => (find? m).isSome) n).filterMap find?).foldl take s⟩
  | ⟨_, none, _, _⟩ => by
    rw [kids, Option.getD_none, rewriteQueue]
    rfl
  | ⟨_, some cs, _, _⟩ => rewriteQueue_takeOut s cs

theorem rewriteQueue_takeOut (s : σ) : (ns : List Node) →
    rewriteQueue (takeOut find? take) s ns =
      ⟨removeFrom (fun m => (find? m).isSome) ns,
        !(outermostIn (fun m => (find? m).isSome) ns).isEmpty,
        ((outermostIn (fun m => (find? m).isSome) ns).filterMap find?).foldl take s⟩
  | [] => by
    rw [rewriteQueue]
    rfl
  | n :: ns => by
    rw [rewriteQueue, removeFrom, outermostIn, takeOut]
    cases found : find? n with
    | some found =>
      simp [rewriteQueue_takeOut _ ns, found]
    | none =>
      have rest (s : σ) := rewriteQueue_takeOut s ns
      have kept : removeWhere (fun m => (find? m).isSome) n = { n with
          children := n.children.map fun _ => removeFrom (fun m => (find? m).isSome) n.kids } := by
        obtain ⟨k, children, v, a⟩ := n
        cases children <;> rfl
      simp only [rewriteQueue_takeOut_kids s n, rest, kept, Option.isSome_none, Bool.false_eq_true,
        if_false, List.filterMap_append, List.foldl_append]
      cases outermost (fun m => (find? m).isSome) n <;> rfl
end

theorem rewrite_takeOut (s : σ) (root : Node) :
    rewrite (takeOut find? take) s root =
      (removeWhere (fun m => (find? m).isSome) root,
        !(outermost (fun m => (find? m).isSome) root).isEmpty,
        ((outermost (fun m => (find? m).isSome) root).filterMap find?).foldl take s) := by
  obtain ⟨k, children, v, a⟩ := root
  cases children with
  | none => rfl
  | some cs =>
    rw [rewrite]
    dsimp only
    rw [rewriteQueue_takeOut]
    rfl

end

end

end Manuscript.Node
