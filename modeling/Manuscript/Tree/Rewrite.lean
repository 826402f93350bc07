import Manuscript.Tree.Search

/-!
Rewriting a tree. The general rewriting visits the nodes below a root with a state and decides for
each whether it stays, goes, or gives way to its children. Removal and lifting by a predicate,
which need no state, are defined by recursion on the tree.
-/

set_option autoImplicit false

namespace Manuscript.Node

/-- What becomes of a visited node. It may be kept or lifted in a changed form that is no larger. -/
inductive Verdict (n : Node) where
  | keep (kept : Node) (small : kept.size ≤ n.size)
  | remove
  | lift (lifted : Node) (small : lifted.size ≤ n.size)

/-- What a rewriting leaves: the nodes, whether any was removed or lifted, and the state. -/
structure Rewritten (σ : Type) where
  forest : List Node
  changed : Bool
  state : σ

/-- Rewrites the nodes of a queue. The children of a lifted node are put back in front of the
queue and visited in turn; those of a kept one are a queue of their own. -/
def rewriteQueue {σ : Type} (visit : σ → (n : Node) → Verdict n × σ) (s : σ) :
    List Node → Rewritten σ
  | [] => ⟨[], false, s⟩
  | n :: rest =>
    match visit s n with
    | (.keep kept _, s) =>
      let inner := rewriteQueue visit s kept.kids
      let outer := rewriteQueue visit inner.state rest
      ⟨{ kept with children := kept.children.map fun _ => inner.forest } :: outer.forest,
        inner.changed || outer.changed, outer.state⟩
    | (.remove, s) =>
      let outer := rewriteQueue visit s rest
      ⟨outer.forest, true, outer.state⟩
    | (.lift lifted _, s) =>
      let outer := rewriteQueue visit s (lifted.kids ++ rest)
      ⟨outer.forest, true, outer.state⟩
termination_by queue => forestSize queue
decreasing_by
  all_goals simp only [forestSize, forestSize_append]
  · next small => have := size_eq kept; omega
  · have := size_pos n; omega
  · have := size_pos n; omega
  · next small => have := size_eq lifted; omega

def rewrite {σ : Type} (visit : σ → (n : Node) → Verdict n × σ) (s : σ) (root : Node) :
    Node × Bool × σ :=
  match root.children with
  | none => (root, false, s)
  | some cs =>
    let result := rewriteQueue visit s cs
    (root.withKids result.forest, result.changed, result.state)

/-! ### Removal -/

mutual
def removeWhere (p : Node → Bool) : Node → Node
  | ⟨k, none, v, a⟩ => ⟨k, none, v, a⟩
  | ⟨k, some cs, v, a⟩ => ⟨k, some (removeFrom p cs), v, a⟩

def removeFrom (p : Node → Bool) : List Node → List Node
  | [] => []
  | n :: ns => if p n then removeFrom p ns else removeWhere p n :: removeFrom p ns
end

mutual
/-- The nodes below that satisfy `p` and are not below another such node, in document order: those
that removal takes out. -/
def outermost (p : Node → Bool) : Node → List Node
  | ⟨_, none, _, _⟩ => []
  | ⟨_, some cs, _, _⟩ => outermostIn p cs

def outermostIn (p : Node → Bool) : List Node → List Node
  | [] => []
  | n :: ns => (if p n then [n] else outermost p n) ++ outermostIn p ns
end

mutual
theorem size_removeWhere_le (p : Node → Bool) : (n : Node) → (removeWhere p n).size ≤ n.size
  | ⟨_, none, _, _⟩ => Nat.le_refl _
  | ⟨_, some cs, _, _⟩ => by
    have := forestSize_removeFrom_le p cs
    simp only [removeWhere, size]; omega

theorem forestSize_removeFrom_le (p : Node → Bool) :
    (ns : List Node) → forestSize (removeFrom p ns) ≤ forestSize ns
  | [] => Nat.le_refl _
  | n :: ns => by
    have := size_removeWhere_le p n
    have := forestSize_removeFrom_le p ns
    simp only [removeFrom, forestSize]
    split
    · omega
    · simp only [forestSize]; omega
end

/-! ### Lifting -/

mutual
/-- What a node leaves where every node that satisfies `p` gives way to its children, at any
depth. -/
def liftNode (p : Node → Bool) : Node → List Node
  | ⟨k, none, v, a⟩ => if p ⟨k, none, v, a⟩ then [] else [⟨k, none, v, a⟩]
  | ⟨k, some cs, v, a⟩ =>
    if p ⟨k, some cs, v, a⟩ then liftFrom p cs else [⟨k, some (liftFrom p cs), v, a⟩]

def liftFrom (p : Node → Bool) : List Node → List Node
  | [] => []
  | n :: ns => liftNode p n ++ liftFrom p ns
end

def liftWhere (p : Node → Bool) (root : Node) : Node :=
  { root with children := root.children.map (liftFrom p) }

/-! ### Changing every node -/

mutual
def mapUp (f : Node → Node) : Node → Node
  | ⟨k, none, v, a⟩ => f ⟨k, none, v, a⟩
  | ⟨k, some cs, v, a⟩ => f ⟨k, some (mapUpAll f cs), v, a⟩

def mapUpAll (f : Node → Node) : List Node → List Node
  | [] => []
  | n :: ns => mapUp f n :: mapUpAll f ns
end

mutual
/-- `mapUp` for an `f` that gives a number with each node. The numbers are added up. -/
def mapUpSum (f : Node → Node × Nat) : Node → Node × Nat
  | ⟨k, none, v, a⟩ => f ⟨k, none, v, a⟩
  | ⟨k, some cs, v, a⟩ =>
    let (kids, below) := mapUpSumAll f cs
    let (changed, here) := f ⟨k, some kids, v, a⟩
    (changed, below + here)

def mapUpSumAll (f : Node → Node × Nat) : List Node → List Node × Nat
  | [] => ([], 0)
  | n :: ns =>
    let (first, here) := mapUpSum f n
    let (rest, behind) := mapUpSumAll f ns
    (first :: rest, here + behind)
end

/-- Applies `f`, which adds no nodes, to a node and then to the children that it leaves. -/
def mapDown (f : Node → Node) (small : ∀ n, (f n).size ≤ n.size) (n : Node) : Node :=
  let below := (f n).kids.attach.map fun ⟨child, _⟩ => mapDown f small child
  { f n with children := (f n).children.map fun _ => below }
termination_by n.size
decreasing_by
  next mem => exact Nat.lt_of_lt_of_le (size_lt_of_mem_kids mem) (small n)

end Manuscript.Node
