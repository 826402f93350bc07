import Manuscript.Tree.Node

/-!
Searching a tree. All searches read the same view, the descendants in document order, parents
before their children; the node itself is not among them.
-/

set_option autoImplicit false

namespace Manuscript.Node

mutual
def descendants : Node → List Node
  | ⟨_, none, _, _⟩ => []
  | ⟨_, some cs, _, _⟩ => forestNodes cs

/-- The nodes of a forest, in document order. -/
def forestNodes : List Node → List Node
  | [] => []
  | n :: ns => n :: (n.descendants ++ forestNodes ns)
end

def nodes (n : Node) : List Node := n :: n.descendants

def find? (p : Node → Bool) (n : Node) : Option Node := n.descendants.find? p

def findKind? (kind : String) (n : Node) : Option Node := n.find? (·.is kind)

def findAll (p : Node → Bool) (n : Node) : List Node := n.descendants.filter p

def findKinds (kind : String) (n : Node) : List Node := n.findAll (·.is kind)

def count (p : Node → Bool) (n : Node) : Nat := (n.findAll p).length

def anyBelow (p : Node → Bool) (n : Node) : Bool := n.descendants.any p

mutual
/-- The tree with the first node below that satisfies `p` changed by `f`, if there is one. -/
def updateFirst? (p : Node → Bool) (f : Node → Node) : Node → Option Node
  | ⟨_, none, _, _⟩ => none
  | ⟨k, some cs, v, a⟩ => (updateFirstIn? p f cs).map fun ds => ⟨k, some ds, v, a⟩

def updateFirstIn? (p : Node → Bool) (f : Node → Node) : List Node → Option (List Node)
  | [] => none
  | n :: ns =>
    if p n then some (f n :: ns)
    else match updateFirst? p f n with
      | some m => some (m :: ns)
      | none => (updateFirstIn? p f ns).map (n :: ·)
end

def updateFirst (p : Node → Bool) (f : Node → Node) (n : Node) : Node :=
  (n.updateFirst? p f).getD n

mutual
/-- The tree without one node of a kind: the first such child, else one below the first child that
has any. -/
def removeNearest? (kind : String) : Node → Option Node
  | ⟨_, none, _, _⟩ => none
  | ⟨k, some cs, v, a⟩ =>
    if cs.any (·.is kind) then some ⟨k, some (cs.eraseP (·.is kind)), v, a⟩
    else (removeNearestIn? kind cs).map fun ds => ⟨k, some ds, v, a⟩

def removeNearestIn? (kind : String) : List Node → Option (List Node)
  | [] => none
  | n :: ns =>
    match removeNearest? kind n with
    | some m => some (m :: ns)
    | none => (removeNearestIn? kind ns).map (n :: ·)
end

def removeNearest (kind : String) (n : Node) : Node := (n.removeNearest? kind).getD n

theorem descendants_eq (n : Node) : n.descendants = forestNodes n.kids := by
  obtain ⟨k, cs, v, a⟩ := n
  cases cs <;> simp [descendants, kids, forestNodes]

theorem forestNodes_append (xs ys : List Node) :
    forestNodes (xs ++ ys) = forestNodes xs ++ forestNodes ys := by
  induction xs with
  | nil => simp [forestNodes]
  | cons x xs ih => simp [forestNodes, ih]

theorem mem_forestNodes_iff {ns : List Node} {m : Node} :
    m ∈ forestNodes ns ↔ ∃ n ∈ ns, m ∈ n.nodes := by
  induction ns with
  | nil => simp [forestNodes]
  | cons n ns ih => simp [forestNodes, nodes, ih, or_assoc]

theorem mem_nodes_iff {n m : Node} : m ∈ n.nodes ↔ m = n ∨ ∃ child ∈ n.kids, m ∈ child.nodes := by
  rw [nodes, List.mem_cons, descendants_eq, mem_forestNodes_iff]

mutual
theorem size_lt_of_mem_descendants : {n m : Node} → m ∈ n.descendants → m.size < n.size
  | ⟨_, none, _, _⟩, m, h => by simp [descendants] at h
  | ⟨_, some cs, _, _⟩, m, h => by
    have := @size_le_of_mem_forestNodes cs m h
    simp only [size]; omega

theorem size_le_of_mem_forestNodes : {ns : List Node} → {m : Node} →
    m ∈ forestNodes ns → m.size ≤ forestSize ns
  | [], m, h => by simp [forestNodes] at h
  | n :: ns, m, h => by
    simp only [forestNodes, List.mem_cons, List.mem_append] at h
    simp only [forestSize]
    rcases h with rfl | h | h
    · omega
    · have := size_lt_of_mem_descendants h; omega
    · have := size_le_of_mem_forestNodes h; omega
end

theorem size_lt_of_find? {p : Node → Bool} {n m : Node} (h : n.find? p = some m) :
    m.size < n.size :=
  size_lt_of_mem_descendants (List.mem_of_find?_eq_some h)

theorem forestSize_eraseP_le (p : Node → Bool) (ns : List Node) :
    forestSize (ns.eraseP p) ≤ forestSize ns := by
  induction ns with
  | nil => simp
  | cons n ns ih =>
    by_cases h : p n
    · simp [h, forestSize]
    · simp only [List.eraseP_cons_of_neg h, forestSize]; omega

mutual
theorem size_le_of_updateFirst? {p : Node → Bool} {f : Node → Node}
    (small : ∀ n, (f n).size ≤ n.size) : {n m : Node} →
    updateFirst? p f n = some m → m.size ≤ n.size
  | ⟨_, none, _, _⟩, _, h => by simp [updateFirst?] at h
  | ⟨k, some cs, v, a⟩, m, h => by
    obtain ⟨ds, hds, rfl⟩ := Option.map_eq_some_iff.1 h
    have := size_le_of_updateFirstIn? small hds
    simp only [size]; omega

theorem size_le_of_updateFirstIn? {p : Node → Bool} {f : Node → Node}
    (small : ∀ n, (f n).size ≤ n.size) : {ns ms : List Node} →
    updateFirstIn? p f ns = some ms → forestSize ms ≤ forestSize ns
  | [], _, h => by simp [updateFirstIn?] at h
  | n :: ns, ms, h => by
    simp only [updateFirstIn?] at h
    split at h
    · obtain rfl := Option.some.inj h
      have := small n
      simp only [forestSize]; omega
    · split at h
      · next m hm =>
        obtain rfl := Option.some.inj h
        have := size_le_of_updateFirst? small hm
        simp only [forestSize]; omega
      · obtain ⟨ds, hds, rfl⟩ := Option.map_eq_some_iff.1 h
        have := size_le_of_updateFirstIn? small hds
        simp only [forestSize]; omega
end

theorem size_updateFirst_le (p : Node → Bool) {f : Node → Node}
    (small : ∀ n, (f n).size ≤ n.size) (n : Node) : (n.updateFirst p f).size ≤ n.size := by
  unfold updateFirst
  cases h : n.updateFirst? p f with
  | none => exact Nat.le_refl _
  | some m => exact size_le_of_updateFirst? small h

mutual
theorem size_le_of_removeNearest? {kind : String} : {n m : Node} →
    removeNearest? kind n = some m → m.size ≤ n.size
  | ⟨_, none, _, _⟩, _, h => by simp [removeNearest?] at h
  | ⟨k, some cs, v, a⟩, m, h => by
    simp only [removeNearest?] at h
    split at h
    · obtain rfl := Option.some.inj h
      have := forestSize_eraseP_le (·.is kind) cs
      simp only [size]; omega
    · obtain ⟨ds, hds, rfl⟩ := Option.map_eq_some_iff.1 h
      have := size_le_of_removeNearestIn? hds
      simp only [size]; omega

theorem size_le_of_removeNearestIn? {kind : String} : {ns ms : List Node} →
    removeNearestIn? kind ns = some ms → forestSize ms ≤ forestSize ns
  | [], _, h => by simp [removeNearestIn?] at h
  | n :: ns, ms, h => by
    simp only [removeNearestIn?] at h
    split at h
    · next m hm =>
      obtain rfl := Option.some.inj h
      have := size_le_of_removeNearest? hm
      simp only [forestSize]; omega
    · obtain ⟨ds, hds, rfl⟩ := Option.map_eq_some_iff.1 h
      have := size_le_of_removeNearestIn? hds
      simp only [forestSize]; omega
end

theorem size_removeNearest_le (kind : String) (n : Node) :
    (n.removeNearest kind).size ≤ n.size := by
  unfold removeNearest
  cases h : n.removeNearest? kind with
  | none => exact Nat.le_refl _
  | some m => exact size_le_of_removeNearest? h

end Manuscript.Node
