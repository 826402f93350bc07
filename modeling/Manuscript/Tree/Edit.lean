import Manuscript.Tree.Search

/-!
Edits that report whether they did anything. A step replaces nodes at the front of a list, and a
scan tries it at every place of the list from the left. An edit changes the child list of one
node; it runs on a node before it runs on the children that the node then has.
-/

set_option autoImplicit false

namespace Manuscript

namespace Node

mutual
/-- The number of nodes on the longest way down, the node itself not counted. -/
def height : Node → Nat
  | ⟨_, none, _, _⟩ => 0
  | ⟨_, some cs, _, _⟩ => forestHeight cs

def forestHeight : List Node → Nat
  | [] => 0
  | n :: ns => max (n.height + 1) (forestHeight ns)
end

theorem height_eq (n : Node) : n.height = forestHeight n.kids := by
  obtain ⟨k, cs, v, a⟩ := n
  cases cs <;> simp [height, kids, forestHeight]

theorem forestHeight_le_iff {ns : List Node} {h : Nat} :
    forestHeight ns ≤ h ↔ ∀ n ∈ ns, n.height < h := by
  induction ns with
  | nil => simp [forestHeight]
  | cons n ns ih => simp only [forestHeight, Nat.max_le, ih, Nat.succ_le_iff, List.forall_mem_cons]

theorem height_lt_of_mem_kids {n child : Node} (h : child ∈ n.kids) : child.height < n.height :=
  forestHeight_le_iff.1 (Nat.le_of_eq (height_eq n).symm) child h

end Node

open Node

structure Step where
  /-- What comes to stand at the front of a list, and the nodes to go on with behind it; none where
  the step does not apply. -/
  next? : List Node → Option (List Node × List Node)
  shorter : ∀ {ns done rest : List Node}, next? ns = some (done, rest) → rest.length < ns.length

namespace Step

/-- The list with the step taken wherever it applies, and whether it applied anywhere. -/
def scan (s : Step) : List Node → List Node × Bool
  | [] => ([], false)
  | n :: ns =>
    match _h : s.next? (n :: ns) with
    | some (done, rest) => (done ++ (s.scan rest).1, true)
    | none =>
      let (after, changed) := s.scan ns
      (n :: after, changed)
termination_by ns => ns.length
decreasing_by
  · exact s.shorter _h
  · exact Nat.lt_succ_self _

theorem scan_of_some (s : Step) {ns done rest : List Node} (h : s.next? ns = some (done, rest)) :
    s.scan ns = (done ++ (s.scan rest).1, true) := by
  cases ns with
  | nil => exact absurd (s.shorter h) (Nat.not_lt_zero _)
  | cons n ns =>
    rw [scan]
    split
    · next found => rw [h] at found; cases found; rfl
    · next found => rw [h] at found; cases found

theorem scan_of_none (s : Step) {n : Node} {ns : List Node} (h : s.next? (n :: ns) = none) :
    s.scan (n :: ns) = (n :: (s.scan ns).1, (s.scan ns).2) := by
  rw [scan]
  split
  · next found => rw [h] at found; cases found
  · rfl

@[simp] theorem scan_nil (s : Step) : s.scan [] = ([], false) := by rw [scan]

theorem scan_induction (s : Step) {motive : List Node → Prop} (nil : motive [])
    (some : ∀ ns done rest, s.next? ns = some (done, rest) → motive rest → motive ns)
    (none : ∀ n ns, s.next? (n :: ns) = none → motive ns → motive (n :: ns)) (ns : List Node) :
    motive ns := by
  fun_induction scan s ns with
  | case1 => exact nil
  | case2 n ns done rest found ih => exact some _ _ _ found ih
  | case3 n ns found after changed _ ih => exact none _ _ found ih

theorem scan_changed_eq_false_iff (s : Step) {ns : List Node} :
    (s.scan ns).2 = false ↔
      ∀ after done rest, after <:+ ns → s.next? after ≠ some (done, rest) := by
  induction ns using s.scan_induction with
  | nil =>
    simp only [scan_nil, true_iff]
    intro after done rest suffix found
    rw [List.suffix_nil.1 suffix] at found
    exact absurd (s.shorter found) (Nat.not_lt_zero _)
  | some ns done rest found ih =>
    rw [s.scan_of_some found]
    simp only [Bool.true_eq_false, false_iff]
    exact fun unmatched => unmatched ns done rest (List.suffix_refl ns) found
  | none n ns found ih =>
    rw [s.scan_of_none found, ih]
    constructor
    · intro unmatched after done rest suffix
      rcases List.suffix_cons_iff.1 suffix with rfl | suffix
      · rw [found]
        exact nofun
      · exact unmatched after done rest suffix
    · intro unmatched after done rest suffix
      exact unmatched after done rest (List.suffix_cons_iff.2 (.inr suffix))

theorem scan_eq_self (s : Step) {ns : List Node} (h : (s.scan ns).2 = false) :
    (s.scan ns).1 = ns := by
  induction ns using s.scan_induction with
  | nil => rw [scan_nil]
  | some ns done rest found ih => rw [s.scan_of_some found] at h; cases h
  | none n ns found ih =>
    rw [s.scan_of_none found] at h ⊢
    rw [ih h]

def onKids (s : Step) (applies : String → Bool) (n : Node) : Option (List Node) × Bool :=
  match n.children with
  | none => (none, false)
  | some cs =>
    if applies n.kind then
      let (cs, changed) := s.scan cs
      (some cs, changed)
    else (some cs, false)

def Keeps (s : Step) (p : Node → Prop) : Prop :=
  ∀ {ns done rest : List Node}, s.next? ns = some (done, rest) → (∀ n ∈ ns, p n) →
    (∀ n ∈ done, p n) ∧ ∀ n ∈ rest, p n

theorem forall_mem_scan {s : Step} {p : Node → Prop} (keeps : s.Keeps p) {ns : List Node}
    (all : ∀ n ∈ ns, p n) : ∀ n ∈ (s.scan ns).1, p n := by
  induction ns using s.scan_induction with
  | nil => simp
  | some ns done rest found ih =>
    rw [s.scan_of_some found]
    obtain ⟨front, back⟩ := keeps found all
    exact List.forall_mem_append.2 ⟨front, ih back⟩
  | none n ns found ih =>
    rw [s.scan_of_none found]
    obtain ⟨first, back⟩ := List.forall_mem_cons.1 all
    exact List.forall_mem_cons.2 ⟨first, ih back⟩

def Lowers (s : Step) : Prop := ∀ h : Nat, s.Keeps fun n => n.height < h

theorem onKids_eq_children (s : Step) (applies : String → Bool) {n : Node}
    (h : (s.onKids applies n).2 = false) : (s.onKids applies n).1 = n.children := by
  obtain ⟨k, children, v, a⟩ := n
  cases children with
  | none => rfl
  | some cs =>
    by_cases selected : applies k
    · simp only [onKids, selected, if_true] at h ⊢
      rw [s.scan_eq_self h]
    · simp only [onKids, selected]
      rfl

theorem onKids_of_selected (s : Step) {applies : String → Bool} {n : Node}
    (selected : applies n.kind = true) :
    s.onKids applies n = (n.children.map fun cs => (s.scan cs).1, (s.scan n.kids).2) := by
  obtain ⟨k, children, v, a⟩ := n
  cases children with
  | none => simp [onKids, kids]
  | some cs =>
    simp only [onKids, kids]
    rw [if_pos selected]
    rfl

theorem onKids_changed_eq_false_iff (s : Step) (applies : String → Bool) {n : Node} :
    (s.onKids applies n).2 = false ↔ (applies n.kind = true → (s.scan n.kids).2 = false) := by
  obtain ⟨k, children, v, a⟩ := n
  cases children with
  | none => simp [onKids, kids]
  | some cs => by_cases selected : applies k <;> simp [onKids, kids, selected]

theorem exists_next?_of_changed (s : Step) {applies : String → Bool} {n : Node}
    (changed : (s.onKids applies n).2 = true) : applies n.kind = true ∧
      ∃ after done rest, after <:+ n.kids ∧ s.next? after = some (done, rest) := by
  rw [← Bool.not_eq_false, s.onKids_changed_eq_false_iff, s.scan_changed_eq_false_iff,
    Classical.not_imp] at changed
  obtain ⟨selected, matched⟩ := changed
  refine ⟨selected, Classical.byContradiction fun none => matched ?_⟩
  intro after done rest suffix found
  exact none ⟨after, done, rest, suffix, found⟩

theorem mem_onKids {s : Step} {applies : String → Bool} {n child : Node} {cs : List Node}
    (found : (s.onKids applies n).1 = some cs) (mem : child ∈ cs) :
    child ∈ n.kids ∨ applies n.kind = true ∧ child ∈ (s.scan n.kids).1 := by
  unfold onKids at found
  cases h : n.children with
  | none => simp [h] at found
  | some ds =>
    rw [h] at found
    by_cases selected : applies n.kind
    · simp only [selected, if_true, Option.some.injEq] at found
      exact .inr ⟨selected, by simpa [kids, h, found] using mem⟩
    · obtain rfl : ds = cs := by simpa [selected] using found
      exact .inl (by simpa [kids, h] using mem)

end Step

structure Edit where
  /-- The child list that a node gets, and whether the edit did anything to it. -/
  onKids : Node → Option (List Node) × Bool
  idle : ∀ {n : Node}, (onKids n).2 = false → (onKids n).1 = n.children
  /-- What falls on the way down, also where the edit makes a tree higher. -/
  rank : Node → Nat
  descends : ∀ {n child : Node} {cs : List Node}, (onKids n).1 = some cs → child ∈ cs →
    rank child < rank n

namespace Edit

/-- The edited tree, and whether the edit did anything in it. -/
def run (e : Edit) (n : Node) : Node × Bool :=
  match _h : e.onKids n with
  | (none, changed) => ({ n with children := none }, changed)
  | (some cs, changed) =>
    let below := cs.attach.map fun child => e.run child.1
    ({ n with children := some (below.map (·.1)) }, changed || below.any (·.2))
termination_by e.rank n
decreasing_by exact e.descends (congrArg Prod.fst _h) child.2

/-- The node with its own child list edited, but nothing below. -/
def here (e : Edit) (n : Node) : Node := { n with children := (e.onKids n).1 }

theorem run_fst (e : Edit) (n : Node) :
    (e.run n).1 = (e.here n).mapChildren (List.map fun c => (e.run c).1) := by
  unfold here mapChildren
  rw [run]
  split
  · next h => rw [h]; rfl
  · next h =>
    rw [h]
    simp [List.map_map, Function.comp_def]

theorem run_snd (e : Edit) (n : Node) :
    (e.run n).2 = ((e.onKids n).2 || (e.here n).kids.any fun c => (e.run c).2) := by
  unfold here kids
  rw [run]
  split
  · next h => rw [h]; simp
  · next h =>
    rw [h]
    simp [List.any_map, Function.comp_def]

/-- What holds of a node if it holds of all children that the edit leaves there, holds of every
node. -/
theorem induction (e : Edit) {motive : Node → Prop}
    (node : ∀ n, (∀ c ∈ (e.here n).kids, motive c) → motive n) (n : Node) : motive n := by
  apply node
  intro c mem
  cases found : (e.onKids n).1 with
  | none => simp [here, kids, found] at mem
  | some cs =>
    have lower : e.rank c < e.rank n := e.descends found (by simpa [here, kids, found] using mem)
    exact e.induction node c
termination_by e.rank n

theorem here_eq_self (e : Edit) {n : Node} (h : (e.onKids n).2 = false) : e.here n = n := by
  unfold here
  rw [e.idle h]
  cases n
  rfl

theorem kids_here_of_step {e : Edit} {s : Step} {applies : String → Bool}
    (scans : e.onKids = s.onKids applies) (n : Node) :
    (e.here n).kids = if applies n.kind then (s.scan n.kids).1 else n.kids := by
  obtain ⟨k, children, v, a⟩ := n
  rw [here, scans]
  cases children with
  | none => simp [Step.onKids, kids]
  | some cs => by_cases selected : applies k <;> simp [Step.onKids, kids, selected]

theorem children_here_of_step {e : Edit} {s : Step} {applies : String → Bool}
    (scans : e.onKids = s.onKids applies) {n : Node} (leaf : n.children = none) :
    (e.here n).children = none := by
  rw [here, scans, Step.onKids, leaf]

theorem run_eq_self (e : Edit) {n : Node} (h : (e.run n).2 = false) : (e.run n).1 = n := by
  induction n using e.induction with
  | node n ih =>
    rw [run_snd, Bool.or_eq_false_iff, List.any_eq_false] at h
    rw [run_fst]
    -- The edit did nothing here, so the children that it went on with are those of the node.
    rw [e.here_eq_self h.1] at ih h ⊢
    obtain ⟨k, children, v, a⟩ := n
    cases children with
    | none => rfl
    | some cs =>
      have same : cs.map (fun c => (e.run c).1) = cs.map id :=
        List.map_congr_left fun c mem => ih c mem (by simpa using h.2 c mem)
      simp [mapChildren, same]

/-- An edit that does nothing below a node does to it what it does to its child list. -/
theorem run_eq_here (e : Edit) {n : Node} (idle : ∀ c ∈ (e.here n).kids, (e.run c).2 = false) :
    e.run n = (e.here n, (e.onKids n).2) := by
  apply Prod.ext
  · rw [run_fst]
    generalize e.here n = after at idle
    obtain ⟨k, children, v, a⟩ := after
    cases children with
    | none => rfl
    | some cs =>
      have same : cs.map (fun c => (e.run c).1) = cs.map id :=
        List.map_congr_left fun c mem => e.run_eq_self (idle c mem)
      simp [mapChildren, same]
  · have none : ((e.here n).kids.any fun c => (e.run c).2) = false := by simpa using idle
    rw [run_snd, none, Bool.or_false]

theorem run_changed_eq_false_iff (e : Edit) (n : Node) :
    (e.run n).2 = false ↔ ∀ m ∈ n.nodes, (e.onKids m).2 = false := by
  induction n using e.induction with
  | node n ih =>
    rw [run_snd, Bool.or_eq_false_iff, List.any_eq_false]
    constructor
    · rintro ⟨idle, below⟩ m mem
      rcases mem_nodes_iff.1 mem with rfl | ⟨child, hc, mem⟩
      · exact idle
      · rw [e.here_eq_self idle] at ih below
        exact (ih child hc).1 (by simpa using below child hc) m mem
    · intro idle
      have atRoot := idle n (mem_nodes_iff.2 (.inl rfl))
      rw [e.here_eq_self atRoot] at ih ⊢
      refine ⟨atRoot, fun child mem => ?_⟩
      rw [(ih child mem).2 fun m hm => idle m (mem_nodes_iff.2 (.inr ⟨child, mem, hm⟩))]
      exact Bool.false_ne_true

def ofStep (s : Step) (applies : String → Bool) (lowers : s.Lowers) : Edit where
  onKids := s.onKids applies
  idle := s.onKids_eq_children applies
  rank := height
  descends := by
    intro n child cs found mem
    rcases Step.mem_onKids found mem with mem | ⟨_, mem⟩
    · exact height_lt_of_mem_kids mem
    · exact Step.forall_mem_scan (lowers _) (fun c hc => height_lt_of_mem_kids hc) child mem

end Edit

end Manuscript
