import Manuscript.Myst.Citation.Grouping

/-!
What grouping uses up. Groups and superscripts weigh two each, loose citations four, and each
bracket in a text, each child list of a citation and each missing space before a group weighs one.
Citations in groups weigh nothing, so that the expansion of a range makes a tree lighter although
it may make it larger. Every rule that does anything makes the tree lighter.
-/

set_option autoImplicit false

namespace Manuscript.Myst.Citation

open Manuscript.Node

/-- A text that would need a space before a group. -/
def isTight (n : Node) : Bool := (textOf? n).any needsSpace

def isBracket (c : Char) : Bool := c == '(' || c == ')' || c == '[' || c == ']'

def bracketCount (s : String) : Nat := s.toList.countP isBracket

/-- What a node weighs by its kind and its own text. -/
def ownWeight (kind : String) (value : Option String) : Nat :=
  (if kind = "citeGroup" ∨ kind = "superscript" then 2 else 0) + bracketCount (value.getD "")

mutual
def weight : Node → Nat
  | ⟨k, none, v, _⟩ => ownWeight k v
  | ⟨k, some cs, v, _⟩ =>
    ownWeight k v + (if k = "cite" then 1 else 0) + forestWeight (k == "citeGroup") false cs

/-- What nodes weigh that are the children of a group or not, and come after a text that needs a
space or not. -/
def forestWeight (inGroup afterTight : Bool) : List Node → Nat
  | [] => 0
  | n :: ns =>
    weight n + (if !inGroup && isCite n then 4 else 0) + (if afterTight && isGroup n then 1 else 0)
      + forestWeight inGroup (isTight n) ns
end

theorem weight_eq (n : Node) : weight n = ownWeight n.kind n.value +
    (if isCite n && n.children.isSome then 1 else 0) + forestWeight (isGroup n) false n.kids := by
  obtain ⟨k, cs, v, a⟩ := n
  cases cs <;> simp [weight, kids, forestWeight, isCite, isGroup, is]

@[simp] theorem forestWeight_nil (inGroup tight : Bool) : forestWeight inGroup tight [] = 0 := rfl

theorem forestWeight_cons (inGroup tight : Bool) (n : Node) (ns : List Node) :
    forestWeight inGroup tight (n :: ns) = weight n + (if !inGroup && isCite n then 4 else 0)
      + (if tight && isGroup n then 1 else 0) + forestWeight inGroup (isTight n) ns := rfl

/-- Whether what follows comes after a text that needs a space. -/
def tightAfter (tight : Bool) : List Node → Bool
  | [] => tight
  | n :: ns => tightAfter (isTight n) ns

theorem forestWeight_append (inGroup tight : Bool) (xs ys : List Node) :
    forestWeight inGroup tight (xs ++ ys) =
      forestWeight inGroup tight xs + forestWeight inGroup (tightAfter tight xs) ys := by
  induction xs generalizing tight with
  | nil => simp [tightAfter]
  | cons x xs ih =>
    rw [List.cons_append, forestWeight_cons, forestWeight_cons, ih, tightAfter]
    omega

/-- A text before a forest makes a difference for its first node only. -/
theorem forestWeight_le (inGroup tight other : Bool) (ns : List Node) :
    forestWeight inGroup tight ns ≤ forestWeight inGroup other ns + tight.toNat := by
  cases ns with
  | nil => exact Nat.zero_le _
  | cons n ns =>
    rw [forestWeight_cons, forestWeight_cons]
    have bit : (if tight && isGroup n then 1 else 0) ≤ tight.toNat := by
      cases tight <;> cases isGroup n <;> decide
    omega

/-! ### Scans and runs -/

/-- Whether a step makes every list lighter to which it applies, among the children of a group or
of other nodes. -/
def Lightens (s : Step) (inGroup : Bool) : Prop :=
  ∀ {ns done rest : List Node}, s.next? ns = some (done, rest) → ∀ tight : Bool,
    forestWeight inGroup tight (done ++ rest) < forestWeight inGroup tight ns

theorem forestWeight_scan_le {s : Step} {inGroup : Bool} (lightens : Lightens s inGroup)
    (ns : List Node) (tight : Bool) :
    forestWeight inGroup tight (s.scan ns).1 + (s.scan ns).2.toNat ≤
      forestWeight inGroup tight ns := by
  induction ns using s.scan_induction generalizing tight with
  | nil => simp
  | some ns done rest found ih =>
    rw [s.scan_of_some found]
    have step := lightens found tight
    -- What is done stays, and the scan goes on behind it, after the last text in it.
    have rest := ih (tightAfter tight done)
    rw [forestWeight_append] at step ⊢
    simp only [Bool.toNat_true]
    omega
  | none n ns found ih =>
    rw [s.scan_of_none found]
    have rest := ih (isTight n)
    simp only [forestWeight_cons]
    omega

theorem toNat_or_le (a b : Bool) : (a || b).toNat ≤ a.toNat + b.toNat := by
  cases a <;> cases b <;> decide

theorem forestWeight_map_le {ns : List Node} {f : Node → Node × Bool}
    (alike : ∀ n ∈ ns, (f n).1.kind = n.kind ∧ (f n).1.value = n.value)
    (lighter : ∀ n ∈ ns, weight (f n).1 + (f n).2.toNat ≤ weight n) (inGroup tight : Bool) :
    forestWeight inGroup tight (ns.map fun n => (f n).1) + (ns.any fun n => (f n).2).toNat ≤
      forestWeight inGroup tight ns := by
  induction ns generalizing tight with
  | nil => simp
  | cons n ns ih =>
    obtain ⟨kind, value⟩ := alike n List.mem_cons_self
    have front := lighter n List.mem_cons_self
    have rest := ih (fun m mem => alike m (List.mem_cons_of_mem _ mem))
      (fun m mem => lighter m (List.mem_cons_of_mem _ mem)) (isTight n)
    have cite : isCite (f n).1 = isCite n := isCite_congr kind
    have isOne : isGroup (f n).1 = isGroup n := isGroup_congr kind
    have text : isTight (f n).1 = isTight n := by
      unfold isTight textOf? isText
      rw [kind, value]
    have split := toNat_or_le (f n).2 (ns.any fun n => (f n).2)
    rw [List.map_cons, forestWeight_cons, forestWeight_cons, cite, isOne, text, List.any_cons]
    omega

theorem weight_mapChildren_le {n : Node} {f : Node → Node × Bool}
    (alike : ∀ c ∈ n.kids, (f c).1.kind = c.kind ∧ (f c).1.value = c.value)
    (lighter : ∀ c ∈ n.kids, weight (f c).1 + (f c).2.toNat ≤ weight c) :
    weight (n.mapChildren (List.map fun c => (f c).1)) + (n.kids.any fun c => (f c).2).toNat ≤
      weight n := by
  have below := forestWeight_map_le alike lighter (isGroup n) false
  obtain ⟨k, children, v, a⟩ := n
  cases children with
  | none => simp [mapChildren, kids]
  | some cs =>
    simp only [mapChildren, Option.map_some, kids, Option.getD_some, weight, isGroup, is]
      at below ⊢
    omega

/-- Whether an edit makes every node lighter where it does anything. -/
def EditLightens (e : Edit) : Prop :=
  ∀ n : Node, (e.onKids n).2 = true → weight (e.here n) < weight n

/-- An edit that lightens nodes lightens every tree in which it does anything, and makes none
heavier. -/
theorem weight_run_le {e : Edit} (lightens : EditLightens e) (n : Node) :
    weight (e.run n).1 + (e.run n).2.toNat ≤ weight n := by
  -- The induction is on the children that the edit leaves, which need not be those of the node.
  induction n using e.induction with
  | node n ih =>
    have atNode : weight (e.here n) + (e.onKids n).2.toNat ≤ weight n := by
      cases h : (e.onKids n).2 with
      | true =>
        have := lightens n h
        simp only [Bool.toNat_true]
        omega
      | false =>
        rw [e.here_eq_self h]
        exact Nat.le_refl _
    have below : weight ((e.here n).mapChildren (List.map fun c => (e.run c).1)) +
        ((e.here n).kids.any fun c => (e.run c).2).toNat ≤ weight (e.here n) := by
      apply weight_mapChildren_le _ ih
      intro c _
      rw [e.run_fst]
      exact ⟨rfl, rfl⟩
    have split := toNat_or_le (e.onKids n).2 ((e.here n).kids.any fun c => (e.run c).2)
    rw [e.run_fst, e.run_snd]
    omega

theorem editLightens_of_step {e : Edit} (s : Step) (applies : String → Bool)
    (scans : e.onKids = s.onKids applies)
    (lightens : ∀ kind, applies kind = true → Lightens s (kind == "citeGroup")) :
    EditLightens e := by
  intro n changed
  obtain ⟨k, children, v, a⟩ := n
  rw [scans] at changed
  cases children with
  | none => cases changed
  | some cs =>
    by_cases selected : applies k
    · have lighter := forestWeight_scan_le (lightens k selected) cs false
      simp only [Step.onKids, selected, if_true] at changed
      simp only [Edit.here, scans, Step.onKids, selected, if_true, weight]
      rw [changed, Bool.toNat_true] at lighter
      omega
    · simp [Step.onKids, selected] at changed

end Manuscript.Myst.Citation
