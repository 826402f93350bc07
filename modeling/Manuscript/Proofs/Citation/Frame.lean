import Manuscript.Proofs.Citation.FixedPoint
import Manuscript.Proofs.Citation.Lasting
import Manuscript.Proofs.Tree.Passage

/-!
What grouping leaves in its place. Each rule looks at texts, citations, groups and superscripts that
stand side by side, so that any other node parts the nodes around it into two lists that are grouped
apart from each other.
-/

set_option autoImplicit false

namespace Manuscript.Myst.Citation

open Manuscript.Node

def involvedKinds : List String := ["text", "cite", "citeGroup", "superscript"]

/-- Whether a step takes nodes with `p` off the front of a list, whatever stands behind them. -/
def Takes (s : Step) (p : Node → Prop) : Prop :=
  ∀ {ns done rest : List Node}, s.next? ns = some (done, rest) → ∃ front new back,
    ns = front ++ back ∧ rest = new ++ back ∧ (∀ n ∈ front, p n) ∧
      ∀ ds, s.next? (front ++ ds) = some (done, new ++ ds)

section
variable {s : Step} {p : Node → Prop} {d : Node}

theorem next?_append (takes : Takes s p) {ns done rest : List Node}
    (found : s.next? ns = some (done, rest)) (ds : List Node) :
    s.next? (ns ++ ds) = some (done, rest ++ ds) := by
  obtain ⟨front, new, back, rfl, rfl, -, same⟩ := takes found
  rw [List.append_assoc, List.append_assoc]
  exact same (back ++ ds)

theorem next?_eq_none_around (takes : Takes s p) (other : ¬p d) {ns : List Node}
    (unmatched : s.next? ns = none) (ds : List Node) : s.next? (ns ++ d :: ds) = none := by
  cases found : s.next? (ns ++ d :: ds) with
  | none => rfl
  | some result =>
    obtain ⟨done, rest⟩ := result
    obtain ⟨front, new, back, split, -, all, same⟩ := takes found
    -- A step that reached so far would take `d`.
    have inside : ∃ tail, ns = front ++ tail := by
      rcases List.append_eq_append_iff.1 split with ⟨tail, first, last⟩ | ⟨tail, first, -⟩
      · cases tail with
        | nil => exact ⟨[], by rw [first, List.append_nil, List.append_nil]⟩
        | cons n tail =>
          obtain ⟨rfl, -⟩ := List.cons.inj last
          exact absurd (all d (by rw [first]; simp)) other
      · exact ⟨tail, first⟩
    obtain ⟨tail, rfl⟩ := inside
    rw [same tail] at unmatched
    cases unmatched

theorem scan_around (takes : Takes s p) (none : s.next? [] = none) (other : ¬p d)
    (before after : List Node) :
    (s.scan (before ++ d :: after)).1 = (s.scan before).1 ++ d :: (s.scan after).1 := by
  induction before using s.scan_induction with
  | nil =>
    rw [List.nil_append, s.scan_of_none (next?_eq_none_around takes other none after), s.scan_nil]
    rfl
  | some ns done rest found ih =>
    rw [s.scan_of_some (next?_append takes found _), s.scan_of_some found, ih, List.append_assoc]
  | none n ns found ih =>
    have unmatched := next?_eq_none_around takes other found after
    rw [List.cons_append] at unmatched
    rw [List.cons_append, s.scan_of_none unmatched, s.scan_of_none found, ih]
    rfl

end

/-! ### Steps -/

theorem involved_of_isGroup {n : Node} (isOne : isGroup n = true) : n.kind ∈ involvedKinds := by
  rw [kind_of_isGroup isOne]
  decide

theorem involved_of_text {n : Node} {test : String → Bool} (any : (textOf? n).any test = true) :
    n.kind ∈ involvedKinds := by
  rw [(any_textOf?_iff.1 any).1]
  decide

theorem involved_of_textOf? {n : Node} {s : String} (text : textOf? n = some s) :
    n.kind ∈ involvedKinds := by
  rw [(textOf?_eq_some_iff.1 text).1]
  decide

theorem takes_of_mem_steps {order : List String} {s : Step} (mem : s ∈ steps order) :
    Takes s fun n => n.kind ∈ involvedKinds := by
  simp only [steps, List.mem_cons, List.not_mem_nil, or_false] at mem
  rcases mem with rfl | rfl | rfl | rfl | rfl | rfl | rfl | rfl
  -- In each case: the nodes that are taken, what they become, and the same step before any others.
  all_goals intro ns done rest found
  · obtain ⟨n, rfl, cite, rfl⟩ := wrapFront?_eq_some_iff.1 found
    refine ⟨[n], [], rest, rfl, rfl, List.forall_mem_singleton.2 ?_, fun ds => ?_⟩
    · rw [show n.kind = "cite" by simpa [isCite, is] using cite]
      decide
    · exact wrapFront?_eq_some_iff.2 ⟨n, rfl, cite, rfl⟩
  · obtain ⟨n, rfl, isOne, rfl⟩ := unwrapFront?_eq_some_iff.1 found
    refine ⟨[n], [], rest, rfl, rfl, ?_, fun ds => ?_⟩
    · exact List.forall_mem_singleton.2 (involved_of_isGroup isOne)
    · exact unwrapFront?_eq_some_iff.2 ⟨n, rfl, isOne, rfl⟩
  · obtain ⟨g, h, tail, rfl, left, right, rfl, rfl⟩ := mergeFront?_eq_some_iff.1 found
    refine ⟨[g, h], [mergeGroups g h], tail, rfl, rfl, ?_, fun ds => ?_⟩
    · simp [involved_of_isGroup left, involved_of_isGroup right]
    · exact mergeFront?_eq_some_iff.2 ⟨g, h, ds, rfl, left, right, rfl, rfl⟩
  · obtain ⟨g, t, h, tail, rfl, left, between, right, rfl, rfl⟩ := joinFront?_eq_some_iff.1 found
    refine ⟨[g, t, h], [mergeGroups g h], tail, rfl, rfl, ?_, fun ds => ?_⟩
    · simp [involved_of_isGroup left, involved_of_text between, involved_of_isGroup right]
    · exact joinFront?_eq_some_iff.2 ⟨g, t, h, ds, rfl, left, between, right, rfl, rfl⟩
  · obtain ⟨g, dash, h, range, rfl, isRange, rfl⟩ := expandFront?_eq_some_iff.1 found
    obtain ⟨left, right, between, -⟩ := rangeGroup?_eq_some_iff.1 isRange
    refine ⟨[g, dash, h], [], rest, rfl, rfl, ?_, fun ds => ?_⟩
    · simp [involved_of_isGroup left, involved_of_text between, involved_of_isGroup right]
    · exact expandFront?_eq_some_iff.2 ⟨g, dash, h, range, rfl, isRange, rfl⟩
  · obtain ⟨before, g, after, tail, rfl, flanked, rfl, rfl⟩ := unbracketFront?_eq_some_iff.1 found
    obtain ⟨isOne, _, _, _, opening, _, closing, _⟩ := isBracketed_iff.1 flanked
    refine ⟨[before, g, after], _, tail, rfl, rfl, ?_, fun ds => ?_⟩
    · simp [involved_of_textOf? opening, involved_of_isGroup isOne, involved_of_textOf? closing]
    · exact unbracketFront?_eq_some_iff.2 ⟨before, g, after, ds, rfl, flanked, rfl, rfl⟩
  · obtain ⟨n, g, rfl, raised, rfl⟩ := lowerFront?_eq_some_iff.1 found
    refine ⟨[n], [], rest, rfl, rfl, List.forall_mem_singleton.2 ?_, fun ds => ?_⟩
    · rw [show n.kind = "superscript" by
        simpa [is] using (raisedGroup?_eq_some_iff.1 raised).1]
      decide
    · exact lowerFront?_eq_some_iff.2 ⟨n, g, rfl, raised, rfl⟩
  · obtain ⟨t, g, tail, rfl, isOne, tight, rfl, rfl⟩ := spaceFront?_eq_some_iff.1 found
    refine ⟨[t, g], [g], tail, rfl, rfl, ?_, fun ds => ?_⟩
    · simp [involved_of_text tight, involved_of_isGroup isOne]
    · exact spaceFront?_eq_some_iff.2 ⟨t, g, ds, rfl, isOne, tight, rfl, rfl⟩

theorem next?_nil (s : Step) : s.next? [] = none := by
  cases found : s.next? [] with
  | none => rfl
  | some result =>
    obtain ⟨done, rest⟩ := result
    exact absurd (s.shorter found) (Nat.not_lt_zero _)

/-! ### Rules, passes and runs -/

/-- Whether the rules leave nodes of a kind where they are. -/
def Uninvolved (kind : String) : Prop := kind ∉ involvedKinds

instance : DecidablePred Uninvolved := fun kind =>
  inferInstanceAs (Decidable (kind ∉ involvedKinds))

theorem uninvolved_root : Uninvolved "root" := by decide

section
variable {wanted : Node → Bool} {order : List String}

/-- An edit that does the same to all child lists, and to the parts of one apart, is a passage. -/
theorem skips_of_here {e : Edit} (change : List Node → List Node) (nil : change [] = [])
    (here : ∀ n, Uninvolved n.kind → e.here n = n.mapChildren change)
    (around : ∀ {n : Node} (before after : List Node), Uninvolved n.kind →
      change (before ++ n :: after) = change before ++ n :: change after)
    (clear : ∀ {ns : List Node}, Clear wanted ns →
      Clear wanted (onForest (fun n => (e.run n).1) ns)) :
    Skips wanted Uninvolved fun n => (e.run n).1 := by
  have own (n : Node) (other : Uninvolved n.kind) :
      (e.run n).1 = n.mapChildren fun cs => (change cs).map fun c => (e.run c).1 := by
    rw [e.run_fst, here n other, mapChildren_mapChildren]
  refine .of_mapChildren uninvolved_root own
    ⟨?_, fun {n} before after other => ?_, fun inside => ?_⟩
  · simp only [nil, List.map_nil]
  · simp only [around before after other, List.map_append, List.map_cons, own n other]
  · have kept := clear inside
    rw [onForest, own _ uninvolved_root] at kept
    exact kept

variable (lasting : Lasting order fun n => wanted n = false)
  (root : ∀ ns, wanted (.branch "root" ns) = false)
include lasting root

theorem clear_onForest {rule : Edit} (mem : rule ∈ rules order) {ns : List Node}
    (clear : Clear wanted ns) : Clear wanted (onForest (fun n => (rule.run n).1) ns) := by
  have all : Everywhere (fun n => wanted n = false) (.branch "root" ns) :=
    everywhere_iff.2 ⟨root ns, clear⟩
  exact (lasting.everywhere_rule mem all).below

theorem skips_rule {rule : Edit} (mem : rule ∈ rules order) :
    Skips wanted Uninvolved fun n => (rule.run n).1 := by
  have clear {ns : List Node} (inside : Clear wanted ns) :=
    clear_onForest lasting root mem inside
  rcases List.mem_cons.1 mem with rfl | mem
  · refine skips_of_here (fun ns => ns) rfl (fun n other => ?_) (fun _ _ _ => rfl) clear
    have free : isCite n = false := by
      rw [isCite, is, beq_eq_false_iff_ne]
      exact fun same => other (by rw [same]; decide)
    rw [here_bareCites, free, if_neg Bool.false_ne_true, mapChildren_of_eq_self rfl]
  · obtain ⟨s, applies, step, scans, alike⟩ := exists_step_of_mem mem
    -- Away from groups, a rule scans the children of all nodes or of none.
    have same (n : Node) (other : Uninvolved n.kind) : applies n.kind = applies "root" :=
      alike n.kind fun group => other (by rw [group]; decide)
    refine skips_of_here (fun ns => if applies "root" then (s.scan ns).1 else ns) ?_
      (fun n other => ?_) (fun {n} before after other => ?_) clear
    · simp
    · rw [here_eq_mapChildren scans, same n other]
    · split
      · exact scan_around (takes_of_mem_steps step) (next?_nil s) other before after
      · rfl

theorem skips_runRules {list : List Edit} (known : ∀ rule ∈ list, rule ∈ rules order) :
    Skips wanted Uninvolved fun n => (runRules list n).1 := by
  induction list with
  | nil => exact .refl wanted Uninvolved
  | cons rule list ih =>
    obtain ⟨first, rest⟩ := List.forall_mem_cons.1 known
    exact (skips_rule lasting root first).trans uninvolved_root (ih rest)

theorem skips_passes (n : Nat) : Skips wanted Uninvolved (passes order n) := by
  induction n with
  | zero => exact .refl wanted Uninvolved
  | succ n ih =>
    have first : Skips wanted Uninvolved fun n => (runRules (rules order) n).1 :=
      skips_runRules lasting root fun _ mem => mem
    exact first.trans uninvolved_root ih

/-- Grouping is a passage for all nodes that the rules do not deal with. -/
theorem skips_groupCitations :
    Skips wanted Uninvolved fun n => (groupCitations order n).1 := by
  have same : (fun n => (groupCitations order n).1) = passes order passLimit :=
    funext (settle_fst order passLimit)
  rw [same]
  exact skips_passes lasting root passLimit

end

end Manuscript.Myst.Citation
