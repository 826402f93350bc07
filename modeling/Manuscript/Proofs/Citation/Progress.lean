import Manuscript.Proofs.Citation.Weight

/-!
Grouping makes progress. Each rule makes the tree lighter where it does anything, so it reports a
change exactly if it makes one, no run of rules comes back to a tree that it has left, and passes
reach one that does nothing.
-/

set_option autoImplicit false

namespace Manuscript.Myst.Citation

open Manuscript.Node

/-! ### What nodes weigh -/

theorem isTight_of_isGroup {n : Node} (h : isGroup n = true) : isTight n = false := by
  simp [isTight, textOf?, isText, kind_of_isGroup h]

theorem weight_of_isGroup {n : Node} (h : isGroup n = true) :
    weight n = 2 + bracketCount (n.value.getD "") + forestWeight true false n.kids := by
  rw [weight_eq, isCite_of_isGroup h, h, ownWeight, kind_of_isGroup h]
  simp

theorem isGroup_of_text {n : Node} (h : n.kind = "text") : isGroup n = false := by
  simp [isGroup, is, h]

theorem weight_of_text {n : Node} (h : n.kind = "text") :
    weight n = bracketCount (n.value.getD "") + forestWeight false false n.kids := by
  rw [weight_eq, isCite_of_text h, isGroup_of_text h, ownWeight, h]
  simp

theorem forestWeight_group_cons (inGroup tight : Bool) {g : Node} (ns : List Node)
    (h : isGroup g = true) : forestWeight inGroup tight (g :: ns) =
      2 + bracketCount (g.value.getD "") + forestWeight true false g.kids + tight.toNat
        + forestWeight inGroup false ns := by
  rw [forestWeight_cons, weight_of_isGroup h, isCite_of_isGroup h, isTight_of_isGroup h, h]
  cases tight <;> simp

theorem forestWeight_text_cons (inGroup tight : Bool) {t : Node} (ns : List Node)
    (h : t.kind = "text") : forestWeight inGroup tight (t :: ns) =
      bracketCount (t.value.getD "") + forestWeight false false t.kids
        + forestWeight inGroup (isTight t) ns := by
  rw [forestWeight_cons, weight_of_text h, isCite_of_text h, isGroup_of_text h]
  simp

/-! ### Each rule lightens -/

theorem editLightens_bareCites : EditLightens bareCites := by
  intro n changed
  obtain ⟨k, children, v, a⟩ := n
  cases children with
  | none => simp [bareCites] at changed
  | some cs =>
    by_cases cite : k = "cite"
    · subst cite
      have bare : bareCites.here ⟨"cite", some cs, v, a⟩ = ⟨"cite", none, v, a⟩ := rfl
      rw [bare]
      simp only [weight, if_true]
      omega
    · simp [bareCites, isCite, is, cite] at changed

theorem lightens_wrapCite : Lightens wrapCite false := by
  intro ns done rest found tight
  obtain ⟨n, rfl, cite, rfl⟩ := wrapFront?_eq_some_iff.1 found
  have kind : n.kind = "cite" := by simpa [isCite, is] using cite
  have single : isGroup n = false := by simp [isGroup, is, kind]
  have loose : isTight n = false := by simp [isTight, textOf?, isText, kind]
  have isOne : isGroup (group (n.attr? "kind") [n]) = true := rfl
  have inside : forestWeight true false (group (n.attr? "kind") [n]).kids = weight n := by
    rw [show (group (n.attr? "kind") [n]).kids = [n] from rfl, forestWeight_cons]
    simp
  have blank : bracketCount ((group (n.attr? "kind") [n]).value.getD "") = 0 := rfl
  rw [List.singleton_append, forestWeight_group_cons _ _ _ isOne, inside, blank, forestWeight_cons,
    cite, single, loose]
  -- A loose citation weighs four: two go to its group, and one to a space before that.
  cases tight <;> simp <;> omega

theorem lightens_unwrapGroup : Lightens unwrapGroup true := by
  intro ns done rest found tight
  obtain ⟨n, rfl, isOne, rfl⟩ := unwrapFront?_eq_some_iff.1 found
  -- At both ends of the children a space may now be missing, and the group had weighed two.
  have inner := forestWeight_le true tight false n.kids
  have outer := forestWeight_le true (tightAfter tight n.kids) false rest
  have bit := Bool.toNat_le (tightAfter tight n.kids)
  rw [forestWeight_append, forestWeight_group_cons _ _ _ isOne]
  omega

/-- Two groups in one weigh less, also if the seam between them lacks a space. -/
theorem forestWeight_mergeGroups_lt (inGroup tight : Bool) {g h : Node} (ns : List Node)
    (left : isGroup g = true) (right : isGroup h = true) :
    forestWeight inGroup tight (mergeGroups g h :: ns) <
      forestWeight inGroup tight (g :: ns) + weight h := by
  have merged : isGroup (mergeGroups g h) = true := right
  have seam := forestWeight_le true (tightAfter false g.kids) false h.kids
  have kids : (mergeGroups g h).kids = g.kids ++ h.kids := rfl
  have value : (mergeGroups g h).value = h.value := rfl
  rw [forestWeight_group_cons _ _ _ merged, forestWeight_group_cons _ _ _ left,
    weight_of_isGroup right, kids, value, forestWeight_append]
  have bit := Bool.toNat_le (tightAfter false g.kids)
  omega

theorem lightens_mergeTouching (inGroup : Bool) : Lightens mergeTouching inGroup := by
  intro ns done rest found tight
  obtain ⟨g, h, tail, rfl, left, right, rfl, rfl⟩ := mergeFront?_eq_some_iff.1 found
  have merged := forestWeight_mergeGroups_lt inGroup tight tail left right
  rw [forestWeight_group_cons _ _ _ left] at merged ⊢
  rw [forestWeight_group_cons _ _ _ right]
  rw [weight_of_isGroup right] at merged
  simp only [List.nil_append, Bool.toNat_false]
  omega

theorem lightens_mergeSeparated (inGroup : Bool) : Lightens mergeSeparated inGroup := by
  intro ns done rest found tight
  obtain ⟨g, t, h, tail, rfl, left, _, right, rfl, rfl⟩ := joinFront?_eq_some_iff.1 found
  have merged := forestWeight_mergeGroups_lt inGroup tight tail left right
  rw [forestWeight_group_cons _ _ _ left] at merged ⊢
  rw [forestWeight_cons, forestWeight_group_cons _ _ _ right]
  rw [weight_of_isGroup right] at merged
  simp only [List.nil_append]
  omega

theorem forestWeight_citeOf (kind : Option Json) (labels : List String) :
    forestWeight true false (labels.map (citeOf kind)) = 0 := by
  induction labels with
  | nil => rfl
  | cons label labels ih =>
    have leaf : weight (citeOf kind label) = 0 ∧ isTight (citeOf kind label) = false := by
      unfold citeOf
      split <;> exact ⟨rfl, rfl⟩
    rw [List.map_cons, forestWeight_cons, leaf.1, leaf.2, ih]
    simp

theorem lightens_expandRange (order : List String) (inGroup : Bool) :
    Lightens (expandRange order) inGroup := by
  intro ns done rest found tight
  obtain ⟨g, dash, h, range, rfl, isRange, rfl⟩ := expandFront?_eq_some_iff.1 found
  obtain ⟨left, right, _, first, _, i, j, _, _, _, _, _, rfl⟩ := rangeGroup?_eq_some_iff.1 isRange
  -- Two groups give way to one, whatever the number of citations in it.
  have inside : forestWeight true false (group (g.attr? "kind")
      (((order.drop i).take (j - i + 1)).map (citeOf (first.attr? "kind")))).kids = 0 :=
    forestWeight_citeOf _ _
  have blank : bracketCount ((group (g.attr? "kind")
      (((order.drop i).take (j - i + 1)).map (citeOf (first.attr? "kind")))).value.getD "") = 0 :=
    rfl
  rw [List.singleton_append, forestWeight_group_cons _ _ _ rfl, inside, blank,
    forestWeight_group_cons _ _ _ left, forestWeight_cons inGroup false dash,
    forestWeight_group_cons _ _ _ right]
  omega

theorem bracketCount_ofList (cs : List Char) :
    bracketCount (String.ofList cs) = cs.countP isBracket := by
  rw [bracketCount, String.toList_ofList]

theorem forestWeight_retext_le (inGroup tight : Bool) {t : Node} (text : t.kind = "text")
    (cs : List Char) : forestWeight inGroup tight (retext t cs) ≤
      cs.countP isBracket + forestWeight false false t.kids := by
  unfold retext
  split
  · exact Nat.zero_le _
  · have retexted : ({ t with value := some (String.ofList cs) } : Node).kind = "text" := text
    rw [forestWeight_text_cons _ _ _ retexted, Option.getD_some, bracketCount_ofList]
    exact Nat.le_refl _

theorem weight_parenthetical_le {g : Node} (isOne : isGroup g = true) :
    weight (parenthetical g) ≤ weight g := by
  have marked (n : Node) : weight (n.setAttr "kind" (.string "parenthetical")) = weight n := by
    rw [weight_eq, weight_eq n]
    rfl
  have alike : ∀ n ∈ g.kids, (n.setAttr "kind" (.string "parenthetical")).kind = n.kind ∧
      (n.setAttr "kind" (.string "parenthetical")).value = n.value := fun _ _ => ⟨rfl, rfl⟩
  have below := forestWeight_map_le
    (f := fun n => (n.setAttr "kind" (.string "parenthetical"), false))
    alike (fun n _ => Nat.le_of_eq (marked n)) true false
  have same : isGroup (parenthetical g) = true := isOne
  have kids : (parenthetical g).kids =
      g.kids.map fun n => n.setAttr "kind" (.string "parenthetical") := rfl
  rw [weight_of_isGroup same, weight_of_isGroup isOne, kids]
  simp only at below
  have value : (parenthetical g).value = g.value := rfl
  rw [value]
  omega

theorem forestWeight_retext_dropLast_lt (inGroup tight : Bool) {t : Node} {c : Char}
    (text : t.kind = "text") (last : (t.value.getD "").toList.getLast? = some c)
    (bracket : isBracket c = true) :
    forestWeight inGroup tight (retext t (t.value.getD "").toList.dropLast) <
      bracketCount (t.value.getD "") + forestWeight false false t.kids := by
  have left := forestWeight_retext_le inGroup tight text (t.value.getD "").toList.dropLast
  have count : bracketCount (t.value.getD "") =
      (t.value.getD "").toList.dropLast.countP isBracket + 1 := by
    obtain ⟨init, same⟩ := List.getLast?_eq_some_iff.1 last
    rw [bracketCount, same, List.dropLast_concat, List.countP_append,
      List.countP_singleton, if_pos bracket]
  omega

/-- A text that loses its first character ends as before, if it still has an end. -/
theorem tightAfter_retext_tail {t : Node} (text : t.kind = "text") :
    tightAfter false (retext t (t.value.getD "").toList.tail) = false ∨
      tightAfter false (retext t (t.value.getD "").toList.tail) = isTight t := by
  cases h : (t.value.getD "").toList with
  | nil => exact .inl rfl
  | cons c cs =>
    cases cs with
    | nil => exact .inl rfl
    | cons d cs =>
      right
      have last : (c :: d :: cs).getLast? = (d :: cs).getLast? := List.getLast?_cons_cons ..
      simp only [retext, List.tail_cons, List.isEmpty_cons, Bool.false_eq_true, if_false,
        tightAfter, isTight, textOf?, isText, text, beq_self_eq_true, if_true, Option.any_some,
        needsSpace, Option.getD_some, String.toList_ofList, h, last]

/-- A text loses at least a bracket at its start, and what is behind it is no heavier for that. -/
theorem forestWeight_retext_tail_lt (inGroup : Bool) {t : Node} {c : Char} (ns : List Node)
    (text : t.kind = "text") (head : (t.value.getD "").toList.head? = some c)
    (bracket : isBracket c = true) :
    forestWeight inGroup false (retext t (t.value.getD "").toList.tail ++ ns) <
      forestWeight inGroup false (t :: ns) := by
  have left := forestWeight_retext_le inGroup false text (t.value.getD "").toList.tail
  have count : bracketCount (t.value.getD "") =
      (t.value.getD "").toList.tail.countP isBracket + 1 := by
    obtain ⟨rest, same⟩ := List.head?_eq_some_iff.1 head
    rw [bracketCount, same, List.tail_cons, List.countP_cons, if_pos bracket]
  have behind : forestWeight inGroup
      (tightAfter false (retext t (t.value.getD "").toList.tail)) ns ≤
        forestWeight inGroup (isTight t) ns := by
    rcases tightAfter_retext_tail text with loose | same
    · rw [loose]
      exact forestWeight_le inGroup false (isTight t) ns
    · exact Nat.le_of_eq (by rw [same])
  rw [forestWeight_append, forestWeight_text_cons _ _ _ text]
  omega

theorem lightens_unbracket (inGroup : Bool) : Lightens unbracket inGroup := by
  intro ns done rest found tight
  obtain ⟨before, n, after, tail, rfl, flanked, rfl, rfl⟩ := unbracketFront?_eq_some_iff.1 found
  obtain ⟨isOne, s, c, s', opening, closes, closing, head⟩ := isBracketed_iff.1 flanked
  obtain ⟨beforeText, rfl⟩ := textOf?_eq_some_iff.1 opening
  obtain ⟨afterText, rfl⟩ := textOf?_eq_some_iff.1 closing
  have opened : ∃ o, (before.value.getD "").toList.getLast? = some o ∧ isBracket o = true ∧
      isBracket c = true := by
    rcases closer?_eq_some_iff.1 closes with ⟨last, rfl⟩ | ⟨last, rfl⟩
    · exact ⟨_, last, rfl, rfl⟩
    · exact ⟨_, last, rfl, rfl⟩
  obtain ⟨o, last, openBracket, closeBracket⟩ := opened
  have front := forestWeight_retext_dropLast_lt inGroup tight beforeText last openBracket
  have back := forestWeight_retext_tail_lt inGroup tail afterText head closeBracket
  have marked : isGroup (parenthetical n) = true := isOne
  have middle := weight_parenthetical_le isOne
  rw [weight_of_isGroup marked, weight_of_isGroup isOne] at middle
  -- The brackets weigh two, and a space that the group may lack without them weighs one.
  have bit := Bool.toNat_le
    (tightAfter tight (retext before (before.value.getD "").toList.dropLast))
  rw [List.append_assoc, forestWeight_append, List.singleton_append,
    forestWeight_group_cons _ _ _ marked, forestWeight_text_cons _ _ _ beforeText,
    forestWeight_group_cons _ _ _ isOne]
  omega

theorem lightens_lowerGroup (inGroup : Bool) : Lightens lowerGroup inGroup := by
  intro ns done rest found tight
  obtain ⟨n, g, rfl, raised, rfl⟩ := lowerFront?_eq_some_iff.1 found
  obtain ⟨isSup, only, isOne⟩ := raisedGroup?_eq_some_iff.1 raised
  have kind : n.kind = "superscript" := by simpa [is] using isSup
  have cite : isCite n = false := by simp [isCite, is, kind]
  have single : isGroup n = false := by simp [isGroup, is, kind]
  have loose : isTight n = false := by simp [isTight, textOf?, isText, kind]
  have around : weight n = 2 + bracketCount (n.value.getD "") +
      (2 + bracketCount (g.value.getD "") + forestWeight true false g.kids) := by
    rw [weight_eq, only, forestWeight_group_cons _ _ _ isOne, cite, single, ownWeight, kind]
    simp
  -- The group now stands where the superscript stood, maybe without a space before it.
  have bit := Bool.toNat_le tight
  rw [List.singleton_append, forestWeight_group_cons _ _ _ isOne, forestWeight_cons, around, loose]
  omega

theorem isTight_spaced {t : Node} (text : t.kind = "text") : isTight (spaced t) = false := by
  have blank : Text.isBlank ' ' = true := rfl
  simp [isTight, textOf?, isText, spaced, text, needsSpace, blank]

theorem lightens_addSpace (inGroup : Bool) : Lightens addSpace inGroup := by
  intro ns done rest found tight
  obtain ⟨t, g, tail, rfl, isOne, needs, rfl, rfl⟩ := spaceFront?_eq_some_iff.1 found
  have text := (any_textOf?_iff.1 needs).1
  have spacedText : (spaced t).kind = "text" := text
  have brackets : bracketCount ((spaced t).value.getD "") = bracketCount (t.value.getD "") := by
    simp [spaced, bracketCount, isBracket]
  have kids : (spaced t).kids = t.kids := rfl
  have lacking : isTight t = true := needs
  rw [List.singleton_append, forestWeight_text_cons _ _ _ spacedText, isTight_spaced text, brackets,
    kids, forestWeight_text_cons _ _ _ text, lacking, forestWeight_group_cons _ _ _ isOne,
    forestWeight_group_cons _ _ _ isOne, Bool.toNat_true, Bool.toNat_false]
  omega

theorem editLightens_of_mem_rules {order : List String} {rule : Edit} (mem : rule ∈ rules order) :
    EditLightens rule := by
  simp only [rules, List.mem_cons, List.not_mem_nil, or_false] at mem
  rcases mem with rfl | rfl | rfl | rfl | rfl | rfl | rfl | rfl | rfl
  · exact editLightens_bareCites
  · apply editLightens_of_step wrapCite (· != "citeGroup") rfl
    intro kind selected
    rw [show (kind == "citeGroup") = false by simpa using selected]
    exact lightens_wrapCite
  · apply editLightens_of_step unwrapGroup (· == "citeGroup") rfl
    intro kind selected
    rw [selected]
    exact lightens_unwrapGroup
  · exact editLightens_of_step mergeTouching (fun _ => true) rfl
      fun _ _ => lightens_mergeTouching _
  · exact editLightens_of_step mergeSeparated (fun _ => true) rfl
      fun _ _ => lightens_mergeSeparated _
  · exact editLightens_of_step (expandRange order) (fun _ => true) rfl
      fun _ _ => lightens_expandRange order _
  · exact editLightens_of_step unbracket (fun _ => true) rfl
      fun _ _ => lightens_unbracket _
  · exact editLightens_of_step lowerGroup (fun _ => true) rfl
      fun _ _ => lightens_lowerGroup _
  · exact editLightens_of_step addSpace (fun _ => true) rfl
      fun _ _ => lightens_addSpace _

/-! ### Rules, passes and runs -/

theorem run_changed_iff {e : Edit} (lightens : EditLightens e) (tree : Node) :
    (e.run tree).2 = true ↔ (e.run tree).1 ≠ tree := by
  constructor
  · intro changed same
    have lighter := weight_run_le lightens tree
    rw [changed, same, Bool.toNat_true] at lighter
    omega
  · intro different
    rw [← Bool.not_eq_false]
    exact fun idle => different (e.run_eq_self idle)

theorem weight_runRules_le {rules : List Edit} (lighten : ∀ rule ∈ rules, EditLightens rule)
    (tree : Node) :
    weight (runRules rules tree).1 + (runRules rules tree).2.toNat ≤ weight tree := by
  induction rules generalizing tree with
  | nil => exact Nat.le_refl _
  | cons rule rules ih =>
    have first := weight_run_le (lighten rule List.mem_cons_self) tree
    have later := ih (fun r mem => lighten r (List.mem_cons_of_mem _ mem)) (rule.run tree).1
    have split := toNat_or_le (rule.run tree).2 (runRules rules (rule.run tree).1).2
    simp only [runRules]
    omega

theorem runRules_eq_self {rules : List Edit} {tree : Node}
    (idle : (runRules rules tree).2 = false) : (runRules rules tree).1 = tree := by
  induction rules with
  | nil => rfl
  | cons rule rules ih =>
    simp only [runRules, Bool.or_eq_false_iff] at idle ⊢
    rw [rule.run_eq_self idle.1] at idle ⊢
    exact ih idle.2

theorem weight_pass_le (order : List String) (tree : Node) :
    weight (pass order tree).1 + (pass order tree).2.toNat ≤ weight tree :=
  weight_runRules_le (fun _ mem => editLightens_of_mem_rules mem) tree

theorem pass_eq_self {order : List String} {tree : Node} (idle : (pass order tree).2 = false) :
    (pass order tree).1 = tree := runRules_eq_self idle

/-- The tree after a number of passes, whether they do anything or not. -/
def passes (order : List String) : Nat → Node → Node
  | 0, tree => tree
  | n + 1, tree => passes order n (pass order tree).1

/-- Every pass that does something uses up weight, so at most as many do as the tree weighs. -/
theorem exists_idle_pass (order : List String) (tree : Node) :
    ∃ n ≤ weight tree, (pass order (passes order n tree)).2 = false := by
  -- Not by induction on the number of passes, which is what is looked for.
  induction h : weight tree using Nat.strongRecOn generalizing tree with
  | ind w ih =>
    subst h
    cases idle : (pass order tree).2 with
    | false => exact ⟨0, Nat.zero_le _, idle⟩
    | true =>
      have lighter := weight_pass_le order tree
      rw [idle, Bool.toNat_true] at lighter
      obtain ⟨n, few, later⟩ := ih _ lighter (pass order tree).1 rfl
      exact ⟨n + 1, by omega, later⟩

theorem weight_settle_le (order : List String) (limit : Nat) (tree : Node) :
    weight (settle order limit tree).1 + (settle order limit tree).2.toNat ≤ weight tree := by
  induction limit generalizing tree with
  | zero => exact Nat.le_refl _
  | succ limit ih =>
    have first := weight_pass_le order tree
    have later := ih (pass order tree).1
    simp only [settle]
    split
    · next changed =>
      rw [changed, Bool.toNat_true] at first
      simp only [Bool.toNat_true]
      omega
    · simp only [Bool.toNat_false]
      omega

theorem settle_eq_self {order : List String} {limit : Nat} {tree : Node}
    (idle : (settle order limit tree).2 = false) : (settle order limit tree).1 = tree := by
  cases limit with
  | zero => rfl
  | succ limit =>
    simp only [settle] at idle ⊢
    split at idle
    · cases idle
    · next unchanged =>
      rw [if_neg unchanged]
      exact pass_eq_self (by simpa using unchanged)

/-- Rules and grouping report a change exactly if they make one, and passes that are not limited
in number reach one that does nothing: no tree comes back. -/
theorem grouping_makes_progress (order : List String) :
    (∀ rule ∈ rules order, ∀ tree, (rule.run tree).2 = true ↔ (rule.run tree).1 ≠ tree) ∧
    (∀ tree, (groupCitations order tree).2 = true ↔ (groupCitations order tree).1 ≠ tree) ∧
    ∀ tree, ∃ n, (pass order (passes order n tree)).2 = false ∧
      (pass order (passes order n tree)).1 = passes order n tree := by
  refine ⟨fun rule mem => run_changed_iff (editLightens_of_mem_rules mem), fun tree => ?_,
    fun tree => ?_⟩
  · constructor
    · intro changed same
      -- No pass makes the tree heavier, so no later one can bring back what the first one changed.
      have lighter := weight_settle_le order passLimit tree
      unfold groupCitations at changed same
      rw [changed, same, Bool.toNat_true] at lighter
      omega
    · intro different
      rw [← Bool.not_eq_false]
      exact fun idle => different (settle_eq_self idle)
  · obtain ⟨n, _, idle⟩ := exists_idle_pass order tree
    exact ⟨n, idle, pass_eq_self idle⟩

end Manuscript.Myst.Citation
