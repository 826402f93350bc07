import Manuscript.Proofs.Citation.CleanPass
import Manuscript.Proofs.Citation.Progress

/-!
When grouping ends in a fixed point. Passes are limited in number, and each removes one bracket on
either side of a group, so that a group in more brackets than passes is not settled in one run. A
run settles a tree exactly if one of the passes that it is granted does nothing.
-/

set_option autoImplicit false

namespace Manuscript.Myst.Citation

open Manuscript.Node

/-! ### Passes -/

theorem passes_add (order : List String) (m n : Nat) (tree : Node) :
    passes order (m + n) tree = passes order n (passes order m tree) := by
  induction m generalizing tree with
  | zero => rw [Nat.zero_add, passes]
  | succ m ih => rw [Nat.add_right_comm, passes, ih, passes]

theorem passes_eq_self {order : List String} {tree : Node} (idle : (pass order tree).2 = false)
    (n : Nat) : passes order n tree = tree := by
  induction n with
  | zero => rfl
  | succ n ih => rw [passes, pass_eq_self idle, ih]

/-- Stopping early makes no difference, as the passes that are left would do nothing. -/
theorem settle_fst (order : List String) (limit : Nat) (tree : Node) :
    (settle order limit tree).1 = passes order limit tree := by
  induction limit generalizing tree with
  | zero => rfl
  | succ limit ih =>
    simp only [settle, passes]
    split
    · exact ih _
    · next idle =>
      simp only [Bool.not_eq_true] at idle
      rw [pass_eq_self idle, passes_eq_self idle]

theorem settle_eq_idle_iff {order : List String} {limit : Nat} {tree : Node} (some : 0 < limit) :
    settle order limit tree = (tree, false) ↔ (pass order tree).2 = false := by
  obtain ⟨limit, rfl⟩ := Nat.exists_eq_succ_of_ne_zero (Nat.ne_of_gt some)
  simp only [settle]
  split
  · next changed => simp [changed]
  · next idle =>
    simp only [Bool.not_eq_true] at idle
    simp [idle, pass_eq_self idle]

theorem idle_passes_iff {order : List String} {limit : Nat} {tree : Node} :
    (pass order (passes order limit tree)).2 = false ↔
      ∃ n ≤ limit, (pass order (passes order n tree)).2 = false := by
  constructor
  · exact fun idle => ⟨limit, Nat.le_refl _, idle⟩
  · rintro ⟨n, few, idle⟩
    -- The passes after the one that does nothing leave the tree where it is.
    rw [← Nat.add_sub_cancel' few, passes_add, passes_eq_self idle, idle]

/-! ### Groups in many brackets -/

def citation : Node := .leaf "cite" (Dict.empty.insert "kind" (.string "parenthetical"))

def lone : Node := group (some (.string "parenthetical")) [citation]

def brackets (c : Char) (layers : Nat) : Node := .text (String.ofList (List.replicate layers c))

/-- A paragraph of one group, in as many brackets as there are layers. -/
def bracketed (layers : Nat) : Node :=
  .branch "paragraph" [brackets '(' layers, lone, brackets ')' layers]

theorem nodes_bracketed (layers : Nat) : (bracketed layers).nodes =
    [bracketed layers, brackets '(' layers, lone, citation, brackets ')' layers] := rfl

theorem value_brackets (c : Char) (layers : Nat) :
    ((brackets c layers).value.getD "").toList = List.replicate layers c :=
  String.toList_ofList

theorem retext_brackets (c : Char) (layers : Nat) {cs : List Char}
    (same : cs = List.replicate (layers + 1) c) (m : Nat) :
    retext (brackets c m) cs = [brackets c (layers + 1)] := by
  subst same
  rfl

theorem scan_citation_idle {s : Step} (unmatched : s.next? [citation] = none) :
    (s.scan [citation]).2 = false := by
  rw [s.scan_of_none unmatched, s.scan_nil]

/-- A rule does nothing if it matches neither in the paragraph nor in the group. -/
theorem run_bracketed_idle {e : Edit} (s : Step) (applies : String → Bool)
    (scans : e.onKids = s.onKids applies) (layers : Nat)
    (outer : applies "paragraph" = true →
      s.next? (bracketed layers).kids = none ∧ s.next? [lone, brackets ')' layers] = none ∧
        s.next? [brackets ')' layers] = none)
    (inner : applies "citeGroup" = true → s.next? [citation] = none) :
    (e.run (bracketed layers)).2 = false := by
  have paragraph : (e.onKids (bracketed layers)).2 = false := by
    rw [scans, s.onKids_changed_eq_false_iff]
    intro selected
    obtain ⟨whole, back, last⟩ := outer selected
    rw [bracketed, kids, branch, Option.getD_some] at whole ⊢
    rw [s.scan_of_none whole, s.scan_of_none back, s.scan_of_none last, s.scan_nil]
  have inGroup : (e.onKids lone).2 = false := by
    rw [scans, s.onKids_changed_eq_false_iff]
    exact fun selected => scan_citation_idle (inner selected)
  rw [e.run_changed_eq_false_iff, nodes_bracketed]
  intro m mem
  simp only [List.mem_cons, List.not_mem_nil, or_false] at mem
  rcases mem with rfl | rfl | rfl | rfl | rfl
  · exact paragraph
  · rw [scans]; rfl
  · exact inGroup
  · rw [scans]; rfl
  · rw [scans]; rfl

theorem needsSpace_brackets (layers : Nat) :
    (textOf? (brackets '(' layers)).any needsSpace = false := by
  have opening : needsSpace (String.ofList (List.replicate layers '(')) = false := by
    rw [needsSpace, String.toList_ofList]
    cases layers with
    | zero => rfl
    | succ layers => rw [List.getLast?_replicate]; rfl
  exact opening

theorem idle_around_brackets (order : List String) {rule : Edit} (layers : Nat)
    (mem : rule ∈ [bareCites, groupCites, flattenGroups, joinGroups, dropSeparators,
      expandRanges order, lowerGroups, spaceGroups]) :
    (rule.run (bracketed layers)).2 = false := by
  simp only [List.mem_cons, List.not_mem_nil, or_false] at mem
  rcases mem with rfl | rfl | rfl | rfl | rfl | rfl | rfl | rfl
  · rw [Edit.run_changed_eq_false_iff, nodes_bracketed]
    intro m mem
    simp only [List.mem_cons, List.not_mem_nil, or_false] at mem
    rcases mem with rfl | rfl | rfl | rfl | rfl <;> rfl
  · exact run_bracketed_idle wrapCite (· != "citeGroup") rfl layers (fun _ => ⟨rfl, rfl, rfl⟩)
      fun inside => absurd inside (by decide)
  · exact run_bracketed_idle unwrapGroup (· == "citeGroup") rfl layers
      (fun outside => absurd outside (by decide)) fun _ => rfl
  · exact run_bracketed_idle mergeTouching (fun _ => true) rfl layers (fun _ => ⟨rfl, rfl, rfl⟩)
      fun _ => rfl
  · exact run_bracketed_idle mergeSeparated (fun _ => true) rfl layers (fun _ => ⟨rfl, rfl, rfl⟩)
      fun _ => rfl
  · exact run_bracketed_idle (expandRange order) (fun _ => true) rfl layers
      (fun _ => ⟨rfl, rfl, rfl⟩) fun _ => rfl
  · exact run_bracketed_idle lowerGroup (fun _ => true) rfl layers (fun _ => ⟨rfl, rfl, rfl⟩)
      fun _ => rfl
  · refine run_bracketed_idle addSpace (fun _ => true) rfl layers (fun _ => ⟨?_, rfl, rfl⟩)
      fun _ => rfl
    show (if isGroup lone && (textOf? (brackets '(' layers)).any needsSpace then _ else none) = none
    rw [needsSpace_brackets]
    rfl

theorem unbracketFront?_bracketed (layers : Nat) :
    unbracketFront? (bracketed (layers + 1)).kids =
      some (retext (brackets '(' (layers + 1)) (List.replicate layers '(') ++ [lone],
        retext (brackets ')' (layers + 1)) (List.replicate layers ')')) := by
  have flanked :
      isBracketed (brackets '(' (layers + 1)) lone (brackets ')' (layers + 1)) = true := by
    refine isBracketed_iff.2 ⟨rfl, _, ')', _, textOf?_eq_some_iff.2 ⟨rfl, rfl⟩,
      closer?_eq_some_iff.2 (.inl ⟨?_, rfl⟩), textOf?_eq_some_iff.2 ⟨rfl, rfl⟩, ?_⟩
    · rw [value_brackets, List.getLast?_replicate]
      rfl
    · rw [value_brackets]
      rfl
  refine unbracketFront?_eq_some_iff.2 ⟨_, lone, _, [], rfl, flanked, ?_, ?_⟩
  · rw [value_brackets, List.dropLast_replicate]
    rfl
  · rw [value_brackets, List.tail_replicate, List.append_nil]
    rfl

theorem run_dropBrackets_idle {n : Node}
    (unmatched : ∀ m ∈ n.nodes, (unbracket.scan m.kids).2 = false) :
    (dropBrackets.run n).2 = false := by
  rw [Edit.run_changed_eq_false_iff]
  exact fun m mem => (unbracket.onKids_changed_eq_false_iff _).2 fun _ => unmatched m mem

theorem run_dropBrackets_bracketed (layers : Nat) :
    dropBrackets.run (bracketed (layers + 2)) = (bracketed (layers + 1), true) := by
  have found : unbracket.next? (bracketed (layers + 2)).kids = _ :=
    unbracketFront?_bracketed (layers + 1)
  have last : unbracket.next? [brackets ')' (layers + 1)] = none := rfl
  rw [retext_brackets _ _ rfl, retext_brackets _ _ rfl] at found
  have edited : dropBrackets.onKids (bracketed (layers + 2)) =
      ((bracketed (layers + 1)).children, true) := by
    have scanned : unbracket.scan (bracketed (layers + 2)).kids =
        ((bracketed (layers + 1)).kids, true) := by
      rw [unbracket.scan_of_some found, unbracket.scan_of_none last, unbracket.scan_nil]
      rfl
    have scans : dropBrackets.onKids = unbracket.onKids fun _ => true := rfl
    have children : (bracketed (layers + 2)).children = some (bracketed (layers + 2)).kids := rfl
    rw [scans, unbracket.onKids_of_selected rfl, children, Option.map_some, scanned]
    rfl
  have here : dropBrackets.here (bracketed (layers + 2)) = bracketed (layers + 1) := by
    rw [Edit.here, edited]
    rfl
  -- Texts have no children, and the group holds a citation without brackets.
  have below : ∀ c ∈ (bracketed (layers + 1)).kids, (dropBrackets.run c).2 = false := by
    intro c mem
    apply run_dropBrackets_idle
    simp only [bracketed, branch, kids, Option.getD_some, List.mem_cons, List.not_mem_nil,
      or_false] at mem
    rcases mem with rfl | rfl | rfl
    · exact List.forall_mem_singleton.2 (congrArg _ unbracket.scan_nil)
    · exact List.forall_mem_cons.2 ⟨scan_citation_idle rfl,
        List.forall_mem_singleton.2 (congrArg _ unbracket.scan_nil)⟩
    · exact List.forall_mem_singleton.2 (congrArg _ unbracket.scan_nil)
  rw [dropBrackets.run_eq_here (here ▸ below), here, edited]

theorem runRules_around (before after : List Edit) {rule : Edit} {tree result : Node}
    (idleBefore : ∀ r ∈ before, (r.run tree).2 = false) (works : rule.run tree = (result, true))
    (idleAfter : ∀ r ∈ after, (r.run result).2 = false) :
    runRules (before ++ rule :: after) tree = (result, true) := by
  induction before with
  | nil =>
    have idle := runRules_idle_iff.2 idleAfter
    simp only [List.nil_append, runRules, works, runRules_eq_self idle, Bool.true_or]
  | cons r before ih =>
    obtain ⟨idle, rest⟩ := List.forall_mem_cons.1 idleBefore
    simp only [List.cons_append, runRules, r.run_eq_self idle, ih rest, idle, Bool.false_or]

/-- A pass takes one layer of brackets away and does nothing else. -/
theorem pass_bracketed (order : List String) (layers : Nat) :
    pass order (bracketed (layers + 2)) = (bracketed (layers + 1), true) := by
  apply runRules_around [bareCites, groupCites, flattenGroups, joinGroups, dropSeparators,
    expandRanges order] [lowerGroups, spaceGroups]
  · exact fun r mem => idle_around_brackets order _ (List.mem_append_left _ mem)
  · exact run_dropBrackets_bracketed layers
  · exact fun r mem => idle_around_brackets order _ (List.mem_append_right
      [bareCites, groupCites, flattenGroups, joinGroups, dropSeparators, expandRanges order] mem)

theorem passes_bracketed (order : List String) (layers limit : Nat) :
    passes order limit (bracketed (limit + layers + 1)) = bracketed (layers + 1) := by
  induction limit with
  | zero => rw [Nat.zero_add, passes]
  | succ limit ih =>
    rw [show limit + 1 + layers + 1 = limit + layers + 2 by omega, passes, pass_bracketed]
    exact ih

theorem pass_bracketed_changed (order : List String) (layers : Nat) :
    (pass order (bracketed (layers + 1))).2 = true := by
  rw [← Bool.not_eq_false]
  intro idle
  -- If no rule found anything to do, neither would the one for brackets.
  have mem : dropBrackets ∈ rules order := by simp [rules]
  have quiet := (Edit.run_changed_eq_false_iff _ _).1 (runRules_idle_iff.1 idle _ mem)
    (bracketed (layers + 1)) (by rw [nodes_bracketed]; exact List.mem_cons_self)
  have unmatched := (unbracket.onKids_changed_eq_false_iff _).1 quiet rfl
  have found : unbracket.next? (bracketed (layers + 1)).kids = _ := unbracketFront?_bracketed layers
  rw [unbracket.scan_of_some found] at unmatched
  cases unmatched

/-- A group in more brackets than there are passes: the second run goes on with what the first one
has left. -/
theorem brackets_outlast_passes :
    ¬groupCitations [] (groupCitations [] (bracketed (passLimit + 1))).1 =
      ((groupCitations [] (bracketed (passLimit + 1))).1, false) := by
  unfold groupCitations
  rw [settle_fst, passes_bracketed [] 0 passLimit, settle_eq_idle_iff (by decide),
    pass_bracketed_changed]
  exact Bool.noConfusion

/-- A second run does nothing exactly if a pass of the first one did nothing or the next one would,
which is so whenever the tree weighs no more than there are passes. -/
theorem second_run_idle_iff (order : List String) (tree : Node) :
    (groupCitations order (groupCitations order tree).1 = ((groupCitations order tree).1, false) ↔
      ∃ n ≤ passLimit, (pass order (passes order n tree)).2 = false) ∧
    (weight tree ≤ passLimit → groupCitations order (groupCitations order tree).1 =
      ((groupCitations order tree).1, false)) := by
  have settled : groupCitations order (groupCitations order tree).1 =
      ((groupCitations order tree).1, false) ↔
        ∃ n ≤ passLimit, (pass order (passes order n tree)).2 = false := by
    unfold groupCitations
    rw [settle_fst order passLimit tree, settle_eq_idle_iff (by decide), idle_passes_iff]
  refine ⟨settled, fun light => settled.2 ?_⟩
  obtain ⟨n, few, idle⟩ := exists_idle_pass order tree
  exact ⟨n, Nat.le_trans few light, idle⟩

end Manuscript.Myst.Citation
