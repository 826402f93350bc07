import Manuscript.Myst.Citation.Grouping

/-!
What a pass of the rules that changes nothing says about a tree. Each rule finds nothing to do
exactly if no node has the children that the rule is for, whatever the order in which its scan
goes through them.
-/

set_option autoImplicit false

namespace Manuscript.Myst.Citation

open Manuscript.Node

/-! ### Texts between groups -/

/-- Characters of a form, with blanks before and behind them. -/
def InBlanks (core : List Char → Prop) (cs : List Char) : Prop :=
  ∃ before mid after, cs = before ++ mid ++ after ∧ (∀ c ∈ before, Text.isBlank c = true) ∧
    core mid ∧ ∀ c ∈ after, Text.isBlank c = true

/-- A comma or a semicolon, or the word `and`, which may follow one of the two behind blanks. -/
def SeparatorCore (cs : List Char) : Prop :=
  (∃ mark, (mark = ',' ∨ mark = ';') ∧ cs = [mark]) ∨
    ∃ marks blanks, (marks = [] ∨ ∃ mark, (mark = ',' ∨ mark = ';') ∧ marks = [mark]) ∧
      (∀ c ∈ blanks, Text.isBlank c = true) ∧ cs = marks ++ blanks ++ ['a', 'n', 'd']

def DashCore (cs : List Char) : Prop := cs = ['-'] ∨ cs = ['–']

theorem isSeparatorMark_iff {c : Char} : isSeparatorMark c = true ↔ c = ',' ∨ c = ';' := by
  simp [isSeparatorMark]

theorem not_isBlank_of_mark {c : Char} (mark : c = ',' ∨ c = ';') : Text.isBlank c = false := by
  rcases mark with rfl | rfl <;> rfl

theorem isSeparator_iff {s : String} :
    isSeparator s = true ↔ InBlanks SeparatorCore s.toList := by
  unfold isSeparator
  constructor
  · intro separates
    obtain ⟨before, after, same, front, back⟩ := Text.exists_trimWhile Text.isBlank s.toList
    refine ⟨before, _, after, same, front, ?_, back⟩
    -- Only the form of what is left of the text matters from here on.
    generalize Text.trimWhile Text.isBlank s.toList = mid at separates
    cases mid with
    | nil => cases separates
    | cons c cs =>
      simp only at separates
      split at separates
      · next mark =>
        have marked := isSeparatorMark_iff.1 mark
        rcases Bool.or_eq_true_iff.1 separates with alone | word
        · exact .inl ⟨c, marked, by rw [List.isEmpty_iff.1 alone]⟩
        · refine .inr ⟨[c], cs.takeWhile Text.isBlank, .inr ⟨c, marked, rfl⟩,
            List.all_eq_true.1 List.all_takeWhile, ?_⟩
          rw [← beq_iff_eq.1 word, List.append_assoc, List.takeWhile_append_dropWhile]
          rfl
      · exact .inr ⟨[], [], .inl rfl, List.forall_mem_nil _, beq_iff_eq.1 separates⟩
  · rintro ⟨before, mid, after, same, front, core, back⟩
    rw [same]
    rcases core with ⟨mark, marked, rfl⟩ | ⟨marks, blanks, rfl | ⟨mark, marked, rfl⟩, blank, rfl⟩
    · have solid := not_isBlank_of_mark marked
      rw [Text.trimWhile_append front back rfl solid rfl solid]
      simp [isSeparatorMark_iff.2 marked]
    · -- The blanks before the word are as good as blanks before the whole.
      have front' : ∀ c ∈ before ++ blanks, Text.isBlank c = true := by
        intro c mem
        rcases List.mem_append.1 mem with mem | mem
        · exact front c mem
        · exact blank c mem
      rw [List.nil_append, ← List.append_assoc, Text.trimWhile_append front' back rfl rfl rfl rfl]
      rfl
    · have last : ([mark] ++ blanks ++ ['a', 'n', 'd']).getLast? = some 'd' := by
        rw [List.getLast?_append]
        rfl
      rw [Text.trimWhile_append front back rfl (not_isBlank_of_mark marked) last rfl]
      simp [isSeparatorMark_iff.2 marked, List.dropWhile_append_of_pos blank]
      rfl

theorem isDash_iff {s : String} : isDash s = true ↔ InBlanks DashCore s.toList := by
  unfold isDash
  simp only [Bool.or_eq_true, beq_iff_eq]
  constructor
  · intro dash
    obtain ⟨before, after, same, front, back⟩ := Text.exists_trimWhile Text.isBlank s.toList
    exact ⟨before, _, after, same, front, dash, back⟩
  · rintro ⟨before, mid, after, same, front, core, back⟩
    rw [same]
    rcases core with rfl | rfl
    · exact .inl (Text.trimWhile_append front back rfl rfl rfl rfl)
    · exact .inr (Text.trimWhile_append front back rfl rfl rfl rfl)

/-! ### What the rules look for -/

theorem infix_iff_append_suffix {ms ns : List Node} :
    ms <:+: ns ↔ ∃ tail, ms ++ tail <:+ ns := by
  constructor
  · rintro ⟨before, after, rfl⟩
    exact ⟨after, before, by rw [List.append_assoc]⟩
  · rintro ⟨tail, before, rfl⟩
    exact ⟨before, tail, by rw [List.append_assoc]⟩

theorem mem_of_cons_suffix {n : Node} {tail ns : List Node} (suffix : n :: tail <:+ ns) : n ∈ ns :=
  suffix.mem List.mem_cons_self

theorem scan_wrapCite_idle_iff {ns : List Node} :
    (wrapCite.scan ns).2 = false ↔ ∀ n ∈ ns, isCite n = false := by
  rw [wrapCite.scan_changed_eq_false_iff]
  constructor
  · intro unmatched n mem
    obtain ⟨before, tail, rfl⟩ := List.append_of_mem mem
    rw [← Bool.not_eq_true]
    intro cite
    exact unmatched _ _ _ (List.suffix_append before _)
      (wrapFront?_eq_some_iff.2 ⟨n, rfl, cite, rfl⟩)
  · intro grouped after done rest suffix found
    obtain ⟨n, rfl, cite, _⟩ := wrapFront?_eq_some_iff.1 found
    rw [grouped n (mem_of_cons_suffix suffix)] at cite
    cases cite

theorem scan_unwrapGroup_idle_iff {ns : List Node} :
    (unwrapGroup.scan ns).2 = false ↔ ∀ n ∈ ns, isGroup n = false := by
  rw [unwrapGroup.scan_changed_eq_false_iff]
  constructor
  · intro unmatched n mem
    obtain ⟨before, tail, rfl⟩ := List.append_of_mem mem
    rw [← Bool.not_eq_true]
    intro isOne
    exact unmatched _ _ _ (List.suffix_append before _)
      (unwrapFront?_eq_some_iff.2 ⟨n, rfl, isOne, rfl⟩)
  · intro flat after done rest suffix found
    obtain ⟨n, rfl, isOne, _⟩ := unwrapFront?_eq_some_iff.1 found
    rw [flat n (mem_of_cons_suffix suffix)] at isOne
    cases isOne

theorem scan_mergeTouching_idle_iff {ns : List Node} :
    (mergeTouching.scan ns).2 = false ↔
      ∀ g h, [g, h] <:+: ns → isGroup g = true → isGroup h = false := by
  rw [mergeTouching.scan_changed_eq_false_iff]
  constructor
  · intro unmatched g h next left
    obtain ⟨tail, suffix⟩ := infix_iff_append_suffix.1 next
    rw [← Bool.not_eq_true]
    intro right
    exact unmatched _ _ _ suffix
      (mergeFront?_eq_some_iff.2 ⟨g, h, tail, rfl, left, right, rfl, rfl⟩)
  · intro apart after done rest suffix found
    obtain ⟨g, h, tail, rfl, left, right, _⟩ := mergeFront?_eq_some_iff.1 found
    rw [apart g h (infix_iff_append_suffix.2 ⟨tail, suffix⟩) left] at right
    cases right

theorem scan_mergeSeparated_idle_iff {ns : List Node} :
    (mergeSeparated.scan ns).2 = false ↔
      ∀ g t h, [g, t, h] <:+: ns → isGroup g = true → isGroup h = true → t.kind = "text" →
        ¬InBlanks SeparatorCore (t.value.getD "").toList := by
  rw [mergeSeparated.scan_changed_eq_false_iff]
  constructor
  · intro unmatched g t h next left right text separator
    obtain ⟨tail, suffix⟩ := infix_iff_append_suffix.1 next
    have between := any_textOf?_iff.2 ⟨text, isSeparator_iff.2 separator⟩
    exact unmatched _ _ _ suffix
      (joinFront?_eq_some_iff.2 ⟨g, t, h, tail, rfl, left, between, right, rfl, rfl⟩)
  · intro apart after done rest suffix found
    obtain ⟨g, t, h, tail, rfl, left, between, right, _⟩ := joinFront?_eq_some_iff.1 found
    obtain ⟨text, separator⟩ := any_textOf?_iff.1 between
    exact apart g t h (infix_iff_append_suffix.2 ⟨tail, suffix⟩) left right text
      (isSeparator_iff.1 separator)

/-- Two citations with labels that both occur in the order, the first before the second. -/
def BoundRange (order : List String) (first last : Node) : Prop :=
  ∃ l m, first.attrText? "label" = some l ∧ last.attrText? "label" = some m ∧ l ∈ order ∧
    m ∈ order ∧ order.idxOf l < order.idxOf m

theorem position?_eq_some_iff {order : List String} {cite : Node} {i : Nat} :
    position? order cite = some i ↔
      ∃ label, cite.attrText? "label" = some label ∧ label ∈ order ∧ order.idxOf label = i := by
  simp only [position?, Option.bind_eq_some_iff, List.findIdx?_eq_some_iff_findIdx_eq]
  constructor
  · rintro ⟨label, found, bound, same⟩
    refine ⟨label, found, List.idxOf_lt_length_iff.1 ?_, same⟩
    rw [List.idxOf, same]
    exact bound
  · rintro ⟨label, found, mem, same⟩
    refine ⟨label, found, ?_, same⟩
    rw [← same]
    exact List.idxOf_lt_length_iff.2 mem

theorem exists_position?_lt_iff {order : List String} {first last : Node} :
    (∃ i j, position? order first = some i ∧ position? order last = some j ∧ i < j) ↔
      BoundRange order first last := by
  simp only [position?_eq_some_iff]
  constructor
  · rintro ⟨i, j, ⟨l, start, before, rfl⟩, ⟨m, stop, after, rfl⟩, lt⟩
    exact ⟨l, m, start, stop, before, after, lt⟩
  · rintro ⟨l, m, start, stop, before, after, lt⟩
    exact ⟨_, _, ⟨l, start, before, rfl⟩, ⟨m, stop, after, rfl⟩, lt⟩

theorem rangeGroup?_eq_none_iff {order : List String} {g t h : Node} :
    rangeGroup? order g t h = none ↔
      ∀ first last, isGroup g = true → isGroup h = true → t.kind = "text" →
        InBlanks DashCore (t.value.getD "").toList → g.kids = [first] → h.kids = [last] →
        isCite first = true → isCite last = true → ¬BoundRange order first last := by
  constructor
  · intro none first last left right text dash only only' cite cite' range
    have between := any_textOf?_iff.2 ⟨text, isDash_iff.2 dash⟩
    obtain ⟨i, j, start, stop, lt⟩ := exists_position?_lt_iff.2 range
    have found := rangeGroup?_eq_some_iff.2 ⟨left, right, between, first, last, i, j,
      onlyCite?_eq_some_iff.2 ⟨only, cite⟩, onlyCite?_eq_some_iff.2 ⟨only', cite'⟩, start, stop, lt,
      rfl⟩
    rw [none] at found
    cases found
  · intro unbound
    refine Option.eq_none_iff_forall_ne_some.2 fun range found => ?_
    obtain ⟨left, right, between, first, last, i, j, only, only', start, stop, lt, _⟩ :=
      rangeGroup?_eq_some_iff.1 found
    obtain ⟨text, dash⟩ := any_textOf?_iff.1 between
    obtain ⟨only, cite⟩ := onlyCite?_eq_some_iff.1 only
    obtain ⟨only', cite'⟩ := onlyCite?_eq_some_iff.1 only'
    exact unbound first last left right text (isDash_iff.1 dash) only only' cite cite'
      (exists_position?_lt_iff.1 ⟨i, j, start, stop, lt⟩)

theorem scan_expandRange_idle_iff {order : List String} {ns : List Node} :
    ((expandRange order).scan ns).2 = false ↔
      ∀ g t h first last, [g, t, h] <:+: ns → isGroup g = true → isGroup h = true →
        t.kind = "text" → InBlanks DashCore (t.value.getD "").toList → g.kids = [first] →
        h.kids = [last] → isCite first = true → isCite last = true →
        ¬BoundRange order first last := by
  rw [(expandRange order).scan_changed_eq_false_iff]
  constructor
  · intro unmatched g t h first last next
    have none : rangeGroup? order g t h = none := by
      refine Option.eq_none_iff_forall_ne_some.2 fun range found => ?_
      obtain ⟨tail, suffix⟩ := infix_iff_append_suffix.1 next
      exact unmatched _ _ _ suffix (expandFront?_eq_some_iff.2 ⟨g, t, h, _, rfl, found, rfl⟩)
    exact rangeGroup?_eq_none_iff.1 none first last
  · intro unbound after done rest suffix found
    obtain ⟨g, t, h, range, rfl, isRange, rfl⟩ := expandFront?_eq_some_iff.1 found
    have none : rangeGroup? order g t h = none := rangeGroup?_eq_none_iff.2 fun first last =>
      unbound g t h first last (infix_iff_append_suffix.2 ⟨rest, suffix⟩)
    rw [none] at isRange
    cases isRange

/-- A text that ends in an opening bracket and one that starts with the bracket that closes it. -/
def Closes (before after : List Char) : Prop :=
  before.getLast? = some '(' ∧ after.head? = some ')' ∨
    before.getLast? = some '[' ∧ after.head? = some ']'

theorem isBracketed_iff_closes {before n after : Node} :
    isBracketed before n after = true ↔ isGroup n = true ∧ before.kind = "text" ∧
      after.kind = "text" ∧ Closes (before.value.getD "").toList (after.value.getD "").toList := by
  simp only [isBracketed_iff, textOf?_eq_some_iff, closer?_eq_some_iff]
  constructor
  · rintro ⟨isOne, _, c, _, ⟨opens, rfl⟩, closes, ⟨text, rfl⟩, head⟩
    refine ⟨isOne, opens, text, ?_⟩
    rcases closes with ⟨last, rfl⟩ | ⟨last, rfl⟩
    · exact .inl ⟨last, head⟩
    · exact .inr ⟨last, head⟩
  · rintro ⟨isOne, opens, text, ⟨last, head⟩ | ⟨last, head⟩⟩
    · exact ⟨isOne, _, ')', _, ⟨opens, rfl⟩, .inl ⟨last, rfl⟩, ⟨text, rfl⟩, head⟩
    · exact ⟨isOne, _, ']', _, ⟨opens, rfl⟩, .inr ⟨last, rfl⟩, ⟨text, rfl⟩, head⟩

theorem scan_unbracket_idle_iff {ns : List Node} :
    (unbracket.scan ns).2 = false ↔
      ∀ t g u, [t, g, u] <:+: ns → isGroup g = true → t.kind = "text" → u.kind = "text" →
        ¬Closes (t.value.getD "").toList (u.value.getD "").toList := by
  rw [unbracket.scan_changed_eq_false_iff]
  constructor
  · intro unmatched t g u next isOne before after closes
    obtain ⟨tail, suffix⟩ := infix_iff_append_suffix.1 next
    have flanked := isBracketed_iff_closes.2 ⟨isOne, before, after, closes⟩
    exact unmatched _ _ _ suffix
      (unbracketFront?_eq_some_iff.2 ⟨t, g, u, tail, rfl, flanked, rfl, rfl⟩)
  · intro free after done rest suffix found
    obtain ⟨t, g, u, tail, rfl, flanked, _⟩ := unbracketFront?_eq_some_iff.1 found
    obtain ⟨isOne, before, after, closes⟩ := isBracketed_iff_closes.1 flanked
    exact free t g u (infix_iff_append_suffix.2 ⟨tail, suffix⟩) isOne before after closes

theorem scan_lowerGroup_idle_iff {ns : List Node} :
    (lowerGroup.scan ns).2 = false ↔
      ∀ n ∈ ns, n.kind = "superscript" → ∀ g, n.kids = [g] → isGroup g = false := by
  rw [lowerGroup.scan_changed_eq_false_iff]
  constructor
  · intro unmatched n mem raised g only
    obtain ⟨before, tail, rfl⟩ := List.append_of_mem mem
    rw [← Bool.not_eq_true]
    intro isOne
    have found := raisedGroup?_eq_some_iff.2 ⟨beq_iff_eq.2 raised, only, isOne⟩
    exact unmatched _ _ _ (List.suffix_append before _)
      (lowerFront?_eq_some_iff.2 ⟨n, g, rfl, found, rfl⟩)
  · intro low after done rest suffix found
    obtain ⟨n, g, rfl, raised, _⟩ := lowerFront?_eq_some_iff.1 found
    obtain ⟨isSup, only, isOne⟩ := raisedGroup?_eq_some_iff.1 raised
    rw [low n (mem_of_cons_suffix suffix) (beq_iff_eq.1 isSup) g only] at isOne
    cases isOne

theorem needsSpace_iff {s : String} : needsSpace s = true ↔
    ∃ c, s.toList.getLast? = some c ∧ ¬(Text.isBlank c = true ∨ c = '(' ∨ c = '[') := by
  unfold needsSpace
  cases s.toList.getLast? with
  | none => simp
  | some c => grind

theorem scan_addSpace_idle_iff {ns : List Node} :
    (addSpace.scan ns).2 = false ↔
      ∀ t g c, [t, g] <:+: ns → t.kind = "text" → isGroup g = true →
        (t.value.getD "").toList.getLast? = some c → Text.isBlank c = true ∨ c = '(' ∨ c = '[' := by
  rw [addSpace.scan_changed_eq_false_iff]
  constructor
  · intro unmatched t g c next text isOne last
    obtain ⟨tail, suffix⟩ := infix_iff_append_suffix.1 next
    apply Decidable.byContradiction
    intro tight
    have needs := any_textOf?_iff.2 ⟨text, needsSpace_iff.2 ⟨c, last, tight⟩⟩
    exact unmatched _ _ _ suffix
      (spaceFront?_eq_some_iff.2 ⟨t, g, tail, rfl, isOne, needs, rfl, rfl⟩)
  · intro spaced after done rest suffix found
    obtain ⟨t, g, tail, rfl, isOne, needs, _⟩ := spaceFront?_eq_some_iff.1 found
    obtain ⟨text, tight⟩ := any_textOf?_iff.1 needs
    obtain ⟨c, last, tight⟩ := needsSpace_iff.1 tight
    exact tight (spaced t g c (infix_iff_append_suffix.2 ⟨tail, suffix⟩) text isOne last)

/-! ### Settled nodes -/

/-- The children that no rule is for, and no citation with children. -/
structure Settled (order : List String) (n : Node) : Prop where
  bare : isCite n = true → n.children = none
  grouped : isGroup n = false → ∀ c ∈ n.kids, isCite c = false
  flat : isGroup n = true → ∀ c ∈ n.kids, isGroup c = false
  apart : ∀ g h, [g, h] <:+: n.kids → isGroup g = true → isGroup h = false
  unseparated : ∀ g t h, [g, t, h] <:+: n.kids → isGroup g = true → isGroup h = true →
    t.kind = "text" → ¬InBlanks SeparatorCore (t.value.getD "").toList
  unbound : ∀ g t h first last, [g, t, h] <:+: n.kids → isGroup g = true → isGroup h = true →
    t.kind = "text" → InBlanks DashCore (t.value.getD "").toList → g.kids = [first] →
    h.kids = [last] → isCite first = true → isCite last = true → ¬BoundRange order first last
  unbracketed : ∀ t g u, [t, g, u] <:+: n.kids → isGroup g = true → t.kind = "text" →
    u.kind = "text" → ¬Closes (t.value.getD "").toList (u.value.getD "").toList
  low : ∀ c ∈ n.kids, c.kind = "superscript" → ∀ g, c.kids = [g] → isGroup g = false
  spaced : ∀ t g c, [t, g] <:+: n.kids → t.kind = "text" → isGroup g = true →
    (t.value.getD "").toList.getLast? = some c → Text.isBlank c = true ∨ c = '(' ∨ c = '['

theorem onKids_bareCites_idle_iff {n : Node} :
    (bareCites.onKids n).2 = false ↔ (isCite n = true → n.children = none) := by
  simp only [bareCites]
  split
  · next cite =>
    rw [Bool.and_eq_true] at cite
    simp [cite.1, Option.isSome_iff_ne_none.1 cite.2]
  · next bare =>
    simpa [Option.isSome_iff_ne_none] using bare

/-- A node is settled exactly if no rule finds anything to do among its children. -/
theorem settled_iff {order : List String} {n : Node} :
    Settled order n ↔ ∀ rule ∈ rules order, (rule.onKids n).2 = false := by
  have wrapped : (groupCites.onKids n).2 = false ↔
      (isGroup n = false → ∀ c ∈ n.kids, isCite c = false) := by
    rw [← scan_wrapCite_idle_iff]
    simp [groupCites, Step.onKids_changed_eq_false_iff, isGroup, is]
  have flattened : (flattenGroups.onKids n).2 = false ↔
      (isGroup n = true → ∀ c ∈ n.kids, isGroup c = false) := by
    rw [← scan_unwrapGroup_idle_iff]
    simp [flattenGroups, Edit.ofStep, Step.onKids_changed_eq_false_iff, isGroup, is]
  have anywhere (s : Step) (lowers : s.Lowers) :
      ((Edit.ofStep s (fun _ => true) lowers).onKids n).2 = false ↔ (s.scan n.kids).2 = false := by
    simp [Edit.ofStep, Step.onKids_changed_eq_false_iff]
  simp only [rules, List.forall_mem_cons, onKids_bareCites_idle_iff, wrapped, flattened, joinGroups,
    dropSeparators, expandRanges, dropBrackets, lowerGroups, spaceGroups, anywhere,
    scan_mergeTouching_idle_iff, scan_mergeSeparated_idle_iff, scan_expandRange_idle_iff,
    scan_unbracket_idle_iff, scan_lowerGroup_idle_iff, scan_addSpace_idle_iff]
  constructor
  · rintro ⟨bare, grouped, flat, apart, unseparated, unbound, unbracketed, low, spaced⟩
    exact ⟨bare, grouped, flat, apart, unseparated, unbound, unbracketed, low, spaced,
      List.forall_mem_nil _⟩
  · rintro ⟨bare, grouped, flat, apart, unseparated, unbound, unbracketed, low, spaced, _⟩
    exact ⟨bare, grouped, flat, apart, unseparated, unbound, unbracketed, low, spaced⟩

/-! ### Rules in turn -/

theorem runRules_idle_iff {rules : List Edit} {tree : Node} :
    (runRules rules tree).2 = false ↔ ∀ rule ∈ rules, (rule.run tree).2 = false := by
  induction rules with
  | nil => simp [runRules]
  | cons rule rules ih =>
    simp only [runRules, Bool.or_eq_false_iff, List.forall_mem_cons]
    -- The later rules run on the tree that the first one has left as it was.
    apply and_congr_right
    intro idle
    rw [rule.run_eq_self idle, ih]

/-- A pass changes nothing exactly if every node of the tree is settled. -/
theorem pass_changes_nothing_iff (order : List String) (tree : Node) :
    (pass order tree).2 = false ↔ ∀ n ∈ tree.nodes, Settled order n := by
  simp only [pass, runRules_idle_iff, Edit.run_changed_eq_false_iff, settled_iff]
  constructor
  · exact fun idle n mem rule hr => idle rule hr n mem
  · exact fun idle rule hr n mem => idle n mem rule hr

end Manuscript.Myst.Citation
