import Manuscript.Proofs.Citation.Conservation
import Manuscript.Proofs.Citation.Siblings

/-!
A dash between two citations. The rule for ranges comes after the rules that put the citations into
groups, and none of those takes a dash for anything. So either the two groups bound a range and give
way to it in the first pass, or they stay with the dash between them, which at most gets a space.
-/

set_option autoImplicit false

namespace Manuscript.Myst.Citation

open Manuscript.Node

section
variable {order : List String}

theorem not_isSeparator_of_isDash {s : String} (dash : isDash s = true) :
    isSeparator s = false := by
  simp only [isDash, Bool.or_eq_true, beq_iff_eq] at dash
  rw [isSeparator]
  rcases dash with same | same <;> rw [same] <;> rfl

theorem Remains.textOf? {m n : Node} (remains : Remains m n) : textOf? n = textOf? m := by
  rw [Citation.textOf?, Citation.textOf?, isText, isText, remains.kind, remains.value]

theorem scan_three_idle {s : Step} {n₁ n₂ n₃ : Node} (whole : s.next? [n₁, n₂, n₃] = none)
    (back : s.next? [n₂, n₃] = none) (last : s.next? [n₃] = none) :
    (s.scan [n₁, n₂, n₃]).2 = false := by
  rw [s.scan_of_none whole, s.scan_of_none back, s.scan_of_none last, s.scan_nil]

/-! ### Spaces -/

/-- A text with a space behind it, if a group there would need one. -/
def spacedOut (t : Node) : Node := if (textOf? t).any needsSpace then spaced t else t

theorem any_needsSpace_spacedOut (t : Node) :
    (textOf? (spacedOut t)).any needsSpace = false := by
  unfold spacedOut
  split
  · next needs =>
    have text : (spaced t).kind = "text" := (any_textOf?_iff.1 needs).1
    have blank : needsSpace (t.value.getD "" ++ " ") = false := by
      rw [needsSpace, String.toList_append, List.getLast?_append]
      rfl
    rw [Citation.textOf?, isText, text]
    exact blank
  · next fine => simpa using fine

theorem spacedOut_spacedOut (t : Node) : spacedOut (spacedOut t) = spacedOut t :=
  if_neg (by simp [any_needsSpace_spacedOut])

theorem Remains.spacedOut {t u : Node} (remains : Remains t u) :
    Remains (spacedOut t) (spacedOut u) := by
  unfold Citation.spacedOut
  rw [remains.textOf?]
  split
  · refine ⟨?_, remains.leaf⟩
    rw [spaced, spaced, remains.own]
  · exact remains

theorem isDash_spaced {s : String} (dash : isDash s = true) : isDash (s ++ " ") = true := by
  obtain ⟨before, mid, after, same, front, core, back⟩ := isDash_iff.1 dash
  refine isDash_iff.2 ⟨before, mid, after ++ [' '], ?_, front, core, ?_⟩
  · rw [String.toList_append, same, ← List.append_assoc]
    rfl
  · exact List.forall_mem_append.2 ⟨back, List.forall_mem_singleton.2 rfl⟩

/-! ### A dash between two groups -/

def beforeRanges : List Edit := [bareCites, groupCites, flattenGroups, joinGroups, dropSeparators]

def fromRanges (order : List String) : List Edit :=
  [expandRanges order, dropBrackets, lowerGroups, spaceGroups]

/-- Two groups of citations with a dash between them. -/
structure Dashed (g t h : Node) : Prop where
  left : Cluster g
  right : Cluster h
  text : t.kind = "text"
  dash : isDash (t.value.getD "") = true

namespace Dashed

variable {g t h : Node}

theorem remains (dashed : Dashed g t h) {t' : Node} (remains : Remains t t') : Dashed g t' h where
  left := dashed.left
  right := dashed.right
  text := remains.kind.trans dashed.text
  dash := by rw [remains.value, dashed.dash]

theorem spacedOut (dashed : Dashed g t h) : Dashed g (spacedOut t) h := by
  unfold Citation.spacedOut
  split
  · exact ⟨dashed.left, dashed.right, dashed.text, isDash_spaced dashed.dash⟩
  · exact dashed

theorem isGroup_text (dashed : Dashed g t h) : isGroup t = false := by
  rw [isGroup, is, dashed.text]
  rfl

/-- All rules but those for ranges and for spaces have nothing to do. -/
theorem idle (dashed : Dashed g t h) {rule : Edit} (mem : rule ∈ [bareCites, groupCites,
    flattenGroups, joinGroups, dropSeparators, dropBrackets, lowerGroups]) :
    (rule.onKids (.branch "root" [g, t, h])).2 = false := by
  have text := dashed.text
  have noGroup := dashed.isGroup_text
  have noSeparator : (textOf? t).any isSeparator = false := by
    simp [Citation.textOf?, isText, text, not_isSeparator_of_isDash dashed.dash]
  simp only [List.mem_cons, List.not_mem_nil, or_false] at mem
  rcases mem with rfl | rfl | rfl | rfl | rfl | rfl | rfl
  · rfl
  · refine (wrapCite.onKids_changed_eq_false_iff _).2 fun _ => scan_wrapCite_idle_iff.2 ?_
    simp [kids, branch, isCite_of_isGroup dashed.left.isGroup, isCite_of_text text,
      isCite_of_isGroup dashed.right.isGroup]
  · refine (unwrapGroup.onKids_changed_eq_false_iff _).2 fun outer => absurd outer ?_
    exact of_decide_eq_false rfl
  · refine (mergeTouching.onKids_changed_eq_false_iff _).2 fun _ => scan_three_idle ?_ ?_ rfl <;>
      simp [mergeTouching, mergeFront?, noGroup]
  · refine (mergeSeparated.onKids_changed_eq_false_iff _).2 fun _ => scan_three_idle ?_ rfl rfl
    simp [mergeSeparated, joinFront?, noSeparator]
  · refine (unbracket.onKids_changed_eq_false_iff _).2 fun _ => scan_three_idle ?_ rfl rfl
    simp [unbracket, unbracketFront?, isBracketed, noGroup]
  · refine (lowerGroup.onKids_changed_eq_false_iff _).2 fun _ => scan_lowerGroup_idle_iff.2 ?_
    intro n child raised
    simp only [kids, branch, Option.getD_some, List.mem_cons, List.not_mem_nil, or_false] at child
    rcases child with rfl | rfl | rfl
    · exact absurd ((kind_of_isGroup dashed.left.isGroup).symm.trans raised) (by decide)
    · exact absurd (text.symm.trans raised) (by decide)
    · exact absurd ((kind_of_isGroup dashed.right.isGroup).symm.trans raised) (by decide)

/-- Rules that find nothing to do among the three leave the groups, and at most change what is below
the dash. -/
theorem alongAll (dashed : Dashed g t h) {list : List Edit}
    (known : ∀ rule ∈ list, rule ∈ rules order) (idle : ∀ rule ∈ list, ∀ u, Dashed g u h →
      (rule.onKids (.branch "root" [g, u, h])).2 = false) :
    ∃ t', Remains t t' ∧ alongAll list [g, t, h] = [g, t', h] := by
  induction list generalizing t with
  | nil => exact ⟨t, .refl t, rfl⟩
  | cons rule list ih =>
    obtain ⟨here, known⟩ := List.forall_mem_cons.1 known
    obtain ⟨first, rest⟩ := List.forall_mem_cons.1 idle
    have below := remains_run here t
    have step : along rule [g, t, h] = [g, (rule.run t).1, h] := by
      rw [along_of_idle (first t dashed)]
      simp only [List.map_cons, List.map_nil, run_cluster here dashed.left,
        run_cluster here dashed.right]
    obtain ⟨t', remains, same⟩ := ih (dashed.remains below) known rest
    refine ⟨t', below.trans remains, ?_⟩
    rw [← same, ← step]
    rfl

/-! ### Ranges -/

/-- Which range two groups bound does not hang on the dash. -/
theorem rangeGroup?_eq (dashed : Dashed g t h) {u : Node} (other : Dashed g u h) :
    rangeGroup? order g u h = rangeGroup? order g t h := by
  have isDash {v : Node} (dashed : Dashed g v h) : (textOf? v).any isDash = true :=
    any_textOf?_iff.2 ⟨dashed.text, dashed.dash⟩
  rw [rangeGroup?, rangeGroup?, isDash dashed, isDash other]

theorem cluster_of_rangeGroup? {range : Node} (found : rangeGroup? order g t h = some range) :
    Cluster range := by
  obtain ⟨_, _, _, first, _, i, j, _, _, _, _, _, rfl⟩ := rangeGroup?_eq_some_iff.1 found
  exact ⟨rfl, List.forall_mem_map.2 fun label _ => (isCite_citeOf _ label).1,
    List.forall_mem_map.2 fun label _ => (isCite_citeOf _ label).2⟩

theorem alongAll_beforeRanges (dashed : Dashed g t h) {list : List Edit}
    (known : ∀ rule ∈ list, rule ∈ beforeRanges) :
    ∃ t', Remains t t' ∧ Citation.alongAll list [g, t, h] = [g, t', h] := by
  have ruled : ∀ rule ∈ list, rule ∈ rules [] :=
    fun rule mem => List.mem_append_left (fromRanges []) (known rule mem)
  refine dashed.alongAll ruled fun rule mem u dashed' => dashed'.idle ?_
  exact List.mem_append_left [dropBrackets, lowerGroups] (known rule mem)

theorem alongAll_of_range (dashed : Dashed g t h) {range : Node}
    (found : rangeGroup? order g t h = some range) {list : List Edit}
    (known : ∀ rule ∈ list, rule ∈ beforeRanges) :
    Citation.alongAll (list ++ fromRanges order) [g, t, h] = [range] := by
  have mem : expandRanges order ∈ rules order := by simp [rules]
  have cluster := cluster_of_rangeGroup? found
  obtain ⟨t', remains, before⟩ := dashed.alongAll_beforeRanges known
  have expanded : along (expandRanges order) [g, t', h] = [range] := by
    have next : (expandRange order).next? [g, t', h] = some ([range], []) :=
      expandFront?_eq_some_iff.2
        ⟨g, t', h, range, rfl, (dashed.rangeGroup?_eq (dashed.remains remains)).trans found, rfl⟩
    have scans : (expandRanges order).onKids = (expandRange order).onKids fun _ => true := rfl
    rw [along_of_step scans, if_pos rfl, (expandRange order).scan_of_some next, Step.scan_nil]
    exact congrArg ([·]) (run_cluster mem cluster)
  have late : ∀ rule ∈ [dropBrackets, lowerGroups, spaceGroups], rule ∈ rules order :=
    fun rule mem => List.mem_append_right (beforeRanges ++ [expandRanges order]) mem
  rw [alongAll_append, before]
  show Citation.alongAll [dropBrackets, lowerGroups, spaceGroups]
    (along (expandRanges order) [g, t', h]) = [range]
  rw [expanded, alongAll_eq_self late (settled_of_only uninvolved_root rfl cluster)]

theorem idle_expandRanges (none : rangeGroup? order g t h = none) :
    ((expandRanges order).onKids (.branch "root" [g, t, h])).2 = false := by
  refine ((expandRange order).onKids_changed_eq_false_iff _).2 fun _ => scan_three_idle ?_ rfl rfl
  simp [expandRange, expandFront?, none]

theorem along_spaceGroups (dashed : Dashed g t h) :
    along spaceGroups [g, t, h] = [g, (spaceGroups.run (Citation.spacedOut t)).1, h] := by
  have mem : spaceGroups ∈ rules [] := by simp [rules]
  have scans : spaceGroups.onKids = addSpace.onKids fun _ => true := rfl
  have noText : textOf? g = none := by
    simp [Citation.textOf?, isText, kind_of_isGroup dashed.left.isGroup]
  have front : addSpace.next? [g, t, h] = none := by simp [addSpace, spaceFront?, noText]
  have last : addSpace.next? [h] = none := rfl
  have scanned : (addSpace.scan [t, h]).1 = [Citation.spacedOut t, h] := by
    unfold Citation.spacedOut
    split
    · next needs =>
      have found : addSpace.next? [t, h] = some ([spaced t], [h]) :=
        spaceFront?_eq_some_iff.2 ⟨t, h, [], rfl, dashed.right.isGroup, needs, rfl, rfl⟩
      rw [addSpace.scan_of_some found, addSpace.scan_of_none last, addSpace.scan_nil]
      rfl
    · next fine =>
      have other : addSpace.next? [t, h] = none := by simp [addSpace, spaceFront?, fine]
      rw [addSpace.scan_of_none other, addSpace.scan_of_none last, addSpace.scan_nil]
  rw [along_of_step scans, if_pos rfl, addSpace.scan_of_none front, scanned]
  simp only [List.map_cons, List.map_nil, run_cluster mem dashed.left,
    run_cluster mem dashed.right]

/-- Where they do not, they stay, and so does the dash, with a space if it needs one. -/
theorem alongAll_of_no_range (dashed : Dashed g t h)
    (none : rangeGroup? order g t h = none) {list : List Edit}
    (known : ∀ rule ∈ list, rule ∈ beforeRanges) :
    ∃ t', Remains (Citation.spacedOut t) t' ∧
      Citation.alongAll (list ++ fromRanges order) [g, t, h] = [g, t', h] := by
  have mem : spaceGroups ∈ rules order := by simp [rules]
  obtain ⟨t₁, remains₁, before⟩ := dashed.alongAll_beforeRanges known
  have dashed₁ := dashed.remains remains₁
  have ruled : ∀ rule ∈ [expandRanges order, dropBrackets, lowerGroups], rule ∈ rules order :=
    fun rule mem => List.mem_append_right beforeRanges (List.mem_append_left [spaceGroups] mem)
  obtain ⟨t₂, remains₂, middle⟩ := dashed₁.alongAll ruled fun rule mem u later => by
    rcases List.mem_cons.1 mem with rfl | mem
    · exact idle_expandRanges ((dashed.rangeGroup?_eq later).trans none)
    · exact later.idle (List.mem_append_right beforeRanges mem)
  refine ⟨_, (remains₁.trans remains₂).spacedOut.trans (remains_run mem _), ?_⟩
  rw [alongAll_append, before]
  show along spaceGroups
    (Citation.alongAll [expandRanges order, dropBrackets, lowerGroups] [g, t₁, h]) = _
  rw [middle, (dashed₁.remains remains₂).along_spaceGroups]

end Dashed

/-! ### A dash between two citations -/

/-- The first two rules put the citations into groups, the others run on these. -/
theorem alongAll_cites (order : List String) {first dash last : Node} (start : isCite first = true)
    (stop : isCite last = true) (text : dash.kind = "text") :
    ∃ t, Remains dash t ∧ alongAll (rules order) [first, dash, last] =
      alongAll ([flattenGroups, joinGroups, dropSeparators] ++ fromRanges order)
        [inGroup first, t, inGroup last] := by
  refine ⟨gathered dash, remains_gathered (isCite_of_text text), ?_⟩
  have split : rules order = [bareCites, groupCites] ++
    ([flattenGroups, joinGroups, dropSeparators] ++ fromRanges order) := rfl
  rw [split, alongAll_append, alongAll_gathered]
  simp only [List.map_cons, List.map_nil, gathered_of_isCite start, gathered_of_isCite stop]

section
variable {first dash last : Node} (start : isCite first = true) (stop : isCite last = true)
  (text : dash.kind = "text") (isOne : isDash (dash.value.getD "") = true)
include start stop text isOne

theorem dashed_of_cites : Dashed (inGroup first) dash (inGroup last) :=
  ⟨cluster_inGroup start, cluster_inGroup stop, text, isOne⟩

theorem grouped_of_range {range : Node}
    (found : rangeGroup? order (inGroup first) dash (inGroup last) = some range) :
    grouped order [first, dash, last] = [range] := by
  have dashed := dashed_of_cites start stop text isOne
  obtain ⟨t, remains, same⟩ := alongAll_cites order start stop text
  have dashed' := dashed.remains remains
  have settled : ∀ m ∈ (branch "root" [range]).nodes, Settled order m :=
    settled_of_only uninvolved_root rfl (Dashed.cluster_of_rangeGroup? found)
  refine grouped_of_pass ?_ settled
  rw [same, dashed'.alongAll_of_range ((dashed.rangeGroup?_eq dashed').trans found)
    fun rule mem => List.mem_append_right [bareCites, groupCites] mem]

theorem grouped_of_no_range
    (none : rangeGroup? order (inGroup first) dash (inGroup last) = none) :
    ∃ dash', Remains (spacedOut dash) dash' ∧
      grouped order [first, dash, last] = [inGroup first, dash', inGroup last] := by
  have dashed := dashed_of_cites start stop text isOne
  -- Later passes find the dash with the space that it got in the first one, if it needed one.
  apply grouped_keeps (p := fun ns => ∃ dash', Remains (spacedOut dash) dash' ∧
    ns = [inGroup first, dash', inGroup last])
  · obtain ⟨t, remains, same⟩ := alongAll_cites order start stop text
    have dashed' := dashed.remains remains
    obtain ⟨u, remains', same'⟩ := dashed'.alongAll_of_no_range
      ((dashed.rangeGroup?_eq dashed').trans none)
      fun rule mem => List.mem_append_right [bareCites, groupCites] mem
    exact ⟨u, remains.spacedOut.trans remains', same.trans same'⟩
  · rintro _ ⟨t, remains, rfl⟩
    have dashed' := dashed.spacedOut.remains remains
    obtain ⟨u, remains', same⟩ := dashed'.alongAll_of_no_range
      ((dashed.rangeGroup?_eq dashed').trans none) fun rule (mem : rule ∈ beforeRanges) => mem
    have spaced := remains.spacedOut.trans remains'
    rw [spacedOut_spacedOut] at spaced
    exact ⟨u, spaced, same⟩

end

/-! ### Labels in the order of the bibliography -/

theorem idxOf_eq_of_getElem? (distinct : order.Nodup) {label : String} {i : Nat}
    (place : order[i]? = some label) : order.idxOf label = i := by
  obtain ⟨inside, rfl⟩ := List.getElem?_eq_some_iff.1 place
  exact distinct.idxOf_getElem i inside

theorem position?_eq_of_getElem? (distinct : order.Nodup) {cite : Node} {label : String} {i : Nat}
    (named : cite.attrText? "label" = some label) (place : order[i]? = some label) :
    position? order cite = some i :=
  position?_eq_some_iff.2
    ⟨_, named, List.mem_of_getElem? place, idxOf_eq_of_getElem? distinct place⟩

theorem getElem?_of_position? {cite : Node} {label : String} {i : Nat}
    (named : cite.attrText? "label" = some label) (found : position? order cite = some i) :
    order[i]? = some label := by
  obtain ⟨l, named', mem, rfl⟩ := position?_eq_some_iff.1 found
  obtain rfl : label = l := Option.some.inj (named.symm.trans named')
  exact List.getElem?_eq_some_iff.2 ⟨List.idxOf_lt_length_iff.2 mem, List.getElem_idxOf _⟩

theorem labels_citeOf (kind : Option Json) {labels : List String}
    (normal : ∀ label ∈ labels, Label.IsNormal label) :
    (labels.map (citeOf kind)).map (·.attrText? "label") = labels.map some := by
  rw [List.map_map]
  refine List.map_congr_left fun label mem => ?_
  show (citeOf kind label).attrText? "label" = some label
  rw [attrText?_citeOf, Label.ofText?_of_isNormal (normal label mem)]
  rfl

theorem onlyCite?_inGroup {c : Node} (cite : isCite c = true) :
    onlyCite? (inGroup c) = some { c with children := none } :=
  onlyCite?_eq_some_iff.2 ⟨rfl, cite⟩

section
variable {first dash last : Node} {a b : String} (start : isCite first = true)
  (stop : isCite last = true) (named : first.attrText? "label" = some a)
  (named' : last.attrText? "label" = some b)
include start stop named named'

theorem rangeGroup?_inGroup (text : dash.kind = "text")
    (isOne : isDash (dash.value.getD "") = true) (distinct : order.Nodup) {i j : Nat}
    (front : order[i]? = some a) (back : order[j]? = some b) (lt : i < j) :
    rangeGroup? order (inGroup first) dash (inGroup last) = some (group (first.attr? "kind")
      (((order.drop i).take (j - i + 1)).map (citeOf (first.attr? "kind")))) := by
  have kind : (inGroup first).attr? "kind" = first.attr? "kind" := attr?_group _ _
  refine rangeGroup?_eq_some_iff.2 ⟨rfl, rfl, any_textOf?_iff.2 ⟨text, isOne⟩, _, _, i, j,
    onlyCite?_inGroup start, onlyCite?_inGroup stop, ?_, ?_, lt, ?_⟩
  · exact position?_eq_of_getElem? distinct named front
  · exact position?_eq_of_getElem? distinct named' back
  · rw [kind]
    rfl

theorem rangeGroup?_inGroup_eq_none
    (apart : ∀ i j : Nat, order[i]? = some a → order[j]? = some b → j ≤ i) :
    rangeGroup? order (inGroup first) dash (inGroup last) = none := by
  rw [Option.eq_none_iff_forall_ne_some]
  intro range found
  obtain ⟨_, _, _, c, d, i, j, only, only', place, place', lt, _⟩ := rangeGroup?_eq_some_iff.1 found
  rw [onlyCite?_inGroup start] at only
  rw [onlyCite?_inGroup stop] at only'
  cases only
  cases only'
  have front : order[i]? = some a := getElem?_of_position? named place
  have back : order[j]? = some b := getElem?_of_position? named' place'
  exact absurd (apart i j front back) (Nat.not_le.2 lt)

end

/-- A dash between two citations. If their labels stand in the order of the bibliography, the first
before the second, all three nodes become one group of the labels from the one to the other, with
the kind of the first. In all other cases each citation has a group of its own in the end, and the
dash is between them as it was, with a space behind it if there was no blank. -/
theorem dash_between_citations (distinct : order.Nodup)
    (normal : ∀ label ∈ order, Label.IsNormal label) {way : Way}
    (above : ∀ c ∈ way, Uninvolved c.kind) {p first dash last : Node} {a b : String}
    (other : Uninvolved p.kind) (children : p.children = some [first, dash, last])
    (start : isCite first = true) (stop : isCite last = true)
    (named : first.attrText? "label" = some a) (named' : last.attrText? "label" = some b)
    (text : dash.kind = "text") (isOne : InBlanks DashCore (dash.value.getD "").toList) :
    (∀ i j : Nat, order[i]? = some a → order[j]? = some b → i < j →
      ∃ cites, (∀ c ∈ cites, isCite c = true ∧ c.children = none) ∧
        cites.map (·.attrText? "label") = ((order.drop i).take (j - i + 1)).map some ∧
        (groupCitations order (fill way p)).1 = fill (groupedAside order way)
          (p.withKids [group (first.attr? "kind") cites])) ∧
    ((∀ i j : Nat, order[i]? = some a → order[j]? = some b → j ≤ i) →
      ∃ dash', Remains (spacedOut dash) dash' ∧
        (groupCitations order (fill way p)).1 = fill (groupedAside order way)
          (p.withKids [inGroup first, dash', inGroup last])) := by
  have isDash := isDash_iff.2 isOne
  -- Where the citations stand makes no difference: the rest goes on beside them.
  have whole : (groupCitations order (fill way p)).1 = fill (groupedAside order way)
      (p.withKids (grouped order [first, dash, last])) := by
    rw [groupCitations_fill above other, mapChildren, children]
    rfl
  rw [whole]
  constructor
  · intro i j front back lt
    have spanned : ∀ label ∈ (order.drop i).take (j - i + 1), Label.IsNormal label :=
      fun label mem => normal label (List.mem_of_mem_drop (List.mem_of_mem_take mem))
    have found := rangeGroup?_inGroup start stop named named' text isDash distinct front back lt
    refine ⟨((order.drop i).take (j - i + 1)).map (citeOf (first.attr? "kind")),
      List.forall_mem_map.2 fun label _ => isCite_citeOf _ label, labels_citeOf _ spanned, ?_⟩
    rw [grouped_of_range start stop text isDash found]
  · intro apart
    obtain ⟨dash', remains, same⟩ := grouped_of_no_range start stop text isDash
      (rangeGroup?_inGroup_eq_none start stop named named' apart)
    exact ⟨dash', remains, by rw [same]⟩

/-- Citations of two labels with a dash between them. -/
def dashedPair (l m : String) : Node :=
  .branch "paragraph" [citeOf none l, .text "–", citeOf none m]

theorem dash_between_citations_both_ways :
    (∃ cites, cites.map (·.attrText? "label") = [some "b", some "c", some "d"] ∧
      (groupCitations ["a", "b", "c", "d"] (dashedPair "b" "d")).1 =
        .branch "paragraph" [group none cites]) ∧
    ∃ dash', Remains (.text "– ") dash' ∧
      (groupCitations ["a", "b", "c", "d"] (dashedPair "d" "b")).1 =
        .branch "paragraph" [inGroup (citeOf none "d"), dash', inGroup (citeOf none "b")] := by
  have distinct : ["a", "b", "c", "d"].Nodup := by decide
  have normal : ∀ label ∈ ["a", "b", "c", "d"], Label.IsNormal label := by decide +kernel
  have other (l m : String) : Uninvolved (dashedPair l m).kind :=
    (by decide : Uninvolved "paragraph")
  have text : (Node.text "–").kind = "text" := rfl
  have dash : InBlanks DashCore ((Node.text "–").value.getD "").toList :=
    isDash_iff.1 (by decide +kernel)
  have cite (l : String) : isCite (citeOf none l) = true := (isCite_citeOf none l).1
  have named (l : String) (label : Label.IsNormal l) :
      (citeOf none l).attrText? "label" = some l := by
    rw [attrText?_citeOf, Label.ofText?_of_isNormal label]
    rfl
  have first := named "b" (by decide +kernel)
  have last := named "d" (by decide +kernel)
  have kind (l : String) : (citeOf none l).attr? "kind" = none := by
    unfold citeOf
    split <;> simp [attr?, leaf, Dict.insert?, Dict.find?_insert]
  constructor
  · obtain ⟨cites, -, labels, result⟩ := (dash_between_citations distinct normal
      (List.forall_mem_nil _) (other "b" "d") rfl (cite "b") (cite "d") first last text dash).1
      1 3 rfl rfl (by decide)
    rw [kind] at result
    exact ⟨cites, labels, result⟩
  · have spaced : spacedOut (.text "–") = .text "– " := rfl
    rw [← spaced]
    refine (dash_between_citations distinct normal (List.forall_mem_nil _) (other "d" "b") rfl
      (cite "d") (cite "b") last first text dash).2 fun i j front back => ?_
    rw [← idxOf_eq_of_getElem? distinct front, ← idxOf_eq_of_getElem? distinct back]
    decide
end

end Manuscript.Myst.Citation
