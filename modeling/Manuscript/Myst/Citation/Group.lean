import Manuscript.Tree.Edit

/-!
Groups of citations, and the rules that bring every citation into a group: citations lose their
texts, each is put into a group of its own, groups in groups give way to their citations, and
groups that touch become one.
-/

set_option autoImplicit false

namespace Manuscript.Myst.Citation

open Manuscript.Node

def isCite (n : Node) : Bool := n.is "cite"

def isGroup (n : Node) : Bool := n.is "citeGroup"

theorem isCite_congr {m n : Node} (kind : m.kind = n.kind) : isCite m = isCite n := by
  rw [isCite, is, kind]
  rfl

theorem isGroup_congr {m n : Node} (kind : m.kind = n.kind) : isGroup m = isGroup n := by
  rw [isGroup, is, kind]
  rfl

theorem kind_of_isGroup {n : Node} (h : isGroup n = true) : n.kind = "citeGroup" := by
  simpa [isGroup, is] using h

theorem isCite_of_isGroup {n : Node} (h : isGroup n = true) : isCite n = false := by
  simp [isCite, is, kind_of_isGroup h]

theorem isGroup_of_isCite {n : Node} (cite : isCite n = true) : isGroup n = false := by
  rw [← Bool.not_eq_true]
  intro isOne
  rw [isCite_of_isGroup isOne] at cite
  cases cite

theorem isCite_of_text {n : Node} (h : n.kind = "text") : isCite n = false := by
  simp [isCite, is, h]

/-- The text of a text node, of any other none. -/
def textOf? (n : Node) : Option String := if n.isText then some (n.value.getD "") else none

theorem textOf?_eq_some_iff {n : Node} {s : String} :
    textOf? n = some s ↔ n.kind = "text" ∧ n.value.getD "" = s := by
  simp [textOf?, isText]

theorem any_textOf?_iff {n : Node} {p : String → Bool} :
    (textOf? n).any p = true ↔ n.kind = "text" ∧ p (n.value.getD "") = true := by
  by_cases text : n.kind = "text" <;> simp [textOf?, isText, text]

def group (kind : Option Json) (cites : List Node) : Node :=
  .branch "citeGroup" cites (Dict.empty.insert? "kind" kind)

theorem height_group (kind : Option Json) (cites : List Node) :
    (group kind cites).height = forestHeight cites := by
  rw [height_eq]
  rfl

def bareCites : Edit where
  onKids n := if isCite n && n.children.isSome then (none, true) else (n.children, false)
  idle := by
    intro n h
    split at h
    · cases h
    · next bare => rw [if_neg bare]
  rank := height
  descends := by
    intro n child cs found mem
    split at found
    · cases found
    · have same : n.children = some cs := found
      exact height_lt_of_mem_kids (by rw [kids, same]; exact mem)

def wrapFront? : List Node → Option (List Node × List Node)
  | n :: ns => if isCite n then some ([group (n.attr? "kind") [n]], ns) else none
  | [] => none

theorem wrapFront?_eq_some_iff {ns done rest : List Node} :
    wrapFront? ns = some (done, rest) ↔
      ∃ n, ns = n :: rest ∧ isCite n = true ∧ done = [group (n.attr? "kind") [n]] := by
  cases ns with
  | nil => simp [wrapFront?]
  | cons n ns =>
    simp only [wrapFront?, Option.ite_none_right_eq_some, Option.some.injEq, Prod.mk.injEq]
    constructor
    · rintro ⟨cite, rfl, rfl⟩
      exact ⟨n, rfl, cite, rfl⟩
    · rintro ⟨m, same, cite, rfl⟩
      cases same
      exact ⟨cite, rfl, rfl⟩

def wrapCite : Step where
  next? := wrapFront?
  shorter := by
    intro ns done rest found
    obtain ⟨n, rfl, _⟩ := wrapFront?_eq_some_iff.1 found
    exact Nat.lt_succ_self _

theorem mem_scan_wrapCite {ns : List Node} {m : Node} (mem : m ∈ (wrapCite.scan ns).1) :
    m ∈ ns ∧ isCite m = false ∨
      ∃ n ∈ ns, isCite n = true ∧ m = group (n.attr? "kind") [n] := by
  induction ns using wrapCite.scan_induction with
  | nil => simp at mem
  | some ns done rest found ih =>
    rw [wrapCite.scan_of_some found] at mem
    obtain ⟨n, rfl, cite, rfl⟩ := wrapFront?_eq_some_iff.1 found
    rcases List.mem_cons.1 mem with rfl | mem
    · exact .inr ⟨n, List.mem_cons_self, cite, rfl⟩
    · rcases ih mem with ⟨mem, other⟩ | ⟨k, mem, same⟩
      · exact .inl ⟨List.mem_cons_of_mem _ mem, other⟩
      · exact .inr ⟨k, List.mem_cons_of_mem _ mem, same⟩
  | none n ns found ih =>
    rw [wrapCite.scan_of_none found] at mem
    rcases List.mem_cons.1 mem with rfl | mem
    · refine .inl ⟨List.mem_cons_self, ?_⟩
      rw [← Bool.not_eq_true]
      intro cite
      have wrapped : wrapCite.next? (m :: ns) = _ := wrapFront?_eq_some_iff.2 ⟨m, rfl, cite, rfl⟩
      rw [wrapped] at found
      cases found
    · rcases ih mem with ⟨mem, other⟩ | ⟨k, mem, same⟩
      · exact .inl ⟨List.mem_cons_of_mem _ mem, other⟩
      · exact .inr ⟨k, List.mem_cons_of_mem _ mem, same⟩

def groupCites : Edit where
  onKids := wrapCite.onKids (· != "citeGroup")
  idle := wrapCite.onKids_eq_children _
  -- A new group is higher than the citation in it, but not higher than the node around it.
  rank n := 2 * n.height + if isGroup n then 0 else 1
  descends := by
    intro n child cs found mem
    have below : ∀ c ∈ n.kids, c.height < n.height := fun c hc => height_lt_of_mem_kids hc
    have bound (c : Node) : (if isGroup c then 0 else 1) ≤ 1 := by split <;> omega
    rcases Step.mem_onKids found mem with mem | ⟨outside, mem⟩
    · have := below child mem
      have := bound child
      omega
    · have free : isGroup n = false := by simpa [isGroup, is] using outside
      rcases mem_scan_wrapCite mem with ⟨mem, _⟩ | ⟨c, inside, _, rfl⟩
      · have := below child mem
        have := bound child
        omega
      · have := below c inside
        have high : (group (c.attr? "kind") [c]).height = c.height + 1 := by
          simp [height_group, forestHeight]
        have isOne : isGroup (group (c.attr? "kind") [c]) = true := rfl
        simp only [high, isOne, free, if_true, Bool.false_eq_true, if_false]
        omega

def unwrapFront? : List Node → Option (List Node × List Node)
  | n :: ns => if isGroup n then some (n.kids, ns) else none
  | [] => none

theorem unwrapFront?_eq_some_iff {ns done rest : List Node} :
    unwrapFront? ns = some (done, rest) ↔
      ∃ n, ns = n :: rest ∧ isGroup n = true ∧ done = n.kids := by
  cases ns with
  | nil => simp [unwrapFront?]
  | cons n ns =>
    simp only [unwrapFront?, Option.ite_none_right_eq_some, Option.some.injEq, Prod.mk.injEq]
    constructor
    · rintro ⟨isOne, rfl, rfl⟩
      exact ⟨n, rfl, isOne, rfl⟩
    · rintro ⟨m, same, isOne, rfl⟩
      cases same
      exact ⟨isOne, rfl, rfl⟩

def unwrapGroup : Step where
  next? := unwrapFront?
  shorter := by
    intro ns done rest found
    obtain ⟨n, rfl, _⟩ := unwrapFront?_eq_some_iff.1 found
    exact Nat.lt_succ_self _

theorem lowers_unwrapGroup : unwrapGroup.Lowers := by
  intro h ns done rest found bound
  obtain ⟨n, rfl, _, rfl⟩ := unwrapFront?_eq_some_iff.1 found
  have front := bound n List.mem_cons_self
  constructor
  · exact fun c mem => Nat.lt_trans (height_lt_of_mem_kids mem) front
  · exact fun m mem => bound m (List.mem_cons_of_mem _ mem)

/-- Groups directly inside a group give way to their children, one layer deep. -/
def flattenGroups : Edit := .ofStep unwrapGroup (· == "citeGroup") lowers_unwrapGroup

/-- Two groups as one: the second with the citations and the kind of the first before its own. -/
def mergeGroups (g h : Node) : Node :=
  { h with
    children := some (g.kids ++ h.kids)
    attrs := (h.attrs.erase "kind").insert? "kind" (g.attr? "kind") }

theorem height_mergeGroups_lt {g h : Node} {bound : Nat} (left : g.height < bound)
    (right : h.height < bound) : (mergeGroups g h).height < bound := by
  rw [height_eq] at left right ⊢
  have leftKids := forestHeight_le_iff.1 (Nat.le_refl (forestHeight g.kids))
  have rightKids := forestHeight_le_iff.1 (Nat.le_refl (forestHeight h.kids))
  have merged : forestHeight (g.kids ++ h.kids) ≤
      max (forestHeight g.kids) (forestHeight h.kids) := by
    rw [forestHeight_le_iff]
    intro n mem
    rcases List.mem_append.1 mem with mem | mem
    · exact Nat.lt_of_lt_of_le (leftKids n mem) (Nat.le_max_left ..)
    · exact Nat.lt_of_lt_of_le (rightKids n mem) (Nat.le_max_right ..)
  exact Nat.lt_of_le_of_lt merged (Nat.max_lt.2 ⟨left, right⟩)

/-- Two groups in front become one, which may meet a further one. -/
def mergeFront? : List Node → Option (List Node × List Node)
  | g :: h :: ns => if isGroup g && isGroup h then some ([], mergeGroups g h :: ns) else none
  | _ => none

theorem mergeFront?_eq_some_iff {ns done rest : List Node} :
    mergeFront? ns = some (done, rest) ↔
      ∃ g h tail, ns = g :: h :: tail ∧ isGroup g = true ∧ isGroup h = true ∧ done = [] ∧
        rest = mergeGroups g h :: tail := by
  match ns with
  | [] | [_] => simp [mergeFront?]
  | g :: h :: ns =>
    simp only [mergeFront?, Option.ite_none_right_eq_some, Bool.and_eq_true, Option.some.injEq,
      Prod.mk.injEq]
    constructor
    · rintro ⟨⟨left, right⟩, rfl, rfl⟩
      exact ⟨g, h, ns, rfl, left, right, rfl, rfl⟩
    · rintro ⟨g, h, tail, same, left, right, rfl, rfl⟩
      cases same
      exact ⟨⟨left, right⟩, rfl, rfl⟩

def mergeTouching : Step where
  next? := mergeFront?
  shorter := by
    intro ns done rest found
    obtain ⟨g, h, tail, rfl, _, _, _, rfl⟩ := mergeFront?_eq_some_iff.1 found
    exact Nat.lt_succ_self _

theorem lowers_mergeTouching : mergeTouching.Lowers := by
  intro bound ns done rest found lower
  obtain ⟨g, h, tail, rfl, _, _, rfl, rfl⟩ := mergeFront?_eq_some_iff.1 found
  refine ⟨by simp, fun n mem => ?_⟩
  rcases List.mem_cons.1 mem with rfl | mem
  · exact height_mergeGroups_lt (lower g (by simp)) (lower h (by simp))
  · exact lower n (by simp [mem])

def joinGroups : Edit := .ofStep mergeTouching (fun _ => true) lowers_mergeTouching

end Manuscript.Myst.Citation
