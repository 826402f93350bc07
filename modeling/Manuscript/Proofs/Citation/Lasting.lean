import Manuscript.Proofs.Citation.CleanPass
import Manuscript.Proofs.Tree.Everywhere

/-!
What grouping keeps of every node. The rules change nodes in few ways, so a property that outlasts
these and holds of the groups and citations that the rules make holds everywhere in a grouped tree
if it did before.
-/

set_option autoImplicit false

namespace Manuscript.Myst.Citation

open Manuscript.Node

/-- Whether a text stands in the order from one label on to a later one. -/
def Spanned (order : List String) (l m s : String) : Prop :=
  l ∈ order ∧ m ∈ order ∧ order.idxOf l < order.idxOf m ∧
    s ∈ (order.drop (order.idxOf l)).take (order.idxOf m - order.idxOf l + 1)

theorem Spanned.mem_order {order : List String} {l m s : String} (spanned : Spanned order l m s) :
    s ∈ order :=
  List.mem_of_mem_drop (List.mem_of_mem_take spanned.2.2.2)

/-- Whether what holds of a node lasts through all that the rules do to nodes. -/
structure Lasting (order : List String) (p : Node → Prop) : Prop where
  children : ∀ {n : Node} {f : List Node → List Node}, f [] = [] → p n → p (n.mapChildren f)
  stripped : ∀ {n : Node}, p n → p { n with children := none }
  retexted : ∀ {n : Node} (s : String), s ≠ "" → n.kind = "text" → p n →
    p { n with value := some s }
  marked : ∀ {n : Node} (value : Json), p n → p (n.setAttr "kind" value)
  grouped : ∀ (kind : Option Json) (cites : List Node), p (group kind cites)
  /-- What holds of a group does not hang on its children and its attribute `kind`. -/
  regrouped : ∀ {g h : Node}, isGroup g = true → h.kind = g.kind → h.value = g.value →
    h.attrs.erase "kind" = g.attrs.erase "kind" → p g → p h
  listed : ∀ (kind : Option Json) {first last : Node} {l m s : String}, isCite first = true →
    first.attrText? "label" = some l → p first → isCite last = true →
    last.attrText? "label" = some m → p last → Spanned order l m s → p (citeOf kind s)

theorem erase_kind_mergeGroups (g h : Node) :
    (mergeGroups g h).attrs.erase "kind" = h.attrs.erase "kind" := by
  show ((h.attrs.erase "kind").insert? "kind" (g.attr? "kind")).erase "kind" = _
  cases g.attr? "kind" <;> simp [Dict.insert?]

theorem erase_kind_parenthetical (g : Node) :
    (parenthetical g).attrs.erase "kind" = g.attrs.erase "kind" :=
  Dict.erase_insert g.attrs "kind" (.string "parenthetical")

/-- An edit by a scan leaves a node as it is but for the scanned children. -/
theorem here_eq_mapChildren {e : Edit} {s : Step} {applies : String → Bool}
    (scans : e.onKids = s.onKids applies) (n : Node) :
    e.here n = n.mapChildren fun cs => if applies n.kind then (s.scan cs).1 else cs := by
  obtain ⟨k, children, v, a⟩ := n
  cases children with
  | none => simp [Edit.here, scans, Step.onKids, mapChildren]
  | some cs => by_cases selected : applies k <;>
      simp [Edit.here, scans, Step.onKids, mapChildren, selected]

def steps (order : List String) : List Step :=
  [wrapCite, unwrapGroup, mergeTouching, mergeSeparated, expandRange order, unbracket, lowerGroup,
    addSpace]

/-- A rule behind the first one is a scan, which treats all nodes but groups alike. -/
theorem exists_step_of_mem {order : List String} {rule : Edit} (mem : rule ∈ (rules order).tail) :
    ∃ s applies, s ∈ steps order ∧ rule.onKids = s.onKids applies ∧
      ∀ kind, kind ≠ "citeGroup" → applies kind = applies "root" := by
  simp only [rules, List.tail_cons, List.mem_cons, List.not_mem_nil, or_false] at mem
  rcases mem with rfl | rfl | rfl | rfl | rfl | rfl | rfl | rfl
  · exact ⟨wrapCite, (· != "citeGroup"), by simp [steps], rfl, fun kind other => by simp [other]⟩
  · exact ⟨unwrapGroup, (· == "citeGroup"), by simp [steps], rfl, fun kind other => by simp [other]⟩
  · exact ⟨mergeTouching, fun _ => true, by simp [steps], rfl, fun _ _ => rfl⟩
  · exact ⟨mergeSeparated, fun _ => true, by simp [steps], rfl, fun _ _ => rfl⟩
  · exact ⟨expandRange order, fun _ => true, by simp [steps], rfl, fun _ _ => rfl⟩
  · exact ⟨unbracket, fun _ => true, by simp [steps], rfl, fun _ _ => rfl⟩
  · exact ⟨lowerGroup, fun _ => true, by simp [steps], rfl, fun _ _ => rfl⟩
  · exact ⟨addSpace, fun _ => true, by simp [steps], rfl, fun _ _ => rfl⟩

theorem runRules_keeps {p : Node → Prop} {rules : List Edit}
    (keep : ∀ rule ∈ rules, ∀ tree, p tree → p (rule.run tree).1) {tree : Node} (holds : p tree) :
    p (runRules rules tree).1 := by
  induction rules generalizing tree with
  | nil => exact holds
  | cons rule rules ih =>
    obtain ⟨first, rest⟩ := List.forall_mem_cons.1 keep
    exact ih rest (first tree holds)

/-- The rules behind the first one run on the tree that this one leaves. -/
theorem pass_fst (order : List String) (tree : Node) :
    (pass order tree).1 = (runRules (rules order).tail (bareCites.run tree).1).1 := rfl

theorem settle_keeps {order : List String} {p : Node → Prop}
    (keep : ∀ tree, p tree → p (pass order tree).1) {limit : Nat} {tree : Node} (holds : p tree) :
    p (settle order limit tree).1 := by
  induction limit generalizing tree with
  | zero => exact holds
  | succ limit ih =>
    simp only [settle]
    split
    · exact ih (keep tree holds)
    · exact keep tree holds

theorem here_bareCites (n : Node) :
    bareCites.here n = if isCite n then { n with children := none } else n := by
  obtain ⟨k, children, v, a⟩ := n
  cases children <;> by_cases cite : k = "cite" <;>
    simp [Edit.here, bareCites, isCite, is, cite]

namespace Lasting

section
variable {order : List String} {p : Node → Prop}

theorem everywhere_run (lasting : Lasting order p) {e : Edit}
    (here : ∀ n, Everywhere p n → Everywhere p (e.here n)) {n : Node} (all : Everywhere p n) :
    Everywhere p (e.run n).1 := by
  induction n using e.induction with
  | node n ih =>
    have changed := here n all
    rw [e.run_fst, everywhere_iff, kids_mapChildren_map, List.forall_mem_map]
    exact ⟨lasting.children rfl changed.here, fun c child => ih c child (changed.below c child)⟩

theorem everywhere_run_of_step (lasting : Lasting order p) {e : Edit} {s : Step}
    {applies : String → Bool} (scans : e.onKids = s.onKids applies)
    (keeps : s.Keeps (Everywhere p)) {n : Node} (all : Everywhere p n) :
    Everywhere p (e.run n).1 := by
  refine lasting.everywhere_run (fun m all => everywhere_iff.2 ⟨?_, ?_⟩) all
  · rw [here_eq_mapChildren scans]
    exact lasting.children (by simp) all.here
  · rw [e.kids_here_of_step scans]
    split
    · exact s.forall_mem_scan keeps all.below
    · exact all.below

/-! ### Steps -/

theorem everywhere_group (lasting : Lasting order p) (kind : Option Json) {cites : List Node}
    (all : ∀ c ∈ cites, Everywhere p c) : Everywhere p (group kind cites) :=
  everywhere_iff.2 ⟨lasting.grouped kind cites, all⟩

theorem everywhere_mergeGroups (lasting : Lasting order p) {g h : Node} (right : isGroup h = true)
    (first : Everywhere p g) (second : Everywhere p h) : Everywhere p (mergeGroups g h) :=
  everywhere_iff.2 ⟨lasting.regrouped right rfl rfl (erase_kind_mergeGroups g h) second.here,
    List.forall_mem_append.2 ⟨first.below, second.below⟩⟩

theorem everywhere_parenthetical (lasting : Lasting order p) {g : Node} (isOne : isGroup g = true)
    (all : Everywhere p g) : Everywhere p (parenthetical g) := by
  have kids : (parenthetical g).kids =
      g.kids.map (·.setAttr "kind" (.string "parenthetical")) := rfl
  rw [everywhere_iff, kids, List.forall_mem_map]
  refine ⟨lasting.regrouped isOne rfl rfl (erase_kind_parenthetical g) all.here,
    fun c child => ?_⟩
  have cite := all.below c child
  exact everywhere_iff.2 ⟨lasting.marked _ cite.here, cite.below⟩

theorem everywhere_withText (lasting : Lasting order p) {t : Node} {s : String} (some : s ≠ "")
    (text : t.kind = "text") (all : Everywhere p t) :
    Everywhere p { t with value := .some s } :=
  everywhere_iff.2 ⟨lasting.retexted s some text all.here, all.below⟩

theorem everywhere_retext (lasting : Lasting order p) {t : Node} (text : t.kind = "text")
    (all : Everywhere p t) (cs : List Char) : ∀ n ∈ retext t cs, Everywhere p n := by
  intro n mem
  rw [mem_retext mem]
  exact lasting.everywhere_withText (ofList_ne_empty_of_mem_retext mem) text all

theorem keeps_wrapCite (lasting : Lasting order p) : wrapCite.Keeps (Everywhere p) := by
  intro ns done rest found all
  obtain ⟨n, rfl, _, rfl⟩ := wrapFront?_eq_some_iff.1 found
  obtain ⟨first, others⟩ := List.forall_mem_cons.1 all
  refine ⟨List.forall_mem_singleton.2 (lasting.everywhere_group _ ?_), others⟩
  exact List.forall_mem_singleton.2 first

theorem keeps_unwrapGroup : unwrapGroup.Keeps (Everywhere p) := by
  intro ns done rest found all
  obtain ⟨n, rfl, _, rfl⟩ := unwrapFront?_eq_some_iff.1 found
  obtain ⟨first, others⟩ := List.forall_mem_cons.1 all
  exact ⟨first.below, others⟩

theorem keeps_mergeTouching (lasting : Lasting order p) : mergeTouching.Keeps (Everywhere p) := by
  intro ns done rest found all
  obtain ⟨g, h, tail, rfl, _, right, rfl, rfl⟩ := mergeFront?_eq_some_iff.1 found
  simp only [List.forall_mem_cons] at all
  obtain ⟨first, second, others⟩ := all
  refine ⟨List.forall_mem_nil _, List.forall_mem_cons.2 ⟨?_, others⟩⟩
  exact lasting.everywhere_mergeGroups right first second

theorem keeps_mergeSeparated (lasting : Lasting order p) :
    mergeSeparated.Keeps (Everywhere p) := by
  intro ns done rest found all
  obtain ⟨g, t, h, tail, rfl, _, _, right, rfl, rfl⟩ := joinFront?_eq_some_iff.1 found
  simp only [List.forall_mem_cons] at all
  obtain ⟨first, _, second, others⟩ := all
  refine ⟨List.forall_mem_nil _, List.forall_mem_cons.2 ⟨?_, others⟩⟩
  exact lasting.everywhere_mergeGroups right first second

theorem keeps_expandRange (lasting : Lasting order p) :
    (expandRange order).Keeps (Everywhere p) := by
  intro ns done rest found all
  obtain ⟨g, dash, h, range, rfl, isRange, rfl⟩ := expandFront?_eq_some_iff.1 found
  obtain ⟨_, _, _, first, last, i, j, only, only', start, stop, lt, rfl⟩ :=
    rangeGroup?_eq_some_iff.1 isRange
  obtain ⟨only, cite⟩ := onlyCite?_eq_some_iff.1 only
  obtain ⟨only', cite'⟩ := onlyCite?_eq_some_iff.1 only'
  simp only [List.forall_mem_cons] at all
  obtain ⟨left, -, right, others⟩ := all
  have here := (left.below first (by rw [only]; exact List.mem_singleton_self first)).here
  have here' := (right.below last (by rw [only']; exact List.mem_singleton_self last)).here
  obtain ⟨l, label, inside, rfl⟩ := position?_eq_some_iff.1 start
  obtain ⟨m, label', inside', rfl⟩ := position?_eq_some_iff.1 stop
  refine ⟨List.forall_mem_singleton.2 (lasting.everywhere_group _ ?_), others⟩
  refine List.forall_mem_map.2 fun s mem => everywhere_iff.2 ⟨?_, ?_⟩
  · exact lasting.listed _ cite label here cite' label' here' ⟨inside, inside', lt, mem⟩
  · rw [kids_citeOf]
    exact List.forall_mem_nil _

theorem keeps_unbracket (lasting : Lasting order p) : unbracket.Keeps (Everywhere p) := by
  intro ns done rest found all
  obtain ⟨before, g, after, tail, rfl, flanked, rfl, rfl⟩ := unbracketFront?_eq_some_iff.1 found
  obtain ⟨isOne, _, _, _, opening, _, closing, _⟩ := isBracketed_iff.1 flanked
  simp only [List.forall_mem_cons] at all
  obtain ⟨left, middle, right, others⟩ := all
  constructor
  · refine List.forall_mem_append.2 ⟨?_, List.forall_mem_singleton.2 ?_⟩
    · exact lasting.everywhere_retext (textOf?_eq_some_iff.1 opening).1 left _
    · exact lasting.everywhere_parenthetical isOne middle
  · refine List.forall_mem_append.2 ⟨?_, others⟩
    exact lasting.everywhere_retext (textOf?_eq_some_iff.1 closing).1 right _

theorem keeps_lowerGroup : lowerGroup.Keeps (Everywhere p) := by
  intro ns done rest found all
  obtain ⟨n, g, rfl, raised, rfl⟩ := lowerFront?_eq_some_iff.1 found
  obtain ⟨_, only, _⟩ := raisedGroup?_eq_some_iff.1 raised
  obtain ⟨first, others⟩ := List.forall_mem_cons.1 all
  refine ⟨List.forall_mem_singleton.2 (first.below g ?_), others⟩
  rw [only]
  exact List.mem_singleton_self g

theorem keeps_addSpace (lasting : Lasting order p) : addSpace.Keeps (Everywhere p) := by
  intro ns done rest found all
  obtain ⟨t, g, tail, rfl, _, needs, rfl, rfl⟩ := spaceFront?_eq_some_iff.1 found
  obtain ⟨first, others⟩ := List.forall_mem_cons.1 all
  refine ⟨List.forall_mem_singleton.2 ?_, others⟩
  exact lasting.everywhere_withText (by simp) (any_textOf?_iff.1 needs).1 first

/-! ### Rules, passes and runs -/

theorem everywhere_run_bareCites (lasting : Lasting order p) {n : Node} (all : Everywhere p n) :
    Everywhere p (bareCites.run n).1 := by
  refine lasting.everywhere_run (fun m all => ?_) all
  rw [here_bareCites]
  split
  · exact everywhere_iff.2 ⟨lasting.stripped all.here, List.forall_mem_nil _⟩
  · exact all

theorem keeps_of_mem_steps (lasting : Lasting order p) {s : Step} (mem : s ∈ steps order) :
    s.Keeps (Everywhere p) := by
  simp only [steps, List.mem_cons, List.not_mem_nil, or_false] at mem
  rcases mem with rfl | rfl | rfl | rfl | rfl | rfl | rfl | rfl
  · exact lasting.keeps_wrapCite
  · exact keeps_unwrapGroup
  · exact lasting.keeps_mergeTouching
  · exact lasting.keeps_mergeSeparated
  · exact lasting.keeps_expandRange
  · exact lasting.keeps_unbracket
  · exact keeps_lowerGroup
  · exact lasting.keeps_addSpace

theorem everywhere_rule (lasting : Lasting order p) {rule : Edit} (mem : rule ∈ rules order)
    {n : Node} (all : Everywhere p n) : Everywhere p (rule.run n).1 := by
  rcases List.mem_cons.1 mem with rfl | mem
  · exact lasting.everywhere_run_bareCites all
  · obtain ⟨s, applies, step, scans, -⟩ := exists_step_of_mem mem
    exact lasting.everywhere_run_of_step scans (lasting.keeps_of_mem_steps step) all

theorem everywhere_groupCitations (lasting : Lasting order p) {tree : Node}
    (all : Everywhere p tree) : Everywhere p (groupCitations order tree).1 :=
  settle_keeps (fun _ => runRules_keeps fun _ mem _ => lasting.everywhere_rule mem) all

end

end Lasting

end Manuscript.Myst.Citation
