import Manuscript.Proofs.Citation.Frame
import Manuscript.Proofs.Emission.Forms

/-!
Grouping a list of siblings. Below nodes that no rule is for, grouping does to each list of children
what it does to that list alone: a rule scans the list and then goes on with each node of it. So
what becomes of the children of a paragraph can be followed rule by rule, wherever it stands.
-/

set_option autoImplicit false

namespace Manuscript.Myst.Citation

open Manuscript.Node

section
variable {order : List String}

/-! ### Nodes that are settled -/

theorem idle_of_settled {rule : Edit} (mem : rule ∈ rules order) {n : Node}
    (settled : ∀ m ∈ n.nodes, Settled order m) : (rule.run n).2 = false := by
  rw [Edit.run_changed_eq_false_iff]
  exact fun m inside => settled_iff.1 (settled m inside) rule mem

theorem settled_of_leaf {n : Node} (leaf : n.children = none) : ∀ m ∈ n.nodes, Settled order m := by
  intro m mem
  rcases mem_nodes_iff.1 mem with rfl | ⟨c, child, _⟩
  · refine settled_iff.2 fun rule mem => ?_
    rcases List.mem_cons.1 mem with rfl | mem
    · exact onKids_bareCites_idle_iff.2 fun _ => leaf
    · obtain ⟨s, applies, _, scans, -⟩ := exists_step_of_mem mem
      rw [scans, Step.onKids, leaf]
  · rw [kids, leaf] at child
    cases child

theorem settled_of_cites {g : Node} (isOne : isGroup g = true)
    (cites : ∀ c ∈ g.kids, isCite c = true) : Settled order g := by
  have flat : ∀ c ∈ g.kids, isGroup c = false := fun c child => isGroup_of_isCite (cites c child)
  -- What the other rules look for starts with a group among the children, or has one second.
  have within {c : Node} {tail : List Node} (next : c :: tail <:+: g.kids) : isGroup c ≠ true := by
    rw [flat c (next.subset List.mem_cons_self)]
    exact Bool.false_ne_true
  constructor
  case bare => exact fun cite => absurd (cite.symm.trans (isCite_of_isGroup isOne)) (by decide)
  case grouped => exact fun other => absurd (isOne.symm.trans other) (by decide)
  case flat => exact fun _ => flat
  case apart => exact fun _ _ next left => absurd left (within next)
  case unseparated => exact fun _ _ _ next left => absurd left (within next)
  case unbound => exact fun _ _ _ _ _ next left => absurd left (within next)
  case unbracketed =>
    intro t h u next isOne
    exact absurd isOne (within ((List.suffix_cons t _).isInfix.trans next))
  case low =>
    intro c child raised
    have cite : c.kind = "cite" := beq_iff_eq.1 (cites c child)
    exact absurd (cite.symm.trans raised) (by decide)
  case spaced =>
    intro t h c next _ isOne
    exact absurd isOne (within ((List.suffix_cons t _).isInfix.trans next))

/-- A group of nothing but citations without children. -/
structure Cluster (g : Node) : Prop where
  isGroup : isGroup g = true
  cites : ∀ c ∈ g.kids, isCite c = true
  bare : ∀ c ∈ g.kids, c.children = none

theorem Cluster.settled {g : Node} (cluster : Cluster g) : ∀ m ∈ g.nodes, Settled order m := by
  intro m mem
  rcases mem_nodes_iff.1 mem with rfl | ⟨c, child, mem⟩
  · exact settled_of_cites cluster.isGroup cluster.cites
  · exact settled_of_leaf (cluster.bare c child) m mem

theorem settled_of_only {n g : Node} (other : Uninvolved n.kind) (only : n.kids = [g])
    (cluster : Cluster g) : ∀ m ∈ n.nodes, Settled order m := by
  have short {ms : List Node} (next : ms <:+: n.kids) : ms.length ≤ 1 := by
    rw [only] at next
    exact next.length_le
  have alone : ∀ c ∈ n.kids, c = g := by simp [only]
  intro m mem
  rcases mem_nodes_iff.1 mem with rfl | ⟨c, child, inside⟩
  · constructor
    case bare =>
      intro cite
      have kind : m.kind = "cite" := beq_iff_eq.1 cite
      exact absurd (kind ▸ by decide : m.kind ∈ involvedKinds) other
    case grouped => exact fun _ c child => alone c child ▸ isCite_of_isGroup cluster.isGroup
    case flat => exact fun outer => absurd (involved_of_isGroup outer) other
    case apart => exact fun _ _ next => absurd (short next) (by simp)
    case unseparated => exact fun _ _ _ next => absurd (short next) (by simp)
    case unbound => exact fun _ _ _ _ _ next => absurd (short next) (by simp)
    case unbracketed => exact fun _ _ _ next => absurd (short next) (by simp)
    case low =>
      intro c child raised
      rw [alone c child, kind_of_isGroup cluster.isGroup] at raised
      exact absurd raised (by decide)
    case spaced => exact fun _ _ _ next => absurd (short next) (by simp)
  · rw [alone c child] at inside
    exact cluster.settled m inside

/-! ### What remains of a node -/

/-- Whether a node is there as another one that has the same but for what is below, and no children
if it had none. -/
structure Remains (m n : Node) : Prop where
  own : n = { m with children := n.children }
  leaf : m.children = none → n.children = none

theorem Remains.refl (n : Node) : Remains n n := ⟨by cases n; rfl, fun leaf => leaf⟩

theorem Remains.trans {m n k : Node} (first : Remains m n) (second : Remains n k) :
    Remains m k := by
  refine ⟨?_, fun leaf => second.leaf (first.leaf leaf)⟩
  rw [second.own, first.own]

theorem Remains.kind {m n : Node} (remains : Remains m n) : n.kind = m.kind := by
  rw [remains.own]

theorem Remains.value {m n : Node} (remains : Remains m n) : n.value = m.value := by
  rw [remains.own]

theorem remains_run {rule : Edit} (mem : rule ∈ rules order) (n : Node) :
    Remains n (rule.run n).1 := by
  refine ⟨?_, fun leaf => ?_⟩
  · rw [rule.run_fst]
    rfl
  · rw [rule.run_eq_self (idle_of_settled mem (settled_of_leaf leaf)), leaf]

/-! ### Rules on siblings -/

def along (rule : Edit) (ns : List Node) : List Node := onForest (fun n => (rule.run n).1) ns

def alongAll (list : List Edit) (ns : List Node) : List Node :=
  list.foldl (fun ns rule => along rule ns) ns

theorem alongAll_append (list more : List Edit) (ns : List Node) :
    alongAll (list ++ more) ns = alongAll more (alongAll list ns) :=
  List.foldl_append

theorem along_of_step {rule : Edit} {s : Step} {applies : String → Bool}
    (scans : rule.onKids = s.onKids applies) (ns : List Node) : along rule ns =
      (if applies "root" then (s.scan ns).1 else ns).map fun c => (rule.run c).1 := by
  rw [along, onForest, rule.run_fst, kids_mapChildren_map, rule.kids_here_of_step scans]
  rfl

/-- Where a rule finds nothing to do among the siblings, it goes on with each of them. -/
theorem along_of_idle {rule : Edit} {ns : List Node}
    (idle : (rule.onKids (.branch "root" ns)).2 = false) :
    along rule ns = ns.map fun c => (rule.run c).1 := by
  rw [along, onForest, rule.run_fst, kids_mapChildren_map, rule.here_eq_self idle]
  rfl

theorem run_cluster {rule : Edit} (mem : rule ∈ rules order) {g : Node} (cluster : Cluster g) :
    (rule.run g).1 = g :=
  rule.run_eq_self (idle_of_settled mem cluster.settled)

theorem lasting_true : Lasting order fun n => (fun _ : Node => false) n = false := by
  constructor <;> intros <;> rfl

theorem skips_each {rule : Edit} (mem : rule ∈ rules order) :
    Skips (fun _ => false) Uninvolved fun n => (rule.run n).1 :=
  skips_rule lasting_true (fun _ => rfl) mem

theorem runRules_root {list : List Edit} (known : ∀ rule ∈ list, rule ∈ rules order)
    (ns : List Node) :
    (runRules list (.branch "root" ns)).1 = .branch "root" (alongAll list ns) := by
  induction list generalizing ns with
  | nil => rfl
  | cons rule list ih =>
    obtain ⟨first, rest⟩ := List.forall_mem_cons.1 known
    have here : (rule.run (.branch "root" ns)).1 = .branch "root" (along rule ns) :=
      (skips_each first).here _ uninvolved_root
    show (runRules list (rule.run (.branch "root" ns)).1).1 = _
    rw [here, ih rest]
    rfl

/-! ### Citations among siblings -/

def inGroup (cite : Node) : Node :=
  group (cite.attr? "kind") [{ cite with children := none }]

theorem attr?_group (kind : Option Json) (cites : List Node) :
    (group kind cites).attr? "kind" = kind := by
  rw [attr?, group, branch, Dict.find?_insert?]
  simp

theorem cluster_inGroup {c : Node} (cite : isCite c = true) : Cluster (inGroup c) where
  isGroup := rfl
  cites := List.forall_mem_singleton.2 cite
  bare := List.forall_mem_singleton.2 rfl

/-- A citation in a group, any other node as it is. -/
def wrapped (n : Node) : Node := if isCite n then group (n.attr? "kind") [n] else n

theorem scan_wrapCite (ns : List Node) : (wrapCite.scan ns).1 = ns.map wrapped := by
  induction ns with
  | nil => rw [wrapCite.scan_nil]; rfl
  | cons n ns ih =>
    rw [List.map_cons, ← ih, wrapped]
    by_cases cite : isCite n = true
    · have front : wrapCite.next? (n :: ns) = some ([group (n.attr? "kind") [n]], ns) := if_pos cite
      rw [wrapCite.scan_of_some front, if_pos cite]
      rfl
    · have other : wrapCite.next? (n :: ns) = none := if_neg cite
      rw [wrapCite.scan_of_none other, if_neg cite]

/-- What the first two rules make of a node: each citation is put into a group. -/
def gathered (n : Node) : Node := (groupCites.run (wrapped (bareCites.run n).1)).1

theorem alongAll_gathered (ns : List Node) :
    alongAll [bareCites, groupCites] ns = ns.map gathered := by
  show along groupCites (along bareCites ns) = _
  have scans : groupCites.onKids = wrapCite.onKids (· != "citeGroup") := rfl
  have bared : along bareCites ns = ns.map fun c => (bareCites.run c).1 := along_of_idle rfl
  rw [bared, along_of_step scans, if_pos (by decide), scan_wrapCite]
  simp only [List.map_map]
  rfl

theorem gathered_of_isCite {c : Node} (cite : isCite c = true) : gathered c = inGroup c := by
  have bare : (bareCites.run c).1 = { c with children := none } := by
    rw [bareCites.run_fst, here_bareCites, if_pos cite]
    rfl
  have wrapped : wrapped (bareCites.run c).1 = inGroup c := by
    rw [bare]
    exact if_pos cite
  have mem : groupCites ∈ rules [] := by simp [rules]
  rw [gathered, wrapped, run_cluster mem (cluster_inGroup cite)]

theorem remains_gathered {n : Node} (other : isCite n = false) : Remains n (gathered n) := by
  have first : bareCites ∈ rules [] := by simp [rules]
  have second : groupCites ∈ rules [] := by simp [rules]
  have remains := remains_run first n
  have bare : isCite (bareCites.run n).1 = false := by rw [isCite_congr remains.kind, other]
  have kept : wrapped (bareCites.run n).1 = (bareCites.run n).1 := if_neg (by simp [bare])
  rw [gathered, kept]
  exact remains.trans (remains_run second _)

/-! ### Passes and runs -/

def grouped (order : List String) (ns : List Node) : List Node :=
  onForest (fun n => (groupCitations order n).1) ns

theorem skips_grouping (order : List String) :
    Skips (fun _ => false) Uninvolved fun n => (groupCitations order n).1 :=
  skips_groupCitations lasting_true fun _ => rfl

/-- What the first pass brings about and further passes keep is so in the end. -/
theorem grouped_keeps {p : List Node → Prop} {ns : List Node}
    (first : p (alongAll (rules order) ns))
    (further : ∀ ms, p ms → p (alongAll (rules order) ms)) : p (grouped order ns) := by
  have pass_root (ms : List Node) :
      (pass order (.branch "root" ms)).1 = .branch "root" (alongAll (rules order) ms) :=
    runRules_root (fun _ mem => mem) ms
  have later (limit : Nat) : ∀ ms, p ms → p (passes order limit (.branch "root" ms)).kids := by
    induction limit with
    | zero => exact fun _ holds => holds
    | succ limit ih =>
      intro ms holds
      rw [passes, pass_root]
      exact ih _ (further ms holds)
  have run : grouped order ns = (passes order (passLimit - 1)
      (.branch "root" (alongAll (rules order) ns))).kids := by
    rw [grouped, onForest, groupCitations, settle_fst, ← pass_root]
    rfl
  rw [run]
  exact later _ _ first

theorem alongAll_eq_self {list : List Edit} (known : ∀ rule ∈ list, rule ∈ rules order)
    {ns : List Node} (settled : ∀ m ∈ (branch "root" ns).nodes, Settled order m) :
    alongAll list ns = ns := by
  have idle : (runRules list (.branch "root" ns)).2 = false :=
    runRules_idle_iff.2 fun rule mem => idle_of_settled (known rule mem) settled
  have same := runRules_root known ns
  rw [runRules_eq_self idle] at same
  exact (congrArg kids same).symm

/-- If a pass settles the siblings, grouping makes the same of them. -/
theorem grouped_of_pass {ns result : List Node} (pass : alongAll (rules order) ns = result)
    (settled : ∀ m ∈ (branch "root" result).nodes, Settled order m) :
    grouped order ns = result := by
  refine grouped_keeps (p := (· = result)) pass ?_
  rintro _ rfl
  exact alongAll_eq_self (fun _ mem => mem) settled

/-! ### Siblings in a document -/

theorem groupCitations_eq {n : Node} (other : Uninvolved n.kind) :
    (groupCitations order n).1 = n.mapChildren (grouped order) :=
  (skips_grouping order).here n other

/-- The way with what stands on both sides of it grouped. -/
def groupedAside (order : List String) (way : Way) : Way :=
  way.map fun c => { c with before := grouped order c.before, after := grouped order c.after }

/-- Below nodes that no rule is for, a node is grouped as it is alone, and so is all that stands
around it. -/
theorem groupCitations_fill {way : Way} (above : ∀ c ∈ way, Uninvolved c.kind) {n : Node}
    (other : Uninvolved n.kind) : (groupCitations order (fill way n)).1 =
      fill (groupedAside order way) (n.mapChildren (grouped order)) := by
  induction way with
  | nil => exact groupCitations_eq other
  | cons c way ih =>
    obtain ⟨here, rest⟩ := List.forall_mem_cons.1 above
    -- What is next on the way parts its siblings, as no rule reaches over it.
    have next : Uninvolved (fill way n).kind := by
      cases way with
      | nil => exact other
      | cons d way => exact rest d List.mem_cons_self
    have outer : Uninvolved (fill (c :: way) n).kind := here
    have split : grouped order (c.before ++ fill way n :: c.after) =
        grouped order c.before ++ (fill way n).mapChildren (grouped order) ::
          grouped order c.after := (skips_grouping order).passage.seam _ _ next
    rw [groupCitations_eq outer]
    show (⟨c.kind, some (grouped order (c.before ++ fill way n :: c.after)), c.value, c.attrs⟩
      : Node) = _
    rw [split, ← groupCitations_eq next, ih rest]
    rfl

end

end Manuscript.Myst.Citation
