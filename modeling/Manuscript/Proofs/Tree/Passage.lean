import Manuscript.Proofs.Tree.Everywhere

/-!
Following a node through changes of a tree. A passage makes of a forest with a node of certain
kinds in it what it makes of the nodes before that node, the node with its children passed, and what
it makes of the nodes behind. So a node below such nodes is not lost, and one that is the only one
of its sort stays the only one.
-/

set_option autoImplicit false

namespace Manuscript.Node

theorem mapChildren_mapChildren (f g : List Node → List Node) (n : Node) :
    (n.mapChildren f).mapChildren g = n.mapChildren fun cs => g (f cs) := by
  obtain ⟨k, children, v, a⟩ := n
  cases children <;> rfl

theorem mapChildren_of_eq_self {f : List Node → List Node} {n : Node} (same : f n.kids = n.kids) :
    n.mapChildren f = n := by
  obtain ⟨k, children, v, a⟩ := n
  cases children with
  | none => rfl
  | some cs =>
    have same : f cs = cs := same
    simp [mapChildren, same]

theorem removeWhere_eq_self {removed : Node → Bool} {n : Node}
    (kept : Everywhere (fun m => removed m = false) n) : removeWhere removed n = n := by
  induction n using induction_on_kids with
  | node n ih =>
    rw [removeWhere_eq]
    apply mapChildren_of_eq_self
    have all : n.kids.filter (!removed ·) = n.kids :=
      List.filter_eq_self.2 fun c child => by rw [(kept.below c child).here]; rfl
    have same : n.kids.map (removeWhere removed) = n.kids.map id :=
      List.map_congr_left fun c child => ih c child (kept.below c child)
    rw [all, same, List.map_id]

/-! ### Wanted nodes -/

/-- Whether a node is wanted for what it is, whatever its children. -/
def Inherent (wanted : Node → Bool) : Prop :=
  ∀ (n : Node) (cs : List Node), wanted (n.withKids cs) = wanted n

/-- Whether no node of a forest is wanted. -/
def Clear (wanted : Node → Bool) (ns : List Node) : Prop :=
  ∀ n ∈ ns, Everywhere (fun m => wanted m = false) n

/-- Whether one node of a forest is wanted and no other; the path has the kinds of the nodes that
it is below, outermost first. -/
inductive Lone (wanted : Node → Bool) : List String → List Node → Prop where
  | top {before after : List Node} {n : Node} (isOne : wanted n = true)
      (inside : Clear wanted n.kids) (front : Clear wanted before) (back : Clear wanted after) :
      Lone wanted [] (before ++ n :: after)
  | under {path : List String} {before after : List Node} {n : Node} (other : wanted n = false)
      (inside : Lone wanted path n.kids) (front : Clear wanted before)
      (back : Clear wanted after) : Lone wanted (n.kind :: path) (before ++ n :: after)

section
variable {wanted : Node → Bool}

theorem Inherent.mapChildren (inherent : Inherent wanted) (f : List Node → List Node) (n : Node) :
    wanted (n.mapChildren f) = wanted n := by
  obtain ⟨k, children, v, a⟩ := n
  cases children with
  | none => rfl
  | some cs => exact inherent ⟨k, some cs, v, a⟩ (f cs)

theorem Inherent.kidsFree (inherent : Inherent wanted) : KidsFree fun n => wanted n = false :=
  fun cs here => (inherent _ cs).trans here

theorem Inherent.clear_removeFrom (inherent : Inherent wanted) (removed : Node → Bool)
    {ns : List Node} (clear : Clear wanted ns) : Clear wanted (removeFrom removed ns) := by
  rw [removeFrom_eq_map]
  refine List.forall_mem_map.2 fun n mem => everywhere_removeWhere (fun m all => ?_) ?_
  · rw [removeWhere_eq, inherent.mapChildren]
    exact all.here
  · exact clear n (List.mem_filter.1 mem).1

theorem filter_of_clear {ns : List Node} (clear : Clear wanted ns) :
    (forestNodes ns).filter wanted = [] := by
  rw [List.filter_eq_nil_iff]
  intro m mem
  obtain ⟨n, place, inside⟩ := mem_forestNodes_iff.1 mem
  rw [clear n place m inside]
  exact Bool.false_ne_true

theorem filter_forestNodes_around {before after : List Node} (front : Clear wanted before)
    (back : Clear wanted after) (n : Node) : (forestNodes (before ++ n :: after)).filter wanted =
      (if wanted n then [n] else []) ++ (forestNodes n.kids).filter wanted := by
  rw [forestNodes_append, List.filter_append, filter_of_clear front, List.nil_append, forestNodes,
    List.filter_cons, List.filter_append, filter_of_clear back, List.append_nil, descendants_eq]
  split <;> rfl

theorem Lone.exists_top {ns : List Node} (lone : Lone wanted [] ns) :
    ∃ before n after, ns = before ++ n :: after ∧ wanted n = true ∧ Clear wanted n.kids ∧
      Clear wanted before ∧ Clear wanted after := by
  cases lone with
  | top isOne inside front back => exact ⟨_, _, _, rfl, isOne, inside, front, back⟩

theorem Lone.exists_under {kind : String} {path : List String} {ns : List Node}
    (lone : Lone wanted (kind :: path) ns) : ∃ before n after, ns = before ++ n :: after ∧
      n.kind = kind ∧ wanted n = false ∧ Lone wanted path n.kids ∧ Clear wanted before ∧
      Clear wanted after := by
  cases lone with
  | under other inside front back => exact ⟨_, _, _, rfl, rfl, other, inside, front, back⟩

theorem Lone.exists_filter {path : List String} {ns : List Node} (lone : Lone wanted path ns) :
    ∃ n, wanted n = true ∧ (forestNodes ns).filter wanted = [n] := by
  induction lone with
  | top isOne inside front back =>
    exact ⟨_, isOne, by
      rw [filter_forestNodes_around front back, if_pos isOne, filter_of_clear inside,
        List.append_nil]⟩
  | under other _ front back ih =>
    obtain ⟨n, isOne, only⟩ := ih
    refine ⟨n, isOne, ?_⟩
    rw [filter_forestNodes_around front back, only, other, if_neg Bool.false_ne_true]
    rfl

theorem Lone.prepend {path : List String} {ns ms : List Node} (lone : Lone wanted path ns)
    (clear : Clear wanted ms) : Lone wanted path (ms ++ ns) := by
  cases lone with
  | top isOne inside front back =>
    rw [← List.append_assoc]
    exact .top isOne inside (List.forall_mem_append.2 ⟨clear, front⟩) back
  | under other inside front back =>
    rw [← List.append_assoc]
    exact .under other inside (List.forall_mem_append.2 ⟨clear, front⟩) back

theorem Lone.append {path : List String} {ns ms : List Node} (lone : Lone wanted path ns)
    (clear : Clear wanted ms) : Lone wanted path (ns ++ ms) := by
  cases lone with
  | top isOne inside front back =>
    rw [List.append_assoc, List.cons_append]
    exact .top isOne inside front (List.forall_mem_append.2 ⟨back, clear⟩)
  | under other inside front back =>
    rw [List.append_assoc, List.cons_append]
    exact .under other inside front (List.forall_mem_append.2 ⟨back, clear⟩)

theorem Lone.clear_of_mem {path : List String} {ns : List Node} (lone : Lone wanted path ns)
    {m : Node} (mem : m ∈ forestNodes ns) (aside : m.kind ∉ path) (other : wanted m = false) :
    Everywhere (fun n => wanted n = false) m := by
  -- A node is beside the next one of the path, that one itself, or below it.
  have beside {before after : List Node} {n : Node} (front : Clear wanted before)
      (back : Clear wanted after) (mem : m ∈ forestNodes (before ++ n :: after)) :
      Everywhere (fun n => wanted n = false) m ∨ m = n ∨ m ∈ forestNodes n.kids := by
    rw [forestNodes_append, forestNodes, descendants_eq] at mem
    simp only [List.mem_append, List.mem_cons] at mem
    rcases mem with mem | same | mem | mem
    · obtain ⟨k, place, inside⟩ := mem_forestNodes_iff.1 mem
      exact .inl (Everywhere.of_mem_nodes (front k place) inside)
    · exact .inr (.inl same)
    · exact .inr (.inr mem)
    · obtain ⟨k, place, inside⟩ := mem_forestNodes_iff.1 mem
      exact .inl (Everywhere.of_mem_nodes (back k place) inside)
  induction lone with
  | top isOne inside front back =>
    rcases beside front back mem with clear | rfl | mem
    · exact clear
    · rw [isOne] at other
      cases other
    · obtain ⟨k, place, below⟩ := mem_forestNodes_iff.1 mem
      exact Everywhere.of_mem_nodes (inside k place) below
  | under _ _ front back ih =>
    rw [List.mem_cons, not_or] at aside
    rcases beside front back mem with clear | rfl | mem
    · exact clear
    · exact absurd rfl aside.1
    · exact ih mem aside.2

end

/-! ### Passages -/

/-- Whether a change of forests passes the nodes of some kinds by, changing only what is below
them, and makes no wanted nodes. -/
structure Passage (wanted : Node → Bool) (on : String → Prop)
    (pass : List Node → List Node) : Prop where
  nil : pass [] = []
  seam : ∀ {n : Node} (before after : List Node), on n.kind →
    pass (before ++ n :: after) = pass before ++ n.mapChildren pass :: pass after
  clear : ∀ {ns : List Node}, Clear wanted ns → Clear wanted (pass ns)

namespace Passage

section
variable {wanted : Node → Bool} {on : String → Prop} {path : List String}
  {pass pass' : List Node → List Node}

theorem refl : Passage wanted on fun ns => ns := by
  refine ⟨rfl, fun before after _ => ?_, fun clear => clear⟩
  rw [mapChildren_of_eq_self rfl]

theorem trans (first : Passage wanted on pass) (second : Passage wanted on pass') :
    Passage wanted on fun ns => pass' (pass ns) := by
  refine ⟨by rw [first.nil, second.nil], fun {n} before after kind => ?_,
    fun clear => second.clear (first.clear clear)⟩
  have known : on (n.mapChildren pass).kind := kind
  rw [first.seam before after kind, second.seam _ _ known, mapChildren_mapChildren]

theorem cons (passage : Passage wanted on pass) {n : Node} (kind : on n.kind)
    (ns : List Node) : pass (n :: ns) = n.mapChildren pass :: pass ns := by
  have split := passage.seam [] ns kind
  rw [passage.nil] at split
  exact split

theorem mem (passage : Passage wanted on pass) {n : Node} {ns : List Node}
    (kind : on n.kind) (mem : n ∈ ns) : n.mapChildren pass ∈ pass ns := by
  obtain ⟨before, after, rfl⟩ := List.append_of_mem mem
  rw [passage.seam before after kind]
  exact List.mem_append_right _ List.mem_cons_self

theorem mem_nodes (passage : Passage wanted on pass) {m n : Node}
    (passed : Everywhere (fun k => on k.kind ∨ k.kids = []) n) (mem : m ∈ n.nodes)
    (kind : on m.kind) : m.mapChildren pass ∈ (n.mapChildren pass).nodes := by
  induction n using induction_on_kids with
  | node n ih =>
    rcases mem_nodes_iff.1 mem with rfl | ⟨c, child, inside⟩
    · exact List.mem_cons_self
    · rw [mem_nodes_iff, kids_mapChildren passage.nil]
      have here := passed.below c child
      refine .inr ⟨c.mapChildren pass, passage.mem ?_ child, ih c child here inside⟩
      rcases here.here with known | leaf
      · exact known
      · -- A leaf has no node below, so it is the node in question.
        rcases mem_nodes_iff.1 inside with rfl | ⟨d, below, -⟩
        · exact kind
        · rw [leaf] at below
          cases below

theorem append (passage : Passage wanted on pass) {ns : List Node} (known : ∀ n ∈ ns, on n.kind)
    (ms : List Node) : pass (ns ++ ms) = ns.map (mapChildren pass) ++ pass ms := by
  induction ns with
  | nil => rfl
  | cons n ns ih =>
    obtain ⟨first, rest⟩ := List.forall_mem_cons.1 known
    rw [List.cons_append, passage.cons first, ih rest, List.map_cons, List.cons_append]

theorem mapChildren_eq_self (passage : Passage wanted on pass) {n : Node}
    (all : OfKinds on n) : n.mapChildren pass = n := by
  induction n using induction_on_kids with
  | node n ih =>
    have kept : pass (n.kids ++ []) = n.kids.map (mapChildren pass) ++ pass [] :=
      passage.append (fun c child => (all.below c child).here) []
    have same : n.kids.map (mapChildren pass) = n.kids.map id :=
      List.map_congr_left fun c child => ih c child (all.below c child)
    rw [passage.nil, List.append_nil, List.append_nil, same, List.map_id] at kept
    exact mapChildren_of_eq_self kept

theorem map_eq_self (passage : Passage wanted on pass) {ns : List Node}
    (all : ∀ n ∈ ns, OfKinds on n) : ns.map (mapChildren pass) = ns := by
  have same : ns.map (mapChildren pass) = ns.map id :=
    List.map_congr_left fun n mem => passage.mapChildren_eq_self (all n mem)
  rw [same, List.map_id]

theorem lone (passage : Passage wanted on pass) (inherent : Inherent wanted)
    (own : ∀ n, wanted n = true → on n.kind) (known : ∀ kind ∈ path, on kind)
    {ns : List Node} (lone : Lone wanted path ns) : Lone wanted path (pass ns) := by
  induction lone with
  | top isOne inside front back =>
    rw [passage.seam _ _ (own _ isOne)]
    refine .top ((inherent.mapChildren pass _).trans isOne) ?_ (passage.clear front)
      (passage.clear back)
    rw [kids_mapChildren passage.nil]
    exact passage.clear inside
  | @under path before after n other inside front back ih =>
    obtain ⟨here, rest⟩ := List.forall_mem_cons.1 known
    rw [passage.seam _ _ here]
    refine .under (n := n.mapChildren pass) ((inherent.mapChildren pass n).trans other) ?_
      (passage.clear front) (passage.clear back)
    rw [kids_mapChildren passage.nil]
    exact ih rest

end

/-! ### Changes that are passages -/

section
variable {wanted : Node → Bool} {on : String → Prop}

theorem flatMap {change : Node → List Node}
    (stays : ∀ n, on n.kind → change n = [n.mapChildren (List.flatMap change)])
    (keeps : ∀ n, Everywhere (fun m => wanted m = false) n → Clear wanted (change n)) :
    Passage wanted on (List.flatMap change) := by
  refine ⟨rfl, fun {n} before after kind => ?_, fun {ns} clear m mem => ?_⟩
  · rw [List.flatMap_append, List.flatMap_cons, stays n kind, List.singleton_append]
  · obtain ⟨n, place, inside⟩ := List.mem_flatMap.1 mem
    exact keeps n (clear n place) m inside

theorem map {change : Node → Node}
    (stays : ∀ n, on n.kind → change n = n.mapChildren (List.map change))
    (keeps : ∀ n, Everywhere (fun m => wanted m = false) n →
      Everywhere (fun m => wanted m = false) (change n)) :
    Passage wanted on (List.map change) := by
  refine ⟨rfl, fun {n} before after kind => ?_, fun {ns} clear => ?_⟩
  · rw [List.map_append, List.map_cons, stays n kind]
  · exact List.forall_mem_map.2 fun n place => keeps n (clear n place)

theorem removeFrom (inherent : Inherent wanted) {removed : Node → Bool}
    (stays : ∀ n, on n.kind → removed n = false) :
    Passage wanted on (removeFrom removed) := by
  refine ⟨rfl, fun {n} before after kind => ?_, inherent.clear_removeFrom removed⟩
  rw [removeFrom_around (stays n kind), removeWhere_eq]
  simp only [← removeFrom_eq_map]

theorem liftFrom (inherent : Inherent wanted) {lifted : Node → Bool}
    (stays : ∀ n, on n.kind → lifted n = false) :
    Passage wanted on (liftFrom lifted) := by
  have same : Node.liftFrom lifted = List.flatMap (liftNode lifted) :=
    funext (liftFrom_eq_flatMap lifted)
  rw [same]
  refine flatMap (fun n kind => ?_) fun n all => ?_
  · rw [liftNode_eq, stays n kind, if_neg Bool.false_ne_true, ← same]
  · refine everywhere_liftNode (fun m here => ?_) (all.imp fun m here _ => here)
    exact (inherent.mapChildren _ m).trans here

theorem mapUp (inherent : Inherent wanted) {f : Node → Node}
    (stays : ∀ n, on n.kind → f n = n)
    (keeps : ∀ n, Everywhere (fun m => wanted m = false) n →
      Everywhere (fun m => wanted m = false) (f n)) :
    Passage wanted on (List.map (mapUp f)) := by
  refine map (fun n kind => ?_) fun n => everywhere_mapUp (fun m here => ?_) keeps
  · rw [mapUp_eq]
    exact stays _ kind
  · exact (inherent.mapChildren _ m).trans here

theorem mapDown (inherent : Inherent wanted) {f : Node → Node} (small : ∀ n, (f n).size ≤ n.size)
    (stays : ∀ n, on n.kind → f n = n)
    (keeps : ∀ n, Everywhere (fun m => wanted m = false) n →
      Everywhere (fun m => wanted m = false) (f n)) :
    Passage wanted on (List.map (mapDown f small)) := by
  refine map (fun n kind => ?_) fun n => everywhere_mapDown small (fun m here => ?_) keeps
  · rw [mapDown_eq, stays n kind]
  · exact (inherent.mapChildren _ m).trans here

end

end Passage

/-! ### Changes of trees -/

/-- What a change of trees makes of a list of children, below a root. -/
def onForest (f : Node → Node) (ns : List Node) : List Node := (f (.branch "root" ns)).kids

/-- Whether a change of trees is a passage below nodes of some kinds and leaves these alone. -/
structure Skips (wanted : Node → Bool) (on : String → Prop) (f : Node → Node) : Prop where
  here : ∀ n, on n.kind → f n = n.mapChildren (onForest f)
  passage : Passage wanted on (onForest f)

namespace Skips

section
variable {wanted : Node → Bool} {on : String → Prop} {f g : Node → Node}

theorem of_mapChildren (root : on "root") {pass : List Node → List Node}
    (here : ∀ n, on n.kind → f n = n.mapChildren pass) (passage : Passage wanted on pass) :
    Skips wanted on f := by
  have same : onForest f = pass := by
    funext ns
    rw [onForest, here _ root]
    rfl
  exact ⟨by rwa [same], by rwa [same]⟩

theorem refl (wanted : Node → Bool) (on : String → Prop) : Skips wanted on fun n => n :=
  ⟨fun _ _ => (mapChildren_of_eq_self rfl).symm, .refl⟩

theorem trans (first : Skips wanted on f) (root : on "root") (second : Skips wanted on g) :
    Skips wanted on fun n => g (f n) := by
  refine of_mapChildren root (fun n kind => ?_) (first.passage.trans second.passage)
  rw [← mapChildren_mapChildren, ← first.here n kind]
  refine second.here (f n) ?_
  rw [first.here n kind]
  exact kind

theorem kids (skips : Skips wanted on f) {n : Node} (kind : on n.kind) :
    (f n).kids = onForest f n.kids := by
  rw [skips.here n kind, kids_mapChildren skips.passage.nil]

theorem removeWhere (root : on "root") (inherent : Inherent wanted) {removed : Node → Bool}
    (stays : ∀ n, on n.kind → removed n = false) : Skips wanted on (removeWhere removed) := by
  refine of_mapChildren root (fun n _ => ?_) (.removeFrom inherent stays)
  rw [removeWhere_eq]
  exact congrArg (n.mapChildren ·) (funext fun cs => (removeFrom_eq_map removed cs).symm)

theorem mapUp (root : on "root") (inherent : Inherent wanted)
    (stays : ∀ n, on n.kind → f n = n)
    (keeps : ∀ n, Everywhere (fun m => wanted m = false) n →
      Everywhere (fun m => wanted m = false) (f n)) : Skips wanted on (mapUp f) := by
  refine of_mapChildren root (fun n kind => ?_) (.mapUp inherent stays keeps)
  rw [mapUp_eq]
  exact stays _ kind

theorem mapDown (root : on "root") (inherent : Inherent wanted)
    (small : ∀ n, (f n).size ≤ n.size) (stays : ∀ n, on n.kind → f n = n)
    (keeps : ∀ n, Everywhere (fun m => wanted m = false) n →
      Everywhere (fun m => wanted m = false) (f n)) : Skips wanted on (mapDown f small) := by
  refine of_mapChildren root (fun n kind => ?_) (.mapDown inherent small stays keeps)
  rw [mapDown_eq, stays n kind]

end

end Skips

end Manuscript.Node
