import Manuscript.Tree.Edit
import Manuscript.Tree.Rewrite

/-!
What holds of every node of a tree, and what changes of the tree keep of it. Most of what is said of
a node is about its kind, or about its kind and the kinds and texts of its children.
-/

set_option autoImplicit false

namespace Manuscript.Node

/-- What holds of a node if it holds of its children, holds of every node. -/
theorem induction_on_kids {motive : Node → Prop} (node : ∀ n, (∀ c ∈ n.kids, motive c) → motive n)
    (n : Node) : motive n :=
  node n fun c mem =>
    have := size_lt_of_mem_kids mem
    induction_on_kids node c
termination_by n.size

def Everywhere (p : Node → Prop) (n : Node) : Prop := ∀ m ∈ n.nodes, p m

instance (p : Node → Prop) [DecidablePred p] (n : Node) : Decidable (Everywhere p n) :=
  inferInstanceAs (Decidable (∀ m ∈ n.nodes, p m))

section
variable {p q : Node → Prop}

theorem everywhere_iff {n : Node} :
    Everywhere p n ↔ p n ∧ ∀ c ∈ n.kids, Everywhere p c := by
  constructor
  · intro all
    refine ⟨all n (mem_nodes_iff.2 (.inl rfl)), fun c child m mem => ?_⟩
    exact all m (mem_nodes_iff.2 (.inr ⟨c, child, mem⟩))
  · rintro ⟨here, below⟩ m mem
    rcases mem_nodes_iff.1 mem with rfl | ⟨c, child, mem⟩
    · exact here
    · exact below c child m mem

theorem Everywhere.here {n : Node} (all : Everywhere p n) : p n := (everywhere_iff.1 all).1

theorem Everywhere.below {n : Node} (all : Everywhere p n) : ∀ c ∈ n.kids, Everywhere p c :=
  (everywhere_iff.1 all).2

theorem forall_mem_descendants_iff {n : Node} :
    (∀ m ∈ n.descendants, p m) ↔ ∀ c ∈ n.kids, Everywhere p c := by
  simp only [descendants_eq, mem_forestNodes_iff, Everywhere]
  exact ⟨fun all c child m mem => all m ⟨c, child, mem⟩,
    fun all m ⟨c, child, mem⟩ => all c child m mem⟩

theorem Everywhere.imp {n : Node} (all : Everywhere p n) (h : ∀ m, p m → q m) : Everywhere q n :=
  fun m mem => h m (all m mem)

theorem Everywhere.of_mem_nodes {n m : Node} (all : Everywhere p n) (mem : m ∈ n.nodes) :
    Everywhere p m := by
  induction n using induction_on_kids with
  | node n ih =>
    rcases mem_nodes_iff.1 mem with rfl | ⟨c, child, mem⟩
    · exact all
    · exact ih c child (all.below c child) mem

theorem Everywhere.of_mem_descendants {n m : Node} (all : Everywhere p n)
    (mem : m ∈ n.descendants) : Everywhere p m :=
  all.of_mem_nodes (List.mem_cons_of_mem _ mem)

theorem Everywhere.of_find? {n m : Node} {wanted : Node → Bool} (all : Everywhere p n)
    (found : n.find? wanted = some m) : Everywhere p m :=
  all.of_mem_descendants (List.mem_of_find?_eq_some found)

end

/-! ### Changed children -/

@[simp] theorem kind_mapChildren (f : List Node → List Node) (n : Node) :
    (n.mapChildren f).kind = n.kind := rfl

@[simp] theorem value_mapChildren (f : List Node → List Node) (n : Node) :
    (n.mapChildren f).value = n.value := rfl

theorem kids_mapChildren {f : List Node → List Node} (nil : f [] = []) (n : Node) :
    (n.mapChildren f).kids = f n.kids := by
  obtain ⟨k, children, v, a⟩ := n
  cases children with
  | none => exact nil.symm
  | some cs => rfl

@[simp] theorem kids_mapChildren_map (f : Node → Node) (n : Node) :
    (n.mapChildren (List.map f)).kids = n.kids.map f :=
  kids_mapChildren rfl n

@[simp] theorem kids_withKids (n : Node) (cs : List Node) : (n.withKids cs).kids = cs := rfl

@[simp] theorem kind_withKids (n : Node) (cs : List Node) : (n.withKids cs).kind = n.kind := rfl

/-! ### Recursive changes -/

theorem mapUpAll_eq_map (f : Node → Node) (ns : List Node) : mapUpAll f ns = ns.map (mapUp f) := by
  induction ns with
  | nil => rfl
  | cons n ns ih => rw [mapUpAll, ih, List.map_cons]

theorem mapUp_eq (f : Node → Node) (n : Node) :
    mapUp f n = f (n.mapChildren (List.map (mapUp f))) := by
  obtain ⟨k, children, v, a⟩ := n
  cases children with
  | none => rfl
  | some cs => rw [mapUp, mapUpAll_eq_map]; rfl

mutual
theorem mapUpSum_fst (f : Node → Node × Nat) : (n : Node) →
    (mapUpSum f n).1 = mapUp (fun m => (f m).1) n
  | ⟨_, none, _, _⟩ => rfl
  | ⟨k, some cs, v, a⟩ => by
    rw [mapUp, ← mapUpSumAll_fst f cs]
    rfl

theorem mapUpSumAll_fst (f : Node → Node × Nat) : (ns : List Node) →
    (mapUpSumAll f ns).1 = mapUpAll (fun m => (f m).1) ns
  | [] => rfl
  | n :: ns => by
    rw [mapUpAll, ← mapUpSum_fst f n, ← mapUpSumAll_fst f ns]
    rfl
end

theorem mapDown_eq (f : Node → Node) (small : ∀ n, (f n).size ≤ n.size) (n : Node) :
    mapDown f small n = (f n).mapChildren (List.map (mapDown f small)) := by
  rw [mapDown]
  unfold mapChildren
  cases found : (f n).children with
  | none => rfl
  | some cs =>
    have same : (f n).kids = cs := by rw [kids, found]; rfl
    simp [same]

theorem removeFrom_eq_map (p : Node → Bool) (ns : List Node) :
    removeFrom p ns = (ns.filter (!p ·)).map (removeWhere p) := by
  induction ns with
  | nil => rfl
  | cons n ns ih => cases h : p n <;> simp [removeFrom, h, ih]

theorem removeWhere_eq (p : Node → Bool) (n : Node) :
    removeWhere p n = n.mapChildren fun cs => (cs.filter (!p ·)).map (removeWhere p) := by
  obtain ⟨k, children, v, a⟩ := n
  cases children with
  | none => rfl
  | some cs => rw [removeWhere, removeFrom_eq_map]; rfl

theorem removeFrom_around {p : Node → Bool} {n : Node} (kept : p n = false)
    (before after : List Node) : removeFrom p (before ++ n :: after) =
      removeFrom p before ++ removeWhere p n :: removeFrom p after := by
  simp only [removeFrom_eq_map, List.filter_append, List.filter_cons, kept, Bool.not_false,
    if_true, List.map_append, List.map_cons]

theorem liftNode_eq (p : Node → Bool) (n : Node) : liftNode p n =
    if p n then liftFrom p n.kids else [n.mapChildren (liftFrom p)] := by
  obtain ⟨k, children, v, a⟩ := n
  cases children <;> rfl

theorem liftFrom_eq_flatMap (p : Node → Bool) (ns : List Node) :
    liftFrom p ns = ns.flatMap (liftNode p) := by
  induction ns with
  | nil => rfl
  | cons n ns ih => rw [liftFrom, ih, List.flatMap_cons]

theorem kids_liftWhere (p : Node → Bool) (n : Node) : (n.liftWhere p).kids = liftFrom p n.kids :=
  kids_mapChildren rfl n

theorem kids_removeWhere (p : Node → Bool) (n : Node) :
    (removeWhere p n).kids = (n.kids.filter (!p ·)).map (removeWhere p) := by
  rw [removeWhere_eq, kids_mapChildren rfl]

@[simp] theorem kind_removeWhere (p : Node → Bool) (n : Node) :
    (removeWhere p n).kind = n.kind := by
  rw [removeWhere_eq, kind_mapChildren]

@[simp] theorem value_removeWhere (p : Node → Bool) (n : Node) :
    (removeWhere p n).value = n.value := by
  rw [removeWhere_eq, value_mapChildren]

section
variable {p : Node → Prop}

theorem everywhere_mapUp {f : Node → Node}
    (stays : ∀ n, p n → p (n.mapChildren (List.map (mapUp f))))
    (step : ∀ n, Everywhere p n → Everywhere p (f n)) {n : Node} (all : Everywhere p n) :
    Everywhere p (mapUp f n) := by
  induction n using induction_on_kids with
  | node n ih =>
    rw [mapUp_eq]
    apply step
    rw [everywhere_iff, kids_mapChildren_map, List.forall_mem_map]
    exact ⟨stays n all.here, fun c child => ih c child (all.below c child)⟩

theorem everywhere_mapDown {f : Node → Node} (small : ∀ n, (f n).size ≤ n.size)
    (stays : ∀ n, p n → p (n.mapChildren (List.map (mapDown f small))))
    (step : ∀ n, Everywhere p n → Everywhere p (f n)) {n : Node} (all : Everywhere p n) :
    Everywhere p (mapDown f small n) := by
  rw [mapDown_eq, everywhere_iff, kids_mapChildren_map, List.forall_mem_map]
  -- Not by induction on the children of the node, as the change goes on with those that it makes.
  have changed := step n all
  refine ⟨stays _ changed.here, fun c child => ?_⟩
  have := Nat.lt_of_lt_of_le (size_lt_of_mem_kids child) (small n)
  exact everywhere_mapDown small stays step (changed.below c child)
termination_by n.size

theorem everywhere_removeWhere {removed : Node → Bool}
    (stays : ∀ n, Everywhere p n → p (removeWhere removed n)) {n : Node} (all : Everywhere p n) :
    Everywhere p (removeWhere removed n) := by
  induction n using induction_on_kids with
  | node n ih =>
    rw [everywhere_iff, kids_removeWhere, List.forall_mem_map]
    refine ⟨stays n all, fun c mem => ?_⟩
    have child := (List.mem_filter.1 mem).1
    exact ih c child (all.below c child)

theorem not_removed_of_mem_kids (removed : Node → Bool)
    (same : ∀ n, removed (removeWhere removed n) = removed n) (n : Node) :
    Everywhere (fun m => ∀ c ∈ m.kids, removed c = false) (removeWhere removed n) := by
  induction n using induction_on_kids with
  | node n ih =>
    rw [everywhere_iff, kids_removeWhere]
    constructor
    · refine List.forall_mem_map.2 fun c mem => ?_
      rw [same]
      simpa using (List.mem_filter.1 mem).2
    · exact List.forall_mem_map.2 fun c mem => ih c (List.mem_filter.1 mem).1

/-- What is left of a tree was not to be lifted, so that it is enough to know about nodes of that
sort. -/
theorem everywhere_liftNode {lifted : Node → Bool}
    (stays : ∀ n, p n → p (n.mapChildren (liftFrom lifted))) {n : Node}
    (all : Everywhere (fun m => lifted m = false → p m) n) :
    ∀ m ∈ liftNode lifted n, Everywhere p m := by
  induction n using induction_on_kids with
  | node n ih =>
    have below : ∀ m ∈ liftFrom lifted n.kids, Everywhere p m := by
      rw [liftFrom_eq_flatMap]
      intro m mem
      obtain ⟨c, child, mem⟩ := List.mem_flatMap.1 mem
      exact ih c child (all.below c child) m mem
    rw [liftNode_eq]
    split
    · exact below
    · next kept =>
      simp only [Bool.not_eq_true] at kept
      refine List.forall_mem_singleton.2 (everywhere_iff.2 ⟨stays n (all.here kept), ?_⟩)
      rw [kids_mapChildren rfl]
      exact below

theorem everywhere_liftFrom {lifted : Node → Bool}
    (stays : ∀ n, p n → p (n.mapChildren (liftFrom lifted))) {ns : List Node}
    (all : ∀ n ∈ ns, Everywhere (fun m => lifted m = false → p m) n) :
    ∀ m ∈ liftFrom lifted ns, Everywhere p m := by
  rw [liftFrom_eq_flatMap]
  intro m mem
  obtain ⟨n, place, mem⟩ := List.mem_flatMap.1 mem
  exact everywhere_liftNode stays (all n place) m mem

end

/-! ### Changes of one node -/

section
variable {p : Node → Prop}

/-- Whether a property of nodes does not hang on their children. -/
def KidsFree (p : Node → Prop) : Prop := ∀ {n : Node} (cs : List Node), p n → p (n.withKids cs)

theorem KidsFree.mapChildren (free : KidsFree p) {n : Node} (f : List Node → List Node)
    (here : p n) : p (n.mapChildren f) := by
  obtain ⟨k, children, v, a⟩ := n
  cases children with
  | none => exact here
  | some cs => exact free (f cs) here

theorem KidsFree.of_kids (free : KidsFree p) {n : Node} {cs : List Node} (all : Everywhere p n)
    (below : ∀ c ∈ cs, Everywhere p c) : Everywhere p (n.withKids cs) :=
  everywhere_iff.2 ⟨free cs all.here, below⟩

mutual
theorem everywhere_updateFirst? {wanted : Node → Bool} {f : Node → Node} (free : KidsFree p)
    (step : ∀ n, Everywhere p n → Everywhere p (f n)) : {n m : Node} → Everywhere p n →
    updateFirst? wanted f n = some m → Everywhere p m
  | ⟨_, none, _, _⟩, _, _, found => by simp [updateFirst?] at found
  | ⟨k, some cs, v, a⟩, m, all, found => by
    obtain ⟨ds, inside, rfl⟩ := Option.map_eq_some_iff.1 found
    exact everywhere_iff.2 ⟨free ds all.here, everywhere_updateFirstIn? free step all.below inside⟩

theorem everywhere_updateFirstIn? {wanted : Node → Bool} {f : Node → Node} (free : KidsFree p)
    (step : ∀ n, Everywhere p n → Everywhere p (f n)) : {ns ms : List Node} →
    (∀ n ∈ ns, Everywhere p n) → updateFirstIn? wanted f ns = some ms → ∀ m ∈ ms, Everywhere p m
  | [], _, _, found => by simp [updateFirstIn?] at found
  | n :: ns, ms, all, found => by
    obtain ⟨first, rest⟩ := List.forall_mem_cons.1 all
    simp only [updateFirstIn?] at found
    split at found
    · obtain rfl := Option.some.inj found
      exact List.forall_mem_cons.2 ⟨step n first, rest⟩
    · split at found
      · next m inside =>
        obtain rfl := Option.some.inj found
        exact List.forall_mem_cons.2 ⟨everywhere_updateFirst? free step first inside, rest⟩
      · obtain ⟨ds, inside, rfl⟩ := Option.map_eq_some_iff.1 found
        exact List.forall_mem_cons.2 ⟨first, everywhere_updateFirstIn? free step rest inside⟩
end

theorem everywhere_updateFirst {wanted : Node → Bool} {f : Node → Node} {n : Node}
    (free : KidsFree p) (step : ∀ n, Everywhere p n → Everywhere p (f n)) (all : Everywhere p n) :
    Everywhere p (n.updateFirst wanted f) := by
  unfold updateFirst
  cases found : n.updateFirst? wanted f with
  | none => exact all
  | some m => exact everywhere_updateFirst? free step all found

mutual
theorem everywhere_removeNearest? {kind : String} (free : KidsFree p) : {n m : Node} →
    Everywhere p n → removeNearest? kind n = some m → Everywhere p m
  | ⟨_, none, _, _⟩, _, _, found => by simp [removeNearest?] at found
  | ⟨k, some cs, v, a⟩, m, all, found => by
    simp only [removeNearest?] at found
    split at found
    · obtain rfl := Option.some.inj found
      exact everywhere_iff.2 ⟨free _ all.here,
        fun c mem => all.below c (List.mem_of_mem_eraseP mem)⟩
    · obtain ⟨ds, inside, rfl⟩ := Option.map_eq_some_iff.1 found
      exact everywhere_iff.2 ⟨free ds all.here, everywhere_removeNearestIn? free all.below inside⟩

theorem everywhere_removeNearestIn? {kind : String} (free : KidsFree p) : {ns ms : List Node} →
    (∀ n ∈ ns, Everywhere p n) → removeNearestIn? kind ns = some ms → ∀ m ∈ ms, Everywhere p m
  | [], _, _, found => by simp [removeNearestIn?] at found
  | n :: ns, ms, all, found => by
    obtain ⟨first, rest⟩ := List.forall_mem_cons.1 all
    simp only [removeNearestIn?] at found
    split at found
    · next m inside =>
      obtain rfl := Option.some.inj found
      exact List.forall_mem_cons.2 ⟨everywhere_removeNearest? free first inside, rest⟩
    · obtain ⟨ds, inside, rfl⟩ := Option.map_eq_some_iff.1 found
      exact List.forall_mem_cons.2 ⟨first, everywhere_removeNearestIn? free rest inside⟩
end

theorem everywhere_removeNearest {n : Node} (free : KidsFree p) (kind : String)
    (all : Everywhere p n) : Everywhere p (n.removeNearest kind) := by
  unfold removeNearest
  cases found : n.removeNearest? kind with
  | none => exact all
  | some m => exact everywhere_removeNearest? free all found

end

/-! ### Children seen from above -/

/-- Whether `p` does not look further into the children of a node than at their kinds and texts. -/
def Local (p : Node → Prop) : Prop :=
  ∀ (n : Node) (f : Node → Node), (∀ c ∈ n.kids, (f c).kind = c.kind ∧ (f c).value = c.value) →
    p n → p (n.mapChildren (List.map f))

section
variable {p q : Node → Prop}

theorem everywhere_mapUp_of_local (near : Local p) {f : Node → Node}
    (alike : ∀ n, (f n).kind = n.kind ∧ (f n).value = n.value)
    (step : ∀ n, Everywhere p n → Everywhere p (f n)) {n : Node} (all : Everywhere p n) :
    Everywhere p (mapUp f n) := by
  apply everywhere_mapUp _ step all
  intro m
  apply near
  intro c _
  rw [mapUp_eq]
  exact alike (c.mapChildren (List.map (mapUp f)))

/-- An edit brings about what it brings about at each node, if that is not undone below. -/
theorem everywhere_run {e : Edit} (near : Local q)
    (here : ∀ n, Everywhere p n → q (e.here n) ∧ ∀ c ∈ (e.here n).kids, Everywhere p c) {n : Node}
    (all : Everywhere p n) : Everywhere q (e.run n).1 := by
  induction n using e.induction with
  | node n ih =>
    obtain ⟨atNode, below⟩ := here n all
    rw [e.run_fst, everywhere_iff, kids_mapChildren_map, List.forall_mem_map]
    refine ⟨near _ _ (fun c _ => ?_) atNode, fun c child => ih c child (below c child)⟩
    rw [e.run_fst]
    exact ⟨rfl, rfl⟩

end

/-! ### Kinds -/

/-- Whether the kinds of all nodes satisfy `K`. -/
def OfKinds (K : String → Prop) (n : Node) : Prop := Everywhere (fun m => K m.kind) n

section
variable {K : String → Prop}

theorem ofKinds_iff {n : Node} : OfKinds K n ↔ K n.kind ∧ ∀ c ∈ n.kids, OfKinds K c :=
  everywhere_iff

theorem OfKinds.below {n : Node} (all : OfKinds K n) : ∀ c ∈ n.kids, OfKinds K c :=
  Everywhere.below all

theorem ofKinds_removeWhere {n : Node} (removed : Node → Bool) (all : OfKinds K n) :
    OfKinds K (removeWhere removed n) := by
  apply everywhere_removeWhere _ all
  intro m all
  rw [kind_removeWhere]
  exact all.here

theorem ofKinds_liftFrom {ns : List Node} (lifted : Node → Bool) (all : ∀ n ∈ ns, OfKinds K n) :
    ∀ n ∈ liftFrom lifted ns, OfKinds K n :=
  everywhere_liftFrom (fun _ here => here) fun n mem => (all n mem).imp fun _ here _ => here

theorem ofKinds_mapUp {f : Node → Node} {n : Node} (step : ∀ n, OfKinds K n → OfKinds K (f n))
    (all : OfKinds K n) : OfKinds K (mapUp f n) :=
  everywhere_mapUp (fun _ here => here) step all

theorem ofKinds_mapDown {f : Node → Node} {n : Node} (small : ∀ n, (f n).size ≤ n.size)
    (step : ∀ n, OfKinds K n → OfKinds K (f n)) (all : OfKinds K n) :
    OfKinds K (mapDown f small n) :=
  everywhere_mapDown small (fun _ here => here) step all

end

end Manuscript.Node
