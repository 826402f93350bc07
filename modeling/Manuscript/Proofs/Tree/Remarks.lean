import Manuscript.Proofs.Tree.Passage

/-!
Changes of a tree that are blind to remarks. A remark is a comment without children; it may stand in
running text, and nowhere in what is read as a whole. A change is blind if it makes of the tree
without its remarks what it makes of the tree, less the remarks.
-/

set_option autoImplicit false

namespace Manuscript.Node

/-! ### Remarks -/

/-- Whether a node is a comment of the kind that stands for itself, not an element around text. -/
def isRemark (n : Node) : Bool := n.is "comment" && n.children.isNone

/-- The tree without the remarks below. -/
def withoutRemarks (n : Node) : Node := n.removeWhere isRemark

def dropRemarks (ns : List Node) : List Node := removeFrom isRemark ns

/-- The kinds of elements that may have remarks among their children. -/
def runningKinds : List String :=
  ["p", "list", "list-item", "disp-quote", "fn", "fn-group", "fig", "table-wrap", "table", "thead",
    "tbody", "tfoot", "tr", "th", "td", "table-wrap-foot", "xref", "ext-link", "uri", "media",
    "named-content", "supplementary-material"]

/-- The kinds of elements that are read as a whole, and so must not have remarks below. -/
def wholeKinds : List String :=
  ["front", "ref", "title", "label", "bold", "italic", "underline", "monospace", "sc", "sub", "sup",
    "strike", "inline-formula", "disp-formula", "code", "preformat", "journal-id", "journal-title",
    "publisher-name", "license", "date"]

/-- Whether remarks are among the children of a node only where they may be. -/
structure Quiet (n : Node) : Prop where
  outside : n.kind ∉ runningKinds → ∀ c ∈ n.kids, isRemark c = false
  whole : n.kind ∈ wholeKinds → n.withoutRemarks = n

/-- Whether a change leaves a quiet tree quiet, and does the same without its remarks. -/
structure Blind (f : Node → Node) (n : Node) : Prop where
  quiet : Everywhere Quiet (f n)
  commutes : f n.withoutRemarks = (f n).withoutRemarks

/-- Whether a test hangs on no remarks and is none for them. -/
structure Overlooks (p : Node → Bool) : Prop where
  sees : ∀ n, p n.withoutRemarks = p n
  other : ∀ n, isRemark n = true → p n = false

theorem isRemark_of_kind {n : Node} (other : n.kind ≠ "comment") : isRemark n = false := by
  rw [isRemark, is, beq_eq_false_iff_ne.2 other, Bool.false_and]

theorem kind_of_isRemark {n : Node} (remark : isRemark n = true) : n.kind = "comment" :=
  beq_iff_eq.1 (Bool.and_eq_true_iff.1 remark).1

theorem kids_of_isRemark {n : Node} (remark : isRemark n = true) : n.kids = [] := by
  rw [kids, Option.isNone_iff_eq_none.1 (Bool.and_eq_true_iff.1 remark).2]
  rfl

theorem dropRemarks_eq (ns : List Node) :
    dropRemarks ns = (ns.filter (!isRemark ·)).map withoutRemarks :=
  removeFrom_eq_map isRemark ns

theorem withoutRemarks_eq (n : Node) : n.withoutRemarks = n.mapChildren dropRemarks := by
  rw [withoutRemarks, removeWhere_eq, ← funext (removeFrom_eq_map isRemark)]
  rfl

@[simp] theorem dropRemarks_nil : dropRemarks [] = [] := rfl

theorem dropRemarks_append (xs ys : List Node) :
    dropRemarks (xs ++ ys) = dropRemarks xs ++ dropRemarks ys := by
  simp only [dropRemarks_eq, List.filter_append, List.map_append]

theorem dropRemarks_flatMap {α : Type} (f : α → List Node) (xs : List α) :
    dropRemarks (xs.flatMap f) = xs.flatMap fun x => dropRemarks (f x) := by
  induction xs with
  | nil => rfl
  | cons x xs ih => rw [List.flatMap_cons, dropRemarks_append, ih, List.flatMap_cons]

theorem dropRemarks_cons_of_false {n : Node} (kept : isRemark n = false) (ns : List Node) :
    dropRemarks (n :: ns) = n.withoutRemarks :: dropRemarks ns := by
  simp only [dropRemarks_eq, List.filter_cons, kept, Bool.not_false, if_true, List.map_cons]

theorem dropRemarks_cons_of_true {n : Node} (remark : isRemark n = true) (ns : List Node) :
    dropRemarks (n :: ns) = dropRemarks ns := by
  simp only [dropRemarks_eq, List.filter_cons, remark, Bool.not_true, Bool.false_eq_true, if_false]

theorem dropRemarks_of_none {ns : List Node} (none : ∀ n ∈ ns, isRemark n = false) :
    dropRemarks ns = ns.map withoutRemarks := by
  rw [dropRemarks_eq, List.filter_eq_self.2 fun n mem => by rw [none n mem]; rfl]

@[simp] theorem kind_withoutRemarks (n : Node) : n.withoutRemarks.kind = n.kind :=
  kind_removeWhere isRemark n

@[simp] theorem value_withoutRemarks (n : Node) : n.withoutRemarks.value = n.value :=
  value_removeWhere isRemark n

@[simp] theorem attrs_withoutRemarks (n : Node) : n.withoutRemarks.attrs = n.attrs := by
  rw [withoutRemarks_eq]
  rfl

@[simp] theorem children_withoutRemarks (n : Node) :
    n.withoutRemarks.children = n.children.map dropRemarks := by
  rw [withoutRemarks_eq]
  rfl

@[simp] theorem kids_withoutRemarks (n : Node) : n.withoutRemarks.kids = dropRemarks n.kids := by
  rw [withoutRemarks_eq, kids_mapChildren dropRemarks_nil]

theorem isRemark_mapChildren (f : List Node → List Node) (n : Node) :
    isRemark (n.mapChildren f) = isRemark n := by
  obtain ⟨k, children, v, a⟩ := n
  cases children <;> rfl

theorem isRemark_withKids (n : Node) (cs : List Node) : isRemark (n.withKids cs) = false :=
  Bool.and_false _

@[simp] theorem isRemark_withoutRemarks (n : Node) : isRemark n.withoutRemarks = isRemark n := by
  rw [withoutRemarks_eq, isRemark_mapChildren]

theorem isRemark_of_mem_dropRemarks {ns : List Node} {m : Node} (mem : m ∈ dropRemarks ns) :
    isRemark m = false := by
  rw [dropRemarks_eq] at mem
  obtain ⟨n, place, rfl⟩ := List.mem_map.1 mem
  simpa using (List.mem_filter.1 place).2

/-- Two changes of a child list that agree on that of a node are the same there. -/
theorem mapChildren_congr {f g : List Node → List Node} {n : Node} (same : f n.kids = g n.kids) :
    n.mapChildren f = n.mapChildren g := by
  obtain ⟨k, children, v, a⟩ := n
  cases children with
  | none => rfl
  | some cs => exact congrArg (fun ds => (⟨k, some ds, v, a⟩ : Node)) same

theorem withoutRemarks_withoutRemarks (n : Node) :
    n.withoutRemarks.withoutRemarks = n.withoutRemarks := by
  induction n using induction_on_kids with
  | node n ih =>
    rw [withoutRemarks_eq n, withoutRemarks_eq, mapChildren_mapChildren]
    apply mapChildren_congr
    rw [dropRemarks_of_none fun m => isRemark_of_mem_dropRemarks, dropRemarks_eq, List.map_map]
    exact List.map_congr_left fun c mem => ih c (List.mem_filter.1 mem).1

theorem of_mem_kids_whole {n c : Node} (whole : n.withoutRemarks = n) (child : c ∈ n.kids) :
    isRemark c = false ∧ c.withoutRemarks = c := by
  rw [← whole, kids_withoutRemarks] at child
  refine ⟨isRemark_of_mem_dropRemarks child, ?_⟩
  rw [dropRemarks_eq] at child
  obtain ⟨d, -, rfl⟩ := List.mem_map.1 child
  exact withoutRemarks_withoutRemarks d

/-- Whether a forest has no remarks. -/
def Whole (ns : List Node) : Prop := ∀ n ∈ ns, isRemark n = false ∧ n.withoutRemarks = n

theorem whole_kids {n : Node} (whole : n.withoutRemarks = n) : Whole n.kids :=
  fun _ => of_mem_kids_whole whole

theorem Whole.dropRemarks {ns : List Node} (whole : Whole ns) : dropRemarks ns = ns := by
  rw [dropRemarks_of_none fun n mem => (whole n mem).1]
  conv => rhs; rw [← List.map_id ns]
  exact List.map_congr_left fun n mem => (whole n mem).2

theorem withoutRemarks_of_whole_kids {n : Node} (whole : Whole n.kids) : n.withoutRemarks = n := by
  rw [withoutRemarks_eq]
  exact mapChildren_of_eq_self whole.dropRemarks

theorem everywhere_whole {n : Node} (whole : n.withoutRemarks = n) :
    Everywhere (fun m => m.withoutRemarks = m) n := by
  induction n using induction_on_kids with
  | node n ih =>
    exact everywhere_iff.2 ⟨whole, fun c child => ih c child (of_mem_kids_whole whole child).2⟩

theorem quiet_of_whole {n : Node} (whole : n.withoutRemarks = n) : Everywhere Quiet n :=
  (everywhere_whole whole).imp fun _ here =>
    ⟨fun _ _ child => (of_mem_kids_whole here child).1, fun _ => here⟩

/-! ### Blind changes -/

section
variable {f g : Node → Node} {n : Node}

theorem blind_self (quiet : Everywhere Quiet n) : Blind (fun m => m) n := ⟨quiet, rfl⟩

theorem Blind.trans (first : Blind f n) (second : Blind g (f n)) : Blind (fun m => g (f m)) n := by
  refine ⟨second.quiet, ?_⟩
  show g (f n.withoutRemarks) = _
  rw [first.commutes, second.commutes]

theorem Blind.whole (blind : Blind f n) (whole : n.withoutRemarks = n) :
    (f n).withoutRemarks = f n := by
  rw [← blind.commutes, whole]

/-- Whether a forest is quiet and has no remark at its top unless another one has. -/
structure NoLouder (ns ms : List Node) : Prop where
  below : ∀ m ∈ ms, Everywhere Quiet m
  top : (∀ n ∈ ns, isRemark n = false) → ∀ m ∈ ms, isRemark m = false

theorem noLouder_of_subset {ns ms : List Node} (quiet : ∀ c ∈ ns, Everywhere Quiet c)
    (subset : ∀ c ∈ ms, c ∈ ns) : NoLouder ns ms :=
  ⟨fun c mem => quiet c (subset c mem), fun none c mem => none c (subset c mem)⟩

theorem NoLouder.cons {c d : Node} {ns ms : List Node} (quiet : Everywhere Quiet d)
    (same : isRemark d = isRemark c) (rest : NoLouder ns ms) : NoLouder (c :: ns) (d :: ms) := by
  refine ⟨List.forall_mem_cons.2 ⟨quiet, rest.below⟩, fun none => ?_⟩
  obtain ⟨front, back⟩ := List.forall_mem_cons.1 none
  exact List.forall_mem_cons.2 ⟨same.trans front, rest.top back⟩

theorem noLouder_map {ns : List Node} (remark : ∀ c ∈ ns, isRemark (g c) = isRemark c)
    (quiet : ∀ c ∈ ns, Everywhere Quiet (g c)) : NoLouder ns (ns.map g) := by
  refine ⟨List.forall_mem_map.2 quiet, fun none => List.forall_mem_map.2 fun c mem => ?_⟩
  rw [remark c mem]
  exact none c mem

theorem quiet_of_kids {m : Node} (quiet : Quiet n) (kind : m.kind = n.kind)
    (kids : NoLouder n.kids m.kids)
    (whole : n.withoutRemarks = n → m.withoutRemarks = m) : Everywhere Quiet m :=
  everywhere_iff.2 ⟨⟨fun known => kids.top (quiet.outside (kind ▸ known)),
    fun known => whole (quiet.whole (kind ▸ known))⟩, kids.below⟩

/-- A change of the children is blind if it does the same without remarks and brings none in. -/
theorem blind_of_kids (quiet : Quiet n) (kind : (f n).kind = n.kind)
    (kids : NoLouder n.kids (f n).kids)
    (commutes : f n.withoutRemarks = (f n).withoutRemarks) : Blind f n := by
  refine ⟨quiet_of_kids quiet kind kids fun whole => ?_, commutes⟩
  -- What is read as a whole is the same without remarks, and so is what becomes of it.
  rw [← commutes, whole]

theorem map_dropRemarks {ns : List Node} (remark : ∀ c ∈ ns, isRemark (g c) = isRemark c)
    (blind : ∀ c ∈ ns, g c.withoutRemarks = (g c).withoutRemarks) :
    (dropRemarks ns).map g = dropRemarks (ns.map g) := by
  induction ns with
  | nil => rfl
  | cons c ns ih =>
    obtain ⟨same, remark⟩ := List.forall_mem_cons.1 remark
    obtain ⟨first, blind⟩ := List.forall_mem_cons.1 blind
    have rest := ih remark blind
    cases isOne : isRemark c with
    | true =>
      rw [isOne] at same
      rw [List.map_cons, dropRemarks_cons_of_true isOne, dropRemarks_cons_of_true same, rest]
    | false =>
      rw [isOne] at same
      rw [List.map_cons, dropRemarks_cons_of_false isOne, dropRemarks_cons_of_false same,
        List.map_cons, first, rest]

/-- A change of all children is blind if it is blind to each of them. -/
theorem blind_mapChildren (quiet : Quiet n) (remark : ∀ c ∈ n.kids, isRemark (g c) = isRemark c)
    (below : ∀ c ∈ n.kids, Blind g c) : Blind (mapChildren (List.map g)) n := by
  have commutes : n.withoutRemarks.mapChildren (List.map g) =
      (n.mapChildren (List.map g)).withoutRemarks := by
    rw [withoutRemarks_eq, withoutRemarks_eq, mapChildren_mapChildren, mapChildren_mapChildren]
    exact mapChildren_congr (map_dropRemarks remark fun c child => (below c child).commutes)
  refine blind_of_kids quiet rfl ?_ commutes
  rw [kids_mapChildren_map]
  exact noLouder_map remark fun c child => (below c child).quiet

theorem withoutRemarks_of_children {m n : Node} (children : m.children = n.children)
    (whole : n.withoutRemarks = n) : m.withoutRemarks = m := by
  have same : m.kids = n.kids := by rw [kids, kids, children]
  rw [withoutRemarks_eq]
  apply mapChildren_of_eq_self
  rw [same, ← kids_withoutRemarks, whole]

/-- A change of what is no child is blind. A node must not become one that is read as a whole, and
what was running text must remain so. -/
theorem blind_recast (quiet : Everywhere Quiet n) (children : ∀ m, (f m).children = m.children)
    (outside : (f n).kind ∉ runningKinds → n.kind ∉ runningKinds)
    (whole : (f n).kind ∈ wholeKinds → n.kind ∈ wholeKinds)
    (commutes : f n.withoutRemarks = (f n).withoutRemarks) : Blind f n := by
  have kids : (f n).kids = n.kids := by rw [Node.kids, Node.kids, children]
  refine ⟨everywhere_iff.2 ⟨⟨fun known => ?_, fun known => ?_⟩, ?_⟩, commutes⟩
  · rw [kids]
    exact quiet.here.outside (outside known)
  · exact withoutRemarks_of_children (children n) (quiet.here.whole (whole known))
  · rw [kids]
    exact quiet.below

theorem blind_attrs {g : Attrs → Attrs} (quiet : Everywhere Quiet n) :
    Blind (fun m => { m with attrs := g m.attrs }) n := by
  refine blind_recast quiet (fun _ => rfl) id id ?_
  simp only [withoutRemarks_eq]
  rfl

theorem blind_kind {kind : String} (quiet : Everywhere Quiet n)
    (outside : kind ∉ runningKinds → n.kind ∉ runningKinds)
    (whole : kind ∈ wholeKinds → n.kind ∈ wholeKinds) : Blind (fun m => { m with kind }) n := by
  refine blind_recast quiet (fun _ => rfl) outside whole ?_
  simp only [withoutRemarks_eq]
  rfl

theorem blind_if {selected : Node → Bool} (quiet : Everywhere Quiet n)
    (sees : selected n.withoutRemarks = selected n) (blind : selected n = true → Blind f n) :
    Blind (fun m => if selected m then f m else m) n := by
  cases isOne : selected n with
  | true =>
    have inner := blind isOne
    exact ⟨by rw [isOne, if_pos rfl]; exact inner.quiet,
      by rw [sees, isOne, if_pos rfl, if_pos rfl]; exact inner.commutes⟩
  | false =>
    have no : ¬false = true := Bool.false_ne_true
    exact ⟨by rw [isOne, if_neg no]; exact quiet, by rw [sees, isOne, if_neg no, if_neg no]⟩

/-- Whether a forest is quiet and has no remark at its top. -/
def Plain (ns : List Node) : Prop := ∀ n ∈ ns, isRemark n = false ∧ Everywhere Quiet n

theorem plain_kids (quiet : Everywhere Quiet n) (known : n.kind ∉ runningKinds) : Plain n.kids :=
  fun c child => ⟨quiet.here.outside known c child, quiet.below c child⟩

/-- A node that is not read as a whole may have any plain children. -/
theorem quiet_of_plain (known : n.kind ∉ wholeKinds) (plain : Plain n.kids) :
    Everywhere Quiet n :=
  everywhere_iff.2 ⟨⟨fun _ c child => (plain c child).1, fun whole => absurd whole known⟩,
    fun c child => (plain c child).2⟩

theorem Whole.plain {ns : List Node} (whole : Whole ns) : Plain ns :=
  fun n mem => ⟨(whole n mem).1, quiet_of_whole (whole n mem).2⟩

theorem Plain.dropRemarks {ns : List Node} (plain : Plain ns) :
    dropRemarks ns = ns.map withoutRemarks :=
  dropRemarks_of_none fun n mem => (plain n mem).1

theorem withoutRemarks_withKids (n : Node) (cs : List Node) :
    (n.withKids cs).withoutRemarks = n.withKids (dropRemarks cs) := by
  rw [withoutRemarks_eq]
  rfl

theorem withKids_withoutRemarks (n : Node) (cs : List Node) :
    n.withoutRemarks.withKids cs = n.withKids cs := by
  rw [withoutRemarks_eq]
  rfl

theorem blind_withKids {g : Node → List Node} (quiet : Quiet n) (kids : NoLouder n.kids (g n))
    (commutes : g n.withoutRemarks = dropRemarks (g n)) : Blind (fun m => m.withKids (g m)) n := by
  refine blind_of_kids (f := fun m => m.withKids (g m)) quiet rfl kids ?_
  show n.withoutRemarks.withKids _ = (n.withKids _).withoutRemarks
  rw [withKids_withoutRemarks, withoutRemarks_withKids, commutes]

/-- What becomes of the children of a node that has no remarks among them. -/
structure BlindList (g : List Node → List Node) (ns : List Node) : Prop where
  plain : Plain (g ns)
  commutes : g (ns.map withoutRemarks) = (g ns).map withoutRemarks

theorem BlindList.trans {g h : List Node → List Node} {ns : List Node} (first : BlindList g ns)
    (second : BlindList h (g ns)) : BlindList (fun ns => h (g ns)) ns := by
  refine ⟨second.plain, ?_⟩
  show h (g (ns.map withoutRemarks)) = _
  rw [first.commutes, second.commutes]

theorem BlindList.map {ns : List Node} (plain : Plain ns)
    (remark : ∀ c ∈ ns, isRemark (f c) = isRemark c) (blind : ∀ c ∈ ns, Blind f c) :
    BlindList (List.map f) ns := by
  constructor
  · refine List.forall_mem_map.2 fun c mem => ⟨?_, (blind c mem).quiet⟩
    rw [remark c mem]
    exact (plain c mem).1
  · rw [List.map_map, List.map_map]
    exact List.map_congr_left fun c mem => (blind c mem).commutes

theorem BlindList.withKids {g : List Node → List Node} (quiet : Everywhere Quiet n)
    (known : n.kind ∉ runningKinds) (list : BlindList g n.kids) :
    Blind (fun m => m.withKids (g m.kids)) n := by
  apply blind_withKids quiet.here
    ⟨fun c mem => (list.plain c mem).2, fun _ c mem => (list.plain c mem).1⟩
  rw [kids_withoutRemarks, (plain_kids quiet known).dropRemarks, list.commutes,
    list.plain.dropRemarks]

theorem blind_mapUp (remark : ∀ n, isRemark (f n) = isRemark n)
    (blind : ∀ n, Everywhere Quiet n → Blind f n) (quiet : Everywhere Quiet n) :
    Blind (mapUp f) n := by
  have same (c : Node) : isRemark (mapUp f c) = isRemark c := by
    rw [mapUp_eq, remark, isRemark_mapChildren]
  induction n using induction_on_kids with
  | node n ih =>
    have below := blind_mapChildren quiet.here (fun c _ => same c)
      fun c child => ih c child (quiet.below c child)
    rw [funext (mapUp_eq f)]
    exact below.trans (blind _ below.quiet)

theorem blind_mapDown {small : ∀ n, (f n).size ≤ n.size}
    (remark : ∀ n, isRemark (f n) = isRemark n)
    (blind : ∀ n, Everywhere Quiet n → Blind f n) {n : Node} (quiet : Everywhere Quiet n) :
    Blind (mapDown f small) n := by
  have same (c : Node) : isRemark (mapDown f small c) = isRemark c := by
    rw [mapDown_eq, isRemark_mapChildren, remark]
  have here := blind n quiet
  have below : ∀ c ∈ (f n).kids, Blind (mapDown f small) c := by
    intro c child
    have := Nat.lt_of_lt_of_le (size_lt_of_mem_kids child) (small n)
    exact blind_mapDown remark blind (here.quiet.below c child)
  have whole := here.trans (blind_mapChildren here.quiet.here (fun c _ => same c) below)
  rw [funext (mapDown_eq f small)]
  exact whole
termination_by n.size

theorem filter_dropRemarks {p : Node → Bool} {ns : List Node}
    (sees : ∀ c ∈ ns, p c.withoutRemarks = p c) :
    (dropRemarks ns).filter p = dropRemarks (ns.filter p) := by
  induction ns with
  | nil => rfl
  | cons c ns ih =>
    obtain ⟨first, rest⟩ := List.forall_mem_cons.1 sees
    cases remark : isRemark c with
    | true =>
      rw [dropRemarks_cons_of_true remark, ih rest, List.filter_cons]
      split
      · rw [dropRemarks_cons_of_true remark]
      · rfl
    | false =>
      rw [dropRemarks_cons_of_false remark, List.filter_cons, List.filter_cons, first, ih rest]
      split
      · rw [dropRemarks_cons_of_false remark]
      · rfl

theorem blind_removeWhere {removed : Node → Bool}
    (sees : ∀ n, Everywhere Quiet n → removed n.withoutRemarks = removed n)
    (quiet : Everywhere Quiet n) : Blind (removeWhere removed) n := by
  have same (c : Node) : isRemark (removeWhere removed c) = isRemark c := by
    rw [removeWhere_eq, isRemark_mapChildren]
  induction n using induction_on_kids with
  | node n ih =>
    have each (c : Node) (mem : c ∈ n.kids.filter (!removed ·)) : Blind (removeWhere removed) c :=
      have child := (List.mem_filter.1 mem).1
      ih c child (quiet.below c child)
    have commutes : removeWhere removed n.withoutRemarks =
        (removeWhere removed n).withoutRemarks := by
      rw [withoutRemarks_eq n, withoutRemarks_eq, removeWhere_eq, removeWhere_eq,
        mapChildren_mapChildren, mapChildren_mapChildren]
      apply mapChildren_congr
      rw [filter_dropRemarks fun c child => congrArg not (sees c (quiet.below c child))]
      exact map_dropRemarks (fun c _ => same c) fun c mem => (each c mem).commutes
    refine blind_of_kids quiet.here (kind_removeWhere removed n) ?_ commutes
    have kept := noLouder_map (fun c _ => same c) fun c mem => (each c mem).quiet
    rw [kids_removeWhere]
    exact ⟨kept.below, fun none => kept.top fun c mem => none c (List.mem_filter.1 mem).1⟩

/-- What lifting leaves of a node is the same without remarks, and has remarks only for remarks. -/
structure BlindLift (p : Node → Bool) (n : Node) : Prop where
  quiet : ∀ m ∈ liftNode p n, Everywhere Quiet m
  commutes : dropRemarks (liftNode p n) = if isRemark n then [] else liftNode p n.withoutRemarks
  remark : isRemark n = false → ∀ m ∈ liftNode p n, isRemark m = false

theorem mem_liftFrom {p : Node → Bool} {ns : List Node} {m : Node} (mem : m ∈ liftFrom p ns) :
    ∃ n ∈ ns, m ∈ liftNode p n := by
  rw [liftFrom_eq_flatMap] at mem
  exact List.mem_flatMap.1 mem

theorem dropRemarks_liftFrom {p : Node → Bool} {ns : List Node}
    (each : ∀ n ∈ ns, BlindLift p n) :
    dropRemarks (liftFrom p ns) = liftFrom p (dropRemarks ns) := by
  induction ns with
  | nil => rfl
  | cons n ns ih =>
    obtain ⟨first, rest⟩ := List.forall_mem_cons.1 each
    rw [liftFrom, dropRemarks_append, first.commutes, ih rest]
    cases remark : isRemark n with
    | true => rw [dropRemarks_cons_of_true remark, if_pos rfl, List.nil_append]
    | false => rw [dropRemarks_cons_of_false remark, if_neg Bool.false_ne_true, liftFrom]

/-- Lifting among the children is blind if it is blind to each of them. -/
theorem blind_liftWhere_of_kids {p : Node → Bool} (quiet : Quiet n)
    (each : ∀ c ∈ n.kids, BlindLift p c) : Blind (liftWhere p) n := by
  have commutes : n.withoutRemarks.liftWhere p = (n.liftWhere p).withoutRemarks := by
    show n.withoutRemarks.mapChildren (liftFrom p) = (n.mapChildren (liftFrom p)).withoutRemarks
    rw [withoutRemarks_eq, withoutRemarks_eq, mapChildren_mapChildren, mapChildren_mapChildren]
    exact mapChildren_congr (dropRemarks_liftFrom each).symm
  refine blind_of_kids quiet rfl ?_ commutes
  rw [kids_liftWhere]
  constructor
  · intro m mem
    obtain ⟨c, child, mem⟩ := mem_liftFrom mem
    exact (each c child).quiet m mem
  · intro none m mem
    obtain ⟨c, child, mem⟩ := mem_liftFrom mem
    exact (each c child).remark (none c child) m mem

section
variable {p : Node → Bool} (overlooks : Overlooks p)
  (loud : ∀ n, p n = true → n.kind ∉ runningKinds)
include overlooks loud

theorem blindLift (quiet : Everywhere Quiet n) : BlindLift p n := by
  induction n using induction_on_kids with
  | node n ih =>
    have each (c : Node) (child : c ∈ n.kids) : BlindLift p c := ih c child (quiet.below c child)
    cases gone : p n with
    | true =>
      have single : isRemark n = false := by
        rw [← Bool.not_eq_true]
        exact fun remark => absurd (gone.symm.trans (overlooks.other n remark)) (by decide)
      have lifted : liftNode p n = liftFrom p n.kids := by rw [liftNode_eq, gone, if_pos rfl]
      constructor
      case quiet =>
        rw [lifted]
        intro m mem
        obtain ⟨c, child, mem⟩ := mem_liftFrom mem
        exact (each c child).quiet m mem
      case commutes =>
        rw [lifted, dropRemarks_liftFrom each, single, liftNode_eq, overlooks.sees, gone,
          if_pos rfl, kids_withoutRemarks]
        rfl
      -- What is lifted is not read as a whole, but has no remarks among its children.
      case remark =>
        rw [lifted]
        intro _ m mem
        obtain ⟨c, child, mem⟩ := mem_liftFrom mem
        exact (each c child).remark (quiet.here.outside (loud n gone) c child) m mem
    | false =>
      have kept (m : Node) (stays : p m = false) : liftNode p m = [m.liftWhere p] := by
        rw [liftNode_eq, stays, if_neg Bool.false_ne_true]
        rfl
      have same : isRemark (n.liftWhere p) = isRemark n := isRemark_mapChildren _ n
      have blind := blind_liftWhere_of_kids quiet.here each
      constructor
      case quiet =>
        rw [kept n gone]
        exact List.forall_mem_singleton.2 blind.quiet
      case commutes =>
        rw [kept n gone, kept _ ((overlooks.sees n).trans gone), blind.commutes]
        cases remark : isRemark n with
        | true =>
          rw [dropRemarks_cons_of_true (same.trans remark)]
          rfl
        | false =>
          rw [dropRemarks_cons_of_false (same.trans remark)]
          rfl
      case remark =>
        rw [kept n gone]
        exact fun single => List.forall_mem_singleton.2 (same.trans single)

theorem blind_liftWhere (quiet : Everywhere Quiet n) : Blind (liftWhere p) n :=
  blind_liftWhere_of_kids quiet.here fun c child =>
    blindLift overlooks loud (quiet.below c child)

end

end

end Manuscript.Node
