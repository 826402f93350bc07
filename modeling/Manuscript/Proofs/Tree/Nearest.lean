import Manuscript.Proofs.Tree.Everywhere

/-!
Taking one node of a kind out of a tree. The first below, in document order, is the one that a
search finds. The nearest is the first child of the kind, or else the nearest below the first child
that has any below. Either is at the end of a way down the tree; the ways are the same unless a node
beside the nearest one, in front of it, has one of the kind below.
-/

set_option autoImplicit false

namespace Manuscript.Node

/-! ### Ways -/

/-- An element that a way leads through: what it has of its own, and its children on both sides of
the way. -/
structure Crumb where
  kind : String
  value : Option String
  attrs : Attrs
  before : List Node
  after : List Node

namespace Crumb

def node (c : Crumb) : Node := ⟨c.kind, none, c.value, c.attrs⟩

def closed (c : Crumb) : Node := ⟨c.kind, some (c.before ++ c.after), c.value, c.attrs⟩

def fill (c : Crumb) (child : Node) : Node :=
  ⟨c.kind, some (c.before ++ child :: c.after), c.value, c.attrs⟩

end Crumb

/-- The elements on the way to a place, from above. -/
abbrev Way := List Crumb

/-- The tree with a node at the end of the way. -/
def fill : Way → Node → Node
  | [], n => n
  | c :: way, n => c.fill (fill way n)

/-- The tree without the node at the end of a way. Without the node at its start there is none. -/
def prune? : Way → Option Node
  | [] => none
  | c :: way => some ((prune? way).elim c.closed c.fill)

/-! ### Taking out the first -/

mutual
/-- The tree without the first node of a kind below, in document order. -/
def removeFirst? (kind : String) : Node → Option Node
  | ⟨_, none, _, _⟩ => none
  | ⟨k, some cs, v, a⟩ => (removeFirstIn? kind cs).map fun ds => ⟨k, some ds, v, a⟩

def removeFirstIn? (kind : String) : List Node → Option (List Node)
  | [] => none
  | n :: ns =>
    if n.is kind then some ns
    else match removeFirst? kind n with
      | some m => some (m :: ns)
      | none => (removeFirstIn? kind ns).map (n :: ·)
end

def removeFirst (kind : String) (n : Node) : Node := (n.removeFirst? kind).getD n

/-- No node of a kind is in a forest. -/
def FreeOf (kind : String) (ns : List Node) : Prop :=
  ∀ n ∈ ns, n.is kind = false ∧ n.findKind? kind = none

section
variable {kind : String} {c : Crumb} {way : Way} {n m x : Node} {ns : List Node}

/-- The first child with a property is at the end of a way of one step. -/
theorem exists_first_child {p : Node → Bool} (some : n.kids.any p = true) :
    ∃ c b, n = Crumb.fill c b ∧ p b = true ∧ ∀ b ∈ c.before, p b = false := by
  obtain ⟨k, _ | cs, v, a⟩ := n
  · cases some
  · obtain ⟨c, child, held⟩ := List.any_eq_true.1 some
    obtain ⟨b, before, after, front, first, split, -⟩ := List.exists_of_eraseP child held
    obtain rfl : cs = before ++ b :: after := split
    exact ⟨⟨k, v, a, before, after⟩, b, rfl, first, by simpa using front⟩

theorem Crumb.mem_kids_fill (c : Crumb) (n : Node) : n ∈ (c.fill n).kids :=
  List.mem_append_right _ List.mem_cons_self

theorem Crumb.fill_inj : c.fill m = c.fill n ↔ m = n := by
  simp [Crumb.fill]

/-! ### Whether there is one -/

theorem removeFirstIn?_append (ms ns : List Node) : removeFirstIn? kind (ms ++ ns) =
    match removeFirstIn? kind ms with
    | some ms => some (ms ++ ns)
    | none => (removeFirstIn? kind ns).map (ms ++ ·) := by
  induction ms with
  | nil => simp [removeFirstIn?]
  | cons m ms ih =>
    simp only [List.cons_append, removeFirstIn?, ih]
    split
    · rfl
    · cases removeFirst? kind m with
      | some m => rfl
      | none => cases removeFirstIn? kind ms <;> simp [Function.comp_def]

theorem removeNearestIn?_append (ms ns : List Node) : removeNearestIn? kind (ms ++ ns) =
    match removeNearestIn? kind ms with
    | some ms => some (ms ++ ns)
    | none => (removeNearestIn? kind ns).map (ms ++ ·) := by
  induction ms with
  | nil => simp [removeNearestIn?]
  | cons m ms ih =>
    simp only [List.cons_append, removeNearestIn?, ih]
    cases removeNearest? kind m with
    | some m => rfl
    | none => cases removeNearestIn? kind ms <;> simp [Function.comp_def]

theorem removeFirstIn?_eq_none_iff {ns : List Node} : removeFirstIn? kind ns = none ↔
    ∀ n ∈ ns, n.is kind = false ∧ removeFirst? kind n = none := by
  induction ns with
  | nil => simp [removeFirstIn?]
  | cons n ns ih =>
    rw [List.forall_mem_cons, ← ih, removeFirstIn?]
    cases n.is kind <;> cases removeFirst? kind n <;> simp

theorem removeNearestIn?_eq_none_iff {ns : List Node} : removeNearestIn? kind ns = none ↔
    ∀ n ∈ ns, removeNearest? kind n = none := by
  induction ns with
  | nil => simp [removeNearestIn?]
  | cons n ns ih =>
    rw [List.forall_mem_cons, ← ih, removeNearestIn?]
    cases removeNearest? kind n <;> simp

theorem removeNearest?_eq_none_iff :
    removeNearest? kind n = none ↔ removeFirst? kind n = none := by
  induction n using induction_on_kids with
  | node n ih =>
    obtain ⟨k, _ | cs, v, a⟩ := n
    · simp [removeNearest?, removeFirst?]
    · rw [removeNearest?, removeFirst?, Option.map_eq_none_iff, removeFirstIn?_eq_none_iff]
      split
      · next direct =>
        obtain ⟨c, child, here⟩ := List.any_eq_true.1 direct
        simp only [reduceCtorEq, false_iff]
        exact fun all => by simp [(all c child).1] at here
      · next none =>
        rw [Option.map_eq_none_iff, removeNearestIn?_eq_none_iff]
        have apart : ∀ c ∈ cs, c.is kind = false := by simpa using none
        exact ⟨fun all c child => ⟨apart c child, (ih c child).1 (all c child)⟩,
          fun all c child => (ih c child).2 (all c child).2⟩

theorem find?_forestNodes_eq_none_iff {ns : List Node} {p : Node → Bool} :
    (forestNodes ns).find? p = none ↔ ∀ n ∈ ns, p n = false ∧ n.find? p = none := by
  induction ns with
  | nil => simp [forestNodes]
  | cons n ns ih =>
    rw [List.forall_mem_cons, ← ih, forestNodes, List.find?_cons, List.find?_append, find?]
    cases p n <;> simp

theorem removeFirst?_eq_none_iff :
    removeFirst? kind n = none ↔ n.findKind? kind = none := by
  induction n using induction_on_kids with
  | node n ih =>
    obtain ⟨k, _ | cs, v, a⟩ := n
    · simp [removeFirst?, findKind?, find?, descendants]
    · rw [removeFirst?, Option.map_eq_none_iff, removeFirstIn?_eq_none_iff, findKind?, find?,
        descendants, find?_forestNodes_eq_none_iff]
      exact forall₂_congr fun c child => and_congr_right fun _ => ih c child

theorem removeFirstIn?_eq_none_iff_find? {ns : List Node} :
    removeFirstIn? kind ns = none ↔ (forestNodes ns).find? (·.is kind) = none := by
  rw [removeFirstIn?_eq_none_iff, find?_forestNodes_eq_none_iff]
  exact forall₂_congr fun n _ => and_congr_right fun _ => removeFirst?_eq_none_iff

theorem FreeOf.find?_forestNodes (free : FreeOf kind ns) :
    (forestNodes ns).find? (·.is kind) = none :=
  find?_forestNodes_eq_none_iff.2 free

theorem freeOf_iff_removeFirstIn? : FreeOf kind ns ↔ removeFirstIn? kind ns = none :=
  find?_forestNodes_eq_none_iff.symm.trans removeFirstIn?_eq_none_iff_find?.symm

/-- A node that is not one of a forest itself is taken out of one of them, and all of them stay. -/
theorem length_of_removeFirstIn? {ns ms : List Node} (apart : ns.any (·.is kind) = false)
    (found : removeFirstIn? kind ns = some ms) : ms.length = ns.length := by
  induction ns generalizing ms with
  | nil => simp [removeFirstIn?] at found
  | cons n ns ih =>
    obtain ⟨here, behind⟩ := Bool.or_eq_false_iff.1 apart
    rw [removeFirstIn?, if_neg (by simp [here])] at found
    split at found
    · obtain rfl := Option.some.inj found
      rfl
    · obtain ⟨ms, inside, rfl⟩ := Option.map_eq_some_iff.1 found
      exact congrArg (· + 1) (ih behind inside)

/-- A search finds a node exactly if a child is one or has one below. -/
theorem isSome_findKind? : (n.findKind? kind).isSome =
    n.kids.any fun c => c.is kind || (c.findKind? kind).isSome := by
  rw [findKind?, find?, descendants_eq]
  induction n.kids with
  | nil => rfl
  | cons c cs ih =>
    rw [List.any_cons, ← ih, forestNodes, List.find?_cons, List.find?_append, findKind?, find?]
    cases c.is kind <;> simp

/-! ### One step of a way -/

theorem Crumb.findKind?_fill (c : Crumb) (n : Node) : (c.fill n).findKind? kind =
    match (forestNodes c.before).find? (·.is kind) with
    | some m => some m
    | none =>
      if n.is kind then some n
      else match n.findKind? kind with
        | some m => some m
        | none => (forestNodes c.after).find? (·.is kind) := by
  -- Document order: what is in front, the child and all below it, what is behind.
  rw [Node.findKind?, find?, Crumb.fill, descendants, forestNodes_append, forestNodes,
    List.find?_append, List.find?_cons, List.find?_append, Node.findKind?, find?]
  cases (forestNodes c.before).find? (·.is kind) with
  | some m => rfl
  | none => cases n.is kind <;> cases n.descendants.find? (·.is kind) <;> rfl

theorem Crumb.removeFirst?_fill (c : Crumb) (n : Node) : removeFirst? kind (c.fill n) =
    match removeFirstIn? kind c.before with
    | some before => some ({ c with before }.fill n)
    | none =>
      if n.is kind then some c.closed
      else match removeFirst? kind n with
        | some m => some (c.fill m)
        | none => (removeFirstIn? kind c.after).map fun after => { c with after }.fill n := by
  rw [Crumb.fill, removeFirst?, removeFirstIn?_append, removeFirstIn?]
  cases removeFirstIn? kind c.before with
  | some before => rfl
  | none =>
    cases n.is kind with
    | true => rfl
    | false =>
      cases removeFirst? kind n with
      | some m => rfl
      | none => cases removeFirstIn? kind c.after <;> rfl

theorem Crumb.removeNearest?_fill (c : Crumb) (n : Node) : removeNearest? kind (c.fill n) =
    if c.before.any (·.is kind) then
      some ({ c with before := c.before.eraseP (·.is kind) }.fill n)
    else if n.is kind then some c.closed
    else if c.after.any (·.is kind) then
      some ({ c with after := c.after.eraseP (·.is kind) }.fill n)
    else match removeNearestIn? kind c.before with
      | some before => some ({ c with before }.fill n)
      | none => match removeNearest? kind n with
        | some m => some (c.fill m)
        | none => (removeNearestIn? kind c.after).map fun after => { c with after }.fill n := by
  rw [Crumb.fill, removeNearest?, removeNearestIn?_append, removeNearestIn?, List.any_append,
    List.any_cons, List.eraseP_append, List.eraseP_cons]
  cases c.before.any (·.is kind) with
  | true => rfl
  | false =>
    cases n.is kind with
    | true => rfl
    | false =>
      cases c.after.any (·.is kind) with
      | true => rfl
      | false =>
        cases removeNearestIn? kind c.before with
        | some before => rfl
        | none =>
          cases removeNearest? kind n with
          | some m => rfl
          | none => cases removeNearestIn? kind c.after <;> rfl

/-! ### The first -/

/-- A way leads to the first node of a kind below its start, in document order. -/
inductive ToFirst (kind : String) : Way → Prop where
  | child {c : Crumb} (front : FreeOf kind c.before) : ToFirst kind [c]
  | under {c d : Crumb} {way : Way} (front : FreeOf kind c.before) (other : d.kind ≠ kind)
      (rest : ToFirst kind (d :: way)) : ToFirst kind (c :: d :: way)

theorem ToFirst.findKind?_fill (leads : ToFirst kind way) (here : x.is kind = true) :
    (fill way x).findKind? kind = some x := by
  induction leads with
  | child front =>
    rw [fill, fill, Crumb.findKind?_fill, front.find?_forestNodes]
    exact if_pos here
  | @under c d way front other rest ih =>
    have apart : (fill (d :: way) x).is kind = false := beq_false_of_ne other
    rw [fill, Crumb.findKind?_fill, front.find?_forestNodes, apart, ih]
    rfl

theorem ToFirst.removeFirst?_fill (leads : ToFirst kind way) (here : x.is kind = true) :
    removeFirst? kind (fill way x) = prune? way := by
  induction leads with
  | child front =>
    rw [fill, fill, Crumb.removeFirst?_fill, freeOf_iff_removeFirstIn?.1 front]
    exact if_pos here
  | @under c d way front other rest ih =>
    have apart : (fill (d :: way) x).is kind = false := beq_false_of_ne other
    rw [fill, Crumb.removeFirst?_fill, freeOf_iff_removeFirstIn?.1 front, apart, ih]
    rfl

theorem ToFirst.cons (leads : ToFirst kind way) (front : FreeOf kind c.before)
    (other : (fill way x).is kind = false) : ToFirst kind (c :: way) := by
  cases leads with
  | child front' => exact .under front (ne_of_beq_false other) (.child front')
  | under front' other' rest =>
    exact .under front (ne_of_beq_false other) (.under front' other' rest)

/-- If there is a node of the kind below, then there is a first one. -/
theorem exists_toFirst (some : (n.findKind? kind).isSome = true) :
    ∃ way x, n = fill way x ∧ x.is kind = true ∧ ToFirst kind way := by
  induction n using induction_on_kids with
  | node n ih =>
    rw [isSome_findKind?] at some
    obtain ⟨c, b, rfl, first, front⟩ := exists_first_child some
    have front : FreeOf kind c.before := by simpa [FreeOf] using front
    cases here : b.is kind with
    | true => exact ⟨[c], b, rfl, here, .child front⟩
    | false =>
      obtain ⟨way, x, rfl, isKind, leads⟩ := ih b (c.mem_kids_fill b) (by simpa [here] using first)
      exact ⟨c :: way, x, rfl, isKind, leads.cons front here⟩

/-! ### The nearest -/

/-- A way leads to the nearest node of a kind: the first child of the kind, or else the nearest
below the first child that has any below. -/
inductive ToNearest (kind : String) : Way → Prop where
  | child {c : Crumb} (front : ∀ b ∈ c.before, b.is kind = false) : ToNearest kind [c]
  | under {c d : Crumb} {way : Way} (apart : ∀ b ∈ c.before ++ c.after, b.is kind = false)
      (other : d.kind ≠ kind) (front : ∀ b ∈ c.before, b.findKind? kind = none)
      (rest : ToNearest kind (d :: way)) : ToNearest kind (c :: d :: way)

theorem ToNearest.removeNearest?_fill (leads : ToNearest kind way) (here : x.is kind = true) :
    removeNearest? kind (fill way x) = prune? way := by
  induction leads with
  | @child c front =>
    have none : c.before.any (·.is kind) = false := by simpa using front
    rw [fill, fill, Crumb.removeNearest?_fill, none, here]
    rfl
  | @under c d way apart other front rest ih =>
    obtain ⟨before, after⟩ := List.forall_mem_append.1 apart
    have noBefore : c.before.any (·.is kind) = false := by simpa using before
    have noAfter : c.after.any (·.is kind) = false := by simpa using after
    have off : (fill (d :: way) x).is kind = false := beq_false_of_ne other
    have nothing : removeNearestIn? kind c.before = none := removeNearestIn?_eq_none_iff.2
      fun b mem => removeNearest?_eq_none_iff.2 (removeFirst?_eq_none_iff.2 (front b mem))
    rw [fill, Crumb.removeNearest?_fill, noBefore, off, noAfter, nothing, ih]
    rfl

theorem ToNearest.cons (leads : ToNearest kind way)
    (apart : ∀ b ∈ c.before ++ c.after, b.is kind = false) (other : (fill way x).is kind = false)
    (front : ∀ b ∈ c.before, b.findKind? kind = none) : ToNearest kind (c :: way) := by
  cases leads with
  | child front' => exact .under apart (ne_of_beq_false other) front (.child front')
  | under apart' other' front' rest =>
    exact .under apart (ne_of_beq_false other) front (.under apart' other' front' rest)

/-- If there is a node of the kind below, then there is a nearest one. -/
theorem exists_toNearest (some : (n.findKind? kind).isSome = true) :
    ∃ way x, n = fill way x ∧ x.is kind = true ∧ ToNearest kind way := by
  induction n using induction_on_kids with
  | node n ih =>
    cases direct : n.kids.any (·.is kind) with
    | true =>
      obtain ⟨c, b, rfl, here, front⟩ := exists_first_child direct
      exact ⟨[c], b, rfl, here, .child front⟩
    | false =>
      have apart : ∀ b ∈ n.kids, b.is kind = false := by simpa using direct
      have deeper : n.kids.any (fun b => (b.findKind? kind).isSome) = true := by
        rw [isSome_findKind?] at some
        obtain ⟨b, child, held⟩ := List.any_eq_true.1 some
        exact List.any_eq_true.2 ⟨b, child, by simpa [apart b child] using held⟩
      obtain ⟨c, b, rfl, inside, front⟩ := exists_first_child deeper
      obtain ⟨way, x, rfl, isKind, leads⟩ := ih b (c.mem_kids_fill b) inside
      obtain ⟨before, here, after⟩ :=
        (List.forall_mem_append.trans (and_congr_right fun _ => List.forall_mem_cons)).1 apart
      exact ⟨c :: way, x, rfl, isKind,
        leads.cons (List.forall_mem_append.2 ⟨before, after⟩) here (by simpa using front)⟩

/-! ### Whether the nearest is the first -/

theorem ToNearest.toFirst_iff (leads : ToNearest kind way) : ToFirst kind way ↔
    ∀ c ∈ way.getLast?, ∀ b ∈ c.before, b.findKind? kind = none := by
  induction leads with
  | @child c front =>
    simp only [List.getLast?_singleton, Option.mem_some_iff, forall_eq']
    constructor
    · rintro ⟨first⟩
      exact fun b mem => (first b mem).2
    · intro free
      exact .child fun b mem => ⟨front b mem, free b mem⟩
  | @under c d way apart other front rest ih =>
    rw [List.getLast?_cons_cons, ← ih]
    constructor
    · rintro (_ | ⟨-, -, first⟩)
      exact first
    · intro first
      exact .under (fun b mem => ⟨apart b (List.mem_append_left _ mem), front b mem⟩) other first

/-- If the same is left without the first node of a kind as without the nearest, the nearest is the
first. -/
theorem ToNearest.toFirst (leads : ToNearest kind way) (here : x.is kind = true)
    (same : removeFirst? kind (fill way x) = prune? way) : ToFirst kind way := by
  induction leads with
  | @child c front =>
    rw [fill, fill, Crumb.removeFirst?_fill] at same
    have apart : c.before.any (·.is kind) = false := by simpa using front
    cases found : removeFirstIn? kind c.before with
    | none => exact .child (freeOf_iff_removeFirstIn?.2 found)
    | some before =>
      -- All children stay if the first is below one of them, so one is left too many.
      rw [found] at same
      have lengths := congrArg (List.length ∘ kids) (Option.some.inj same)
      simp [prune?, kids, Crumb.fill, Crumb.closed, length_of_removeFirstIn? apart found] at lengths
  | @under c d way apart other front rest ih =>
    have free : FreeOf kind c.before :=
      fun b mem => ⟨apart b (List.mem_append_left _ mem), front b mem⟩
    have off : (fill (d :: way) x).is kind = false := beq_false_of_ne other
    rw [fill, Crumb.removeFirst?_fill, freeOf_iff_removeFirstIn?.1 free, off] at same
    refine .under free other (ih ?_)
    cases found : removeFirst? kind (fill (d :: way) x) with
    | none =>
      have nothing := removeNearest?_eq_none_iff.2 found
      rw [rest.removeNearest?_fill here] at nothing
      exact nothing.symm
    | some m =>
      rw [found] at same
      obtain ⟨m', pruned⟩ : ∃ m', prune? (d :: way) = some m' := ⟨_, rfl⟩
      rw [prune?, pruned] at same
      rw [pruned, Crumb.fill_inj.1 (Option.some.inj same)]

theorem findKind?_eq_some_iff : n.findKind? kind = some x ↔
    ∃ way, n = fill way x ∧ x.is kind = true ∧ ToFirst kind way := by
  constructor
  · intro found
    obtain ⟨way, y, rfl, here, leads⟩ := exists_toFirst (by rw [found]; rfl)
    rw [leads.findKind?_fill here] at found
    obtain rfl := Option.some.inj found
    exact ⟨way, rfl, here, leads⟩
  · rintro ⟨way, rfl, here, leads⟩
    exact leads.findKind?_fill here

theorem removeFirst?_eq_some_iff : removeFirst? kind n = some m ↔
    ∃ way x, n = fill way x ∧ x.is kind = true ∧ ToFirst kind way ∧ prune? way = some m := by
  constructor
  · intro out
    obtain ⟨way, x, rfl, here, leads⟩ := exists_toFirst
      (Option.isSome_iff_ne_none.2 fun none => by
        rw [removeFirst?_eq_none_iff.2 none] at out; cases out)
    rw [leads.removeFirst?_fill here] at out
    exact ⟨way, x, rfl, here, leads, out⟩
  · rintro ⟨way, x, rfl, here, leads, out⟩
    rw [leads.removeFirst?_fill here, out]

/-- If a search finds a node of a kind, one such node is taken out and nothing else, and if it finds
none, the tree stays. The node is the nearest; it is the one that was found exactly if no node
beside it, in front of it, has one of the kind below. -/
theorem removal_meets_search (kind : String) (n : Node) :
    ((removeNearest? kind n).isSome = true ↔ (n.findKind? kind).isSome = true) ∧
    (n.findKind? kind = none → removeNearest kind n = n) ∧
    ∀ m, removeNearest? kind n = some m → ∃ way x, n = fill way x ∧ x.is kind = true ∧
      prune? way = some m ∧ ToNearest kind way ∧
      (ToFirst kind way ↔ ∀ c ∈ way.getLast?, ∀ b ∈ c.before, b.findKind? kind = none) ∧
      (removeFirst? kind n = some m ↔ ToFirst kind way) := by
  have none_iff : removeNearest? kind n = none ↔ n.findKind? kind = none :=
    removeNearest?_eq_none_iff.trans removeFirst?_eq_none_iff
  have some_iff : (removeNearest? kind n).isSome = true ↔ (n.findKind? kind).isSome = true := by
    simp only [Option.isSome_iff_ne_none, ne_eq, none_iff]
  refine ⟨some_iff, fun none => ?_, fun m out => ?_⟩
  · rw [removeNearest, none_iff.2 none, Option.getD_none]
  · obtain ⟨way, x, rfl, here, leads⟩ := exists_toNearest (some_iff.1 (by rw [out]; rfl))
    rw [leads.removeNearest?_fill here] at out
    refine ⟨way, x, rfl, here, out, leads, leads.toFirst_iff, ?_⟩
    rw [← out]
    exact ⟨leads.toFirst here, fun first => first.removeFirst?_fill here⟩

-- The title in the box is found, and the one behind it is taken out.
example :
    let boxed := branch "boxed-text" [branch "title" [text "A"]]
    let table := branch "table-wrap" [boxed, branch "title" [text "B"]]
    table.findKind? "title" = some (branch "title" [text "A"]) ∧
      removeNearest "title" table = branch "table-wrap" [boxed] :=
  ⟨rfl, rfl⟩

end

end Manuscript.Node
