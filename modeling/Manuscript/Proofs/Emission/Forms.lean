import Manuscript.Proofs.Emission.Texts

/-!
Trees with a text at a place. A way leads down a tree to the text, past all that stands beside it.
What a search finds, and what is left when a node is taken out, is a form: a tree with the place of
the text still open in it, or without that place. So it is the same whatever the text says.
-/

set_option autoImplicit false

namespace Manuscript.Node

/-! ### Forms -/

/-- Whether the next element of the way is of a kind. -/
def leadsTo (kind : String) (way : Way) : Bool := way.head?.any (·.kind == kind)

/-- A tree in which one place is open, or none. -/
inductive Form where
  | done (n : Node)
  | blank (way : Way)

namespace Form

def fill : Form → Node → Node
  | done n, _ => n
  | blank way, n => Node.fill way n

def isBlank : Form → Bool
  | done _ => false
  | blank _ => true

def under (c : Crumb) : Form → Form
  | done n => done (c.fill n)
  | blank way => blank (c :: way)

theorem fill_under (c : Crumb) (form : Form) (n : Node) :
    (form.under c).fill n = c.fill (form.fill n) := by
  cases form <;> rfl

@[simp] theorem isBlank_under (c : Crumb) (form : Form) :
    (form.under c).isBlank = form.isBlank := by
  cases form <;> rfl

end Form

/-! ### Searching and taking out along a way -/

/-- The first node of a kind below the start of a way. -/
def firstAlong? (kind : String) : Way → Option Form
  | [] => none
  | c :: way =>
    match (forestNodes c.before).find? (·.is kind) with
    | some n => some (.done n)
    | none =>
      if leadsTo kind way then some (.blank way)
      else match firstAlong? kind way with
        | some form => some form
        | none => ((forestNodes c.after).find? (·.is kind)).map .done

/-- What is left without the first node of a kind below the start of a way. -/
def withoutFirst? (kind : String) : Way → Option Form
  | [] => none
  | c :: way =>
    match removeFirstIn? kind c.before with
    | some before => some (.blank ({ c with before } :: way))
    | none =>
      if leadsTo kind way then some (.done c.closed)
      else match withoutFirst? kind way with
        | some form => some (form.under c)
        | none => (removeFirstIn? kind c.after).map fun after => .blank ({ c with after } :: way)

/-- What is left without the nearest node of a kind below the start of a way. -/
def withoutNearest? (kind : String) : Way → Option Form
  | [] => none
  | c :: way =>
    if c.before.any (·.is kind) then
      some (.blank ({ c with before := c.before.eraseP (·.is kind) } :: way))
    else if leadsTo kind way then some (.done c.closed)
    else if c.after.any (·.is kind) then
      some (.blank ({ c with after := c.after.eraseP (·.is kind) } :: way))
    else match removeNearestIn? kind c.before with
      | some before => some (.blank ({ c with before } :: way))
      | none => match withoutNearest? kind way with
        | some form => some (form.under c)
        | none => (removeNearestIn? kind c.after).map fun after => .blank ({ c with after } :: way)

section
variable {kind : String} (other : kind ≠ "text") (attrs : Attrs)
include other

theorem is_fill (way : Way) (t : String) :
    (fill way (scalar "text" t attrs)).is kind = leadsTo kind way := by
  cases way with
  | nil => exact beq_false_of_ne (Ne.symm other)
  | cons c way => rfl

theorem findKind?_fill (way : Way) (t : String) :
    (fill way (scalar "text" t attrs)).findKind? kind =
      (firstAlong? kind way).map (·.fill (scalar "text" t attrs)) := by
  induction way with
  | nil => simp [fill, findKind?, find?, descendants, scalar, firstAlong?]
  | cons c way ih =>
    rw [fill, Crumb.findKind?_fill, is_fill other, ih, firstAlong?]
    cases (forestNodes c.before).find? (·.is kind) with
    | some n => rfl
    | none =>
      cases leadsTo kind way with
      | true => rfl
      | false =>
        cases firstAlong? kind way with
        | some form => rfl
        | none => simp [Form.fill, Function.comp_def]

theorem removeFirst?_fill (way : Way) (t : String) :
    removeFirst? kind (fill way (scalar "text" t attrs)) =
      (withoutFirst? kind way).map (·.fill (scalar "text" t attrs)) := by
  induction way with
  | nil => rfl
  | cons c way ih =>
    rw [fill, Crumb.removeFirst?_fill, is_fill other, ih, withoutFirst?]
    cases removeFirstIn? kind c.before with
    | some before => rfl
    | none =>
      cases leadsTo kind way with
      | true => rfl
      | false =>
        cases withoutFirst? kind way with
        | some form => exact congrArg some (form.fill_under c _).symm
        | none => cases removeFirstIn? kind c.after <;> rfl

theorem removeNearest?_fill (way : Way) (t : String) :
    removeNearest? kind (fill way (scalar "text" t attrs)) =
      (withoutNearest? kind way).map (·.fill (scalar "text" t attrs)) := by
  induction way with
  | nil => rfl
  | cons c way ih =>
    rw [fill, Crumb.removeNearest?_fill, is_fill other, ih, withoutNearest?]
    cases c.before.any (·.is kind) with
    | true => rfl
    | false =>
      cases leadsTo kind way with
      | true => rfl
      | false =>
        cases c.after.any (·.is kind) with
        | true => rfl
        | false =>
          cases removeNearestIn? kind c.before with
          | some before => rfl
          | none =>
            cases withoutNearest? kind way with
            | some form => exact congrArg some (form.fill_under c _).symm
            | none => cases removeNearestIn? kind c.after <;> rfl

end

/-! ### The nearest node and the first -/

section
variable {kind : String}

theorem removeFirstIn?_eq_none_iff_of_apart {ns : List Node} (apart : ns.any (·.is kind) = false) :
    removeFirstIn? kind ns = none ↔ removeNearestIn? kind ns = none := by
  rw [removeFirstIn?_eq_none_iff, removeNearestIn?_eq_none_iff]
  have apart : ∀ n ∈ ns, n.is kind = false := by simpa using apart
  exact ⟨fun all n mem => removeNearest?_eq_none_iff.2 (all n mem).2,
    fun all n mem => ⟨apart n mem, removeNearest?_eq_none_iff.1 (all n mem)⟩⟩

/-- Whether the nearest node of a kind in a forest is the first. -/
def NearestFirst (kind : String) (ns : List Node) : Prop := removeFirstIn? kind ns =
  if ns.any (·.is kind) then some (ns.eraseP (·.is kind)) else removeNearestIn? kind ns

theorem NearestFirst.of_direct {ns : List Node} (first : NearestFirst kind ns)
    (direct : ns.any (·.is kind) = true) :
    removeFirstIn? kind ns = some (ns.eraseP (·.is kind)) :=
  Eq.trans first (if_pos direct)

theorem NearestFirst.of_apart {ns : List Node} (first : NearestFirst kind ns)
    (apart : ns.any (·.is kind) = false) : removeFirstIn? kind ns = removeNearestIn? kind ns :=
  Eq.trans first (if_neg (by simp [apart]))

theorem nearestFirst_kids {cs : List Node} {k : String} {v : Option String} {a : Attrs}
    (same : removeNearest? kind ⟨k, some cs, v, a⟩ = removeFirst? kind ⟨k, some cs, v, a⟩) :
    NearestFirst kind cs := by
  rw [removeNearest?, removeFirst?] at same
  unfold NearestFirst
  cases direct : cs.any (·.is kind) <;> rw [direct] at same
  · cases nearest : removeNearestIn? kind cs <;> cases first : removeFirstIn? kind cs <;>
      simp_all
  · cases first : removeFirstIn? kind cs <;> simp_all

/-- The first node of a forest is the first of a part in front, or of the rest if there is none. -/
theorem NearestFirst.append {ms ns : List Node} (whole : NearestFirst kind (ms ++ ns)) :
    NearestFirst kind ms ∧ (removeFirstIn? kind ms = none → NearestFirst kind ns) ∧
      (ms.any (·.is kind) = false → ns.any (·.is kind) = true → removeFirstIn? kind ms = none) := by
  unfold NearestFirst at *
  rw [removeFirstIn?_append, List.any_append, List.eraseP_append, removeNearestIn?_append] at whole
  cases front : ms.any (·.is kind) with
  | true =>
    simp only [front, Bool.true_or, if_true] at whole
    cases found : removeFirstIn? kind ms with
    | none =>
      obtain ⟨n, mem, here⟩ := List.any_eq_true.1 front
      simp [(removeFirstIn?_eq_none_iff.1 found n mem).1] at here
    | some ms' => simpa [found] using whole
  | false =>
    have none_iff := removeFirstIn?_eq_none_iff_of_apart front
    cases back : ns.any (·.is kind) with
    | true =>
      simp only [front, back, Bool.false_or, if_true, Bool.false_eq_true, if_false] at whole
      cases found : removeFirstIn? kind ms with
      | some ms' =>
        -- The rest has one node less if the node is taken out of it, so it was not taken out before.
        rw [found] at whole
        have lengths := congrArg List.length (Option.some.inj whole)
        obtain ⟨n, mem, here⟩ := List.any_eq_true.1 back
        have shorter := List.length_eraseP_of_mem (p := (·.is kind)) mem here
        have some := List.length_pos_of_mem mem
        simp only [List.length_append, length_of_removeFirstIn? front found] at lengths
        omega
      | none => simpa [found, none_iff.1 found] using whole
    | false =>
      simp only [front, back, Bool.or_false, Bool.false_eq_true, if_false] at whole
      cases found : removeFirstIn? kind ms with
      | some ms' =>
        cases nearest : removeNearestIn? kind ms with
        | none => rw [none_iff.2 nearest] at found; cases found
        | some ms'' => simpa [found, nearest] using whole
      | none =>
        rw [found, none_iff.1 found] at whole
        have rest := (Option.map_inj_right fun _ _ => List.append_cancel_left).1 whole
        simpa [none_iff.1 found] using rest

theorem NearestFirst.inside {n : Node} (first : NearestFirst kind [n]) (here : n.is kind = false) :
    removeNearest? kind n = removeFirst? kind n := by
  have same := first.of_apart (by simp [here])
  rw [removeFirstIn?, removeNearestIn?, removeFirstIn?, removeNearestIn?] at same
  cases found : removeFirst? kind n <;> cases nearest : removeNearest? kind n <;> simp_all

theorem removeNearest?_eq_of_takesOutFirst {n : Node}
    (first : Myst.takesOutFirst kind n = true) : removeNearest? kind n = removeFirst? kind n := by
  have same : removeNearest kind n = removeFirst kind n := beq_iff_eq.1 first
  unfold removeNearest removeFirst at same
  cases nearest : removeNearest? kind n with
  | none => exact (removeNearest?_eq_none_iff.1 nearest).symm
  | some m =>
    cases found : removeFirst? kind n with
    | none => rw [removeNearest?_eq_none_iff.2 found] at nearest; cases nearest
    | some m' => rw [nearest, found] at same; exact congrArg some same

theorem withoutNearest?_eq_withoutFirst? (other : kind ≠ "text") {attrs : Attrs} {t : String}
    {way : Way} (same : removeNearest? kind (fill way (scalar "text" t attrs)) =
      removeFirst? kind (fill way (scalar "text" t attrs))) :
    withoutNearest? kind way = withoutFirst? kind way := by
  induction way with
  | nil => rfl
  | cons c way ih =>
    obtain ⟨front, rest, apart⟩ := (nearestFirst_kids same).append
    rw [List.any_cons, is_fill other] at apart
    rw [← List.singleton_append] at rest
    rw [withoutNearest?, withoutFirst?]
    -- The nearest node is beside the way in front, on the way, beside it behind, or deeper.
    cases direct : c.before.any (·.is kind) with
    | true =>
      rw [front.of_direct direct]
      rfl
    | false =>
      cases head : leadsTo kind way with
      | true => rw [apart direct (by simp [head])]; rfl
      | false =>
        have here : ([fill way (scalar "text" t attrs)] : List Node).any (·.is kind) = false := by
          simp [is_fill other, head]
        cases behind : c.after.any (·.is kind) with
        | true =>
          have none := apart direct (by simp [head, behind])
          obtain ⟨-, last, between⟩ := (rest none).append
          have nothing := between here behind
          have inside := (removeFirstIn?_eq_none_iff.1 nothing _ (List.mem_singleton_self _)).2
          rw [removeFirst?_fill other, Option.map_eq_none_iff] at inside
          rw [none, inside, (last nothing).of_direct behind]
          rfl
        | false =>
          have before := front.of_apart direct
          cases found : removeNearestIn? kind c.before with
          | some before' => rw [before, found]; rfl
          | none =>
            obtain ⟨alone, last, -⟩ := (rest (before.trans found)).append
            rw [before, found, ih (alone.inside (by rw [is_fill other, head]))]
            cases below : withoutFirst? kind way with
            | some form => rfl
            | none =>
              have nothing : removeFirstIn? kind [fill way (scalar "text" t attrs)] = none := by
                simp [removeFirstIn?, is_fill other, head, removeFirst?_fill other, below]
              rw [(last nothing).of_apart behind]
              rfl

end

/-! ### Whether the text goes along -/

/-- Whether the way leads through the first node of a kind. -/
def inFirst (kind : String) (way : Way) : Bool := (firstAlong? kind way).any Form.isBlank

/-- What is left of a form without the nearest node of a kind. -/
def Form.without (kind : String) : Form → Form
  | .done n => .done (n.removeNearest kind)
  | .blank way => (withoutNearest? kind way).getD (.blank way)

section
variable {kind : String}

theorem inFirst_cons (c : Crumb) (way : Way) : inFirst kind (c :: way) =
    (!(forestNodes c.before).any (·.is kind) && (leadsTo kind way || inFirst kind way)) := by
  rw [inFirst, inFirst, firstAlong?, ← List.isSome_find?]
  cases (forestNodes c.before).find? (·.is kind) with
  | some n => rfl
  | none =>
    cases leadsTo kind way with
    | true => rfl
    | false =>
      cases firstAlong? kind way with
      | some form => simp
      | none => cases (forestNodes c.after).find? (·.is kind) <;> rfl

theorem Form.fill_without (other : kind ≠ "text") (attrs : Attrs) (form : Form) (t : String) :
    (form.without kind).fill (scalar "text" t attrs) =
      (form.fill (scalar "text" t attrs)).removeNearest kind := by
  cases form with
  | done n => rfl
  | blank way =>
    rw [Form.without, Form.fill, removeNearest, removeNearest?_fill other]
    cases withoutNearest? kind way <;> rfl

theorem kind_of_removeFirst? {n m : Node} (out : removeFirst? kind n = some m) :
    m.kind = n.kind := by
  obtain ⟨k, _ | cs, v, a⟩ := n
  · simp [removeFirst?] at out
  · obtain ⟨ds, -, rfl⟩ := Option.map_eq_some_iff.1 out
    rfl

mutual
/-- If the first node of a kind has none of another kind in it, these stay when it is taken out. -/
theorem any_removeFirst? {apart : String} (distinct : apart ≠ kind) : {n m first : Node} →
    removeFirst? kind n = some m → n.findKind? kind = some first → first.findKind? apart = none →
      m.descendants.any (·.is apart) = n.descendants.any (·.is apart)
  | ⟨_, none, _, _⟩, _, _, out, _, _ => by simp [removeFirst?] at out
  | ⟨k, some cs, v, a⟩, m, first, out, found, free => by
    obtain ⟨ds, inside, rfl⟩ := Option.map_eq_some_iff.1 out
    exact any_removeFirstIn? distinct inside found free

theorem any_removeFirstIn? {apart : String} (distinct : apart ≠ kind) :
    {ns ms : List Node} → {first : Node} → removeFirstIn? kind ns = some ms →
    (forestNodes ns).find? (·.is kind) = some first → first.findKind? apart = none →
      (forestNodes ms).any (·.is apart) = (forestNodes ns).any (·.is apart)
  | [], _, _, out, _, _ => by simp [removeFirstIn?] at out
  | n :: ns, ms, first, out, found, free => by
    rw [forestNodes, List.find?_cons, List.find?_append] at found
    rw [forestNodes, List.any_cons, List.any_append]
    rw [removeFirstIn?] at out
    cases here : n.is kind with
    | true =>
      rw [here] at out found
      obtain rfl := Option.some.inj out
      obtain rfl := Option.some.inj found
      -- The node that goes is not of the other kind, and has none of it inside.
      have other : n.is apart = false := by
        rw [Node.is, beq_iff_eq] at here
        rw [Node.is, here]
        exact beq_false_of_ne (Ne.symm distinct)
      have below : n.descendants.any (·.is apart) = false := by
        rw [← List.isSome_find?]
        exact congrArg Option.isSome free
      rw [other, below, Bool.false_or, Bool.false_or]
    | false =>
      rw [here] at out found
      cases inside : removeFirst? kind n with
      | some m =>
        rw [inside] at out
        obtain rfl := Option.some.inj out
        cases below : n.descendants.find? (·.is kind) with
        | none => rw [removeFirst?_eq_none_iff.2 below] at inside; cases inside
        | some first' =>
          rw [below] at found
          obtain rfl := Option.some.inj found
          rw [forestNodes, List.any_cons, List.any_append,
            any_removeFirst? distinct inside below free, Node.is, kind_of_removeFirst? inside]
          rfl
      | none =>
        rw [inside] at out
        obtain ⟨ms, behind, rfl⟩ := Option.map_eq_some_iff.1 out
        have below : n.descendants.find? (·.is kind) = none := removeFirst?_eq_none_iff.1 inside
        rw [below] at found
        rw [forestNodes, List.any_cons, List.any_append, any_removeFirstIn? distinct behind found free]
end

/-- Without the first node of a kind the text is gone if the way leads through that node, and stays
if not. -/
theorem isBlank_withoutFirst? (way : Way) :
    (withoutFirst? kind way).all Form.isBlank = !inFirst kind way := by
  induction way with
  | nil => rfl
  | cons c way ih =>
    rw [inFirst_cons, withoutFirst?, ← List.isSome_find?]
    cases found : removeFirstIn? kind c.before with
    | some before =>
      cases first : (forestNodes c.before).find? (·.is kind) with
      | none => rw [removeFirstIn?_eq_none_iff_find?.2 first] at found; cases found
      | some n => rfl
    | none =>
      rw [removeFirstIn?_eq_none_iff_find?.1 found]
      cases leadsTo kind way with
      | true => rfl
      | false =>
        cases below : withoutFirst? kind way with
        | some form => rw [below] at ih; simpa using ih
        | none =>
          rw [below] at ih
          cases removeFirstIn? kind c.after <;> simpa [Form.isBlank] using ih

theorem nodes_of_withoutFirst? {way rest : Way}
    (out : withoutFirst? kind way = some (.blank rest)) :
    rest.map Crumb.node = way.map Crumb.node := by
  induction way generalizing rest with
  | nil => cases out
  | cons c way ih =>
    rw [withoutFirst?] at out
    split at out
    · cases out; rfl
    · split at out
      · cases out
      · split at out
        · next form below =>
          cases form with
          | done n => cases out
          | blank inner => cases out; exact congrArg (c.node :: ·) (ih below)
        · obtain ⟨after, -, same⟩ := Option.map_eq_some_iff.1 out
          cases same
          rfl

theorem nodes_of_withoutNearest? {way rest : Way}
    (out : withoutNearest? kind way = some (.blank rest)) :
    rest.map Crumb.node = way.map Crumb.node := by
  induction way generalizing rest with
  | nil => cases out
  | cons c way ih =>
    rw [withoutNearest?] at out
    split at out
    · cases out; rfl
    · split at out
      · cases out
      · split at out
        · cases out; rfl
        · split at out
          · cases out; rfl
          · split at out
            · next form below =>
              cases form with
              | done n => cases out
              | blank inner => cases out; exact congrArg (c.node :: ·) (ih below)
            · obtain ⟨after, -, same⟩ := Option.map_eq_some_iff.1 out
              cases same
              rfl

theorem leadsTo_eq (way : Way) :
    leadsTo kind way = (way.map Crumb.node).head?.any (·.is kind) := by
  cases way <;> rfl

/-- If the first node of a kind has none of another kind in it, a text is in the first of the other
kind as before when it is taken out. -/
theorem inFirst_withoutFirst? {apart : String} (distinct : apart ≠ kind) {way rest : Way}
    (out : withoutFirst? kind way = some (.blank rest))
    (free : ∀ first, firstAlong? kind way = some (.done first) → first.findKind? apart = none) :
    inFirst apart rest = inFirst apart way := by
  induction way generalizing rest with
  | nil => cases out
  | cons c way ih =>
    rw [withoutFirst?] at out
    rw [firstAlong?] at free
    -- The node that goes stands before the way, further down beside it, or behind it.
    cases found : removeFirstIn? kind c.before with
    | some before =>
      rw [found] at out
      cases out
      cases first : (forestNodes c.before).find? (·.is kind) with
      | none => rw [removeFirstIn?_eq_none_iff_find?.2 first] at found; cases found
      | some n =>
        rw [first] at free
        rw [inFirst_cons, inFirst_cons, any_removeFirstIn? distinct found first (free n rfl)]
    | none =>
      rw [found] at out
      rw [removeFirstIn?_eq_none_iff_find?.1 found] at free
      cases head : leadsTo kind way with
      | true => rw [head] at out; cases out
      | false =>
        rw [head] at out free
        cases below : withoutFirst? kind way with
        | some form =>
          rw [below] at out
          cases form with
          | done n => cases out
          | blank inner =>
            cases out
            have same := ih below fun first along => free first (by rw [along]; rfl)
            rw [inFirst_cons, inFirst_cons, same, leadsTo_eq, nodes_of_withoutFirst? below,
              ← leadsTo_eq]
        | none =>
          rw [below] at out
          obtain ⟨after, -, same⟩ := Option.map_eq_some_iff.1 out
          cases same
          rw [inFirst_cons, inFirst_cons]

theorem isBlank_withoutNearest? {way : Way} (off : ∀ c ∈ way.tail, c.kind ≠ kind) :
    (withoutNearest? kind way).all Form.isBlank = true := by
  induction way with
  | nil => rfl
  | cons c way ih =>
    have head : leadsTo kind way = false := by
      cases way with
      | nil => rfl
      | cons d way => exact beq_false_of_ne (off d List.mem_cons_self)
    have inner := ih fun d mem => off d (List.mem_of_mem_tail mem)
    rw [withoutNearest?, head]
    split
    · rfl
    · split
      · contradiction
      · split
        · rfl
        · split
          · rfl
          · cases below : withoutNearest? kind way with
            | some form => rw [below] at inner; simpa using inner
            | none => cases removeNearestIn? kind c.after <;> rfl

end

end Manuscript.Node
