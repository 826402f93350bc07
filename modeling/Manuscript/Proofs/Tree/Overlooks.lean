import Manuscript.Proofs.Tree.Remarks

/-!
Searches that overlook remarks. What is found in a tree without remarks is what is found in the
tree, less the remarks; to change or to take out the first node that is found is blind to them.
-/

set_option autoImplicit false

namespace Manuscript.Node

theorem descendants_withoutRemarks (n : Node) :
    n.withoutRemarks.descendants = (n.descendants.filter (!isRemark ·)).map withoutRemarks := by
  induction n using induction_on_kids with
  | node n ih =>
    have forest (ns : List Node) (each : ∀ c ∈ ns, c.withoutRemarks.descendants =
        (c.descendants.filter (!isRemark ·)).map withoutRemarks) :
        forestNodes (dropRemarks ns) =
          ((forestNodes ns).filter (!isRemark ·)).map withoutRemarks := by
      induction ns with
      | nil => rfl
      | cons c ns ih =>
        obtain ⟨first, rest⟩ := List.forall_mem_cons.1 each
        cases remark : isRemark c with
        | true =>
          have bare : c.descendants = [] := by
            rw [descendants_eq, kids_of_isRemark remark]
            rfl
          simp [dropRemarks_cons_of_true remark, forestNodes, remark, bare, ih rest]
        | false =>
          simp [dropRemarks_cons_of_false remark, forestNodes, remark, first, ih rest]
    rw [descendants_eq, descendants_eq n, kids_withoutRemarks]
    exact forest n.kids ih

theorem isRemark_updateFirst (p : Node → Bool) (f : Node → Node) (n : Node) :
    isRemark (updateFirst p f n) = isRemark n := by
  obtain ⟨k, children, v, a⟩ := n
  cases children with
  | none => rfl
  | some cs =>
    rw [updateFirst, updateFirst?]
    cases updateFirstIn? p f cs <;> rfl

section
variable {p : Node → Bool}

namespace Overlooks

theorem find? (overlooks : Overlooks p) (n : Node) :
    n.withoutRemarks.find? p = (n.find? p).map withoutRemarks := by
  rw [Node.find?, Node.find?, descendants_withoutRemarks]
  induction n.descendants with
  | nil => rfl
  | cons m ms ih =>
    cases remark : isRemark m with
    | true => simp [remark, overlooks.other m remark, ih]
    | false => cases found : p m <;> simp [remark, found, overlooks.sees, ih]

theorem findAll (overlooks : Overlooks p) (n : Node) :
    n.withoutRemarks.findAll p = (n.findAll p).map withoutRemarks := by
  rw [Node.findAll, Node.findAll, descendants_withoutRemarks]
  induction n.descendants with
  | nil => rfl
  | cons m ms ih =>
    cases remark : isRemark m with
    | true => simp [remark, overlooks.other m remark, ih]
    | false => cases found : p m <;> simp [remark, found, overlooks.sees, ih]

theorem any (overlooks : Overlooks p) (ns : List Node) : (dropRemarks ns).any p = ns.any p := by
  induction ns with
  | nil => rfl
  | cons m ms ih =>
    cases remark : isRemark m with
    | true => simp [dropRemarks_cons_of_true remark, overlooks.other m remark, ih]
    | false => simp [dropRemarks_cons_of_false remark, overlooks.sees, ih]

theorem eraseP (overlooks : Overlooks p) (ns : List Node) :
    (dropRemarks ns).eraseP p = dropRemarks (ns.eraseP p) := by
  induction ns with
  | nil => rfl
  | cons m ms ih =>
    cases remark : isRemark m with
    | true =>
      have stays : ¬p m = true := by simp [overlooks.other m remark]
      rw [dropRemarks_cons_of_true remark, List.eraseP_cons_of_neg stays, ih,
        dropRemarks_cons_of_true remark]
    | false =>
      rw [dropRemarks_cons_of_false remark]
      cases found : p m with
      | true => simp [found, overlooks.sees]
      | false => simp [found, overlooks.sees, ih, dropRemarks_cons_of_false remark]

theorem takeWhile (overlooks : Overlooks p) (ns : List Node) :
    (dropRemarks ns).takeWhile (!p ·) = dropRemarks (ns.takeWhile (!p ·)) := by
  induction ns with
  | nil => rfl
  | cons m ms ih =>
    cases remark : isRemark m with
    | true => simp [dropRemarks_cons_of_true remark, overlooks.other m remark, ih]
    | false =>
      rw [dropRemarks_cons_of_false remark]
      cases found : p m <;> simp [found, overlooks.sees, dropRemarks_cons_of_false remark, ih]

theorem dropWhile (overlooks : Overlooks p) (ns : List Node) :
    (dropRemarks ns).dropWhile (!p ·) = dropRemarks (ns.dropWhile (!p ·)) := by
  induction ns with
  | nil => rfl
  | cons m ms ih =>
    cases remark : isRemark m with
    | true => simp [dropRemarks_cons_of_true remark, overlooks.other m remark, ih]
    | false =>
      rw [dropRemarks_cons_of_false remark]
      cases found : p m <;> simp [found, overlooks.sees, dropRemarks_cons_of_false remark, ih]

variable {f : Node → Node}

mutual
theorem updateFirst? (overlooks : Overlooks p) (remark : ∀ n, isRemark (f n) = isRemark n)
    (commutes : ∀ n, f n.withoutRemarks = (f n).withoutRemarks) : (n : Node) →
    Node.updateFirst? p f n.withoutRemarks = (Node.updateFirst? p f n).map withoutRemarks
  | ⟨_, none, _, _⟩ => rfl
  | ⟨k, some cs, v, a⟩ => by
    show (Node.updateFirstIn? p f (dropRemarks cs)).map _ =
      ((Node.updateFirstIn? p f cs).map _).map _
    rw [updateFirstIn? overlooks remark commutes cs, Option.map_map, Option.map_map]
    rfl

theorem updateFirstIn? (overlooks : Overlooks p) (remark : ∀ n, isRemark (f n) = isRemark n)
    (commutes : ∀ n, f n.withoutRemarks = (f n).withoutRemarks) : (ns : List Node) →
    Node.updateFirstIn? p f (dropRemarks ns) = (Node.updateFirstIn? p f ns).map dropRemarks
  | [] => rfl
  | n :: ns => by
    have rest := updateFirstIn? overlooks remark commutes ns
    cases isOne : isRemark n with
    | true =>
      -- There is nothing to find in a remark.
      have bare : Node.updateFirst? p f n = none := by
        obtain ⟨k, children, v, a⟩ := n
        obtain rfl := Option.isNone_iff_eq_none.1 (Bool.and_eq_true_iff.1 isOne).2
        rfl
      have dropped (ms : List Node) : dropRemarks (n :: ms) = dropRemarks ms :=
        dropRemarks_cons_of_true isOne ms
      rw [dropped, rest, Node.updateFirstIn?, overlooks.other n isOne,
        if_neg Bool.false_ne_true, bare, Option.map_map]
      exact congrArg (fun g => (Node.updateFirstIn? p f ns).map g)
        (funext fun ms => (dropped ms).symm)
    | false =>
      have kept {m : Node} (same : isRemark m = isRemark n) (ms : List Node) :
          dropRemarks (m :: ms) = m.withoutRemarks :: dropRemarks ms :=
        dropRemarks_cons_of_false (same.trans isOne) ms
      rw [kept rfl, Node.updateFirstIn?, Node.updateFirstIn?, overlooks.sees,
        updateFirst? overlooks remark commutes n]
      split
      · rw [Option.map_some, kept (remark n), commutes]
      · cases found : Node.updateFirst? p f n with
        | some m =>
          have same : isRemark m = isRemark n := by
            obtain ⟨k, children, v, a⟩ := n
            cases children with
            | none => cases found
            | some cs =>
              obtain ⟨ds, -, rfl⟩ := Option.map_eq_some_iff.1 found
              rfl
          exact congrArg some (kept same ns).symm
        | none =>
          rw [rest]
          show ((Node.updateFirstIn? p f ns).map dropRemarks).map _ = _
          rw [Option.map_map, Option.map_map]
          exact congrArg (fun g => (Node.updateFirstIn? p f ns).map g)
            (funext fun ms => (kept rfl ms).symm)
end

mutual
theorem quiet_updateFirst? (overlooks : Overlooks p) (remark : ∀ n, isRemark (f n) = isRemark n)
    (blind : ∀ n, Everywhere Quiet n → Everywhere Quiet (f n))
    (commutes : ∀ n, f n.withoutRemarks = (f n).withoutRemarks) : {n m : Node} →
    Everywhere Quiet n → Node.updateFirst? p f n = some m →
      Everywhere Quiet m ∧ isRemark m = isRemark n
  | ⟨_, none, _, _⟩, _, _, found => by cases found
  | ⟨k, some cs, v, a⟩, m, quiet, found => by
    have same := updateFirst? overlooks remark commutes ⟨k, some cs, v, a⟩
    rw [found] at same
    obtain ⟨ds, inside, rfl⟩ := Option.map_eq_some_iff.1 found
    have kids := noLouder_updateFirstIn? overlooks remark blind commutes quiet.below inside
    refine ⟨quiet_of_kids quiet.here rfl kids fun whole => ?_, rfl⟩
    rw [whole, found] at same
    exact (Option.some.inj same).symm

theorem noLouder_updateFirstIn? (overlooks : Overlooks p)
    (remark : ∀ n, isRemark (f n) = isRemark n)
    (blind : ∀ n, Everywhere Quiet n → Everywhere Quiet (f n))
    (commutes : ∀ n, f n.withoutRemarks = (f n).withoutRemarks) : {ns ms : List Node} →
    (∀ n ∈ ns, Everywhere Quiet n) → Node.updateFirstIn? p f ns = some ms → NoLouder ns ms
  | [], _, _, found => by cases found
  | n :: ns, ms, quiet, found => by
    obtain ⟨first, rest⟩ := List.forall_mem_cons.1 quiet
    have behind : NoLouder ns ns := noLouder_of_subset rest fun _ mem => mem
    simp only [Node.updateFirstIn?] at found
    split at found
    · obtain rfl := Option.some.inj found
      exact .cons (blind n first) (remark n) behind
    · split at found
      · next m inside =>
        obtain rfl := Option.some.inj found
        obtain ⟨here, same⟩ := quiet_updateFirst? overlooks remark blind commutes first inside
        exact .cons here same behind
      · obtain ⟨ds, inside, rfl⟩ := Option.map_eq_some_iff.1 found
        exact .cons first rfl
          (noLouder_updateFirstIn? overlooks remark blind commutes rest inside)
end

theorem blind_updateFirst (overlooks : Overlooks p) (remark : ∀ n, isRemark (f n) = isRemark n)
    (blind : ∀ n, Everywhere Quiet n → Everywhere Quiet (f n))
    (commutes : ∀ n, f n.withoutRemarks = (f n).withoutRemarks) {n : Node}
    (quiet : Everywhere Quiet n) : Blind (updateFirst p f) n := by
  have same := updateFirst? overlooks remark commutes n
  constructor
  · unfold updateFirst
    cases found : Node.updateFirst? p f n with
    | none => exact quiet
    | some m => exact (quiet_updateFirst? overlooks remark blind commutes quiet found).1
  · unfold updateFirst
    rw [same]
    cases Node.updateFirst? p f n <;> rfl

end Overlooks

end

theorem overlooks_is {kind : String} (other : kind ≠ "comment") : Overlooks (·.is kind) where
  sees n := by rw [is, is, kind_withoutRemarks]
  other n remark := by
    rw [is, kind_of_isRemark remark]
    exact beq_eq_false_iff_ne.2 (Ne.symm other)

section
variable {kind : String}

theorem removeNearest?_of_isRemark {n : Node} (remark : isRemark n = true) :
    removeNearest? kind n = none := by
  obtain ⟨k, children, v, a⟩ := n
  obtain rfl := Option.isNone_iff_eq_none.1 (Bool.and_eq_true_iff.1 remark).2
  rfl

theorem isRemark_of_removeNearest? {n m : Node} (found : removeNearest? kind n = some m) :
    isRemark m = isRemark n := by
  obtain ⟨k, children, v, a⟩ := n
  cases children with
  | none => cases found
  | some cs =>
    simp only [removeNearest?] at found
    split at found
    · obtain rfl := Option.some.inj found
      rfl
    · obtain ⟨ds, -, rfl⟩ := Option.map_eq_some_iff.1 found
      rfl

mutual
theorem removeNearest?_withoutRemarks (other : kind ≠ "comment") : (n : Node) →
    removeNearest? kind n.withoutRemarks = (removeNearest? kind n).map withoutRemarks
  | ⟨_, none, _, _⟩ => rfl
  | ⟨k, some cs, v, a⟩ => by
    have overlooks := overlooks_is other
    show removeNearest? kind ⟨k, some (dropRemarks cs), v, a⟩ = _
    rw [removeNearest?, removeNearest?, overlooks.any, overlooks.eraseP]
    split
    · rfl
    · rw [removeNearestIn?_dropRemarks other cs, Option.map_map, Option.map_map]
      rfl

theorem removeNearestIn?_dropRemarks (other : kind ≠ "comment") : (ns : List Node) →
    removeNearestIn? kind (dropRemarks ns) = (removeNearestIn? kind ns).map dropRemarks
  | [] => rfl
  | n :: ns => by
    have rest := removeNearestIn?_dropRemarks other ns
    cases isOne : isRemark n with
    | true =>
      have dropped (ms : List Node) : dropRemarks (n :: ms) = dropRemarks ms :=
        dropRemarks_cons_of_true isOne ms
      rw [dropped, rest, removeNearestIn?, removeNearest?_of_isRemark isOne, Option.map_map]
      exact congrArg (fun g => (removeNearestIn? kind ns).map g)
        (funext fun ms => (dropped ms).symm)
    | false =>
      have kept {m : Node} (same : isRemark m = isRemark n) (ms : List Node) :
          dropRemarks (m :: ms) = m.withoutRemarks :: dropRemarks ms :=
        dropRemarks_cons_of_false (same.trans isOne) ms
      rw [kept rfl, removeNearestIn?, removeNearestIn?, removeNearest?_withoutRemarks other n]
      cases found : removeNearest? kind n with
      | some m => exact congrArg some (kept (isRemark_of_removeNearest? found) ns).symm
      | none =>
        rw [rest]
        show ((removeNearestIn? kind ns).map dropRemarks).map _ = _
        rw [Option.map_map, Option.map_map]
        exact congrArg (fun g => (removeNearestIn? kind ns).map g)
          (funext fun ms => (kept rfl ms).symm)
end

mutual
theorem quiet_removeNearest? (other : kind ≠ "comment") : {n m : Node} →
    Everywhere Quiet n → removeNearest? kind n = some m → Everywhere Quiet m
  | ⟨_, none, _, _⟩, _, _, found => by cases found
  | ⟨k, some cs, v, a⟩, m, quiet, found => by
    have same := removeNearest?_withoutRemarks other ⟨k, some cs, v, a⟩
    have whole (whole : (⟨k, some cs, v, a⟩ : Node).withoutRemarks = ⟨k, some cs, v, a⟩) :
        m.withoutRemarks = m := by
      rw [found, whole, found] at same
      exact (Option.some.inj same).symm
    simp only [removeNearest?] at found
    split at found
    · obtain rfl := Option.some.inj found
      exact quiet_of_kids quiet.here rfl
        (noLouder_of_subset quiet.below fun _ mem => List.mem_of_mem_eraseP mem) whole
    · obtain ⟨ds, inside, rfl⟩ := Option.map_eq_some_iff.1 found
      exact quiet_of_kids quiet.here rfl (noLouder_removeNearestIn? other quiet.below inside) whole

theorem noLouder_removeNearestIn? (other : kind ≠ "comment") : {ns ms : List Node} →
    (∀ n ∈ ns, Everywhere Quiet n) → removeNearestIn? kind ns = some ms → NoLouder ns ms
  | [], _, _, found => by cases found
  | n :: ns, ms, quiet, found => by
    obtain ⟨first, rest⟩ := List.forall_mem_cons.1 quiet
    simp only [removeNearestIn?] at found
    split at found
    · next m inside =>
      obtain rfl := Option.some.inj found
      exact .cons (quiet_removeNearest? other first inside) (isRemark_of_removeNearest? inside)
        (noLouder_of_subset rest fun _ mem => mem)
    · obtain ⟨ds, inside, rfl⟩ := Option.map_eq_some_iff.1 found
      exact .cons first rfl (noLouder_removeNearestIn? other rest inside)
end

theorem blind_removeNearest (other : kind ≠ "comment") {n : Node} (quiet : Everywhere Quiet n) :
    Blind (removeNearest kind) n := by
  have same := removeNearest?_withoutRemarks other n
  constructor
  · unfold removeNearest
    cases found : removeNearest? kind n with
    | none => exact quiet
    | some m => exact quiet_removeNearest? other quiet found
  · unfold removeNearest
    rw [same]
    cases removeNearest? kind n <;> rfl

end

end Manuscript.Node
