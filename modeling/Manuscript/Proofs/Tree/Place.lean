import Manuscript.Tree.Node

/-!
Places in a tree. A place is the way down to a node, by the indices of the children to follow. What
a tree gains when nodes are put into it is a list of spots: new places, with what stands there.
-/

set_option autoImplicit false

namespace Manuscript.Node

/-- The node at a place, if the tree has the place. -/
def at? (n : Node) : List Nat → Option Node
  | [] => some n
  | i :: place => (n.kids[i]?).bind (·.at? place)

/-- A place with the kind and the attributes of a node. -/
structure Spot where
  place : List Nat
  kind : String
  attrs : Attrs

namespace Spot

/-- Whether a node of the kind and with the attributes of the spot stands at its place. -/
def In (s : Spot) (tree : Node) : Prop :=
  ∃ n, tree.at? s.place = some n ∧ n.kind = s.kind ∧ n.attrs = s.attrs

/-- The spot in a tree that has the tree of the spot at a place. -/
def under (place : List Nat) (s : Spot) : Spot := { s with place := place ++ s.place }

@[simp] theorem under_nil (s : Spot) : s.under [] = s := rfl

theorem under_under (outer inner : List Nat) (s : Spot) :
    (s.under inner).under outer = s.under (outer ++ inner) := by
  simp [under]

theorem in_nil_iff {n : Node} {kind : String} {attrs : Attrs} :
    In ⟨[], kind, attrs⟩ n ↔ n.kind = kind ∧ n.attrs = attrs := by
  simp [In, at?]

theorem in_cons_iff {n : Node} {i : Nat} {place : List Nat} {kind : String} {attrs : Attrs} :
    In ⟨i :: place, kind, attrs⟩ n ↔ ∃ c, n.kids[i]? = some c ∧ In ⟨place, kind, attrs⟩ c := by
  simp only [In, at?, Option.bind_eq_some_iff]
  constructor
  · rintro ⟨m, ⟨c, child, found⟩, same⟩
    exact ⟨c, child, m, found, same⟩
  · rintro ⟨c, child, m, found, same⟩
    exact ⟨m, ⟨c, child, found⟩, same⟩

end Spot

/-- A node is another node with one child more, behind the children that it had. -/
structure HasLast (n b l : Node) : Prop where
  kind : n.kind = b.kind
  attrs : n.attrs = b.attrs
  kids : n.kids = b.kids ++ [l]

namespace HasLast

variable {n b l : Node} (last : n.HasLast b l)
include last

theorem at?_last (place : List Nat) : n.at? (b.kids.length :: place) = l.at? place := by
  rw [at?, last.kids, List.getElem?_concat_length]
  rfl

theorem in_iff {s : Spot} : s.In n ↔
    s.In b ∨ ∃ place, s.place = b.kids.length :: place ∧ Spot.In ⟨place, s.kind, s.attrs⟩ l := by
  obtain ⟨path, kind, attrs⟩ := s
  cases path with
  | nil => simp [Spot.in_nil_iff, last.kind, last.attrs]
  | cons i place =>
    simp only [Spot.in_cons_iff, last.kids, List.getElem?_append, List.cons.injEq]
    by_cases old : i < b.kids.length
    · simp [old, Nat.ne_of_lt old]
    · rw [if_neg old, List.getElem?_eq_none (Nat.le_of_not_lt old)]
      by_cases here : i = b.kids.length
      · simp [here]
      · have beyond : b.kids.length < i :=
          Nat.lt_of_le_of_ne (Nat.le_of_not_lt old) (Ne.symm here)
        simp [here, Nat.sub_eq_zero_iff_le, beyond]

end HasLast

/-- A tree keeps its spots and gets new ones at places that it did not have. Besides these it gets
nothing but texts. -/
structure Gains (n m : Node) (new : List Spot) : Prop where
  kept : ∀ s : Spot, s.In n → s.In m
  fresh : ∀ s ∈ new, n.at? s.place = none
  stands : ∀ s ∈ new, s.In m
  distinct : (new.map (·.place)).Nodup
  only : ∀ s : Spot, s.In m → s.In n ∨ s.kind = "text" ∨ s ∈ new

namespace Gains

variable {l m n : Node} {new more : List Spot}

theorem refl (n : Node) : Gains n n [] :=
  ⟨fun _ here => here, List.forall_mem_nil _, List.forall_mem_nil _, .nil, fun _ here => .inl here⟩

theorem of_same {x y : Node} (kind : y.kind = x.kind) (attrs : y.attrs = x.attrs)
    (kids : y.kids = x.kids) : Gains x y [] := by
  have same (s : Spot) : s.In y ↔ s.In x := by
    obtain ⟨place, k, a⟩ := s
    cases place with
    | nil => rw [Spot.in_nil_iff, Spot.in_nil_iff, kind, attrs]
    | cons i place => rw [Spot.in_cons_iff, Spot.in_cons_iff, kids]
  exact ⟨fun s => (same s).2, List.forall_mem_nil _, List.forall_mem_nil _, .nil,
    fun s here => .inl ((same s).1 here)⟩

theorem trans (first : Gains l m new) (second : Gains m n more) : Gains l n (new ++ more) := by
  -- A spot that is new in the second step is not in the tree in between, so it was not before.
  have apart : ∀ s ∈ more, l.at? s.place = none := by
    intro s mem
    cases found : l.at? s.place with
    | none => rfl
    | some k =>
      obtain ⟨k', found', -⟩ := first.kept ⟨s.place, k.kind, k.attrs⟩ ⟨k, found, rfl, rfl⟩
      exact absurd (found'.symm.trans (second.fresh s mem)) (by simp)
  constructor
  case kept => exact fun s here => second.kept s (first.kept s here)
  case fresh => exact List.forall_mem_append.2 ⟨first.fresh, apart⟩
  case stands => exact List.forall_mem_append.2 ⟨fun s mem => second.kept s (first.stands s mem),
    second.stands⟩
  case distinct =>
    rw [List.map_append]
    refine List.nodup_append.2 ⟨first.distinct, second.distinct, ?_⟩
    refine List.forall_mem_map.2 fun s mem => List.forall_mem_map.2 fun t mem' same => ?_
    obtain ⟨k, found, -⟩ := first.stands s mem
    have missing := second.fresh t mem'
    rw [← same, found] at missing
    exact absurd missing (by simp)
  case only =>
    intro s here
    rcases second.only s here with middle | text | mem
    · rcases first.only s middle with start | text | mem
      · exact .inl start
      · exact .inr (.inl text)
      · exact .inr (.inr (List.mem_append_left _ mem))
    · exact .inr (.inl text)
    · exact .inr (.inr (List.mem_append_right _ mem))

/-- What is gained by the last child of a node is gained by the node. -/
theorem of_last {b x y : Node} (gains : Gains l m new) (before : x.HasLast b l)
    (after : y.HasLast b m) : Gains x y (new.map (Spot.under [b.kids.length])) := by
  constructor
  case kept =>
    intro s here
    rw [after.in_iff]
    rcases before.in_iff.1 here with other | ⟨place, same, below⟩
    · exact .inl other
    · exact .inr ⟨place, same, gains.kept _ below⟩
  case fresh =>
    refine List.forall_mem_map.2 fun s mem => ?_
    show x.at? (b.kids.length :: s.place) = none
    rw [before.at?_last]
    exact gains.fresh s mem
  case stands =>
    exact List.forall_mem_map.2 fun s mem =>
      after.in_iff.2 (.inr ⟨s.place, rfl, gains.stands s mem⟩)
  case distinct =>
    have places : (new.map (Spot.under [b.kids.length])).map (·.place) =
        (new.map (·.place)).map (b.kids.length :: ·) := by
      simp [Function.comp_def, Spot.under]
    rw [places]
    exact List.Pairwise.map _ (fun _ _ apart same => apart (List.cons.inj same).2) gains.distinct
  -- A spot of the new tree is of the common part or of the last child, where `gains` knows it.
  case only =>
    rintro ⟨path, kind, attrs⟩ here
    rw [before.in_iff]
    rcases after.in_iff.1 here with other | ⟨place, rfl, below⟩
    · exact .inl (.inl other)
    · rcases gains.only _ below with start | text | mem
      · exact .inl (.inr ⟨place, rfl, start⟩)
      · exact .inr (.inl text)
      · exact .inr (.inr (List.mem_map_of_mem (f := Spot.under [b.kids.length]) mem))

theorem of_leaf {b x : Node} (last : x.HasLast b l) (leaf : l.kids = []) :
    Gains b x [⟨[b.kids.length], l.kind, l.attrs⟩] := by
  have spot {place : List Nat} {kind : String} {attrs : Attrs} :
      Spot.In ⟨place, kind, attrs⟩ l ↔ place = [] ∧ l.kind = kind ∧ l.attrs = attrs := by
    cases place with
    | nil => simp [Spot.in_nil_iff]
    | cons i place => simp [Spot.in_cons_iff, leaf]
  constructor
  case kept => exact fun s here => last.in_iff.2 (.inl here)
  case fresh => simp [at?]
  case stands =>
    exact List.forall_mem_singleton.2 (last.in_iff.2 (.inr ⟨[], rfl, spot.2 (by simp)⟩))
  case distinct => simp
  case only =>
    rintro ⟨path, kind, attrs⟩ here
    rcases last.in_iff.1 here with other | ⟨place, rfl, below⟩
    · exact .inl other
    · obtain ⟨rfl, rfl, rfl⟩ := spot.1 below
      exact .inr (.inr List.mem_cons_self)

theorem of_text (gains : Gains l m new) (texts : ∀ s ∈ new, s.kind = "text") : Gains l m [] where
  kept := gains.kept
  fresh := List.forall_mem_nil _
  stands := List.forall_mem_nil _
  distinct := .nil
  only s here := by
    rcases gains.only s here with start | text | mem
    · exact .inl start
    · exact .inr (.inl text)
    · exact .inr (.inl (texts s mem))

end Gains

end Manuscript.Node
