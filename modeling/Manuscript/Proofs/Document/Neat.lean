import Manuscript.Proofs.Document.WellFormed
import Manuscript.Proofs.Emission.Closure

/-!
Texts that are neither empty nor next to each other. Emission joins texts where they meet, and no
rule of grouping brings two of them together.
-/

set_option autoImplicit false

namespace Manuscript.Myst

open Manuscript.Node

/-- Whether no text of a list stands next to another. -/
def TextsApart (ns : List Node) : Prop :=
  ∀ t u, [t, u] <:+: ns → t.isText = true → u.isText = false

/-- Whether the texts of a list are not empty and do not meet. -/
structure Neat (ns : List Node) : Prop where
  filled : ∀ n ∈ ns, isEmptyText n = false
  apart : TextsApart ns

/-- Whether a list starts with a text. -/
def StartsInText (ns : List Node) : Prop := ∃ n ∈ ns.head?, n.isText = true

/-- Whether the children of a node and of all nodes below it are neat. -/
def NeatTree (n : Node) : Prop := Everywhere (fun m => Neat m.kids) n

theorem isEmptyText_of_not_isText {n : Node} (other : n.isText = false) :
    isEmptyText n = false := by
  rw [isEmptyText, other, Bool.false_and]

theorem neat_nil : Neat [] :=
  ⟨List.forall_mem_nil _, fun _ _ next => absurd (List.infix_nil.1 next) (List.cons_ne_nil _ _)⟩

theorem neat_cons_iff {n : Node} {ns : List Node} :
    Neat (n :: ns) ↔ isEmptyText n = false ∧ (n.isText = true → ¬StartsInText ns) ∧ Neat ns := by
  constructor
  · rintro ⟨filled, apart⟩
    obtain ⟨first, rest⟩ := List.forall_mem_cons.1 filled
    refine ⟨first, ?_, rest, fun t u next => apart t u (List.infix_cons_iff.2 (.inr next))⟩
    rintro text ⟨m, front, text'⟩
    obtain ⟨tail, rfl⟩ := List.head?_eq_some_iff.1 front
    exact absurd (text'.symm.trans (apart n m ⟨[], tail, rfl⟩ text)) (by decide)
  · rintro ⟨first, next, rest, later⟩
    refine ⟨List.forall_mem_cons.2 ⟨first, rest⟩, fun t u pair text => ?_⟩
    rcases infix_pair_cons pair with ⟨rfl, tail, rfl⟩ | pair
    · rw [← Bool.not_eq_true]
      exact fun text' => next text ⟨u, rfl, text'⟩
    · exact later t u pair text

theorem startsInText_cons_iff {n : Node} {ns : List Node} :
    StartsInText (n :: ns) ↔ n.isText = true := by
  simp [StartsInText]

theorem neatTree_of_kids {n : Node} (here : Neat n.kids) (below : ∀ c ∈ n.kids, NeatTree c) :
    NeatTree n :=
  everywhere_iff.2 ⟨here, below⟩

/-! ### Emission -/

theorem startsInText_joinForests {x : Node} {xs ys : List Node}
    (starts : StartsInText (joinForests (x :: xs) ys)) : x.isText = true := by
  cases xs with
  | cons y xs => exact startsInText_cons_iff.1 starts
  | nil =>
    cases ys with
    | nil => exact startsInText_cons_iff.1 starts
    | cons y ys =>
      rw [joinForests] at starts
      split at starts
      · next texts => exact (Bool.and_eq_true_iff.1 texts).1
      · exact startsInText_cons_iff.1 starts

theorem neat_joinForests {xs ys : List Node} (left : Neat xs) (right : Neat ys) :
    Neat (joinForests xs ys) := by
  fun_induction joinForests xs ys with
  | case1 ys => exact right
  | case2 x y ys texts =>
    rw [Bool.and_eq_true] at texts
    obtain ⟨some, -, -⟩ := neat_cons_iff.1 left
    obtain ⟨-, next, rest⟩ := neat_cons_iff.1 right
    exact neat_cons_iff.2 ⟨isEmptyText_extendText _ texts.1 some, fun _ => next texts.2, rest⟩
  | case3 x y ys apart =>
    obtain ⟨some, -, -⟩ := neat_cons_iff.1 left
    refine neat_cons_iff.2 ⟨some, fun text starts => apart ?_, right⟩
    rw [text, startsInText_cons_iff.1 starts]
    rfl
  | case4 x xs ys seam ih =>
    obtain ⟨some, next, rest⟩ := neat_cons_iff.1 left
    refine neat_cons_iff.2 ⟨some, fun text starts => ?_, ih rest right⟩
    cases xs with
    | cons y xs => exact next text (startsInText_cons_iff.2 (startsInText_joinForests starts))
    | nil =>
      -- Only where the second forest is empty a single node is passed by.
      cases ys with
      | nil => simp [StartsInText] at starts
      | cons y ys => exact seam y ys rfl rfl

theorem neatTree_extendText {t : Node} (s : String) (tree : NeatTree t) :
    NeatTree (extendText t s) :=
  everywhere_iff.2 ⟨tree.here, tree.below⟩

theorem neatTree_leaf {n : Node} (leaf : n.kids = []) : NeatTree n := by
  refine neatTree_of_kids ?_ ?_
  · rw [leaf]; exact neat_nil
  · rw [leaf]; exact List.forall_mem_nil _

/-- Whether a contribution is neat, with all that is below its nodes. -/
def Emission.IsNeat (e : Emission) : Prop := Neat e.forest ∧ ∀ n ∈ e.forest, NeatTree n

theorem closed_isNeat : Emission.Closed Emission.IsNeat := by
  have single {n : Node} (filled : isEmptyText n = false) (tree : NeatTree n) :
      (Emission.ofNode n).IsNeat := by
    refine ⟨neat_cons_iff.2 ⟨filled, fun _ => ?_, neat_nil⟩, List.forall_mem_singleton.2 tree⟩
    simp [StartsInText]
  constructor
  case empty => exact ⟨neat_nil, List.forall_mem_nil _⟩
  case ofReport => exact fun _ => ⟨neat_nil, List.forall_mem_nil _⟩
  case ofText =>
    intro s
    unfold Emission.ofText
    split
    · exact ⟨neat_nil, List.forall_mem_nil _⟩
    · next some =>
      refine single ?_ (neatTree_leaf rfl)
      simpa [isEmptyText, isText, text, scalar] using some
  case ofNode =>
    intro n other leaf
    refine single (isEmptyText_of_not_isText (beq_eq_false_iff_ne.2 other)) (neatTree_leaf ?_)
    rw [kids, leaf]
    rfl
  case wrap =>
    rintro kind attrs e other ⟨neat, below⟩
    refine single (isEmptyText_of_not_isText ?_) (neatTree_of_kids neat below)
    exact beq_eq_false_iff_ne.2 other
  -- Only the seam is new: texts that meet there become one, which is not empty either.
  case join =>
    rintro a b ⟨left, above⟩ ⟨right, below⟩
    refine ⟨neat_joinForests left right, fun m mem => ?_⟩
    rcases mem_joinForests mem with place | place | ⟨x, place, s, -, rfl⟩
    · exact above m place
    · exact below m place
    · exact neatTree_extendText s (above x place)

/-- Texts of a rendered document are neither empty nor next to each other. -/
theorem neatTree_emit (formulas : Formula.Converter) (tree : Node) :
    NeatTree (emit formulas tree).1 := by
  rw [emit_fst]
  obtain ⟨neat, below⟩ := closed_isNeat.renderAll ⟨formulas, false⟩ tree.kids
  exact neatTree_of_kids neat below

end Manuscript.Myst
