import Manuscript.Report
import Manuscript.Tree.Search

/-!
What the elements of an article contribute to a document: nodes and remarks. Contributions are
joined in order, and text that meets text becomes one node.
-/

set_option autoImplicit false

namespace Manuscript.Myst

def extendText (n : Node) (s : String) : Node := { n with value := some (n.value.getD "" ++ s) }

/-- One forest behind the other. If text stands on both sides of the seam, the right text becomes
part of the left. -/
def joinForests : List Node → List Node → List Node
  | [], ys => ys
  | [x], y :: ys =>
    if x.isText && y.isText then extendText x (y.value.getD "") :: ys else x :: y :: ys
  | x :: xs, ys => x :: joinForests xs ys

@[simp] theorem joinForests_nil_left (ys : List Node) : joinForests [] ys = ys := rfl

theorem joinForests_singleton (x y : Node) (ys : List Node) : joinForests [x] (y :: ys) =
    if x.isText && y.isText then extendText x (y.value.getD "") :: ys else x :: y :: ys := rfl

theorem joinForests_cons_cons (x y : Node) (xs ys : List Node) :
    joinForests (x :: y :: xs) ys = x :: joinForests (y :: xs) ys := rfl

@[simp] theorem joinForests_nil_right (xs : List Node) : joinForests xs [] = xs := by
  induction xs with
  | nil => rfl
  | cons x xs ih =>
    cases xs with
    | nil => rfl
    | cons y xs => rw [joinForests_cons_cons, ih]

/-- A node that is no text keeps what is before it from a seam behind, and the other way round. -/
theorem joinForests_before {n : Node} (other : n.isText = false) (xs ys zs : List Node) :
    joinForests (xs ++ n :: ys) zs = xs ++ n :: joinForests ys zs := by
  induction xs with
  | nil =>
    cases ys with
    | nil => cases zs <;> simp [joinForests_singleton, other]
    | cons y ys => rfl
  | cons x xs ih =>
    rw [List.cons_append, List.cons_append, ← ih]
    cases xs <;> rfl

theorem joinForests_behind {n : Node} (other : n.isText = false) (xs ys zs : List Node) :
    joinForests zs (xs ++ n :: ys) = joinForests zs xs ++ n :: ys := by
  induction zs with
  | nil => rfl
  | cons z zs ih =>
    cases zs with
    | nil =>
      cases xs with
      | nil => simp [joinForests_singleton, other]
      | cons x xs =>
        rw [List.cons_append, joinForests_singleton, joinForests_singleton]
        split <;> rfl
    | cons y zs => exact congrArg (z :: ·) ih

theorem joinForests_concat (xs ys : List Node) (x y : Node) :
    joinForests (xs ++ [x]) (y :: ys) =
      if x.isText && y.isText then xs ++ extendText x (y.value.getD "") :: ys
      else xs ++ x :: y :: ys := by
  induction xs with
  | nil => exact joinForests_singleton x y ys
  | cons k xs ih =>
    have grown : joinForests (k :: (xs ++ [x])) (y :: ys) =
        k :: joinForests (xs ++ [x]) (y :: ys) := by
      cases xs <;> exact joinForests_cons_cons ..
    rw [List.cons_append, grown, ih]
    split <;> rfl

theorem joinForests_eq_nil_iff {xs ys : List Node} :
    joinForests xs ys = [] ↔ xs = [] ∧ ys = [] := by
  match xs, ys with
  | [], ys => simp
  | [x], [] => simp
  | [x], y :: ys =>
    rw [joinForests_singleton]
    split <;> simp
  | x :: y :: xs, ys => simp [joinForests_cons_cons]

theorem joinForests_assoc (xs ys zs : List Node) :
    joinForests (joinForests xs ys) zs = joinForests xs (joinForests ys zs) := by
  induction xs with
  | nil => simp
  | cons x xs ih =>
    cases xs with
    | cons x' xs =>
      rw [joinForests_cons_cons, joinForests_cons_cons, ← ih]
      cases grown : joinForests (x' :: xs) ys with
      | nil => exact absurd (joinForests_eq_nil_iff.1 grown).1 (by simp)
      | cons k ks => exact joinForests_cons_cons x k ks zs
    | nil =>
      match ys with
      | [] => simp
      | [y] =>
        cases zs with
        | nil => simp
        | cons z zs =>
          cases left : x.isText <;> cases mid : y.isText <;> cases right : z.isText <;>
            simp_all [joinForests_singleton, joinForests_cons_cons, extendText, Node.isText,
              String.append_assoc]
      | y :: y' :: ys =>
        rw [joinForests_cons_cons, joinForests_singleton, joinForests_singleton]
        split
        · exact joinForests_cons_cons ..
        · rw [joinForests_cons_cons, joinForests_cons_cons]

theorem mem_joinForests {xs ys : List Node} {m : Node} (mem : m ∈ joinForests xs ys) :
    m ∈ xs ∨ m ∈ ys ∨ ∃ x ∈ xs, ∃ s, x.isText = true ∧ m = extendText x s := by
  fun_induction joinForests xs ys with
  | case1 ys => exact .inr (.inl mem)
  | case2 x y ys texts =>
    simp only [Bool.and_eq_true] at texts
    rcases List.mem_cons.1 mem with rfl | mem
    · exact .inr (.inr ⟨x, List.mem_cons_self, _, texts.1, rfl⟩)
    · exact .inr (.inl (List.mem_cons_of_mem _ mem))
  | case3 x y ys apart =>
    rcases List.mem_cons.1 mem with rfl | mem
    · exact .inl List.mem_cons_self
    · exact .inr (.inl mem)
  | case4 x xs ys _ ih =>
    rcases List.mem_cons.1 mem with rfl | mem
    · exact .inl List.mem_cons_self
    · rcases ih mem with place | place | ⟨y, place, s, text, same⟩
      · exact .inl (List.mem_cons_of_mem _ place)
      · exact .inr (.inl place)
      · exact .inr (.inr ⟨y, List.mem_cons_of_mem _ place, s, text, same⟩)

/-- Two forests meet without a seam, or the last text of one and the first of the other become one
text. -/
theorem joinForests_cases (xs ys : List Node) :
    joinForests xs ys = xs ++ ys ∨ ∃ front last first back, xs = front ++ [last] ∧
      ys = first :: back ∧ last.isText = true ∧ first.isText = true ∧
      joinForests xs ys = front ++ extendText last (first.value.getD "") :: back := by
  rcases List.eq_nil_or_concat xs with rfl | ⟨front, last, rfl⟩
  · exact .inl (joinForests_nil_left ys)
  · cases ys with
    | nil => exact .inl (by simp)
    | cons first back =>
      rw [List.concat_eq_append, joinForests_concat]
      cases texts : last.isText && first.isText with
      | false => exact .inl (by simp)
      | true =>
        rw [Bool.and_eq_true] at texts
        exact .inr ⟨front, last, first, back, rfl, rfl, texts.1, texts.2, rfl⟩

structure Emission where
  forest : List Node
  report : Report

namespace Emission

def empty : Emission := ⟨[], .empty⟩

def join (a b : Emission) : Emission :=
  ⟨joinForests a.forest b.forest, a.report.append b.report⟩

def ofNode (n : Node) : Emission := ⟨[n], .empty⟩

def ofText (s : String) : Emission := if s.isEmpty then empty else ofNode (.text s)

def ofReport (r : Report) : Emission := ⟨[], r⟩

def wrap (kind : String) (attrs : Attrs) (inner : Emission) : Emission :=
  ⟨[.branch kind inner.forest attrs], inner.report⟩

theorem join_assoc (a b c : Emission) : (a.join b).join c = a.join (b.join c) := by
  simp only [join, joinForests_assoc, Report.append_assoc]

theorem empty_join (a : Emission) : empty.join a = a := by
  simp [join, empty]

end Emission

end Manuscript.Myst
