import Manuscript.Text.Search
import Mathlib.Data.List.Infix

/-!
Texts cut at marks. The parts are what stands between the marks, so that parts without marks that
are put together with marks between them are found again.
-/

set_option autoImplicit false

namespace Manuscript.Text

variable {p : Char → Bool} {cs : List Char}

theorem splitWhere_ne_nil : splitWhere p cs ≠ [] := by
  cases cs with
  | nil => exact List.cons_ne_nil _ _
  | cons c cs =>
    rw [splitWhere]
    split
    · exact List.cons_ne_nil _ _
    · split <;> exact List.cons_ne_nil _ _

theorem splitWhere_append {c : Char} (sep : p c = true) (xs ys : List Char) :
    splitWhere p (xs ++ c :: ys) = splitWhere p xs ++ splitWhere p ys := by
  induction xs with
  | nil => simp [splitWhere, sep]
  | cons x xs ih =>
    rw [List.cons_append, splitWhere, splitWhere, ih]
    split
    · rfl
    · cases parts : splitWhere p xs with
      | nil => exact absurd parts splitWhere_ne_nil
      | cons part rest => rfl

theorem splitWhere_of_none (free : ∀ c ∈ cs, p c = false) : splitWhere p cs = [cs] := by
  induction cs with
  | nil => rfl
  | cons c cs ih =>
    obtain ⟨first, rest⟩ := List.forall_mem_cons.1 free
    rw [splitWhere, if_neg (by simp [first]), ih rest]

theorem not_of_mem_splitWhere {part : List Char} (mem : part ∈ splitWhere p cs) :
    ∀ c ∈ part, p c = false := by
  induction cs generalizing part with
  | nil =>
    rw [splitWhere, List.mem_singleton] at mem
    rw [mem]
    exact List.forall_mem_nil _
  | cons c cs ih =>
    rw [splitWhere] at mem
    split at mem
    · rcases List.mem_cons.1 mem with rfl | mem
      · exact List.forall_mem_nil _
      · exact ih mem
    · next letter =>
      have first : p c = false := by simpa using letter
      split at mem
      · next head rest parts =>
        rw [parts] at ih
        rcases List.mem_cons.1 mem with rfl | mem
        · exact List.forall_mem_cons.2 ⟨first, ih List.mem_cons_self⟩
        · exact ih (List.mem_cons_of_mem _ mem)
      · rw [List.mem_singleton.1 mem]
        exact List.forall_mem_singleton.2 first

theorem eq_of_cutAt {stop : Char} {before after : List Char}
    (cut : cutAt stop cs = some (before, after)) : cs = before ++ stop :: after := by
  induction cs generalizing before with
  | nil => cases cut
  | cons c cs ih =>
    rw [cutAt] at cut
    split at cut
    · next here =>
      cases cut
      rw [here, List.nil_append]
    · obtain ⟨⟨b, a⟩, found, same⟩ := Option.map_eq_some_iff.1 cut
      cases same
      rw [ih found, List.cons_append]

/-- The first part is all of the text, or a mark stands behind it and the other parts are those of
the rest. -/
theorem eq_of_splitWhere {part : List Char} {parts : List (List Char)}
    (split : splitWhere p cs = part :: parts) : (cs = part ∧ parts = []) ∨
      ∃ c rest, p c = true ∧ cs = part ++ c :: rest ∧ splitWhere p rest = parts := by
  induction cs generalizing part with
  | nil =>
    obtain ⟨rfl, rfl⟩ := List.cons.inj split
    exact .inl ⟨rfl, rfl⟩
  | cons c cs ih =>
    rw [splitWhere] at split
    split at split
    · next mark =>
      obtain ⟨rfl, rfl⟩ := List.cons.inj split
      exact .inr ⟨c, cs, mark, rfl, rfl⟩
    · split at split
      · next first others found =>
        obtain ⟨rfl, rfl⟩ := List.cons.inj split
        rcases ih found with ⟨rfl, none⟩ | ⟨d, rest, mark, rfl, later⟩
        · exact .inl ⟨rfl, none⟩
        · exact .inr ⟨d, rest, mark, rfl, later⟩
      · next none => exact absurd none splitWhere_ne_nil

theorem splitWhere_eq_pair_iff {front back : List Char} :
    splitWhere p cs = [front, back] ↔ ∃ c, p c = true ∧ cs = front ++ c :: back ∧
      (∀ d ∈ front, p d = false) ∧ ∀ d ∈ back, p d = false := by
  constructor
  · intro split
    have free {part : List Char} (mem : part ∈ [front, back]) : ∀ d ∈ part, p d = false :=
      not_of_mem_splitWhere (split ▸ mem)
    rcases eq_of_splitWhere split with ⟨-, none⟩ | ⟨c, rest, mark, rfl, last⟩
    · cases none
    · rcases eq_of_splitWhere last with ⟨rfl, -⟩ | ⟨d, more, -, -, none⟩
      · exact ⟨c, mark, rfl, free (by simp), free (by simp)⟩
      · exact absurd none splitWhere_ne_nil
  · rintro ⟨c, mark, rfl, free, free'⟩
    rw [splitWhere_append mark, splitWhere_of_none free, splitWhere_of_none free']
    rfl

theorem splitWhere_intercalate {sep : Char} {parts : List (List Char)} (some : parts ≠ [])
    (free : ∀ part ∈ parts, ∀ c ∈ part, (c == sep) = false) :
    splitWhere (· == sep) ([sep].intercalate parts) = parts := by
  induction parts with
  | nil => exact absurd rfl some
  | cons part parts ih =>
    obtain ⟨first, others⟩ := List.forall_mem_cons.1 free
    cases parts with
    | nil => simpa using splitWhere_of_none first
    | cons next parts =>
      rw [List.intercalate_cons_cons, List.append_assoc, List.singleton_append,
        splitWhere_append (by simp), splitWhere_of_none first, ih (List.cons_ne_nil _ _) others]
      rfl

/-! ### Texts that are put in front and behind -/

theorem splitWhere_append_left {front part : List Char} {parts : List (List Char)}
    (free : ∀ c ∈ front, p c = false) (split : splitWhere p cs = part :: parts) :
    splitWhere p (front ++ cs) = (front ++ part) :: parts := by
  induction front with
  | nil => exact split
  | cons c front ih =>
    obtain ⟨first, others⟩ := List.forall_mem_cons.1 free
    rw [List.cons_append, splitWhere, if_neg (by simp [first]), ih others]
    rfl

theorem splitWhere_append_right {back part : List Char} {parts : List (List Char)}
    (free : ∀ c ∈ back, p c = false) (split : splitWhere p cs = parts ++ [part]) :
    splitWhere p (cs ++ back) = parts ++ [part ++ back] := by
  induction parts generalizing cs with
  | nil =>
    have whole : ∀ c ∈ part, p c = false := not_of_mem_splitWhere (by rw [split]; simp)
    rcases eq_of_splitWhere split with ⟨rfl, -⟩ | ⟨c, rest, -, -, none⟩
    · exact splitWhere_of_none (List.forall_mem_append.2 ⟨whole, free⟩)
    · exact absurd none splitWhere_ne_nil
  | cons first parts ih =>
    have plain : ∀ c ∈ first, p c = false := not_of_mem_splitWhere (by rw [split]; simp)
    rcases eq_of_splitWhere split with ⟨-, none⟩ | ⟨c, rest, mark, rfl, others⟩
    · exact absurd none (by simp)
    · rw [List.append_assoc, List.cons_append, splitWhere_append mark, splitWhere_of_none plain,
        ih others]
      rfl

/-! ### The first mark -/

theorem cutAt_append {stop : Char} (free : ∀ c ∈ cs, c ≠ stop) (rest : List Char) :
    cutAt stop (cs ++ stop :: rest) = some (cs, rest) := by
  induction cs with
  | nil => simp [cutAt]
  | cons c cs ih =>
    obtain ⟨first, others⟩ := List.forall_mem_cons.1 free
    simp [cutAt, first, ih others]

theorem ne_of_mem_of_cutAt {stop : Char} {before after : List Char}
    (cut : cutAt stop cs = some (before, after)) : ∀ c ∈ before, c ≠ stop := by
  induction cs generalizing before after with
  | nil => cases cut
  | cons c cs ih =>
    rw [cutAt] at cut
    split at cut
    · cases cut
      exact List.forall_mem_nil _
    · next other =>
      obtain ⟨⟨front, back⟩, found, same⟩ := Option.map_eq_some_iff.1 cut
      cases same
      exact List.forall_mem_cons.2 ⟨other, ih found⟩

theorem ne_of_mem_of_cutAt_eq_none {stop : Char} (cut : cutAt stop cs = none) :
    ∀ c ∈ cs, c ≠ stop := by
  induction cs with
  | nil => exact List.forall_mem_nil _
  | cons c cs ih =>
    rw [cutAt] at cut
    split at cut
    · cases cut
    · next other => exact List.forall_mem_cons.2 ⟨other, ih (Option.map_eq_none_iff.1 cut)⟩

end Manuscript.Text
