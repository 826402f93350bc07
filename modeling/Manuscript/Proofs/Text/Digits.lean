import Manuscript.Text.Blank
import Manuscript.Text.Letter
import Mathlib.Data.Nat.Digits.Defs

/-!
Numbers as digits. A number that is written with a least number of places is read as itself, and it
has just these places exactly if it is small enough for them.
-/

set_option autoImplicit false

namespace Manuscript.Text

variable {limit n width : Nat} {cs : List Char} {s : String}

theorem not_isBlank_of_isDigit {c : Char} (digit : isDigit c = true) : isBlank c = false := by
  simp only [isDigit, Bool.and_eq_true, decide_eq_true_eq] at digit
  have low : 0x30 ≤ c.toNat := digit.1
  have high : c.toNat ≤ 0x39 := digit.2
  simp [isBlank]
  omega

theorem not_isBlank_of_isDecimal {c : Char} (digit : isDecimal c = true) : isBlank c = false := by
  -- The ranges of digits lie in these gaps between blanks.
  have gaps : ∀ r ∈ decimalRanges, 0x20 < r.1 ∧ r.2 < 0x85 ∨ 0xA0 < r.1 ∧ r.2 < 0x1680 ∨
      0x1680 < r.1 ∧ r.2 < 0x2000 ∨ 0x3000 < r.1 := by decide
  obtain ⟨range, mem, within⟩ := List.any_eq_true.1 digit
  simp only [Bool.and_eq_true, decide_eq_true_eq] at within
  have gap := gaps range mem
  simp [isBlank]
  omega

theorem numberOfDigits_eq (cs : List Char) : numberOfDigits cs = Nat.ofDigitChars 10 cs 0 :=
  Nat.ofDigitChars_eq_foldl.symm

theorem padded_eq (width n : Nat) : padded width n =
    List.replicate (width - (Nat.toDigits 10 n).length) '0' ++ Nat.toDigits 10 n := by
  rw [padded, Nat.toString_eq_ofList_toDigits, String.toList_ofList]

theorem numberOfDigits_padded (width n : Nat) : numberOfDigits (padded width n) = n := by
  rw [numberOfDigits_eq, padded_eq, Nat.ofDigitChars_append, Nat.ofDigitChars_replicate_zero,
    Nat.mul_zero, Nat.ofDigitChars_ten_toDigits]

theorem isDigit_of_mem_padded {c : Char} (mem : c ∈ padded width n) : isDigit c = true := by
  rw [padded_eq, List.mem_append] at mem
  rcases mem with zero | digit
  · rw [List.eq_of_mem_replicate zero]
    rfl
  · exact Nat.isDigit_of_mem_toDigits (by decide) (by decide) digit

theorem padded_ne_nil (width n : Nat) : padded width n ≠ [] := by
  rw [padded_eq]
  exact List.append_ne_nil_of_right_ne_nil _ Nat.toDigits_ne_nil

theorem length_padded_eq_iff (some : 0 < width) :
    (padded width n).length = width ↔ n < 10 ^ width := by
  rw [padded_eq, List.length_append, List.length_replicate,
    ← Nat.length_toDigits_le_iff (by decide) some]
  omega

theorem unsigned_of_digits (digits : ∀ c ∈ cs, isDigit c = true) (sign : Char)
    (other : isDigit sign = false) : ∀ rest, cs ≠ sign :: rest := by
  rintro rest rfl
  rw [digits sign List.mem_cons_self] at other
  cases other

theorem number?_ofList (some : cs ≠ []) (digits : ∀ c ∈ cs, isDigit c = true) :
    number? limit (String.ofList cs) =
      if numberOfDigits cs ≤ limit then .some (numberOfDigits cs) else none := by
  have all : cs.all isDigit = true := List.all_eq_true.2 digits
  unfold number?
  rw [String.toList_ofList]
  split
  · exact absurd rfl (unsigned_of_digits digits '+' (by decide) _)
  · simp [some, all]

theorem integer32?_ofList (digits : ∀ c ∈ cs, isDigit c = true) :
    integer32? (String.ofList cs) = (number? (1 <<< 31 - 1) (String.ofList cs)).map Int.ofNat := by
  unfold integer32?
  split
  · next rest minus =>
    rw [String.toList_ofList] at minus
    exact absurd minus (unsigned_of_digits digits '-' (by decide) rest)
  · cases number? (1 <<< 31 - 1) (String.ofList cs) <;> rfl

theorem exists_of_number? (read : number? limit s = some n) :
    ∃ digits, (s.toList = digits ∨ s.toList = '+' :: digits) ∧ (∀ c ∈ digits, isDigit c = true) ∧
      numberOfDigits digits = n ∧ n ≤ limit := by
  obtain ⟨digits, spelled, read⟩ : ∃ digits, (s.toList = digits ∨ s.toList = '+' :: digits) ∧
      (if digits.isEmpty || !digits.all isDigit then none
        else if numberOfDigits digits ≤ limit then some (numberOfDigits digits) else none) =
          some n := by
    unfold number? at read
    dsimp only at read
    split at read
    · next digits plus => exact ⟨digits, .inr plus, read⟩
    · exact ⟨_, .inl rfl, read⟩
  refine ⟨digits, spelled, ?_⟩
  rw [Option.ite_none_left_eq_some, Option.ite_none_right_eq_some, Bool.or_eq_true, not_or,
    Bool.not_eq_true', Bool.not_eq_false, List.all_eq_true] at read
  obtain ⟨⟨-, all⟩, small, value⟩ := read
  exact ⟨all, Option.some.inj value, Option.some.inj value ▸ small⟩

theorem exists_of_integer32? {value : Int} (read : integer32? s = some value) :
    ∃ n : Nat, (s.toList.head? = some '-' ∧ value = -n) ∨
      (number? (1 <<< 31 - 1) s = some n ∧ value = n) := by
  unfold integer32? at read
  split at read
  · next digits minus =>
    obtain ⟨-, read⟩ := Option.ite_none_left_eq_some.1 read
    obtain ⟨_, lifted, rfl⟩ := Option.map_eq_some_iff.1 read
    obtain ⟨n, -, same⟩ := Option.bind_eq_some_iff.1 lifted
    cases same
    exact ⟨n, .inl ⟨by rw [minus]; rfl, rfl⟩⟩
  · obtain ⟨_, lifted, rfl⟩ := Option.map_eq_some_iff.1 read
    obtain ⟨n, found, same⟩ := Option.bind_eq_some_iff.1 lifted
    cases same
    exact ⟨n, .inr ⟨found, rfl⟩⟩

theorem numberOfDigits_lt (digits : ∀ c ∈ cs, isDigit c = true) :
    numberOfDigits cs < 10 ^ cs.length := by
  rw [numberOfDigits_eq]
  induction cs with
  | nil => decide
  | cons c cs ih =>
    obtain ⟨first, rest⟩ := List.forall_mem_cons.1 digits
    have below : c.toNat - '0'.toNat ≤ 9 := by
      simp only [isDigit, Bool.and_eq_true, decide_eq_true_eq] at first
      have high : c.toNat ≤ '9'.toNat := first.2
      have : '9'.toNat = 57 ∧ '0'.toNat = 48 := by decide
      omega
    have ih := ih rest
    rw [Nat.ofDigitChars_cons, Nat.mul_zero, Nat.zero_add, Nat.ofDigitChars_eq_ofDigitChars_zero,
      List.length_cons, Nat.pow_succ]
    have scaled := Nat.mul_le_mul_left (10 ^ cs.length) below
    omega

end Manuscript.Text
