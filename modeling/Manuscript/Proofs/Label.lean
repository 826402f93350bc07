import Manuscript.Label

/-!
Normal labels. The words of a text that words make up with single spaces are those words, so the
label that a text gives is normal, and a normal text gives itself. So does a number, which is its
own identifier as well.
-/

set_option autoImplicit false

namespace Manuscript.Text

theorem wordsFrom_append {word w rest : List Char} (solid : ∀ c ∈ w, isBlank c = false) :
    wordsFrom word (w ++ rest) = wordsFrom (word ++ w) rest := by
  induction w generalizing word with
  | nil => simp
  | cons c w ih =>
    obtain ⟨first, others⟩ := List.forall_mem_cons.1 solid
    rw [List.cons_append, wordsFrom, if_neg (by simp [first]), ih others, List.append_assoc]
    rfl

/-- What a word is: a run of characters that are not blank, and one at least. -/
def IsWord (w : List Char) : Prop := w ≠ [] ∧ ∀ c ∈ w, isBlank c = false

theorem wordsFrom_intercalate {ws : List (List Char)} (solid : ∀ w ∈ ws, IsWord w) :
    wordsFrom [] (List.intercalate [' '] ws) = ws := by
  induction ws with
  | nil => rfl
  | cons w ws ih =>
    obtain ⟨⟨some, first⟩, others⟩ := List.forall_mem_cons.1 solid
    have isSome : w.isEmpty = false := by simpa using some
    cases ws with
    | nil =>
      have only : List.intercalate [' '] [w] = w ++ [] := by simp [List.intercalate]
      rw [only, wordsFrom_append first, List.nil_append, wordsFrom, isSome]
      rfl
    | cons v ws =>
      have space : isBlank ' ' = true := rfl
      rw [List.intercalate_cons_cons, List.append_assoc, wordsFrom_append first, List.nil_append,
        List.singleton_append, wordsFrom, if_pos space, isSome, ih others]
      rfl

theorem isWord_of_mem_wordsFrom {word cs w : List Char} (solid : ∀ c ∈ word, isBlank c = false)
    (mem : w ∈ wordsFrom word cs) : IsWord w := by
  refine ⟨?_, not_isBlank_of_mem_wordsFrom solid mem⟩
  induction cs generalizing word with
  | nil =>
    rw [wordsFrom] at mem
    split at mem
    · cases mem
    · next some => rw [List.mem_singleton.1 mem]; simpa using some
  | cons c cs ih =>
    rw [wordsFrom] at mem
    split at mem
    · split at mem
      · exact ih (List.forall_mem_nil _) mem
      · next some =>
        rcases List.mem_cons.1 mem with rfl | mem
        · simpa using some
        · exact ih (List.forall_mem_nil _) mem
    · next letter =>
      refine ih (List.forall_mem_append.2 ⟨solid, ?_⟩) mem
      exact List.forall_mem_singleton.2 (by simpa using letter)

theorem words_intercalate_words (s : String) :
    words (String.intercalate " " (words s)) = words s := by
  have chars : (String.intercalate " " (words s)).toList =
      List.intercalate [' '] (wordsFrom [] s.toList) := by
    simp [String.toList_intercalate, words, List.map_map, Function.comp_def]
  rw [words, chars, wordsFrom_intercalate]
  · rfl
  · exact fun w mem => isWord_of_mem_wordsFrom (List.forall_mem_nil _) mem

theorem words_of_isWord {s : String} (word : IsWord s.toList) : words s = [s] := by
  have only : List.intercalate [' '] [s.toList] = s.toList := by simp [List.intercalate]
  have found := wordsFrom_intercalate (List.forall_mem_singleton.2 word)
  rw [only] at found
  simp [words, found]

/-! ### Digits -/

theorem plain_of_isDigit {c : Char} (digit : c.isDigit = true) :
    lowerChar c = [c] ∧ isBlank c = false ∧ c ≠ 'Σ' := by
  have all : ∀ n < 58, 48 ≤ n → lowerChar (Char.ofNat n) = [Char.ofNat n] ∧
      isBlank (Char.ofNat n) = false ∧ Char.ofNat n ≠ 'Σ' := by decide
  simp only [Char.isDigit, Bool.and_eq_true, decide_eq_true_eq, ge_iff_le,
    UInt32.le_iff_toNat_le] at digit
  have here := all c.toNat (Nat.lt_succ_of_le digit.2) digit.1
  rwa [Char.ofNat_toNat] at here

theorem lower_of_digits {s : String} (digits : ∀ c ∈ s.toList, c.isDigit = true) :
    lower s = s := by
  have kept (before cs : List Char) (digits : ∀ c ∈ cs, c.isDigit = true) :
      lowerAfter before cs = cs := by
    induction cs generalizing before with
    | nil => rfl
    | cons c cs ih =>
      obtain ⟨first, rest⟩ := List.forall_mem_cons.1 digits
      obtain ⟨same, -, other⟩ := plain_of_isDigit first
      rw [lowerAfter, if_neg other, same, ih _ rest, List.singleton_append]
  rw [lower, kept [] _ digits, String.ofList_toList]

end Manuscript.Text

namespace Manuscript.Label

/-- Whether a text is a label: not empty, and its words stand apart by single spaces. -/
def IsNormal (s : String) : Prop := s ≠ "" ∧ String.intercalate " " (Text.words s) = s

instance (s : String) : Decidable (IsNormal s) := inferInstanceAs (Decidable (_ ∧ _))

theorem ofText?_of_isNormal {s : String} (normal : IsNormal s) :
    ofText? s = some ⟨s, Text.lower s⟩ := by
  have some : s.isEmpty = false := by simpa using normal.1
  simp only [ofText?, normal.2, some, Bool.false_eq_true, if_false]

theorem isNormal_of_ofText? {s : String} {l : Label} (found : ofText? s = some l) :
    IsNormal l.label := by
  simp only [ofText?] at found
  split at found
  · cases found
  · next some =>
    cases found
    refine ⟨by simpa using some, ?_⟩
    rw [Text.words_intercalate_words]

theorem isNormal_of_isWord {s : String} (word : Text.IsWord s.toList) : IsNormal s := by
  refine ⟨fun none => word.1 (by rw [none]; rfl), ?_⟩
  rw [Text.words_of_isWord word]
  rfl

theorem ofText?_toString (k : Nat) : ofText? (toString k) = some ⟨toString k, toString k⟩ := by
  have digits : ∀ c ∈ (toString k).toList, c.isDigit = true := by
    rw [Nat.toString_eq_ofList_toDigits, String.toList_ofList]
    exact fun c mem => Nat.isDigit_of_mem_toDigits (by decide) (by decide) mem
  have word : Text.IsWord (toString k).toList := by
    refine ⟨?_, fun c mem => (Text.plain_of_isDigit (digits c mem)).2.1⟩
    rw [Nat.toString_eq_ofList_toDigits, String.toList_ofList]
    exact Nat.toDigits_ne_nil
  rw [ofText?_of_isNormal (isNormal_of_isWord word), Text.lower_of_digits digits]

theorem toString_injective {i k : Nat} (same : toString i = toString k) : i = k := by
  rw [Nat.toString_eq_ofList_toDigits, Nat.toString_eq_ofList_toDigits, String.ofList_inj] at same
  have value (n : Nat) : Nat.ofDigitChars 10 (Nat.toDigits 10 n) 0 = n :=
    Nat.ofDigitChars_ten_toDigits
  rw [← value i, same, value]

end Manuscript.Label
