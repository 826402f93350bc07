import Mathlib.Data.List.Forall2
import Manuscript.Proofs.Formula.Tex

/-!
The control words of converted formulas. A control word ends where its letters end, so one that
stands directly in front of a letter takes it in and becomes another command. Each control word of a
result begins with the one that the converter wrote in its place, and they are the same as long as
none stands in front of a letter.
-/

set_option autoImplicit false

namespace Manuscript.Formula

/-- The control words of a text: the letters behind each backslash, where there are some. -/
def controlWords : List Char → List (List Char)
  | [] => []
  | c :: cs =>
    if c = '\\' ∧ cs.takeWhile Text.isLatin ≠ [] then
      cs.takeWhile Text.isLatin :: controlWords cs
    else controlWords cs

def endsInWord : List Char → Bool
  | [] => false
  | c :: cs => (c = '\\' && !cs.isEmpty && cs.all Text.isLatin) || endsInWord cs

def startsWithLetter (cs : List Char) : Bool := cs.head?.any Text.isLatin

/-- Whether a control word at the end of a text goes on in the next one. -/
def Fuses (cs ds : List Char) : Prop := endsInWord cs = true ∧ startsWithLetter ds = true

section
variable {cs ds : List Char}

theorem controlWords_cons_of_ne {c : Char} (other : c ≠ '\\') (cs : List Char) :
    controlWords (c :: cs) = controlWords cs :=
  if_neg fun word => other word.1

theorem endsInWord_cons_of_ne {c : Char} (other : c ≠ '\\') (cs : List Char) :
    endsInWord (c :: cs) = endsInWord cs := by
  simp [endsInWord, other]

theorem words_of_plain (plain : '\\' ∉ cs) : controlWords cs = [] ∧ endsInWord cs = false := by
  induction cs with
  | nil => exact ⟨rfl, rfl⟩
  | cons c cs ih =>
    rw [List.mem_cons, not_or] at plain
    rw [controlWords_cons_of_ne (Ne.symm plain.1), endsInWord_cons_of_ne (Ne.symm plain.1)]
    exact ih plain.2

theorem startsWithLetter_eq_false_iff :
    startsWithLetter ds = false ↔ ds.takeWhile Text.isLatin = [] := by
  cases ds with
  | nil => simp [startsWithLetter]
  | cons d ds => cases letter : Text.isLatin d <;> simp [startsWithLetter, letter]

theorem takeWhile_append_of_all_eq_false {p : Char → Bool} (other : cs.all p = false)
    (ds : List Char) : (cs ++ ds).takeWhile p = cs.takeWhile p := by
  induction cs with
  | nil => cases other
  | cons c cs ih =>
    rw [List.cons_append, List.takeWhile_cons, List.takeWhile_cons]
    cases here : p c with
    | false => rfl
    | true =>
      rw [List.all_cons, here, Bool.true_and] at other
      rw [ih other]

/-- The control words of a text stay what they are in front of another text, but for the one at its
end, which takes in the letters that the other text starts with. -/
theorem exists_controlWords_append (whole : Whole cs) (ds : List Char) :
    ∃ words, controlWords (cs ++ ds) = words ++ controlWords ds ∧
      List.Forall₂ (· <+: ·) (controlWords cs) words ∧
      (words = controlWords cs ↔ ¬ Fuses cs ds) := by
  induction cs with
  | nil => exact ⟨[], rfl, .nil, by simp [controlWords, Fuses, endsInWord]⟩
  | cons c cs ih =>
    obtain ⟨words, split, longer, same⟩ := ih whole.tail
    by_cases slash : c = '\\'
    · subst slash
      cases letters : cs.all Text.isLatin with
      | true =>
        -- The word goes on to the end of the text, and there is no other one behind it.
        have plain : '\\' ∉ cs := fun mem => absurd (List.all_eq_true.1 letters _ mem) (by decide)
        have some : cs ≠ [] := by
          rintro rfl
          exact whole rfl
        have none : words = [] := by
          rw [(words_of_plain plain).1] at longer
          exact List.forall₂_nil_left_iff.1 longer
        have take (next : List Char) :
            (cs ++ next).takeWhile Text.isLatin = cs ++ next.takeWhile Text.isLatin :=
          List.takeWhile_append_of_pos (List.all_eq_true.1 letters)
        have alone : cs.takeWhile Text.isLatin = cs := by simpa using take []
        have own : controlWords ('\\' :: cs) = [cs] := by
          rw [controlWords, alone, if_pos ⟨rfl, some⟩, (words_of_plain plain).1]
        have ends : endsInWord ('\\' :: cs) = true := by
          simp [endsInWord, some, letters]
        refine ⟨[cs ++ ds.takeWhile Text.isLatin], ?_, ?_, ?_⟩
        · rw [List.cons_append, controlWords, take, if_pos ⟨rfl, by simp [some]⟩, split, none]
          rfl
        · rw [own]
          exact .cons (List.prefix_append _ _) .nil
        · simp only [own, Fuses, ends, List.cons.injEq, and_true, List.append_right_eq_self, true_and,
            Bool.not_eq_true, startsWithLetter_eq_false_iff]
      | false =>
        have take := takeWhile_append_of_all_eq_false letters ds
        have ends : Fuses ('\\' :: cs) ds ↔ Fuses cs ds := by simp [Fuses, endsInWord, letters]
        rw [List.cons_append, controlWords, controlWords, take, ends]
        split
        · refine ⟨cs.takeWhile Text.isLatin :: words, ?_, .cons (List.prefix_rfl) longer, ?_⟩
          · rw [split]
            rfl
          · rw [List.cons.injEq, ← same]
            simp
        · exact ⟨words, split, longer, same⟩
    · rw [List.cons_append, controlWords_cons_of_ne slash, controlWords_cons_of_ne slash, Fuses,
        endsInWord_cons_of_ne slash]
      exact ⟨words, split, longer, same⟩

theorem not_fuses_blank (cs ds : List Char) : ¬ Fuses cs (' ' :: ds) :=
  fun fuses => absurd fuses.2 Bool.false_ne_true

theorem controlWords_append (whole : Whole cs) (apart : ¬ Fuses cs ds) :
    controlWords (cs ++ ds) = controlWords cs ++ controlWords ds := by
  obtain ⟨words, split, -, same⟩ := exists_controlWords_append whole ds
  rw [split, same.2 apart]

theorem not_isLatin_of_isBlank {c : Char} (blank : Text.isBlank c = true) :
    Text.isLatin c = false := by
  rw [← Bool.not_eq_true, Text.isLatin, Text.isLowerLatin, Text.isUpperLatin]
  simp only [Bool.or_eq_true, Bool.and_eq_true, decide_eq_true_eq]
  intro latin
  have range : 0x41 ≤ c.toNat ∧ c.toNat ≤ 0x7A := by
    rcases latin with ⟨low, high⟩ | ⟨low, high⟩
    · exact ⟨Nat.le_trans (by decide) (show 0x61 ≤ c.toNat from low), high⟩
    · exact ⟨low, Nat.le_trans (show c.toNat ≤ 0x5A from high) (by decide)⟩
  simp [Text.isBlank] at blank
  omega

theorem controlWords_append_blanks (cs : List Char) {blanks : List Char}
    (each : ∀ c ∈ blanks, Text.isBlank c = true) :
    controlWords (cs ++ blanks) = controlWords cs := by
  have stop : blanks.takeWhile Text.isLatin = [] := by
    cases blanks with
    | nil => rfl
    | cons c blanks =>
      have other := not_isLatin_of_isBlank (each c List.mem_cons_self)
      simp [other]
  induction cs with
  | nil => exact (words_of_plain fun mem => absurd (each _ mem) (by decide)).1
  | cons c cs ih =>
    have take : (cs ++ blanks).takeWhile Text.isLatin = cs.takeWhile Text.isLatin := by
      rw [List.takeWhile_append, stop, List.append_nil]
      split
      · next all => exact ((List.takeWhile_prefix _).eq_of_length all).symm
      · rfl
    rw [List.cons_append, controlWords, controlWords, take, ih]

end

/-! ### The words of trees -/

def ownWords : List (List Char) := vocabulary.flatMap (controlWords ·.toList)

section
variable {cs ds : List Char}

theorem words_of_spells (spells : Spells cs ds) (plain : '\\' ∉ cs) :
    ∀ word ∈ controlWords ds, word ∈ ownWords := by
  induction spells with
  | blank => exact List.forall_mem_nil _
  | same rest ih =>
    rw [List.mem_cons, not_or] at plain
    rw [controlWords_cons_of_ne (Ne.symm plain.1)]
    exact ih plain.2
  | letter greek rest ih =>
    rw [List.mem_cons, not_or] at plain
    have known := mem_vocabulary_of_letter greek
    rw [controlWords_append (whole_of_mem_vocabulary known) (not_fuses_blank _ _),
      controlWords_cons_of_ne (by decide), List.forall_mem_append]
    exact ⟨fun word mem => List.mem_flatMap.2 ⟨_, known, mem⟩, ih plain.2⟩
  | last greek =>
    exact fun word mem => List.mem_flatMap.2 ⟨_, mem_vocabulary_of_letter greek, mem⟩

end

namespace Tex

def commands : Tex → List (List Char)
  | empty | copied _ => []
  | own s => controlWords s.toList
  | spelled s => controlWords (spell s).toList
  | group t => t.commands
  | append s t => s.commands ++ t.commands

/-- Whether no control word stands directly in front of a letter, if so many characters come
behind. -/
def Apart : Tex → List Char → Prop
  | empty, _ | copied _, _ => True
  | own s, next => ¬ Fuses s.toList next
  | spelled s, next => ¬ Fuses (spell s).toList next
  | group t, next => t.Apart ('}' :: next)
  | append s t, next => s.Apart (t.print.toList ++ next) ∧ t.Apart next

section
variable {t : Tex} (lawful : t.Lawful)
include lawful

theorem mem_ownWords : ∀ word ∈ t.commands, word ∈ ownWords := by
  induction lawful with
  | empty => exact List.forall_mem_nil _
  | copied => exact List.forall_mem_nil _
  | own known => exact fun word mem => List.mem_flatMap.2 ⟨_, known, mem⟩
  | spelled plain => exact words_of_spells (spells_spell _) plain
  | group body ih => exact ih
  | append front back ihs iht => exact List.forall_mem_append.2 ⟨ihs, iht⟩

theorem exists_controlWords_print (next : List Char) :
    ∃ words, controlWords (t.print.toList ++ next) = words ++ controlWords next ∧
      List.Forall₂ (· <+: ·) t.commands words ∧ (words = t.commands ↔ t.Apart next) := by
  induction lawful generalizing next with
  | empty => exact ⟨[], rfl, .nil, by simp [commands, Apart]⟩
  | own known => exact exists_controlWords_append (whole_of_mem_vocabulary known) next
  | @copied s plain =>
    obtain ⟨words, split, longer, -⟩ := exists_controlWords_append (Whole.of_plain plain) next
    rw [(words_of_plain plain).1] at longer
    obtain rfl := List.forall₂_nil_left_iff.1 longer
    exact ⟨[], split, .nil, by simp [commands, Apart]⟩
  | spelled plain =>
    exact exists_controlWords_append (whole_of_spells (spells_spell _) plain) next
  -- A brace ends the control word in front of it, so that a group keeps to itself.
  | @group t body ih =>
    obtain ⟨words, split, longer, same⟩ := ih ('}' :: next)
    refine ⟨words, ?_, longer, same⟩
    have opened : (group t).print.toList ++ next = '{' :: (t.print.toList ++ '}' :: next) := by
      simp [print, braced]
    rw [opened, controlWords_cons_of_ne (by decide), split, controlWords_cons_of_ne (by decide)]
  | @append s t front back ihs iht =>
    obtain ⟨later, splitLater, longerLater, sameLater⟩ := iht next
    obtain ⟨first, split, longer, same⟩ := ihs (t.print.toList ++ next)
    refine ⟨first ++ later, ?_, ?_, ?_⟩
    · rw [print, String.toList_append, List.append_assoc, split, splitLater, List.append_assoc]
    · exact List.rel_append longer longerLater
    · rw [Apart, ← same, ← sameLater, commands]
      constructor
      · exact fun equal => List.append_inj equal longer.length_eq.symm
      · rintro ⟨rfl, rfl⟩
        rfl

end

end Tex

/-! ### The words of conversions -/

theorem controlWords_trim (s : String) :
    controlWords (Text.trim s).toList = controlWords s.toList := by
  obtain ⟨before, after, split, front, back⟩ := Text.exists_trimWhile Text.isBlank s.toList
  have plain : '\\' ∉ before := fun mem => absurd (front _ mem) (by decide)
  obtain ⟨none, ends⟩ := words_of_plain plain
  have apart : ¬ Fuses before (Text.trimWhile Text.isBlank s.toList ++ after) := by
    simp [Fuses, ends]
  rw [Text.trim, String.toList_ofList]
  conv_rhs => rw [split, List.append_assoc, controlWords_append (.of_plain plain) apart, none,
    controlWords_append_blanks _ back]
  rfl

/-- Of a formula without backslashes, each control word of the result begins with one that the
converter wrote for it, in order, and no others are in it; they are the same exactly if none stands
directly in front of a letter. -/
theorem controlWords_of_ofMathml {xml tex : String} {math : Node}
    (found : formula? xml = some math) (plain : math.Everywhere PlainNode)
    (converted : ofMathml xml = some tex) :
    (∀ word ∈ (Tex.ofFormula math).commands, word ∈ ownWords) ∧
    List.Forall₂ (· <+: ·) (Tex.ofFormula math).commands (controlWords tex.toList) ∧
    (controlWords tex.toList = (Tex.ofFormula math).commands ↔ (Tex.ofFormula math).Apart []) := by
  obtain ⟨formula, again, rfl⟩ := Tex.print_of_ofMathml converted
  obtain rfl : formula = math := Option.some.inj (again.symm.trans found)
  have lawful := Tex.lawful_ofFormula plain
  obtain ⟨words, split, longer, same⟩ := Tex.exists_controlWords_print lawful []
  rw [List.append_nil, controlWords, List.append_nil] at split
  rw [controlWords_trim, split]
  exact ⟨Tex.mem_ownWords lawful, longer, same⟩

/-- The command for an operator takes in a variable that comes behind it. -/
example :
    let math := Node.branch "math" [.branch "mo" [.text "≤"], .branch "mi" [.text "y"]]
    (Tex.ofFormula math).print = "\\leqy" ∧ (Tex.ofFormula math).commands = ["leq".toList] ∧
      controlWords "\\leqy".toList = ["leqy".toList] ∧ "leqy".toList ∉ ownWords := by
  decide +kernel

end Manuscript.Formula
