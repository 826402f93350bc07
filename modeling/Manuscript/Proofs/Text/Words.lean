import Manuscript.Text.Blank
import Mathlib.Data.List.Induction
import Mathlib.Data.List.Infix

/-!
The words of texts that are put together. They are the words of the first and of the second text
unless the first ends and the second starts inside of a word: then these two words become one.
Blanks at the ends and next to other blanks make no difference.
-/

set_option autoImplicit false

namespace Manuscript.Text

theorem wordsFrom_blanks {cs : List Char} (blank : ∀ c ∈ cs, isBlank c = true) :
    wordsFrom [] cs = [] := by
  induction cs with
  | nil => rfl
  | cons c cs ih =>
    obtain ⟨first, others⟩ := List.forall_mem_cons.1 blank
    rw [wordsFrom, if_pos first]
    exact ih others

/-! ### Two texts -/

def endsSolid (cs : List Char) : Bool := cs.getLast?.any (!isBlank ·)

def startsSolid (cs : List Char) : Bool := cs.head?.any (!isBlank ·)

/-- Whether the last word of a text and the first word of the next have nothing between them. -/
def fuses (s t : String) : Bool := endsSolid s.toList && startsSolid t.toList

/-- Reading a text leaves some words done and one, perhaps empty, that what follows may extend. -/
theorem exists_wordsFrom_append (cs : List Char) : ∃ done word,
    (∀ ds, wordsFrom [] (cs ++ ds) = done ++ wordsFrom word ds) ∧
    word.isEmpty = !endsSolid cs := by
  -- From the end: whether a word is open hangs on the last character alone.
  induction cs using List.reverseRecOn with
  | nil => exact ⟨[], [], fun _ => rfl, rfl⟩
  | append_singleton cs c ih =>
    obtain ⟨done, word, read, -⟩ := ih
    have next (ds : List Char) : wordsFrom [] (cs ++ [c] ++ ds) =
        done ++ wordsFrom word (c :: ds) := by rw [List.append_assoc]; exact read _
    have last : endsSolid (cs ++ [c]) = !isBlank c := by simp [endsSolid]
    cases blank : isBlank c with
    | true =>
      refine ⟨done ++ wordsFrom word [], [], fun ds => ?_, by rw [last, blank]; rfl⟩
      simp only [next, wordsFrom, if_pos blank]
      split <;> simp
    | false =>
      refine ⟨done, word ++ [c], fun ds => ?_, by simp [last, blank]⟩
      rw [next, wordsFrom, if_neg (by simp [blank])]

/-- A text that does not start inside of a word ends the word in front of it. -/
theorem wordsFrom_of_not_startsSolid {cs : List Char} (apart : startsSolid cs = false)
    (word : List Char) : wordsFrom word cs = wordsFrom word [] ++ wordsFrom [] cs := by
  cases cs with
  | nil => simp [wordsFrom]
  | cons c cs =>
    have blank : isBlank c = true := by simpa [startsSolid] using apart
    simp only [wordsFrom, if_pos blank]
    split <;> rfl

/-- A text that starts inside of a word extends the word in front of it. -/
theorem exists_wordsFrom_of_startsSolid {cs : List Char} (solid : startsSolid cs = true) :
    ∃ v rest, v ≠ [] ∧ ∀ word, wordsFrom word cs = (word ++ v) :: rest := by
  induction cs with
  | nil => cases solid
  | cons c cs ih =>
    have letter : ¬isBlank c = true := by simpa [startsSolid] using solid
    cases more : startsSolid cs with
    | true =>
      obtain ⟨v, rest, -, read⟩ := ih more
      refine ⟨c :: v, rest, List.cons_ne_nil c v, fun word => ?_⟩
      rw [wordsFrom, if_neg letter, read, List.append_assoc, List.singleton_append]
    | false =>
      refine ⟨[c], wordsFrom [] cs, List.cons_ne_nil c [], fun word => ?_⟩
      rw [wordsFrom, if_neg letter, wordsFrom_of_not_startsSolid more, wordsFrom,
        if_neg (by simp)]
      rfl

/-- Texts that do not meet inside of a word have the words of both. -/
theorem words_append {s t : String} (apart : fuses s t = false) :
    words (s ++ t) = words s ++ words t := by
  obtain ⟨done, word, read, open'⟩ := exists_wordsFrom_append s.toList
  have alone := read []
  rw [List.append_nil] at alone
  have both : wordsFrom word t.toList = wordsFrom word [] ++ wordsFrom [] t.toList := by
    rcases Bool.and_eq_false_iff.1 apart with ended | parted
    · rw [ended, Bool.not_false, List.isEmpty_iff] at open'
      subst word
      rfl
    · exact wordsFrom_of_not_startsSolid parted word
  rw [words, String.toList_append, read, both, ← List.append_assoc, ← alone, List.map_append]
  rfl

/-- Of texts that meet inside of a word, the last word of one and the first of the other become one
word, which is longer than the last word was. -/
theorem exists_fused {s t : String} (fused : fuses s t = true) :
    ∃ front w v rest, v ≠ "" ∧ words s = front ++ [w] ∧ words t = v :: rest ∧
      words (s ++ t) = front ++ (w ++ v) :: rest := by
  obtain ⟨ends, starts⟩ := Bool.and_eq_true_iff.1 fused
  obtain ⟨done, word, read, open'⟩ := exists_wordsFrom_append s.toList
  obtain ⟨v, rest, some, extend⟩ := exists_wordsFrom_of_startsSolid starts
  have alone := read []
  rw [ends, Bool.not_true] at open'
  rw [List.append_nil, wordsFrom, open', if_neg Bool.false_ne_true] at alone
  refine ⟨done.map String.ofList, String.ofList word, String.ofList v, rest.map String.ofList,
    by simpa using some, by simp [words, alone], by simp [words, extend], ?_⟩
  rw [words, String.toList_append, read, extend]
  simp

/-! ### Blanks -/

theorem words_of_blank {s : String} (blank : ∀ c ∈ s.toList, isBlank c = true) : words s = [] := by
  rw [words, wordsFrom_blanks blank]
  rfl

theorem words_append_of_blank {s t : String} (blank : ∀ c ∈ t.toList, isBlank c = true) :
    words (s ++ t) = words s := by
  have apart : startsSolid t.toList = false := by
    simpa [startsSolid, Option.any_eq_false] using fun c first => blank c (List.mem_of_head? first)
  rw [words_append (by simp [fuses, apart]), words_of_blank blank, List.append_nil]

theorem words_append_of_blank_left {s t : String} (blank : ∀ c ∈ s.toList, isBlank c = true) :
    words (s ++ t) = words t := by
  have apart : endsSolid s.toList = false := by
    simpa [endsSolid, Option.any_eq_false] using fun c last => blank c (List.mem_of_getLast? last)
  rw [words_append (by simp [fuses, apart]), words_of_blank blank, List.nil_append]

@[simp] theorem words_trim (s : String) : words (trim s) = words s := by
  obtain ⟨before, after, whole, front, back⟩ := exists_trim s
  conv => rhs; rw [whole]
  rw [words_append_of_blank (List.all_eq_true.1 back),
    words_append_of_blank_left (List.all_eq_true.1 front)]

theorem wordsFrom_squeezeChars (word cs : List Char) :
    wordsFrom word (squeezeChars cs) = wordsFrom word cs := by
  fun_induction squeezeChars cs generalizing word with
  | case1 => rfl
  | case2 c blank =>
    have space : isBlank ' ' = true := rfl
    simp only [wordsFrom, if_pos space, if_pos blank]
  | case3 c => rfl
  | case4 c d cs blank again ih =>
    rw [ih]
    simp only [wordsFrom, if_pos blank, if_pos again]
    split <;> rfl
  | case5 c d cs blank letter ih =>
    have space : isBlank ' ' = true := rfl
    rw [wordsFrom, wordsFrom, if_pos space, if_pos blank, ih]
  | case6 c d cs letter ih => rw [wordsFrom, wordsFrom, if_neg letter, if_neg letter, ih]

/-- White space within a text does not matter for its words. -/
@[simp] theorem words_collapse (s : String) : words (collapse s) = words s := by
  rw [collapse, words_trim, words, String.toList_ofList, wordsFrom_squeezeChars]
  rfl

/-! ### Many texts -/

/-- How many words of texts that are put together stand in front of the first two that become one:
all of them if there are no such two. -/
def intactWords : List String → Nat
  | [] => 0
  | s :: ss =>
    if fuses s (String.join ss) then (words s).length - 1 else (words s).length + intactWords ss

/-- Of two lists that part at some place, no more is shared than what is in front of it. -/
theorem prefix_iff_of_parting {α : Type*} {front as bs cs : List α} {a b : α} (differ : a ≠ b)
    (start : cs <+: front ++ a :: as) :
    cs <+: front ++ b :: bs ↔ cs.length ≤ front.length := by
  constructor
  · intro other
    by_contra longer
    have enough (c : α) : (front ++ [c]).length ≤ cs.length := by
      rw [List.length_append]
      exact Nat.lt_of_not_le longer
    have left : front ++ [a] <+: cs :=
      List.prefix_of_prefix_length_le ⟨as, by simp⟩ start (enough a)
    have right : front ++ [b] <+: cs :=
      List.prefix_of_prefix_length_le ⟨bs, by simp⟩ other (enough b)
    have same := (List.prefix_of_prefix_length_le left right (by simp)).eq_of_length (by simp)
    exact differ (by simpa using same)
  · intro short
    exact List.prefix_append_of_prefix ((List.isPrefix_append_of_length short).1 start)

/-- Words that a text of many starts with are the first words of these texts, one text after the
other, exactly as far as no two of them become one. -/
theorem prefix_flatMap_words_iff {ss ws : List String} (start : ws <+: words (String.join ss)) :
    ws <+: ss.flatMap words ↔ ws.length ≤ intactWords ss := by
  induction ss generalizing ws with
  | nil => simp [intactWords]
  | cons s ss ih =>
    rw [String.join_cons] at start
    rw [List.flatMap_cons, intactWords]
    cases fused : fuses s (String.join ss) with
    | true =>
      obtain ⟨front, w, v, rest, longer, own, -, both⟩ := exists_fused fused
      rw [both] at start
      rw [if_pos rfl, own, List.append_assoc, List.singleton_append, List.length_append,
        List.length_singleton, Nat.add_sub_cancel]
      -- The two lists part at the word that two words have become.
      exact prefix_iff_of_parting (by simpa using longer) start
    | false =>
      rw [words_append fused] at start
      rw [if_neg Bool.false_ne_true]
      -- Both lists start with the words of the first text; behind them it is a matter of the others.
      rcases Nat.le_total ws.length (words s).length with short | long
      · have within := (List.isPrefix_append_of_length short).1 start
        exact iff_of_true (List.prefix_append_of_prefix within) (Nat.le_add_right_of_le short)
      · obtain ⟨more, rfl⟩ := List.prefix_of_prefix_length_le (List.prefix_append _ _) start long
        rw [List.prefix_append_right_inj] at start ⊢
        rw [ih start, List.length_append, Nat.add_le_add_iff_left]

/-- Two paragraphs of which the second follows the full stop of the first. -/
example : intactWords ["We study cells.", "Results show growth."] = 2 ∧
    words ("We study cells." ++ "Results show growth.") =
      ["We", "study", "cells.Results", "show", "growth."] := by
  decide

end Manuscript.Text
