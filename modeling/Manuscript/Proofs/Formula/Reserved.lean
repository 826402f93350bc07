import Manuscript.Proofs.Formula.Tex
import Manuscript.Proofs.Reference.Braces

/-!
The characters that LaTeX reserves. The braces that a conversion adds nest, and it escapes what it
writes of its own accord, so that its result is closed as far as the texts are that it takes over
from the formula; of these it escapes nothing but a text that is a single operator.
-/

set_option autoImplicit false

namespace Manuscript.Formula

open Reference.Bibtex (openAfter openAfter_append openAfter_add)

/-- Whether a character groups, starts a comment or stands for an argument. -/
def isReserved (c : Char) : Bool := c = '{' || c = '}' || c = '%' || c = '#'

/-- The reserved characters of a text, without those that a backslash stands in front of. -/
def reserved (escaped : Bool) : List Char → List Char
  | [] => []
  | c :: cs => (if isReserved c && !escaped then [c] else []) ++ reserved (c = '\\') cs

/-- Whether the braces of a text nest, and nothing in it starts a comment or stands for an
argument. -/
structure Closed (s : String) : Prop where
  nests : openAfter 0 (reserved false s.toList) = some 0
  comment : '%' ∉ reserved false s.toList
  argument : '#' ∉ reserved false s.toList

/-! ### Texts -/

section
variable {cs ds : List Char}

theorem reserved_append_eq (escaped : Bool) (cs ds : List Char) : reserved escaped (cs ++ ds) =
    reserved escaped cs ++ reserved (cs.getLast?.elim escaped (· = '\\')) ds := by
  induction cs generalizing escaped with
  | nil => rfl
  | cons c cs ih =>
    rw [List.cons_append, reserved, reserved, ih, List.append_assoc, List.getLast?_cons]
    cases cs.getLast? <;> rfl

theorem reserved_append (whole : Whole cs) (ds : List Char) :
    reserved false (cs ++ ds) = reserved false cs ++ reserved false ds := by
  rw [reserved_append_eq]
  cases last : cs.getLast? with
  | none => rfl
  | some c =>
    have other : c ≠ '\\' := by
      rintro rfl
      exact whole last
    simp [other]

theorem reserved_of_plain (plain : '\\' ∉ cs) : reserved false cs = cs.filter isReserved := by
  induction cs with
  | nil => rfl
  | cons c cs ih =>
    rw [List.mem_cons, not_or] at plain
    rw [reserved, decide_eq_false (Ne.symm plain.1), ih plain.2, List.filter_cons]
    cases isReserved c <;> rfl

theorem not_isReserved_of_isBlank {c : Char} (blank : Text.isBlank c = true) :
    isReserved c = false := by
  rw [← Bool.not_eq_true]
  intro isOne
  simp only [isReserved, Bool.or_eq_true, decide_eq_true_eq] at isOne
  rcases isOne with ((rfl | rfl) | rfl) | rfl <;> exact absurd blank (by decide)

theorem reserved_blanks (escaped : Bool) (each : ∀ c ∈ cs, Text.isBlank c = true) :
    reserved escaped cs = [] := by
  induction cs generalizing escaped with
  | nil => rfl
  | cons c cs ih =>
    obtain ⟨here, later⟩ := List.forall_mem_cons.1 each
    rw [reserved, not_isReserved_of_isBlank here, ih _ later]
    rfl

theorem reserved_trim (s : String) :
    reserved false (Text.trim s).toList = reserved false s.toList := by
  obtain ⟨before, after, split, front, back⟩ := Text.exists_trimWhile Text.isBlank s.toList
  have plain : '\\' ∉ before := fun mem => absurd (front _ mem) (by decide)
  rw [Text.trim, String.toList_ofList]
  calc reserved false (Text.trimWhile Text.isBlank s.toList)
      = reserved false (before ++ (Text.trimWhile Text.isBlank s.toList ++ after)) := by
        rw [reserved_append (.of_plain plain), reserved_blanks _ front, reserved_append_eq,
          reserved_blanks _ back, List.nil_append, List.append_nil]
    _ = reserved false s.toList := by rw [← List.append_assoc, ← split]

theorem reserved_letter {c : Char} {command : String} (found : greek.lookup c = some command) :
    c ≠ '\\' ∧ isReserved c = false ∧ reserved false command.toList = [] := by
  have all : ∀ entry ∈ greek, entry.1 ≠ '\\' ∧ isReserved entry.1 = false ∧
      reserved false entry.2.toList = [] := by
    decide +kernel
  obtain ⟨before, after, table, -⟩ := List.lookup_eq_some_iff.1 found
  exact all (c, command) (by rw [table]; simp)

theorem reserved_of_spells (spells : Spells cs ds) (plain : '\\' ∉ cs) :
    reserved false ds = reserved false cs := by
  induction spells with
  | blank blanks => rw [reserved_blanks _ blanks, reserved]
  | same rest ih =>
    rw [List.mem_cons, not_or] at plain
    rw [reserved, reserved, decide_eq_false (Ne.symm plain.1), ih plain.2]
  | letter found rest ih =>
    rw [List.mem_cons, not_or] at plain
    obtain ⟨other, unreserved, none⟩ := reserved_letter found
    have command := whole_of_mem_vocabulary (mem_vocabulary_of_letter found)
    rw [reserved_append command, none, reserved, reserved, unreserved, decide_eq_false other,
      ← ih plain.2]
    rfl
  | last found blanks =>
    obtain ⟨other, unreserved, none⟩ := reserved_letter found
    rw [none, reserved, unreserved, reserved_blanks _ blanks]
    rfl

end

namespace Closed

variable {s t : String}

theorem of_mem_vocabulary (known : s ∈ vocabulary) : Closed s := by
  have all : ∀ s ∈ vocabulary, openAfter 0 (reserved false s.toList) = some 0 ∧
      '%' ∉ reserved false s.toList ∧ '#' ∉ reserved false s.toList := by
    decide +kernel
  obtain ⟨nests, comment, argument⟩ := all s known
  exact ⟨nests, comment, argument⟩

theorem congr (closed : Closed s) (same : reserved false t.toList = reserved false s.toList) :
    Closed t :=
  ⟨same ▸ closed.nests, same ▸ closed.comment, same ▸ closed.argument⟩

theorem append (front : Closed s) (back : Closed t) (whole : Whole s.toList) :
    Closed (s ++ t) := by
  have both : reserved false (s ++ t).toList =
      reserved false s.toList ++ reserved false t.toList := by
    rw [String.toList_append, reserved_append whole]
  constructor
  case nests => rw [both, openAfter_append, front.nests, Option.bind_some, back.nests]
  case comment =>
    rw [both, List.mem_append, not_or]
    exact ⟨front.comment, back.comment⟩
  case argument =>
    rw [both, List.mem_append, not_or]
    exact ⟨front.argument, back.argument⟩

theorem reserved_braced (whole : Whole s.toList) :
    reserved false (braced s).toList = '{' :: (reserved false s.toList ++ ['}']) := by
  have spelled : (braced s).toList = '{' :: (s.toList ++ ['}']) := by simp [braced]
  rw [spelled, reserved, decide_eq_false (by decide), reserved_append whole]
  rfl

theorem braced (closed : Closed s) (whole : Whole s.toList) : Closed (braced s) := by
  constructor
  case nests =>
    have deeper : openAfter 1 (reserved false s.toList) = some 1 := openAfter_add closed.nests 1
    simp [reserved_braced whole, openAfter, openAfter_append, deeper]
  case comment => simpa [reserved_braced whole] using closed.comment
  case argument => simpa [reserved_braced whole] using closed.argument

end Closed

/-! ### Trees -/

namespace Tex

def sources : Tex → List String
  | empty | own _ => []
  | copied s | spelled s => [s]
  | group t => t.sources
  | append s t => s.sources ++ t.sources

section
variable {t : Tex} (lawful : t.Lawful)
include lawful

theorem whole_print : Whole t.print.toList := by
  induction lawful with
  | empty => simp [Whole, print]
  | own known => exact whole_of_mem_vocabulary known
  | copied plain => exact .of_plain plain
  | spelled plain => exact whole_of_spells (spells_spell _) plain
  | @group t body ih =>
    have spelled : (group t).print.toList = '{' :: (t.print.toList ++ ['}']) := by
      simp [print, braced]
    rw [spelled]
    exact .cons (by decide) (ih.append (by simp [Whole]))
  | append front back ihs iht =>
    rw [print, String.toList_append]
    exact ihs.append iht

theorem closed_print (each : ∀ s ∈ t.sources, Closed s) : Closed t.print := by
  induction lawful with
  | empty => exact ⟨rfl, List.not_mem_nil, List.not_mem_nil⟩
  | own known => exact .of_mem_vocabulary known
  | copied plain => exact each _ (List.mem_singleton_self _)
  | spelled plain =>
    exact (each _ (List.mem_singleton_self _)).congr (reserved_of_spells (spells_spell _) plain)
  | group body ih => exact (ih each).braced (whole_print body)
  | append front back ihs iht =>
    obtain ⟨first, later⟩ := List.forall_mem_append.1 each
    exact (ihs first).append (iht later) (whole_print front)

/-- The converter adds no character that starts a comment or stands for an argument, and removes
none. -/
theorem mem_reserved_print_iff {c : Char} (mark : c = '%' ∨ c = '#') :
    c ∈ reserved false t.print.toList ↔ ∃ s ∈ t.sources, c ∈ s.toList := by
  have isOne : isReserved c = true := by rcases mark with rfl | rfl <;> decide
  have noBrace : c ≠ '{' ∧ c ≠ '}' := by rcases mark with rfl | rfl <;> decide
  induction lawful with
  | empty => simp [print, reserved, sources]
  | @own s known =>
    have closed := Closed.of_mem_vocabulary known
    have none : c ∉ reserved false s.toList := by
      rcases mark with rfl | rfl
      · exact closed.comment
      · exact closed.argument
    simpa [print, sources] using none
  | copied plain =>
    simp [print, sources, reserved_of_plain plain, isOne]
  | spelled plain =>
    simp [print, sources, reserved_of_spells (spells_spell _) plain, reserved_of_plain plain, isOne]
  | group body ih =>
    simp [print, sources, Closed.reserved_braced (whole_print body), noBrace, ih]
  | append front back ihs iht =>
    simp [print, sources, reserved_append (whole_print front), ihs, iht, or_and_right, exists_or]

end

end Tex

/-! ### Conversions -/

/-- The result of a formula without backslashes is closed if each text is that is taken over from
it; and a character in it starts a comment or stands for an argument exactly if it is in one of
these texts. -/
theorem closed_of_ofMathml {xml tex : String} {math : Node} (found : formula? xml = some math)
    (plain : math.Everywhere PlainNode) (converted : ofMathml xml = some tex) :
    ((∀ s ∈ (Tex.ofFormula math).sources, Closed s) → Closed tex) ∧
    ∀ c, c = '%' ∨ c = '#' →
      (c ∈ reserved false tex.toList ↔ ∃ s ∈ (Tex.ofFormula math).sources, c ∈ s.toList) := by
  obtain ⟨formula, again, rfl⟩ := Tex.print_of_ofMathml converted
  obtain rfl : formula = math := Option.some.inj (again.symm.trans found)
  have lawful := Tex.lawful_ofFormula plain
  have same := reserved_trim (Tex.ofFormula formula).print
  refine ⟨fun each => (Tex.closed_print lawful each).congr same, fun c mark => ?_⟩
  rw [same]
  exact Tex.mem_reserved_print_iff lawful mark

/-- A percent sign is escaped where it is alone, and taken over as it is from any longer text. -/
example :
    let math (text : String) : Node := .branch "math" [.branch "mn" [.text text]]
    (Tex.ofFormula (math "%")).print = "\\%" ∧ (Tex.ofFormula (math "%")).sources = [] ∧
      (Tex.ofFormula (math "5%")).print = "5%" ∧ (Tex.ofFormula (math "5%")).sources = ["5%"] := by
  decide +kernel

end Manuscript.Formula
