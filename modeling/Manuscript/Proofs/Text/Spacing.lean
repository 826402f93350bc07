import Manuscript.Text.Blank
import Mathlib.Data.List.Chain

/-!
Texts whose blanks are single spaces. Collapsing makes such a text of every text, and changes
nothing of one that has no blanks at its ends either.
-/

set_option autoImplicit false

namespace Manuscript.Text

/-- Whether the blanks of a text are single spaces. -/
structure Spaced (cs : List Char) : Prop where
  space : ∀ c ∈ cs, isBlank c = true → c = ' '
  single : cs.IsChain fun c d => isBlank c = true → isBlank d = false

section
variable {cs ds : List Char}

theorem Spaced.part (spaced : Spaced cs) (inside : ds <:+: cs) : Spaced ds :=
  ⟨fun c mem => spaced.space c (inside.subset mem), List.IsChain.infix spaced.single inside⟩

theorem head?_squeezeChars {c : Char} (letter : isBlank c = false) (cs : List Char) :
    (squeezeChars (c :: cs)).head? = some c := by
  cases cs with
  | nil => simp [squeezeChars, letter]
  | cons d cs => simp [squeezeChars, letter]

theorem spaced_squeezeChars (cs : List Char) : Spaced (squeezeChars cs) := by
  have space : isBlank ' ' = true := rfl
  fun_induction squeezeChars cs with
  | case1 => exact ⟨List.forall_mem_nil _, .nil⟩
  | case2 c blank => exact ⟨fun d mem _ => List.mem_singleton.1 mem, .singleton ' '⟩
  | case3 c letter =>
    refine ⟨fun d mem blank => ?_, .singleton c⟩
    rw [List.mem_singleton.1 mem] at blank
    exact absurd blank letter
  | case4 c d cs blank again ih => exact ih
  | case5 c d cs blank letter ih =>
    refine ⟨List.forall_mem_cons.2 ⟨fun _ => rfl, ih.space⟩, List.isChain_cons.2 ⟨?_, ih.single⟩⟩
    -- The run of blanks ends here, so that what follows the space is no blank.
    intro e first _
    rw [head?_squeezeChars (by simpa using letter), Option.mem_some_iff] at first
    simpa [← first] using letter
  | case6 c d cs letter ih =>
    refine ⟨List.forall_mem_cons.2 ⟨fun blank => absurd blank letter, ih.space⟩, ?_⟩
    exact List.isChain_cons.2 ⟨fun e _ blank => absurd blank letter, ih.single⟩

theorem squeezeChars_eq_self (spaced : Spaced cs) : squeezeChars cs = cs := by
  fun_induction squeezeChars cs with
  | case1 => rfl
  | case2 c blank => rw [spaced.space c List.mem_cons_self blank]
  | case3 c letter => rfl
  | case4 c d cs blank again ih =>
    exact absurd again (by simp [(List.isChain_cons_cons.1 spaced.single).1 blank])
  | case5 c d cs blank letter ih =>
    have rest := spaced.part (List.suffix_cons c (d :: cs)).isInfix
    rw [spaced.space c List.mem_cons_self blank, ih rest]
  | case6 c d cs letter ih => rw [ih (spaced.part (List.suffix_cons c (d :: cs)).isInfix)]

end

section
variable {s t : String}

theorem spaced_collapse (s : String) : Spaced (collapse s).toList := by
  obtain ⟨before, after, split, -, -⟩ := exists_trimWhile isBlank (squeezeChars s.toList)
  have inside : trimWhile isBlank (squeezeChars s.toList) <:+: squeezeChars s.toList :=
    ⟨before, after, split.symm⟩
  simpa [collapse, trim] using (spaced_squeezeChars s.toList).part inside

theorem collapse_eq_self (spaced : Spaced s.toList) (trimmed : trim s = s) : collapse s = s := by
  rw [collapse, squeezeChars_eq_self spaced, String.ofList_toList, trimmed]

@[simp] theorem collapse_collapse (s : String) : collapse (collapse s) = collapse s :=
  collapse_eq_self (spaced_collapse s) (trim_trim _)

/-- The start of a collapsed text is collapsed itself if it does not end in a blank. -/
theorem collapse_of_isPrefix (front : t.toList <+: (collapse s).toList) {last : Char}
    (stop : t.toList.getLast? = some last) (solid : isBlank last = false) : collapse t = t := by
  refine collapse_eq_self ((spaced_collapse s).part front.isInfix) ?_
  obtain ⟨rest, whole⟩ := front
  obtain ⟨first, tail, some⟩ := List.exists_cons_of_ne_nil (l := t.toList) fun none => by
    rw [none] at stop
    cases stop
  have start : (trimWhile isBlank (squeezeChars s.toList)).head? = Option.some first := by
    have same : (collapse s).toList = trimWhile isBlank (squeezeChars s.toList) := by
      simp [collapse, trim]
    rw [← same, ← whole, some]
    rfl
  rw [trim, trimWhile_eq_self (by rw [some]; rfl) (head?_trimWhile start) stop solid,
    String.ofList_toList]

end

end Manuscript.Text
