/-!
Finding and cutting text at a fixed part of it.
-/

set_option autoImplicit false

namespace Manuscript.Text

def rest? : (lead cs : List Char) → Option (List Char)
  | [], cs => some cs
  | _ :: _, [] => none
  | p :: ps, c :: cs => if p = c then rest? ps cs else none

def occursIn (part : List Char) : List Char → Bool
  | [] => part.isEmpty
  | c :: cs => (rest? part (c :: cs)).isSome || occursIn part cs

def after? (lead s : String) : Option String :=
  (rest? lead.toList s.toList).map String.ofList

def startsWith (lead s : String) : Bool := (after? lead s).isSome

def contains (part s : String) : Bool := occursIn part.toList s.toList

theorem rest?_eq_some_iff {lead cs tail : List Char} :
    rest? lead cs = some tail ↔ cs = lead ++ tail := by
  induction lead generalizing cs with
  | nil => simp [rest?, eq_comm]
  | cons p ps ih =>
    cases cs with
    | nil => simp [rest?]
    | cons c cs =>
      simp only [rest?, List.cons_append, List.cons.injEq]
      split
      · next h => subst h; simp [ih]
      · next h => simp [Ne.symm h]

theorem after?_eq_some_iff {lead s tail : String} :
    after? lead s = some tail ↔ s = lead ++ tail := by
  simp only [after?, Option.map_eq_some_iff, rest?_eq_some_iff]
  constructor
  · rintro ⟨cs, h, rfl⟩
    apply String.toList_inj.1
    simp [h]
  · rintro rfl
    exact ⟨tail.toList, by simp, by simp⟩

/-- The parts before and after the first `stop`, if there is one. -/
def cutAt (stop : Char) : List Char → Option (List Char × List Char)
  | [] => none
  | c :: cs =>
    if c = stop then some ([], cs)
    else (cutAt stop cs).map fun (before, after) => (c :: before, after)

def cutAtText (stop : List Char) : List Char → Option (List Char × List Char)
  | [] => none
  | c :: cs =>
    match rest? stop (c :: cs) with
    | some after => some ([], after)
    | none => (cutAtText stop cs).map fun (before, after) => (c :: before, after)

/-- The parts between the characters that satisfy `p`; without any there is one part. -/
def splitWhere (p : Char → Bool) : List Char → List (List Char)
  | [] => [[]]
  | c :: cs =>
    if p c then [] :: splitWhere p cs
    else match splitWhere p cs with
      | part :: parts => (c :: part) :: parts
      | [] => [[c]]

/-! ### What is left is shorter -/

theorem length_dropWhile_le (p : Char → Bool) (cs : List Char) :
    (cs.dropWhile p).length ≤ cs.length := by
  induction cs with
  | nil => simp
  | cons c cs ih =>
    simp only [List.dropWhile_cons]
    split
    · simp only [List.length_cons]; omega
    · simp

theorem length_lt_of_cutAt {stop : Char} {cs before after : List Char}
    (h : cutAt stop cs = some (before, after)) : after.length < cs.length := by
  induction cs generalizing before after with
  | nil => simp [cutAt] at h
  | cons c cs ih =>
    simp only [cutAt] at h
    split at h
    · simp_all
    · obtain ⟨⟨b, a⟩, hcut, heq⟩ := Option.map_eq_some_iff.1 h
      simp only [Prod.mk.injEq] at heq
      have := ih hcut
      simp only [List.length_cons]
      obtain ⟨-, rfl⟩ := heq
      omega

theorem length_le_of_rest? {lead cs after : List Char} (h : rest? lead cs = some after) :
    after.length ≤ cs.length := by
  rw [rest?_eq_some_iff.1 h, List.length_append]; omega

theorem length_le_of_cutAtText {stop cs before after : List Char}
    (h : cutAtText stop cs = some (before, after)) : after.length ≤ cs.length := by
  induction cs generalizing before after with
  | nil => simp [cutAtText] at h
  | cons c cs ih =>
    simp only [cutAtText] at h
    split at h
    · next heq =>
      simp only [Option.some.injEq, Prod.mk.injEq] at h
      exact h.2 ▸ length_le_of_rest? heq
    · obtain ⟨⟨b, a⟩, hcut, heq⟩ := Option.map_eq_some_iff.1 h
      simp only [Prod.mk.injEq] at heq
      have := ih hcut
      obtain ⟨-, rfl⟩ := heq
      simp only [List.length_cons]; omega

end Manuscript.Text
