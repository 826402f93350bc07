/-!
White space: which characters are blank, and cutting text at them. The main statements are that
trimming is idempotent and that words hold no blank.
-/

set_option autoImplicit false

namespace Manuscript.Text

/-- The characters with the Unicode property `White_Space`. -/
def isBlank (c : Char) : Bool :=
  let n := c.toNat
  (0x9 ≤ n && n ≤ 0xD) || n == 0x20 || n == 0x85 || n == 0xA0 || n == 0x1680
    || (0x2000 ≤ n && n ≤ 0x200A) || n == 0x2028 || n == 0x2029 || n == 0x202F || n == 0x205F
    || n == 0x3000

def dropEndWhile (p : Char → Bool) (cs : List Char) : List Char :=
  (cs.reverse.dropWhile p).reverse

def trimWhile (p : Char → Bool) (cs : List Char) : List Char :=
  dropEndWhile p (cs.dropWhile p)

def trim (s : String) : String :=
  String.ofList (trimWhile isBlank s.toList)

def isBlankText (s : String) : Bool :=
  s.toList.all isBlank

def nonEmpty? (s : String) : Option String :=
  if s.isEmpty then none else some s

/-- The maximal runs of characters that are not blank; `word` is the run being read. -/
def wordsFrom (word : List Char) : List Char → List (List Char)
  | [] => if word.isEmpty then [] else [word]
  | c :: cs =>
    if isBlank c then
      if word.isEmpty then wordsFrom [] cs else word :: wordsFrom [] cs
    else wordsFrom (word ++ [c]) cs

def words (s : String) : List String :=
  (wordsFrom [] s.toList).map String.ofList

def squeezeChars : List Char → List Char
  | [] => []
  | [c] => if isBlank c then [' '] else [c]
  | c :: d :: cs =>
    if isBlank c then
      if isBlank d then squeezeChars (d :: cs) else ' ' :: squeezeChars (d :: cs)
    else c :: squeezeChars (d :: cs)

/-- The text trimmed and with one space for every run of blanks. -/
def collapse (s : String) : String :=
  trim (String.ofList (squeezeChars s.toList))

theorem exists_dropEndWhile (p : Char → Bool) (cs : List Char) :
    ∃ back, cs = dropEndWhile p cs ++ back ∧ ∀ c ∈ back, p c = true := by
  refine ⟨(cs.reverse.takeWhile p).reverse, ?_, fun c mem => ?_⟩
  · rw [dropEndWhile, ← List.reverse_append, List.takeWhile_append_dropWhile, List.reverse_reverse]
  · exact List.all_eq_true.1 List.all_takeWhile c (List.mem_reverse.1 mem)

theorem exists_trimWhile (p : Char → Bool) (cs : List Char) :
    ∃ before after, cs = before ++ trimWhile p cs ++ after ∧ (∀ c ∈ before, p c = true) ∧
      ∀ c ∈ after, p c = true := by
  obtain ⟨after, split, back⟩ := exists_dropEndWhile p (cs.dropWhile p)
  refine ⟨cs.takeWhile p, after, ?_, List.all_eq_true.1 List.all_takeWhile, back⟩
  rw [trimWhile, List.append_assoc, ← split, List.takeWhile_append_dropWhile]

theorem mem_of_mem_trimWhile {p : Char → Bool} {cs : List Char} {c : Char}
    (mem : c ∈ trimWhile p cs) : c ∈ cs := by
  obtain ⟨before, after, split, -, -⟩ := exists_trimWhile p cs
  rw [split]
  exact List.mem_append_left _ (List.mem_append_right _ mem)

/-- Trimming takes away all characters before the first and behind the last that do not satisfy
`p`. -/
theorem trimWhile_append {p : Char → Bool} {before mid after : List Char} {first last : Char}
    (front : ∀ c ∈ before, p c = true) (back : ∀ c ∈ after, p c = true)
    (head : mid.head? = some first) (headKept : p first = false)
    (end' : mid.getLast? = some last) (lastKept : p last = false) :
    trimWhile p (before ++ mid ++ after) = mid := by
  obtain ⟨tail, rfl⟩ := List.head?_eq_some_iff.1 head
  have start : (before ++ first :: tail ++ after).dropWhile p = first :: tail ++ after := by
    rw [List.append_assoc, List.dropWhile_append_of_pos front, List.cons_append,
      List.dropWhile_cons_of_neg (by simp [headKept])]
  obtain ⟨init, same⟩ := List.getLast?_eq_some_iff.1 end'
  rw [trimWhile, start, dropEndWhile, List.reverse_append,
    List.dropWhile_append_of_pos (fun c mem => back c (List.mem_reverse.1 mem)), same,
    List.reverse_append, List.reverse_singleton, List.singleton_append,
    List.dropWhile_cons_of_neg (by simp [lastKept]), List.reverse_cons, List.reverse_reverse]

section
variable {p : Char → Bool} {cs : List Char} {c : Char}

theorem dropEndWhile_prefix (p : Char → Bool) (cs : List Char) : dropEndWhile p cs <+: cs := by
  obtain ⟨back, split, -⟩ := exists_dropEndWhile p cs
  exact ⟨back, split.symm⟩

theorem dropEndWhile_append {front : List Char} {last : Char} (end' : front.getLast? = some last)
    (kept : p last = false) (back : List Char) :
    dropEndWhile p (front ++ back) = front ++ dropEndWhile p back := by
  obtain ⟨init, rfl⟩ := List.getLast?_eq_some_iff.1 end'
  have stop : ((init ++ [last]).reverse).dropWhile p = (init ++ [last]).reverse := by
    simp [kept]
  rw [dropEndWhile, List.reverse_append, List.dropWhile_append, stop]
  split
  · next none => simp [dropEndWhile, List.isEmpty_iff.1 none]
  · simp [dropEndWhile]

theorem getLast?_dropEndWhile (last : (dropEndWhile p cs).getLast? = some c) : p c = false := by
  have stop := List.head?_dropWhile_not p cs.reverse
  rw [dropEndWhile, List.getLast?_reverse] at last
  simpa only [last] using stop

theorem head?_trimWhile (head : (trimWhile p cs).head? = some c) : p c = false := by
  have stop := List.head?_dropWhile_not p cs
  obtain ⟨rest, split⟩ := dropEndWhile_prefix p (cs.dropWhile p)
  rw [← split, List.head?_append, ← trimWhile, head] at stop
  exact stop

theorem trimWhile_eq_self {first last : Char} (head : cs.head? = some first)
    (headKept : p first = false) (end' : cs.getLast? = some last) (lastKept : p last = false) :
    trimWhile p cs = cs := by
  have same : trimWhile p ([] ++ cs ++ []) = cs :=
    trimWhile_append (by simp) (by simp) head headKept end' lastKept
  simpa using same

theorem trimWhile_eq_self_of_forall_not (kept : ∀ c ∈ cs, p c = false) : trimWhile p cs = cs := by
  cases cs with
  | nil => rfl
  | cons c cs =>
    have last := List.getLast?_eq_some_getLast (List.cons_ne_nil c cs)
    exact trimWhile_eq_self rfl (kept c List.mem_cons_self) last
      (kept _ (List.mem_of_getLast? last))

@[simp] theorem trimWhile_trimWhile (p : Char → Bool) (cs : List Char) :
    trimWhile p (trimWhile p cs) = trimWhile p cs := by
  cases first : (trimWhile p cs).head? with
  | none => rw [List.head?_eq_none_iff.1 first]; rfl
  | some c =>
    obtain ⟨rest, some⟩ := List.head?_eq_some_iff.1 first
    have last := List.getLast?_eq_some_getLast (some ▸ List.cons_ne_nil c rest)
    exact trimWhile_eq_self first (head?_trimWhile first) last (getLast?_dropEndWhile last)

theorem trimWhile_append_right {back : List Char} (dropped : ∀ c ∈ back, p c = true)
    (cs : List Char) : trimWhile p (cs ++ back) = trimWhile p cs := by
  have cut (front : List Char) : dropEndWhile p (front ++ back) = dropEndWhile p front := by
    rw [dropEndWhile, List.reverse_append, List.dropWhile_append_of_pos (by simpa using dropped),
      dropEndWhile]
  rw [trimWhile, List.dropWhile_append]
  split
  · next none =>
    have all : (back ++ []).dropWhile p = ([] : List Char).dropWhile p :=
      List.dropWhile_append_of_pos dropped
    rw [List.append_nil] at all
    rw [trimWhile, List.isEmpty_iff.1 none, all]
    rfl
  · exact cut _

theorem trimWhile_around {front back : List Char} (before : ∀ c ∈ front, p c = true)
    (after : ∀ c ∈ back, p c = true) (cs : List Char) :
    trimWhile p (front ++ cs ++ back) = trimWhile p cs := by
  rw [trimWhile_append_right after, trimWhile, trimWhile, List.dropWhile_append_of_pos before]

theorem dropWhile_append_cons (kept : p c = false) (front back : List Char) :
    (front ++ c :: back).dropWhile p = front.dropWhile p ++ c :: back := by
  rw [List.dropWhile_append]
  split
  · next none => rw [List.isEmpty_iff.1 none, List.dropWhile_cons_of_neg (by simp [kept])]; rfl
  · rfl

/-- Where the last character stays, trimming takes away no more than characters at the start. -/
theorem trimWhile_concat (kept : p c = false) (cs : List Char) :
    trimWhile p (cs ++ [c]) = cs.dropWhile p ++ [c] := by
  rw [trimWhile, dropWhile_append_cons kept, dropEndWhile, List.reverse_append,
    List.reverse_singleton, List.singleton_append, List.dropWhile_cons_of_neg (by simp [kept]),
    List.reverse_cons, List.reverse_reverse]

theorem trimWhile_dropWhile (p : Char → Bool) (cs : List Char) :
    trimWhile p (cs.dropWhile p) = trimWhile p cs := by
  have around : trimWhile p (cs.takeWhile p ++ cs.dropWhile p ++ []) =
      trimWhile p (cs.dropWhile p) :=
    trimWhile_around (List.all_eq_true.1 List.all_takeWhile) (List.forall_mem_nil _) _
  rwa [List.append_nil, List.takeWhile_append_dropWhile, eq_comm] at around

theorem trimWhile_eq_nil_iff : trimWhile p cs = [] ↔ ∀ c ∈ cs, p c = true := by
  constructor
  · intro none
    obtain ⟨before, after, split, front, back⟩ := exists_trimWhile p cs
    rw [none, List.append_nil] at split
    rw [split]
    exact List.forall_mem_append.2 ⟨front, back⟩
  · intro all
    have start : (cs ++ []).dropWhile p = ([] : List Char).dropWhile p :=
      List.dropWhile_append_of_pos all
    rw [List.append_nil] at start
    rw [trimWhile, start]
    rfl

theorem trimWhile_dropEndWhile (p : Char → Bool) (cs : List Char) :
    trimWhile p (dropEndWhile p cs) = trimWhile p cs := by
  obtain ⟨back, split, dropped⟩ := exists_dropEndWhile p cs
  rw [← trimWhile_append_right dropped, ← split]

@[simp] theorem trim_trim (s : String) : trim (trim s) = trim s := by
  simp [trim]

end

section
variable {s t before after : String}

theorem isBlankText_append :
    isBlankText (s ++ t) = true ↔ isBlankText s = true ∧ isBlankText t = true := by
  simp [isBlankText]

theorem trim_around (front : isBlankText before = true) (back : isBlankText after = true)
    (s : String) : trim (before ++ s ++ after) = trim s := by
  rw [trim, String.toList_append, String.toList_append,
    trimWhile_around (List.all_eq_true.1 front) (List.all_eq_true.1 back), ← trim]

theorem exists_trim (s : String) : ∃ before after, s = before ++ trim s ++ after ∧
    isBlankText before = true ∧ isBlankText after = true := by
  obtain ⟨before, after, split, front, back⟩ := exists_trimWhile isBlank s.toList
  refine ⟨String.ofList before, String.ofList after, ?_, ?_, ?_⟩
  · rw [trim, ← String.ofList_append, ← String.ofList_append, ← split, String.ofList_toList]
  · simpa [isBlankText] using front
  · simpa [isBlankText] using back

end

theorem not_isBlank_of_mem_wordsFrom {word cs w : List Char}
    (clean : ∀ c ∈ word, isBlank c = false) (h : w ∈ wordsFrom word cs) :
    ∀ c ∈ w, isBlank c = false := by
  induction cs generalizing word with
  | nil =>
    simp only [wordsFrom] at h
    split at h
    · simp at h
    · rw [List.mem_singleton.1 h]; exact clean
  | cons d cs ih =>
    simp only [wordsFrom] at h
    split at h
    · split at h
      · exact ih (by simp) h
      · rcases List.mem_cons.1 h with rfl | h
        · exact clean
        · exact ih (by simp) h
    · next hd =>
      refine ih ?_ h
      intro c hc
      rcases List.mem_append.1 hc with hc | hc
      · exact clean c hc
      · rw [List.mem_singleton.1 hc]; simpa using hd

end Manuscript.Text
