import Manuscript.Body.Abstract
import Manuscript.Proofs.Text.Spacing

/-!
The description that a text gives: the text with single spaces, up to the full stop of the second
place where one sentence ends and another starts. What is cut off was no part of the first such
place, so that it is found again and the description describes itself.
-/

set_option autoImplicit false

namespace Manuscript.Body

/-- A text that starts with a capitalised word and a blank, perhaps with a comma between them. -/
inductive OpensSentence : List Char → Prop where
  | intro {capital blank : Char} {letters comma rest : List Char}
      (upper : Text.isUpperLatin capital = true) (latin : ∀ c ∈ letters, Text.isLatin c = true)
      (mark : comma = [] ∨ comma = [',']) (space : Text.isBlank blank = true) :
      OpensSentence (capital :: (letters ++ comma) ++ blank :: rest)

/-- A text that starts with the boundary of two sentences: a word of small letters with a blank in
front and a full stop behind, and after more blanks the start of a sentence. -/
inductive IsBoundary : List Char → Prop where
  | intro {blank : Char} {word gap next : List Char} (space : Text.isBlank blank = true)
      (some : word ≠ []) (small : ∀ c ∈ word, Text.isLowerLatin c = true)
      (apart : gap ≠ []) (spaces : ∀ c ∈ gap, Text.isBlank c = true)
      (opens : OpensSentence next) : IsBoundary (blank :: (word ++ '.' :: (gap ++ next)))

/-- Whether there is no more than one place in a text where a sentence ends and another starts. -/
def AtMostOneBoundary (cs : List Char) : Prop :=
  ∀ t u, t <:+ cs → u <:+ cs → IsBoundary t → IsBoundary u → t = u

section
variable {cs t u front first next second rest sentence : List Char} {c : Char}

/-! ### Starts of sentences -/

theorem not_isBlank_of_isLatin (latin : Text.isLatin c = true) : Text.isBlank c = false := by
  simp only [Text.isLatin, Text.isLowerLatin, Text.isUpperLatin, Bool.or_eq_true, Bool.and_eq_true,
    decide_eq_true_eq] at latin
  have range : 0x41 ≤ c.toNat ∧ c.toNat ≤ 0x7A := by
    rcases latin with ⟨low, high⟩ | ⟨low, high⟩
    · exact ⟨Nat.le_trans (by decide) low, high⟩
    · exact ⟨low, Nat.le_trans high (by decide)⟩
  simp [Text.isBlank]
  omega

theorem startsCapitalised_iff : startsCapitalised cs = true ↔ OpensSentence cs := by
  constructor
  · intro starts
    cases cs with
    | nil => cases starts
    | cons capital cs =>
      rw [startsCapitalised, Bool.and_eq_true] at starts
      obtain ⟨upper, behind⟩ := starts
      have split := List.takeWhile_append_dropWhile (p := Text.isLatin) (l := cs)
      have latin := List.all_eq_true.1 (List.all_takeWhile (p := Text.isLatin) (l := cs))
      split at behind
      · next d rest stop =>
        rw [← split, stop]
        simpa using OpensSentence.intro upper latin (.inr rfl) behind
      · next d rest _ stop =>
        rw [← split, stop]
        simpa using OpensSentence.intro upper latin (.inl rfl) behind
      · cases behind
  · rintro ⟨upper, latin, mark, space⟩
    next capital blank letters comma rest =>
    -- The run of letters ends in front of the blank or the comma, which are none.
    have solid : Text.isLatin blank = false := by
      rw [← Bool.not_eq_true]
      intro letter
      rw [not_isBlank_of_isLatin letter] at space
      cases space
    rw [List.cons_append, startsCapitalised, upper, Bool.true_and, List.append_assoc,
      List.dropWhile_append_of_pos latin]
    rcases mark with rfl | rfl
    · rw [List.nil_append, List.dropWhile_cons_of_neg (by simp [solid])]
      split
      · next same =>
        obtain rfl := (List.cons.inj same).1
        cases space
      · next same => rwa [← (List.cons.inj same).1]
      · next same => cases same
    · rw [List.singleton_append, List.dropWhile_cons_of_neg (by decide)]
      exact space

/-- What comes later does not matter for the start of a sentence, as it ends with its first
blank. -/
theorem OpensSentence.of_append (opens : OpensSentence (front ++ rest))
    (space : ∃ c ∈ front, Text.isBlank c = true) : OpensSentence front := by
  generalize whole : front ++ rest = cs at opens
  obtain ⟨upper, latin, mark, blank⟩ := opens
  next capital stop letters comma behind =>
  have solid : ∀ c ∈ capital :: (letters ++ comma), Text.isBlank c = false := by
    have capital : Text.isBlank capital = false :=
      not_isBlank_of_isLatin (by rw [Text.isLatin, upper, Bool.or_true])
    have comma : ∀ c ∈ comma, Text.isBlank c = false := by
      rcases mark with rfl | rfl
      · exact List.forall_mem_nil _
      · exact List.forall_mem_singleton.2 rfl
    exact List.forall_mem_cons.2 ⟨capital,
      List.forall_mem_append.2 ⟨fun c mem => not_isBlank_of_isLatin (latin c mem), comma⟩⟩
  obtain ⟨d, mem, isBlank⟩ := space
  rcases List.append_eq_append_iff.1 whole with ⟨more, within, -⟩ | ⟨more, longer, tail⟩
  · have inside := solid d (by rw [within]; exact List.mem_append_left _ mem)
    rw [inside] at isBlank
    cases isBlank
  · cases more with
    | nil =>
      rw [longer, List.append_nil] at mem
      rw [solid d mem] at isBlank
      cases isBlank
    | cons e more =>
      obtain rfl := (List.cons.inj tail).1
      rw [longer]
      exact .intro upper latin mark blank

theorem OpensSentence.append (opens : OpensSentence front) (rest : List Char) :
    OpensSentence (front ++ rest) := by
  obtain ⟨upper, latin, mark, space⟩ := opens
  rw [List.append_assoc, List.cons_append]
  exact .intro upper latin mark space

/-! ### Boundaries -/

theorem sentenceEnd?_eq_some_iff : sentenceEnd? cs = some (sentence, next) ↔
    ∃ word, word ≠ [] ∧ (∀ c ∈ word, Text.isLowerLatin c = true) ∧
      sentence = ' ' :: (word ++ ['.']) ∧ cs = sentence ++ ' ' :: next ∧ OpensSentence next := by
  constructor
  · intro found
    unfold sentenceEnd? at found
    split at found
    · next cs =>
      split at found
      · next behind stop =>
        dsimp only at found
        split at found
        · next shape =>
          obtain ⟨rfl, rfl⟩ := Prod.mk.inj (Option.some.inj found)
          rw [Bool.and_eq_true, startsCapitalised_iff] at shape
          have split := List.takeWhile_append_dropWhile (p := Text.isLowerLatin) (l := cs)
          refine ⟨_, by simpa using shape.1, List.all_eq_true.1 List.all_takeWhile, rfl, ?_,
            shape.2⟩
          conv => lhs; rw [← split, stop]
          simp
        · cases found
      · cases found
    · cases found
  · rintro ⟨word, some, small, rfl, rfl, opens⟩
    -- The full stop is no small letter, so that the word is all that is taken.
    have stop : ¬Text.isLowerLatin '.' = true := by decide
    have behind :
        (word ++ '.' :: ' ' :: next).dropWhile Text.isLowerLatin = '.' :: ' ' :: next := by
      rw [List.dropWhile_append_of_pos small, List.dropWhile_cons_of_neg stop]
    have front : (word ++ '.' :: ' ' :: next).takeWhile Text.isLowerLatin = word := by
      rw [List.takeWhile_append_of_pos small, List.takeWhile_cons_of_neg stop, List.append_nil]
    have some : (!word.isEmpty) = true := by simpa using some
    rw [List.cons_append, List.append_assoc, List.singleton_append, sentenceEnd?, behind, front]
    simp [some, startsCapitalised_iff.2 opens]

/-- In a text with single spaces, the boundaries are what the search looks for. -/
theorem isSome_sentenceEnd?_iff (spaced : Text.Spaced cs) :
    (sentenceEnd? cs).isSome = true ↔ IsBoundary cs := by
  rw [Option.isSome_iff_exists]
  constructor
  · rintro ⟨⟨sentence, next⟩, found⟩
    obtain ⟨word, some, small, rfl, rfl, opens⟩ := sentenceEnd?_eq_some_iff.1 found
    have gap : ∀ c ∈ [' '], Text.isBlank c = true := List.forall_mem_singleton.2 rfl
    simpa using IsBoundary.intro rfl some small (List.cons_ne_nil _ _) gap opens
  · rintro ⟨space, some, small, apart, spaces, opens⟩
    next blank word gap next =>
    obtain rfl : blank = ' ' := spaced.space blank List.mem_cons_self space
    obtain ⟨d, gap, rfl⟩ := List.exists_cons_of_ne_nil apart
    obtain ⟨first, more⟩ := List.forall_mem_cons.1 spaces
    obtain rfl : d = ' ' := spaced.space d (by simp) first
    -- A second blank in the gap would stand next to the first one.
    cases gap with
    | nil => exact ⟨(' ' :: (word ++ ['.']), next), sentenceEnd?_eq_some_iff.2
        ⟨word, some, small, rfl, by simp, opens⟩⟩
    | cons e gap =>
      have twice : [' ', e] <:+: ' ' :: (word ++ '.' :: (' ' :: e :: gap ++ next)) :=
        ⟨' ' :: (word ++ ['.']), gap ++ next, by simp⟩
      have solid := (List.isChain_pair.1 ( List.IsChain.infix spaced.single twice)) rfl
      rw [more e List.mem_cons_self] at solid
      cases solid

theorem isSome_sentenceEnd?_append (ends : (sentenceEnd? t).isSome = true) (rest : List Char) :
    (sentenceEnd? (t ++ rest)).isSome = true := by
  obtain ⟨⟨sentence, next⟩, found⟩ := Option.isSome_iff_exists.1 ends
  obtain ⟨word, some, small, same, rfl, opens⟩ := sentenceEnd?_eq_some_iff.1 found
  refine Option.isSome_iff_exists.2 ⟨(sentence, next ++ rest), sentenceEnd?_eq_some_iff.2 ?_⟩
  exact ⟨word, some, small, same, by simp, opens.append rest⟩

/-- A boundary starts with a space, and has another one behind its full stop. -/
theorem eq_cons_of_ends (ends : (sentenceEnd? u).isSome = true) :
    ∃ cs, u = ' ' :: cs ∧ ' ' ∈ cs := by
  obtain ⟨⟨sentence, next⟩, found⟩ := Option.isSome_iff_exists.1 ends
  obtain ⟨word, -, -, rfl, rfl, -⟩ := sentenceEnd?_eq_some_iff.1 found
  exact ⟨word ++ '.' :: ' ' :: next, by simp, by simp⟩

/-- The end of a sentence has no space but the one that it starts with. -/
theorem not_mem_tail_of_sentenceEnd? (found : sentenceEnd? t = some (sentence, next)) :
    ∃ tail, sentence = ' ' :: tail ∧ ' ' ∉ tail := by
  obtain ⟨word, -, small, rfl, -⟩ := sentenceEnd?_eq_some_iff.1 found
  refine ⟨word ++ ['.'], rfl, fun mem => ?_⟩
  rcases List.mem_append.1 mem with letter | stop
  · exact absurd (small ' ' letter) (by decide)
  · exact absurd stop (by decide)

theorem eq_of_suffix_sentence (found : sentenceEnd? t = some (sentence, next))
    (inside : ' ' :: cs <:+ sentence) : ' ' :: cs = sentence := by
  obtain ⟨tail, rfl, solid⟩ := not_mem_tail_of_sentenceEnd? found
  rcases List.suffix_cons_iff.1 inside with same | within
  · exact same
  · exact absurd (within.subset List.mem_cons_self) solid

/-- There is no boundary before the full stop of a boundary is followed by a space. -/
theorem sentenceEnd?_of_suffix_sentence (found : sentenceEnd? t = some (sentence, next))
    (inside : u <:+ sentence) : sentenceEnd? u = none := by
  rw [← Option.not_isSome_iff_eq_none]
  intro ends
  obtain ⟨cs, rfl, later⟩ := eq_cons_of_ends ends
  obtain ⟨tail, same, solid⟩ := not_mem_tail_of_sentenceEnd? found
  rw [← eq_of_suffix_sentence found inside] at same
  exact solid ((List.cons.inj same).2 ▸ later)

/-- No boundary starts with the space in front of a sentence, as that has a capital letter behind
it. -/
theorem sentenceEnd?_of_opens (opens : OpensSentence next) : sentenceEnd? (' ' :: next) = none := by
  obtain ⟨upper, -, -, -⟩ := opens
  next capital blank letters comma rest =>
  have capital : ¬Text.isLowerLatin capital = true := by
    intro small
    simp only [Text.isUpperLatin, Text.isLowerLatin, Bool.and_eq_true, decide_eq_true_eq] at *
    exact absurd (Char.le_trans small.1 upper.2) (by decide)
  rw [← Option.not_isSome_iff_eq_none, Option.isSome_iff_exists]
  rintro ⟨⟨sentence, next⟩, found⟩
  obtain ⟨word, some, small, rfl, whole, -⟩ := sentenceEnd?_eq_some_iff.1 found
  obtain ⟨d, word, rfl⟩ := List.exists_cons_of_ne_nil some
  simp only [List.cons_append, List.cons.injEq] at whole
  exact capital (whole.2.1 ▸ small d List.mem_cons_self)

theorem suffix_next_of_ends (found : sentenceEnd? t = some (sentence, next)) (inside : u <:+ t)
    (ends : (sentenceEnd? u).isSome = true) : u = t ∨ u <:+ next := by
  obtain ⟨word, -, -, -, rfl, opens⟩ := sentenceEnd?_eq_some_iff.1 found
  obtain ⟨cs, rfl, -⟩ := eq_cons_of_ends ends
  have behind : ' ' :: next <:+ sentence ++ ' ' :: next := List.suffix_append _ _
  rcases List.suffix_or_suffix_of_suffix inside behind with later | ⟨v, same⟩
  · refine .inr ((List.suffix_cons_iff.1 later).resolve_left fun same => ?_)
    rw [same, sentenceEnd?_of_opens opens] at ends
    cases ends
  · rw [← same, List.suffix_append_self_iff] at inside
    cases v with
    | nil =>
      rw [← same, List.nil_append, sentenceEnd?_of_opens opens] at ends
      cases ends
    | cons d v =>
      obtain rfl := (List.cons.inj same).1
      rw [← same, eq_of_suffix_sentence found inside]
      exact .inl rfl

/-! ### The first boundary -/

theorem splitSentence?_eq_none_iff :
    splitSentence? cs = none ↔ ∀ t, t <:+ cs → sentenceEnd? t = none := by
  induction cs with
  | nil =>
    refine iff_of_true rfl fun t inside => ?_
    rw [List.suffix_nil.1 inside]
    rfl
  | cons c cs ih =>
    rw [splitSentence?]
    cases here : sentenceEnd? (c :: cs) with
    | some found =>
      refine iff_of_false (Option.some_ne_none found) fun none => ?_
      rw [none _ List.suffix_rfl] at here
      cases here
    | none =>
      dsimp only
      rw [Option.map_eq_none_iff, ih]
      constructor
      · intro none t inside
        rcases List.suffix_cons_iff.1 inside with rfl | inside
        · exact here
        · exact none t inside
      · exact fun none t inside => none t (inside.trans (List.suffix_cons c cs))

/-- A text is split at its first boundary: all others are further on. -/
theorem splitSentence?_eq_some_iff : splitSentence? cs = some (first, next) ↔
    ∃ front t sentence, cs = front ++ t ∧ first = front ++ sentence ∧
      sentenceEnd? t = some (sentence, next) ∧
      ∀ u, u <:+ cs → (sentenceEnd? u).isSome = true → u <:+ t := by
  induction cs generalizing first with
  | nil =>
    refine iff_of_false (by rw [splitSentence?]; exact nofun) ?_
    rintro ⟨front, t, sentence, whole, -, found, -⟩
    rw [(List.append_eq_nil_iff.1 whole.symm).2] at found
    cases found
  | cons c cs ih =>
    rw [splitSentence?]
    cases here : sentenceEnd? (c :: cs) with
    | some found =>
      constructor
      · rintro same
        obtain rfl := Option.some.inj same
        exact ⟨[], c :: cs, first, rfl, rfl, here, fun u inside _ => inside⟩
      · rintro ⟨front, t, sentence, whole, rfl, found', all⟩
        -- The whole text ends a sentence, so that no other place may come before it.
        have longest := all (c :: cs) List.suffix_rfl (by rw [here]; rfl)
        have same : t = c :: cs :=
          List.IsSuffix.eq_of_length_le ⟨front, whole.symm⟩ longest.length_le
        have none : front = [] := by simpa [same] using whole
        rw [same, here] at found'
        rw [none, List.nil_append]
        exact found'
    | none =>
      dsimp only
      rw [Option.map_eq_some_iff]
      constructor
      · rintro ⟨⟨first', next'⟩, later, same⟩
        obtain ⟨rfl, rfl⟩ := Prod.mk.inj same
        obtain ⟨front, t, sentence, rfl, rfl, found, all⟩ := ih.1 later
        refine ⟨c :: front, t, sentence, rfl, rfl, found, fun u inside ends => ?_⟩
        rcases List.suffix_cons_iff.1 inside with rfl | inside
        · rw [here] at ends
          cases ends
        · exact all u inside ends
      · rintro ⟨front, t, sentence, whole, rfl, found, all⟩
        cases front with
        | nil =>
          rw [List.nil_append] at whole
          rw [← whole, here] at found
          cases found
        | cons d front =>
          obtain ⟨rfl, rfl⟩ := List.cons.inj whole
          refine ⟨(front ++ sentence, next), ih.2 ⟨front, t, sentence, rfl, rfl, found, ?_⟩, rfl⟩
          exact fun u inside ends => all u (inside.trans (List.suffix_cons c _)) ends

/-- The first boundary is found again where a text is cut in the sentence that it opens. -/
theorem splitSentence?_within (found : splitSentence? cs = some (first, next))
    (cut : second <+: next) (opens : OpensSentence second) :
    splitSentence? (first ++ ' ' :: second) = some (first, second) := by
  obtain ⟨rest, rfl⟩ := cut
  obtain ⟨front, t, sentence, rfl, rfl, here, all⟩ := splitSentence?_eq_some_iff.1 found
  obtain ⟨word, some, small, shape, rfl, -⟩ := sentenceEnd?_eq_some_iff.1 here
  have again : sentenceEnd? (sentence ++ ' ' :: second) = Option.some (sentence, second) :=
    sentenceEnd?_eq_some_iff.2 ⟨word, some, small, shape, rfl, opens⟩
  refine splitSentence?_eq_some_iff.2
    ⟨front, _, sentence, List.append_assoc _ _ _, rfl, again, fun u inside ends => ?_⟩
  have longer : u ++ rest <:+ front ++ (sentence ++ ' ' :: (second ++ rest)) := by
    have whole : u ++ rest <:+ front ++ sentence ++ ' ' :: second ++ rest :=
      List.suffix_append_self_iff.2 inside
    simpa only [List.append_assoc, List.cons_append] using whole
  have later := all _ longer (isSome_sentenceEnd?_append ends rest)
  rw [← List.cons_append, ← List.append_assoc, List.suffix_append_self_iff] at later
  exact later

/-- There is no boundary in what stands in front of the end of the first sentence. -/
theorem splitSentence?_first (found : splitSentence? cs = some (first, next)) :
    splitSentence? first = none := by
  obtain ⟨front, t, sentence, rfl, rfl, here, all⟩ := splitSentence?_eq_some_iff.1 found
  obtain ⟨word, -, -, -, rfl, -⟩ := sentenceEnd?_eq_some_iff.1 here
  refine splitSentence?_eq_none_iff.2 fun u inside => ?_
  rw [← Option.not_isSome_iff_eq_none]
  intro ends
  have longer : u ++ ' ' :: next <:+ front ++ (sentence ++ ' ' :: next) := by
    rw [← List.append_assoc]
    exact List.suffix_append_self_iff.2 inside
  have later := all _ longer (isSome_sentenceEnd?_append ends _)
  rw [List.suffix_append_self_iff] at later
  rw [sentenceEnd?_of_suffix_sentence here later] at ends
  cases ends

theorem eq_of_splitSentence? (found : splitSentence? cs = some (first, next)) :
    cs = first ++ ' ' :: next := by
  obtain ⟨front, t, sentence, rfl, rfl, here, -⟩ := splitSentence?_eq_some_iff.1 found
  obtain ⟨word, -, -, -, rfl, -⟩ := sentenceEnd?_eq_some_iff.1 here
  rw [List.append_assoc]

/-- The first sentence ends in a full stop and has a space in it. -/
theorem getLast?_of_splitSentence? (found : splitSentence? cs = some (first, next)) :
    first.getLast? = some '.' ∧ ' ' ∈ first := by
  obtain ⟨front, t, sentence, rfl, rfl, here, -⟩ := splitSentence?_eq_some_iff.1 found
  obtain ⟨word, -, -, rfl, -⟩ := sentenceEnd?_eq_some_iff.1 here
  refine ⟨?_, by simp⟩
  rw [List.getLast?_append, ← List.cons_append, List.getLast?_concat, Option.some_or]

theorem opens_of_splitSentence? (found : splitSentence? cs = some (first, next)) :
    OpensSentence next := by
  obtain ⟨front, t, sentence, -, -, here, -⟩ := splitSentence?_eq_some_iff.1 found
  obtain ⟨word, -, -, -, -, opens⟩ := sentenceEnd?_eq_some_iff.1 here
  exact opens

/-! ### The number of boundaries -/

theorem atMostOneBoundary_of_none (spaced : Text.Spaced cs) (none : splitSentence? cs = none) :
    AtMostOneBoundary cs := by
  intro t u inside _ boundary _
  rw [← isSome_sentenceEnd?_iff (spaced.part inside.isInfix),
    splitSentence?_eq_none_iff.1 none t inside] at boundary
  cases boundary

theorem atMostOneBoundary_iff (spaced : Text.Spaced cs)
    (found : splitSentence? cs = some (first, next)) :
    AtMostOneBoundary cs ↔ splitSentence? next = none := by
  have whole := eq_of_splitSentence? found
  obtain ⟨front, t, sentence, rfl, rfl, here, all⟩ := splitSentence?_eq_some_iff.1 found
  have ends : (sentenceEnd? t).isSome = true := by rw [here]; rfl
  have isOne {u : List Char} (inside : u <:+ front ++ t) :
      (sentenceEnd? u).isSome = true ↔ IsBoundary u :=
    isSome_sentenceEnd?_iff (spaced.part inside.isInfix)
  have t_inside : t <:+ front ++ t := List.suffix_append _ _
  obtain ⟨word, -, -, -, rfl, -⟩ := sentenceEnd?_eq_some_iff.1 here
  constructor
  · intro single
    refine splitSentence?_eq_none_iff.2 fun u inside => ?_
    rw [← Option.not_isSome_iff_eq_none]
    intro again
    have later : u <:+ sentence ++ ' ' :: next :=
      List.suffix_append_of_suffix (inside.trans (List.suffix_cons _ _))
    have same := single _ u t_inside (later.trans t_inside) ((isOne t_inside).1 ends)
      ((isOne (later.trans t_inside)).1 again)
    have length := inside.length_le
    rw [← same, List.length_append, List.length_cons] at length
    omega
  · intro none
    -- All boundaries are the first one.
    have only {u : List Char} (inside : u <:+ front ++ (sentence ++ ' ' :: next))
        (boundary : IsBoundary u) : u = sentence ++ ' ' :: next := by
      have again := (isOne inside).2 boundary
      refine (suffix_next_of_ends here (all u inside again) again).resolve_right fun later => ?_
      rw [splitSentence?_eq_none_iff.1 none u later] at again
      cases again
    intro u v left right first second
    rw [only left first, only right second]

end

/-! ### The cut -/

/-- The description is the whole text if that has no second boundary, or else what stands in front
of the space of the second one. -/
theorem describe_cases (s : String) :
    (describe s = Text.collapse s ∧ AtMostOneBoundary (Text.collapse s).toList) ∨
    ∃ first next second rest, splitSentence? (Text.collapse s).toList = some (first, next) ∧
      splitSentence? next = some (second, rest) ∧
      (describe s).toList = first ++ ' ' :: second := by
  have spaced := Text.spaced_collapse s
  unfold describe
  dsimp only
  split
  · next none => exact .inl ⟨String.ofList_toList, atMostOneBoundary_of_none spaced none⟩
  · next first next found =>
    split
    · next second rest again =>
      exact .inr ⟨first, next, second, rest, found, again, String.toList_ofList⟩
    · next none =>
      refine .inl ⟨String.toList_inj.1 ?_, (atMostOneBoundary_iff spaced found).2 none⟩
      rw [String.toList_ofList, ← eq_of_splitSentence? found]

/-- What is cut off does not matter for the first boundary, and what is left has no other one. -/
theorem splitSentence?_cut {cs first next second rest : List Char}
    (found : splitSentence? cs = some (first, next))
    (again : splitSentence? next = some (second, rest)) :
    splitSentence? (first ++ ' ' :: second) = some (first, second) ∧
      splitSentence? second = none := by
  have whole := eq_of_splitSentence? again
  have opens : OpensSentence (second ++ ' ' :: rest) := whole ▸ opens_of_splitSentence? found
  refine ⟨splitSentence?_within found ⟨' ' :: rest, whole.symm⟩ ?_, splitSentence?_first again⟩
  exact opens.of_append ⟨' ', (getLast?_of_splitSentence? again).2, rfl⟩

/-- The description of a text is all of it with single spaces, or what stands in front of one of
these spaces and ends in a full stop. -/
theorem describe_cut (s : String) : describe s = Text.collapse s ∨
    (describe s).toList.getLast? = some '.' ∧
      ∃ rest, Text.collapse s = describe s ++ String.ofList (' ' :: rest) := by
  obtain ⟨same, -⟩ | ⟨first, next, second, rest, found, again, cut⟩ := describe_cases s
  · exact .inl same
  · refine .inr ⟨?_, rest, String.toList_inj.1 ?_⟩
    · have stop := (getLast?_of_splitSentence? again).1
      rw [cut, List.getLast?_append, List.getLast?_cons, stop]
      rfl
    · rw [eq_of_splitSentence? found, eq_of_splitSentence? again]
      simp [cut]

theorem describe_isPrefix (s : String) : (describe s).toList <+: (Text.collapse s).toList := by
  obtain same | ⟨-, rest, whole⟩ := describe_cut s
  · exact ⟨[], by rw [List.append_nil, same]⟩
  · rw [whole, String.toList_append]
    exact List.prefix_append _ _

@[simp] theorem collapse_describe (s : String) : Text.collapse (describe s) = describe s := by
  obtain same | ⟨stop, -⟩ := describe_cut s
  · rw [same, Text.collapse_collapse]
  · exact Text.collapse_of_isPrefix (describe_isPrefix s) stop rfl

theorem atMostOneBoundary_describe (s : String) : AtMostOneBoundary (describe s).toList := by
  obtain ⟨same, single⟩ | ⟨first, next, second, rest, found, again, cut⟩ := describe_cases s
  · rwa [same]
  · obtain ⟨start, none⟩ := splitSentence?_cut found again
    have spaced := (Text.spaced_collapse s).part (describe_isPrefix s).isInfix
    rw [cut] at spaced ⊢
    exact (atMostOneBoundary_iff spaced start).2 none

/-- A text is described by all of it if and only if it has no second boundary. -/
theorem describe_eq_collapse_iff (s : String) :
    describe s = Text.collapse s ↔ AtMostOneBoundary (Text.collapse s).toList := by
  constructor
  · intro same
    rw [← same]
    exact atMostOneBoundary_describe s
  · intro single
    obtain ⟨same, -⟩ | ⟨first, next, second, rest, found, again, -⟩ := describe_cases s
    · exact same
    · rw [(atMostOneBoundary_iff (Text.spaced_collapse s) found).1 single] at again
      cases again

/-- The description is a start of the text with single spaces: all of it, which is the case if there
is no second boundary, or what ends in a full stop. It has no second boundary and is its own
description. -/
theorem description_is_stable_cut (s : String) :
    (describe s).toList <+: (Text.collapse s).toList ∧
    (describe s = Text.collapse s ∨ (describe s).toList.getLast? = some '.') ∧
    (describe s = Text.collapse s ↔ AtMostOneBoundary (Text.collapse s).toList) ∧
    AtMostOneBoundary (describe s).toList ∧
    describe (describe s) = describe s := by
  refine ⟨describe_isPrefix s, (describe_cut s).imp_right And.left, describe_eq_collapse_iff s,
    atMostOneBoundary_describe s, ?_⟩
  have single : AtMostOneBoundary (Text.collapse (describe s)).toList := by
    rw [collapse_describe]
    exact atMostOneBoundary_describe s
  rw [(describe_eq_collapse_iff (describe s)).2 single, collapse_describe]

/-- A text of three sentences with two boundaries. -/
example : describe " We study cells.\n  Results show growth. More is needed. " =
    "We study cells. Results show growth." := by
  decide

end Manuscript.Body
