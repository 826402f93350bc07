import Manuscript.Myst.Abbreviation
import Manuscript.Proofs.Text.Splitting
import Mathlib.Data.List.Forall2

/-!
The texts that list abbreviations. A list is read exactly if it is entries with semicolons between
them, blank ones aside; an entry is a word and what it means, with a comma or a colon between them.
Blanks around all of these and a full stop at the end do not matter.
-/

set_option autoImplicit false

namespace Manuscript.Myst

/-- Whether a character ends an entry or the first of its two parts. -/
def isListMark (c : Char) : Bool := isEntryMark c || c == ';'

/-- Whether a text can be listed as an abbreviation: it is a word without marks. -/
structure IsAbbreviation (s : String) : Prop where
  some : s ≠ ""
  word : ∀ c ∈ s.toList, Text.isBlank c = false
  plain : ∀ c ∈ s.toList, isListMark c = false

/-- Whether a text can be listed as what an abbreviation means: it has no marks, and no blanks at
its ends. -/
structure IsExpansion (s : String) : Prop where
  some : s ≠ ""
  trimmed : Text.trim s = s
  plain : ∀ c ∈ s.toList, isListMark c = false

/-- Whether characters are a text with blanks around it. -/
def Padded (s : String) (cs : List Char) : Prop :=
  ∃ before after, cs = before ++ s.toList ++ after ∧ (∀ c ∈ before, Text.isBlank c = true) ∧
    ∀ c ∈ after, Text.isBlank c = true

inductive Spells : String × String → List Char → Prop where
  | intro {short long : String} {mark : Char} {front back : List Char}
      (abbreviation : IsAbbreviation short) (expansion : IsExpansion long)
      (isMark : isEntryMark mark = true) (first : Padded short front) (second : Padded long back) :
      Spells (short, long) (front ++ mark :: back)

/-- The parts between semicolons that give entries: each is blank or an entry. -/
inductive Written : List (String × String) → List (List Char) → Prop where
  | nil : Written [] []
  | blank {entries : List (String × String)} {part : List Char} {parts : List (List Char)}
      (none : ∀ c ∈ part, Text.isBlank c = true) (rest : Written entries parts) :
      Written entries (part :: parts)
  | entry {entry : String × String} {entries : List (String × String)} {part : List Char}
      {parts : List (List Char)} (spelled : Spells entry part) (rest : Written entries parts) :
      Written (entry :: entries) (part :: parts)

section
variable {s : String} {c : Char} {cs part : List Char} {parts : List (List Char)}
  {entry : String × String} {entries : List (String × String)}

/-! ### Texts in a list -/

theorem not_isListMark_of_isBlank (blank : Text.isBlank c = true) : isListMark c = false := by
  rw [← Bool.not_eq_true]
  intro mark
  simp only [isListMark, isEntryMark, Bool.or_eq_true, beq_iff_eq] at mark
  rcases mark with (rfl | rfl) | rfl <;> cases blank

theorem isListMark_eq_false_iff :
    isListMark c = false ↔ isEntryMark c = false ∧ (c == ';') = false :=
  Bool.or_eq_false_iff

theorem not_semicolon_of_isBlank (blank : ∀ c ∈ cs, Text.isBlank c = true) :
    ∀ c ∈ cs, (c == ';') = false :=
  fun c mem => (isListMark_eq_false_iff.1 (not_isListMark_of_isBlank (blank c mem))).2

theorem IsAbbreviation.isExpansion (abbreviation : IsAbbreviation s) : IsExpansion s := by
  refine ⟨abbreviation.some, ?_, abbreviation.plain⟩
  rw [Text.trim, Text.trimWhile_eq_self_of_forall_not abbreviation.word, String.ofList_toList]

theorem IsExpansion.trimWhile_eq (expansion : IsExpansion s) :
    Text.trimWhile Text.isBlank s.toList = s.toList := by
  simpa [Text.trim] using congrArg String.toList expansion.trimmed

theorem padded_of_trimWhile_eq (same : Text.trimWhile Text.isBlank cs = s.toList) :
    Padded s cs := by
  obtain ⟨before, after, split, front, back⟩ := Text.exists_trimWhile Text.isBlank cs
  exact ⟨before, after, by rwa [← same], front, back⟩

theorem Padded.trimWhile_eq (padded : Padded s cs) (expansion : IsExpansion s) :
    Text.trimWhile Text.isBlank cs = s.toList := by
  obtain ⟨before, after, rfl, front, back⟩ := padded
  rw [Text.trimWhile_around front back, expansion.trimWhile_eq]

theorem Padded.around {before after : List Char} (padded : Padded s cs)
    (front : ∀ c ∈ before, Text.isBlank c = true) (back : ∀ c ∈ after, Text.isBlank c = true) :
    Padded s (before ++ cs ++ after) := by
  obtain ⟨left, right, rfl, front', back'⟩ := padded
  exact ⟨before ++ left, right ++ after, by simp, List.forall_mem_append.2 ⟨front, front'⟩,
    List.forall_mem_append.2 ⟨back', back⟩⟩

theorem Padded.plain (padded : Padded s cs) (expansion : IsExpansion s) :
    ∀ c ∈ cs, isListMark c = false := by
  obtain ⟨before, after, rfl, front, back⟩ := padded
  simp only [List.forall_mem_append]
  exact ⟨⟨fun c mem => not_isListMark_of_isBlank (front c mem), expansion.plain⟩,
    fun c mem => not_isListMark_of_isBlank (back c mem)⟩

/-! ### Entries -/

theorem semicolon_not_mem_of_spells (spelled : Spells entry cs) : ∀ c ∈ cs, (c == ';') = false := by
  obtain ⟨abbreviation, expansion, isMark, first, second⟩ := spelled
  next short long mark front back =>
  have semicolon : (mark == ';') = false := by
    rw [← Bool.not_eq_true]
    intro same
    rw [beq_iff_eq.1 same] at isMark
    exact absurd isMark (by decide)
  rw [List.forall_mem_append, List.forall_mem_cons]
  exact ⟨fun c mem => (isListMark_eq_false_iff.1 (first.plain abbreviation.isExpansion c mem)).2,
    semicolon, fun c mem => (isListMark_eq_false_iff.1 (second.plain expansion c mem)).2⟩

theorem entry?_of_spells (spelled : Spells entry cs) : entry? cs = some entry := by
  obtain ⟨abbreviation, expansion, isMark, first, second⟩ := spelled
  next short long mark front back =>
  have split := Text.splitWhere_eq_pair_iff.2 ⟨mark, isMark, rfl,
    fun c mem => (isListMark_eq_false_iff.1 (first.plain abbreviation.isExpansion c mem)).1,
    fun c mem => (isListMark_eq_false_iff.1 (second.plain expansion c mem)).1⟩
  have word : short.toList.any Text.isBlank = false :=
    List.any_eq_false.2 fun c mem => by simp [abbreviation.word c mem]
  unfold entry?
  rw [split]
  dsimp only
  rw [first.trimWhile_eq abbreviation.isExpansion, second.trimWhile_eq expansion, word]
  simp [abbreviation.some, expansion.some]

theorem isExpansion_trimWhile (some : Text.trimWhile Text.isBlank cs ≠ [])
    (plain : ∀ c ∈ cs, isListMark c = false) :
    IsExpansion (String.ofList (Text.trimWhile Text.isBlank cs)) where
  some := by simpa using some
  trimmed := by simp [Text.trim]
  plain := by
    rw [String.toList_ofList]
    exact fun c mem => plain c (Text.mem_of_mem_trimWhile mem)

theorem spells_of_entry?_eq (read : entry? cs = some entry) (free : ∀ c ∈ cs, (c == ';') = false) :
    Spells entry cs := by
  unfold entry? at read
  split at read
  · next front back split =>
    obtain ⟨mark, isMark, rfl, front', back'⟩ := Text.splitWhere_eq_pair_iff.1 split
    rw [List.forall_mem_append, List.forall_mem_cons] at free
    have plain {cs : List Char} (parts : ∀ c ∈ cs, isEntryMark c = false)
        (free : ∀ c ∈ cs, (c == ';') = false) : ∀ c ∈ cs, isListMark c = false :=
      fun c mem => isListMark_eq_false_iff.2 ⟨parts c mem, free c mem⟩
    dsimp only at read
    split at read
    · cases read
    · next shape =>
      obtain rfl := Option.some.inj read
      simp only [Bool.or_eq_true, not_or, Bool.not_eq_true, List.isEmpty_eq_false_iff,
        List.any_eq_false] at shape
      obtain ⟨⟨some, some'⟩, word⟩ := shape
      have short := isExpansion_trimWhile some (plain front' free.1)
      refine .intro ⟨short.some, ?_, short.plain⟩
        (isExpansion_trimWhile some' (plain back' free.2.2)) isMark
        (padded_of_trimWhile_eq String.toList_ofList.symm)
        (padded_of_trimWhile_eq String.toList_ofList.symm)
      rw [String.toList_ofList]
      exact word
  · cases read

theorem spells_trimWhile_iff : Spells entry (Text.trimWhile Text.isBlank cs) ↔ Spells entry cs := by
  constructor
  · intro spelled
    obtain ⟨before, after, whole, front, back⟩ := Text.exists_trimWhile Text.isBlank cs
    generalize Text.trimWhile Text.isBlank cs = mid at spelled whole
    obtain ⟨abbreviation, expansion, isMark, first, second⟩ := spelled
    next short long mark left right =>
    have longer := Spells.intro abbreviation expansion isMark
      (first.around front (List.forall_mem_nil _)) (second.around (List.forall_mem_nil _) back)
    rw [whole]
    simpa using longer
  · rintro ⟨abbreviation, expansion, isMark, first, second⟩
    next short long mark front back =>
    have solid : Text.isBlank mark = false := by
      rw [← Bool.not_eq_true]
      intro blank
      rw [(isListMark_eq_false_iff.1 (not_isListMark_of_isBlank blank)).1] at isMark
      cases isMark
    -- The mark in the middle stays, so that either part loses blanks at its outer end only.
    have outer : Text.trimWhile Text.isBlank (front ++ mark :: back) =
        front.dropWhile Text.isBlank ++ mark :: Text.dropEndWhile Text.isBlank back := by
      rw [Text.trimWhile, Text.dropWhile_append_cons solid, List.append_cons,
        Text.dropEndWhile_append List.getLast?_concat solid, ← List.append_cons]
    rw [outer]
    refine .intro abbreviation expansion isMark (padded_of_trimWhile_eq ?_)
      (padded_of_trimWhile_eq ?_)
    · rw [Text.trimWhile_dropWhile, first.trimWhile_eq abbreviation.isExpansion]
    · rw [Text.trimWhile_dropEndWhile, second.trimWhile_eq expansion]

/-! ### Lists -/

theorem written_of_entries? (read : entries? parts = some entries)
    (free : ∀ part ∈ parts, ∀ c ∈ part, (c == ';') = false) : Written entries parts := by
  induction parts generalizing entries with
  | nil =>
    cases read
    exact .nil
  | cons part parts ih =>
    obtain ⟨first, others⟩ := List.forall_mem_cons.1 free
    rw [entries?] at read
    split at read
    · next none =>
      exact .blank (Text.trimWhile_eq_nil_iff.1 (List.isEmpty_iff.1 none)) (ih read others)
    · obtain ⟨entry, one, read⟩ := Option.bind_eq_some_iff.1 read
      obtain ⟨rest, more, same⟩ := Option.bind_eq_some_iff.1 read
      obtain rfl := Option.some.inj same
      have spelled := spells_of_entry?_eq one fun c mem => first c (Text.mem_of_mem_trimWhile mem)
      exact .entry (spells_trimWhile_iff.1 spelled) (ih more others)

theorem semicolon_not_mem_of_written (written : Written entries parts) :
    ∀ part ∈ parts, ∀ c ∈ part, (c == ';') = false := by
  induction written with
  | nil => exact List.forall_mem_nil _
  | blank none rest ih =>
    exact List.forall_mem_cons.2 ⟨not_semicolon_of_isBlank none, ih⟩
  | entry spelled rest ih =>
    exact List.forall_mem_cons.2 ⟨semicolon_not_mem_of_spells spelled, ih⟩

theorem entries?_of_written (written : Written entries parts) :
    entries? parts = some entries := by
  induction written with
  | nil => rfl
  | blank none rest ih => rw [entries?, Text.trimWhile_eq_nil_iff.2 none]; exact ih
  | entry spelled rest ih =>
    have one := entry?_of_spells (spells_trimWhile_iff.2 spelled)
    have shown : ¬ (Text.trimWhile Text.isBlank _).isEmpty := fun none => by
      rw [List.isEmpty_iff.1 none] at one
      cases one
    rw [entries?, if_neg shown, one, ih]
    rfl

theorem parseAbbreviations?_eq_some_iff {d : Abbreviations} :
    parseAbbreviations? s = some d ↔ ∃ entries, entries ≠ [] ∧ d = Dict.ofList entries ∧
      Written entries (Text.splitWhere (· == ';')
        (withoutStop (Text.trimWhile Text.isBlank s.toList))) := by
  rw [parseAbbreviations?]
  constructor
  · intro read
    split at read
    · next entry entries found =>
      exact ⟨entry :: entries, List.cons_ne_nil _ _, (Option.some.inj read).symm,
        written_of_entries? found fun part => Text.not_of_mem_splitWhere⟩
    · cases read
  · rintro ⟨entries, some, rfl, written⟩
    rw [entries?_of_written written]
    obtain ⟨entry, rest, rfl⟩ := List.exists_cons_of_ne_nil some
    rfl

theorem exists_spells_of_written (written : Written entries parts) (mem : entry ∈ entries) :
    ∃ part, Spells entry part := by
  induction written with
  | nil => cases mem
  | blank none rest ih => exact ih mem
  | entry spelled rest ih =>
    rcases List.mem_cons.1 mem with rfl | mem
    · exact ⟨_, spelled⟩
    · exact ih mem

/-! ### Blanks and the stop around a list -/

theorem entries?_map_trimWhile (parts : List (List Char)) :
    entries? (parts.map (Text.trimWhile Text.isBlank)) = entries? parts := by
  induction parts with
  | nil => rfl
  | cons part parts ih => rw [List.map_cons, entries?, entries?, Text.trimWhile_trimWhile, ih]

theorem entries?_congr {parts' : List (List Char)}
    (same : parts.map (Text.trimWhile Text.isBlank) = parts'.map (Text.trimWhile Text.isBlank)) :
    entries? parts = entries? parts' := by
  rw [← entries?_map_trimWhile, same, entries?_map_trimWhile]

theorem entries?_around {before after : List Char} (front : ∀ c ∈ before, Text.isBlank c = true)
    (back : ∀ c ∈ after, Text.isBlank c = true) (cs : List Char) :
    entries? (Text.splitWhere (· == ';') (before ++ cs ++ after)) =
      entries? (Text.splitWhere (· == ';') cs) := by
  have leading (cs : List Char) : entries? (Text.splitWhere (· == ';') (before ++ cs)) =
      entries? (Text.splitWhere (· == ';') cs) := by
    obtain ⟨part, parts, split⟩ := List.exists_cons_of_ne_nil
      (Text.splitWhere_ne_nil (p := (· == ';')))
    rw [Text.splitWhere_append_left (not_semicolon_of_isBlank front) split, split]
    refine entries?_congr (congrArg (· :: _) ?_)
    simpa using Text.trimWhile_around front (List.forall_mem_nil _) part
  have trailing (cs : List Char) : entries? (Text.splitWhere (· == ';') (cs ++ after)) =
      entries? (Text.splitWhere (· == ';') cs) := by
    obtain ⟨parts, part, split⟩ := List.eq_nil_or_concat'
      (Text.splitWhere (· == ';') cs) |>.resolve_left Text.splitWhere_ne_nil
    rw [Text.splitWhere_append_right (not_semicolon_of_isBlank back) split, split]
    refine entries?_congr ?_
    rw [List.map_append, List.map_append, List.map_singleton, List.map_singleton,
      Text.trimWhile_append_right back]
  rw [trailing, leading]

theorem entries?_trimWhile (cs : List Char) :
    entries? (Text.splitWhere (· == ';') (Text.trimWhile Text.isBlank cs)) =
      entries? (Text.splitWhere (· == ';') cs) := by
  obtain ⟨before, after, split, front, back⟩ := Text.exists_trimWhile Text.isBlank cs
  rw [split, entries?_around front back, ← split]

theorem entries?_dropWhile (cs : List Char) :
    entries? (Text.splitWhere (· == ';') (cs.dropWhile Text.isBlank)) =
      entries? (Text.splitWhere (· == ';') cs) := by
  rw [← entries?_trimWhile, Text.trimWhile_dropWhile, entries?_trimWhile]

theorem withoutStop_concat (cs : List Char) : withoutStop (cs ++ ['.']) = cs := by
  rw [withoutStop, if_pos List.getLast?_concat, List.dropLast_concat]

/-- The last character of an expansion is the last one of a text that is trimmed. -/
theorem IsExpansion.getLast?_trimWhile (expansion : IsExpansion s) {front back : List Char}
    (blank : ∀ c ∈ back, Text.isBlank c = true) :
    (Text.trimWhile Text.isBlank (front ++ s.toList ++ back)).getLast? = s.toList.getLast? := by
  obtain ⟨init, last, ends⟩ := List.eq_nil_or_concat' s.toList |>.resolve_left
    (by simpa using expansion.some)
  have kept : Text.isBlank last = false := by
    have trimmed := expansion.trimWhile_eq
    rw [Text.trimWhile] at trimmed
    exact Text.getLast?_dropEndWhile (by rw [trimmed, ends, List.getLast?_concat])
  rw [Text.trimWhile_append_right blank, ends, ← List.append_assoc, Text.trimWhile_concat kept,
    List.getLast?_concat, List.getLast?_concat]

theorem exists_expansion_of_spells {pairs : List (String × String)} {pair : String × String}
    (spelled : List.Forall₂ Spells (pairs ++ [pair]) parts) : ∃ front back,
      [';'].intercalate parts = front ++ pair.2.toList ++ back ∧ IsExpansion pair.2 ∧
        ∀ c ∈ back, Text.isBlank c = true := by
  induction pairs generalizing parts with
  | nil =>
    obtain ⟨part, rest, one, none, rfl⟩ := List.forall₂_cons_left_iff.1 spelled
    obtain rfl := List.forall₂_nil_left_iff.1 none
    obtain ⟨abbreviation, expansion, isMark, first, before, after, rfl, -, blank⟩ := one
    next short long mark front =>
    exact ⟨front ++ mark :: before, after, by simp, expansion, blank⟩
  | cons first pairs ih =>
    obtain ⟨part, rest, -, others, rfl⟩ := List.forall₂_cons_left_iff.1 spelled
    obtain ⟨front, back, whole, expansion, blank⟩ := ih others
    obtain ⟨next, more, rfl⟩ : ∃ next more, rest = next :: more := by
      cases rest with
      | nil => simp at others
      | cons next more => exact ⟨next, more, rfl⟩
    refine ⟨part ++ ';' :: front, back, ?_, expansion, blank⟩
    rw [List.intercalate_cons_cons, whole]
    simp

theorem written_of_spells {pairs : List (String × String)}
    (spelled : List.Forall₂ Spells pairs parts) : Written pairs parts := by
  induction spelled with
  | nil => exact .nil
  | cons one others ih => exact .entry one ih

theorem entries?_of_spells {pairs : List (String × String)} (some : parts ≠ [])
    (spelled : List.Forall₂ Spells pairs parts) :
    entries? (Text.splitWhere (· == ';') ([';'].intercalate parts)) = .some pairs := by
  have written := written_of_spells spelled
  rw [Text.splitWhere_intercalate some (semicolon_not_mem_of_written written),
    entries?_of_written written]

/-- A stop at the end is no part of the list, and without one nothing is taken for it. -/
theorem entries?_withoutStop {pairs : List (String × String)} {last : String × String}
    {stop after : List Char} (spelled : List.Forall₂ Spells (pairs ++ [last]) parts)
    (unstopped : last.2.toList.getLast? ≠ some '.') (stopped : stop = [] ∨ stop = ['.'])
    (blank : ∀ c ∈ after, Text.isBlank c = true) :
    entries? (Text.splitWhere (· == ';') (withoutStop (Text.trimWhile Text.isBlank
      ([';'].intercalate parts ++ stop ++ after)))) = some (pairs ++ [last]) := by
  have some : parts ≠ [] := by
    rintro rfl
    exact absurd (List.forall₂_nil_right_iff.1 spelled) (by simp)
  rw [Text.trimWhile_append_right blank]
  rcases stopped with rfl | rfl
  -- Where there is no stop, the text ends in the last expansion, and so in none of its own.
  · obtain ⟨front, back, whole, expansion, blank⟩ := exists_expansion_of_spells spelled
    have same : withoutStop (Text.trimWhile Text.isBlank ([';'].intercalate parts)) =
        Text.trimWhile Text.isBlank ([';'].intercalate parts) := by
      rw [withoutStop, if_neg (by rwa [whole, expansion.getLast?_trimWhile blank])]
    rw [List.append_nil, same, entries?_trimWhile, entries?_of_spells some spelled]
  · rw [Text.trimWhile_concat (by decide), withoutStop_concat, entries?_dropWhile,
      entries?_of_spells some spelled]

/-- What is read is a list, and every list is read: its abbreviations are words and what they mean
is trimmed, neither with a mark; and entries that are spelled in any way, with semicolons between
them, with or without a stop, are read as they are, where the last one under an abbreviation counts.
Blanks at the start of the text are those of its first entry. -/
theorem parses_exactly_spelled_lists :
    (∀ (s : String) (d : Abbreviations), parseAbbreviations? s = some d →
      d.isEmpty = false ∧ ∀ entry ∈ d.entries, IsAbbreviation entry.1 ∧ IsExpansion entry.2) ∧
    ∀ (pairs : List (String × String)) (last : String × String) (parts : List (List Char))
      (stop after : List Char), List.Forall₂ Spells (pairs ++ [last]) parts →
      last.2.toList.getLast? ≠ some '.' → (stop = [] ∨ stop = ['.']) →
      (∀ c ∈ after, Text.isBlank c = true) → ∃ d : Abbreviations,
        parseAbbreviations? (String.ofList ([';'].intercalate parts ++ stop ++ after)) = some d ∧
          ∀ key, d.find? key = Dict.lookup key (pairs ++ [last]).reverse := by
  constructor
  · intro s d read
    obtain ⟨entries, some, rfl, written⟩ := parseAbbreviations?_eq_some_iff.1 read
    refine ⟨Dict.isEmpty_ofList some, fun entry mem => ?_⟩
    obtain ⟨part, abbreviation, expansion, -, -, -⟩ :=
      exists_spells_of_written written (Dict.mem_of_mem_ofList mem)
    exact ⟨abbreviation, expansion⟩
  · intro pairs last parts stop after spelled unstopped stopped blank
    have read := entries?_withoutStop spelled unstopped stopped blank
    refine ⟨Dict.ofList (pairs ++ [last]), ?_, Dict.find?_ofList_reverse _⟩
    refine parseAbbreviations?_eq_some_iff.2 ⟨_, by simp, rfl, ?_⟩
    rw [String.toList_ofList]
    exact written_of_entries? read fun part => Text.not_of_mem_splitWhere

theorem later_meaning_is_read : ∃ d : Abbreviations,
    parseAbbreviations? " BHT: bulk;ACC1 ,acetyl-CoA carboxylase-1; BHT, toluene . " = some d ∧
      (∀ entry ∈ d.entries, IsAbbreviation entry.1 ∧ IsExpansion entry.2) ∧
      ∀ key, d.find? key = Dict.lookup key
        [("BHT", "toluene"), ("ACC1", "acetyl-CoA carboxylase-1"), ("BHT", "bulk")] := by
  have free {cs : List Char} (none : cs.any (· == ';') = false) : ∀ c ∈ cs, (c == ';') = false :=
    fun c mem => Bool.not_eq_true _ ▸ List.any_eq_false.1 none c mem
  have spelled : List.Forall₂ Spells
      ([("BHT", "bulk"), ("ACC1", "acetyl-CoA carboxylase-1")] ++ [("BHT", "toluene")])
      [" BHT: bulk".toList, "ACC1 ,acetyl-CoA carboxylase-1".toList, " BHT, toluene ".toList] :=
    .cons (spells_of_entry?_eq rfl (free rfl)) <| .cons (spells_of_entry?_eq rfl (free rfl)) <|
      .cons (spells_of_entry?_eq rfl (free rfl)) .nil
  obtain ⟨d, read, found⟩ := parses_exactly_spelled_lists.2 _ _ _ ['.'] [' '] spelled
    (by decide) (.inr rfl) (List.forall_mem_singleton.2 rfl)
  exact ⟨d, read, (parses_exactly_spelled_lists.1 _ d read).2, found⟩

end

end Manuscript.Myst
