import Manuscript.Article.Date
import Manuscript.Proofs.Text.Digits
import Manuscript.Proofs.Text.Splitting

/-!
Dates as they are written. A date has the form of a calendar exactly if its year has four places at
most and its month and day are those of some calendar; nothing that gives dates asks for that. What
is written is read back unless the year is negative or the day has more than two places, and a date
that was read from such a text is always read back.
-/

set_option autoImplicit false

namespace Manuscript.Date

open Manuscript.Text

/-- Whether a text is a date with hyphens: four digits for the year, two for the month and two for
the day, with a month from 1 to 12 and a day from 1 to 31. -/
def IsCalendarText (s : String) : Prop :=
  ∃ year month day : List Char, s.toList = year ++ '-' :: (month ++ '-' :: day) ∧
    (∀ c ∈ year ++ month ++ day, isDigit c = true) ∧
    year.length = 4 ∧ month.length = 2 ∧ day.length = 2 ∧
    (1 ≤ numberOfDigits month ∧ numberOfDigits month ≤ 12) ∧
    (1 ≤ numberOfDigits day ∧ numberOfDigits day ≤ 31)

variable {d : Date} {n : Node} {s : String} {width number : Nat}

theorem ne_hyphen_of_isDigit {c : Char} (digit : isDigit c = true) : c ≠ '-' := by
  rintro rfl
  exact absurd digit (by decide)

theorem ne_hyphen_of_mem_padded {c : Char} (mem : c ∈ padded width number) : c ≠ '-' :=
  ne_hyphen_of_isDigit (isDigit_of_mem_padded mem)

/-! ### What is written -/

theorem toList_format (d : Date) : d.format.toList =
    yearText d.year ++ '-' :: (padded 2 d.month ++ '-' :: padded 2 d.day) := by
  rw [format, String.toList_ofList]

theorem yearText_of_nonneg {year : Int} (nonneg : 0 ≤ year) :
    yearText year = padded 4 year.toNat := by
  rw [yearText, if_neg (by omega), show year.natAbs = year.toNat by omega]

theorem yearText_of_neg {year : Int} (negative : year < 0) :
    yearText year = '-' :: padded 3 year.natAbs := by
  rw [yearText, if_pos negative]

theorem parts_of_hyphenated {year month day year' month' day' : List Char}
    (same : year ++ '-' :: (month ++ '-' :: day) = year' ++ '-' :: (month' ++ '-' :: day'))
    (years : (∀ c ∈ year, c ≠ '-') ∧ ∀ c ∈ year', c ≠ '-')
    (months : (∀ c ∈ month, c ≠ '-') ∧ ∀ c ∈ month', c ≠ '-') :
    year = year' ∧ month = month' ∧ day = day' := by
  have cut := cutAt_append years.1 (month ++ '-' :: day)
  rw [same, cutAt_append years.2, Option.some.injEq, Prod.mk.injEq] at cut
  obtain ⟨rfl, rest⟩ := cut
  have cut := cutAt_append months.1 day
  rw [← rest, cutAt_append months.2, Option.some.injEq, Prod.mk.injEq] at cut
  obtain ⟨rfl, rfl⟩ := cut
  exact ⟨rfl, rfl, rfl⟩

/-- A negative year starts with a hyphen, where a calendar has a digit. -/
theorem nonneg_of_isCalendarText (calendar : IsCalendarText d.format) : 0 ≤ d.year := by
  by_contra negative
  obtain ⟨year, month, day, same, digits, four, -⟩ := calendar
  rw [toList_format, yearText_of_neg (by omega)] at same
  cases year with
  | nil => cases four
  | cons c year =>
    rw [List.cons_append, List.cons_append, List.cons.injEq] at same
    exact ne_hyphen_of_isDigit (digits c (by simp)) same.1.symm

theorem isCalendarText_format_iff : IsCalendarText d.format ↔
    (0 ≤ d.year ∧ d.year ≤ 9999) ∧ (1 ≤ d.month ∧ d.month ≤ 12) ∧ (1 ≤ d.day ∧ d.day ≤ 31) := by
  constructor
  · intro calendar
    have nonneg := nonneg_of_isCalendarText calendar
    obtain ⟨year, month, day, same, digits, four, two, two', goodMonth, goodDay⟩ := calendar
    have plain : ∀ c ∈ year ++ month ++ day, c ≠ '-' :=
      fun c mem => ne_hyphen_of_isDigit (digits c mem)
    rw [toList_format, yearText_of_nonneg nonneg] at same
    obtain ⟨rfl, rfl, rfl⟩ := parts_of_hyphenated same
      ⟨fun _ => ne_hyphen_of_mem_padded, fun c mem => plain c (by simp [mem])⟩
      ⟨fun _ => ne_hyphen_of_mem_padded, fun c mem => plain c (by simp [mem])⟩
    rw [length_padded_eq_iff (by decide)] at four
    rw [numberOfDigits_padded] at goodMonth goodDay
    exact ⟨⟨nonneg, by omega⟩, goodMonth, goodDay⟩
  · rintro ⟨⟨nonneg, four⟩, goodMonth, goodDay⟩
    refine ⟨padded 4 d.year.toNat, padded 2 d.month, padded 2 d.day, ?_, fun c mem => ?_, ?_, ?_,
      ?_, ?_, ?_⟩
    · rw [toList_format, yearText_of_nonneg nonneg]
    · rw [List.mem_append, List.mem_append] at mem
      rcases mem with (mem | mem) | mem <;> exact isDigit_of_mem_padded mem
    · exact (length_padded_eq_iff (by decide)).2 (by omega)
    · exact (length_padded_eq_iff (by decide)).2 (by omega)
    · exact (length_padded_eq_iff (by decide)).2 (by omega)
    · rwa [numberOfDigits_padded]
    · rwa [numberOfDigits_padded]

/-! ### What is read back -/

theorem isoFields_of_hyphens {year month : List Char} (years : ∀ c ∈ year, c ≠ '-')
    (months : ∀ c ∈ month, c ≠ '-') (day : List Char) :
    isoFields (year ++ '-' :: (month ++ '-' :: day)) = [year, month, day] := by
  simp only [isoFields, cutAt_append years, cutAt_append months]

theorem eq_hyphen_or_isDigit {c : Char} (mem : c ∈ d.format.toList) :
    c = '-' ∨ isDigit c = true := by
  rw [toList_format] at mem
  simp only [List.mem_append, List.mem_cons] at mem
  rcases mem with year | hyphen | month | hyphen | day
  · rw [yearText] at year
    split at year
    · exact (List.mem_cons.1 year).imp_right isDigit_of_mem_padded
    · exact .inr (isDigit_of_mem_padded year)
  · exact .inl hyphen
  · exact .inr (isDigit_of_mem_padded month)
  · exact .inl hyphen
  · exact .inr (isDigit_of_mem_padded day)

theorem trimWhile_format (d : Date) : trimWhile isBlank d.format.toList = d.format.toList := by
  have solid : ∀ c ∈ d.format.toList, isBlank c = false := by
    intro c mem
    rcases eq_hyphen_or_isDigit mem with rfl | digit
    · decide
    · exact not_isBlank_of_isDigit digit
  exact trimWhile_eq_self_of_forall_not solid

theorem exists_isoFields_hyphen (cs : List Char) :
    ∃ fields, isoFields ('-' :: cs) = [] :: fields := by
  rw [isoFields, cutAt, if_pos rfl]
  dsimp only
  split <;> exact ⟨_, rfl⟩

theorem natural32?_padded (width : Nat) (small : number < 2 ^ 32) :
    natural32? (String.ofList (padded width number)) = some number := by
  rw [natural32?, number?_ofList (padded_ne_nil _ _) fun _ => isDigit_of_mem_padded,
    numberOfDigits_padded, if_pos (by omega)]

theorem integer32?_padded (width : Nat) (small : number < 2 ^ 31) :
    integer32? (String.ofList (padded width number)) = some (number : Int) := by
  rw [integer32?_ofList fun _ => isDigit_of_mem_padded,
    number?_ofList (padded_ne_nil _ _) fun _ => isDigit_of_mem_padded, numberOfDigits_padded,
    if_pos (by omega)]
  rfl

/-- Of a written day two places are read, which are all of it if it is less than a hundred. -/
theorem isoDay?_padded (number : Nat) :
    ∃ day, isoDay? (padded 2 number) = some day ∧ (day = number ↔ number < 100) := by
  have digits : ∀ c ∈ padded 2 number, isDigit c = true := fun _ => isDigit_of_mem_padded
  have value := numberOfDigits_padded 2 number
  have places : (padded 2 number).length = 2 ↔ number < 100 := length_padded_eq_iff (by decide)
  have least : 2 ≤ (padded 2 number).length := by
    rw [padded_eq, List.length_append, List.length_replicate]
    omega
  match padded 2 number, digits, value, places, least with
  | a :: b :: rest, digits, value, places, _ =>
    have front : ∀ c ∈ [a, b], isDigit c = true :=
      fun c mem => digits c ((List.mem_append_left rest mem : c ∈ [a, b] ++ rest))
    have below : numberOfDigits [a, b] < 100 := numberOfDigits_lt front
    refine ⟨numberOfDigits [a, b], ?_, fun same => same ▸ below, fun small => ?_⟩
    · rw [isoDay?, natural32?, number?_ofList (List.cons_ne_nil _ _) front, if_pos (by omega)]
    · obtain rfl : rest = [] := List.eq_nil_of_length_eq_zero (by
        have := places.2 small
        simpa using this)
      exact value

/-- The text of a date is read as the date exactly if its year is not negative and its day has no
more than two places. -/
theorem ofIso?_format_iff (year : d.year < 2 ^ 31) (month : d.month < 2 ^ 32) :
    ofIso? d.format = some d ↔ 0 ≤ d.year ∧ d.day < 100 := by
  by_cases nonneg : 0 ≤ d.year
  · obtain ⟨day, read, whole⟩ := isoDay?_padded d.day
    have fields : isoFields (trimWhile isBlank d.format.toList) =
        [padded 4 d.year.toNat, padded 2 d.month, padded 2 d.day] := by
      rw [trimWhile_format, toList_format, yearText_of_nonneg nonneg,
        isoFields_of_hyphens (fun _ => ne_hyphen_of_mem_padded) fun _ => ne_hyphen_of_mem_padded]
    have : ofIso? d.format = some ⟨d.year, d.month, day⟩ := by
      simp only [ofIso?, fields, List.getD_cons_zero, List.getElem?_cons_succ,
        List.getElem?_cons_zero, Option.bind_some, natural32?_padded 2 month, read,
        integer32?_padded 4 (show d.year.toNat < 2 ^ 31 by omega), Option.getD_some,
        Option.pure_def, Option.bind_eq_bind, Int.toNat_of_nonneg nonneg]
    rw [this, Option.some.injEq, ← whole]
    obtain ⟨y, m, n⟩ := d
    simp [show 0 ≤ y from nonneg]
  · have none : ofIso? d.format = none := by
      obtain ⟨fields, first⟩ := exists_isoFields_hyphen
        (padded 3 d.year.natAbs ++ '-' :: (padded 2 d.month ++ '-' :: padded 2 d.day))
      have empty : integer32? (String.ofList []) = none := by decide
      rw [ofIso?, trimWhile_format, toList_format, yearText_of_neg (by omega), List.cons_append,
        first]
      simp only [List.getD_cons_zero, empty, Option.bind_eq_bind, Option.bind_none]
    simp [none, nonneg]

/-! ### What is given -/

theorem lt_of_natural32? (read : natural32? s = some number) : number < 2 ^ 32 := by
  obtain ⟨-, -, -, -, small⟩ := exists_of_number? read
  omega

theorem lt_of_integer32? {value : Int} (read : integer32? s = some value) : value < 2 ^ 31 := by
  obtain ⟨number, ⟨-, rfl⟩ | ⟨found, rfl⟩⟩ := exists_of_integer32? read
  · omega
  · obtain ⟨-, -, -, -, small⟩ := exists_of_number? found
    omega

theorem nonneg_of_integer32? {value : Int} {cs : List Char} (plain : ∀ c ∈ cs, c ≠ '-')
    (read : integer32? (String.ofList cs) = some value) : 0 ≤ value := by
  obtain ⟨number, ⟨minus, -⟩ | ⟨-, rfl⟩⟩ := exists_of_integer32? read
  · rw [String.toList_ofList] at minus
    exact absurd rfl (plain '-' (List.mem_of_mem_head? minus))
  · exact Int.natCast_nonneg number

theorem lt_of_isoDay? {cs : List Char} (read : isoDay? cs = some number) : number < 100 := by
  unfold isoDay? at read
  split at read
  · next a b rest =>
    obtain ⟨digits, spelled, all, rfl, -⟩ := exists_of_number? read
    have short : digits.length ≤ 2 := by
      rw [String.toList_ofList] at spelled
      rcases spelled with same | same
      · rw [← same]
        simp
      · have := congrArg List.length same
        simp at this
        omega
    exact (numberOfDigits_lt all).trans_le (Nat.pow_le_pow_right (by decide) short)
  · cases read

theorem ne_hyphen_of_mem_isoFields {cs : List Char} :
    ∀ c ∈ (isoFields cs).getD 0 [], c ≠ '-' := by
  unfold isoFields
  split
  · next none => exact ne_of_mem_of_cutAt_eq_none none
  · next cut => split <;> exact ne_of_mem_of_cutAt cut

/-- A date that is read from a text with hyphens has no negative year and a day of two places. -/
theorem bounds_of_ofIso? (read : ofIso? s = some d) :
    (0 ≤ d.year ∧ d.year < 2 ^ 31) ∧ d.month < 2 ^ 32 ∧ d.day < 100 := by
  simp only [ofIso?, Option.bind_eq_bind, Option.pure_def, Option.bind_eq_some_iff,
    Option.some.injEq] at read
  obtain ⟨year, found, rfl⟩ := read
  refine ⟨⟨nonneg_of_integer32? ne_hyphen_of_mem_isoFields found, lt_of_integer32? found⟩, ?_, ?_⟩
  · cases month : (isoFields (trimWhile isBlank s.toList))[1]?.bind fun m =>
        natural32? (String.ofList m) with
    | none => simp
    | some number =>
      obtain ⟨_, -, given⟩ := Option.bind_eq_some_iff.1 month
      simpa [month] using lt_of_natural32? given
  · cases day : (isoFields (trimWhile isBlank s.toList))[2]?.bind isoDay? with
    | none => simp
    | some number =>
      obtain ⟨_, -, given⟩ := Option.bind_eq_some_iff.1 day
      simpa [day] using lt_of_isoDay? given

theorem lt_of_month? (read : month? s = some number) : number < 2 ^ 32 := by
  unfold month? at read
  cases digits : natural32? s with
  | some given =>
    rw [digits] at read
    cases read
    exact lt_of_natural32? digits
  | none =>
    rw [digits] at read
    have all : ∀ entry ∈ monthNames, entry.2 < 2 ^ 32 := by decide
    obtain ⟨before, after, entry, -⟩ := List.lookup_eq_some_iff.1 read
    exact all (lower s, number) (by rw [entry]; simp)

theorem bounds_of_ofElements? (read : ofElements? n = some d) :
    d.year < 2 ^ 31 ∧ d.month < 2 ^ 32 := by
  simp only [ofElements?, Option.bind_eq_bind, Option.pure_def, Option.bind_eq_some_iff] at read
  obtain ⟨_, -, year, given, read⟩ := read
  have small := lt_of_integer32? (Option.filter_eq_some_iff.1 given).1
  split at read
  · cases read
    exact ⟨small, Nat.one_lt_two_pow (by decide)⟩
  · next month found =>
    cases read
    obtain ⟨_, -, named⟩ := Option.bind_eq_some_iff.1 found
    exact ⟨small, lt_of_month? named⟩

/-- The date of a date element has the form of a calendar exactly if its parts are in the range of
one. Its text is read as the same date exactly if the year is not negative and the day has no more
than two places, which is always so if the element has the date as a text itself. -/
theorem calendar_of_ofNode? (dated : ofNode? n = some d) :
    (IsCalendarText d.format ↔ (0 ≤ d.year ∧ d.year ≤ 9999) ∧ (1 ≤ d.month ∧ d.month ≤ 12) ∧
      (1 ≤ d.day ∧ d.day ≤ 31)) ∧
    (ofIso? d.format = some d ↔ 0 ≤ d.year ∧ d.day < 100) ∧
    ((n.attrText? "iso-8601-date").isSome → ofIso? d.format = some d) := by
  unfold ofNode? at dated
  split at dated
  · next iso given =>
    obtain ⟨⟨nonneg, year⟩, month, day⟩ := bounds_of_ofIso? dated
    have back := ofIso?_format_iff year month
    exact ⟨isCalendarText_format_iff, back, fun _ => back.2 ⟨nonneg, day⟩⟩
  · next none =>
    obtain ⟨year, month⟩ := bounds_of_ofElements? dated
    exact ⟨isCalendarText_format_iff, ofIso?_format_iff year month, by simp [none]⟩

/-- A month that no calendar has, and a day of which only a part is read back. -/
example :
    let given := Node.branch "pub-date" [.branch "year" [.text "2020"], .branch "month" [.text "13"],
      .branch "day" [.text "100"]]
    (ofNode? given).map format = some "2020-13-100" ∧
      ofIso? "2020-13-100" = some ⟨2020, 13, 10⟩ := by
  decide +kernel

end Manuscript.Date
