import Manuscript.Doi
import Manuscript.Proofs.Text.Digits

/-!
The bare form of a digital object identifier. Whatever is normalised comes out in it, and from its
address it is read back. The texts that are normalised to it are the ones that spell it: with or
without a resolver in front, and with any blanks around the two. An identifier in running text comes
out in the bare form too, unless the punctuation that was cut off at its end was all of its name.
-/

set_option autoImplicit false

namespace Manuscript

namespace Doi

/-! ### The bare form -/

/-- What stands in front of the name of an identifier. -/
def stem (registrant : List Char) : List Char := '1' :: '0' :: '.' :: (registrant ++ ['/'])

/-- Whether characters are a registrant, written in the given digits. -/
structure IsRegistrant (digit : Char → Bool) (registrant : List Char) : Prop where
  digits : ∀ c ∈ registrant, digit c = true
  least : 4 ≤ registrant.length
  most : registrant.length ≤ 9

section
variable {digit : Char → Bool} {cs registrant name : List Char}

/-- Reading as many digits as there are finds what stands in front of the slash. -/
theorem span_slash_iff (slash : digit '/' = false) :
    cs.takeWhile digit = registrant ∧ cs.dropWhile digit = '/' :: name ↔
      cs = registrant ++ '/' :: name ∧ ∀ c ∈ registrant, digit c = true := by
  constructor
  · rintro ⟨rfl, rest⟩
    rw [← rest, List.takeWhile_append_dropWhile]
    exact ⟨rfl, List.all_eq_true.1 List.all_takeWhile⟩
  · rintro ⟨rfl, digits⟩
    rw [List.takeWhile_append_of_pos digits, List.dropWhile_append_of_pos digits]
    simp [slash]

theorem eq_stem_append {rest : List Char} (leads : Text.rest? ['1', '0', '.'] cs = some rest)
    (split : rest = registrant ++ '/' :: name) : cs = stem registrant ++ name := by
  simp [Text.rest?_eq_some_iff.1 leads, split, stem]

theorem isDecimal_slash : Text.isDecimal '/' = false := by decide +kernel

theorem isDecimal_of_isDigit {c : Char} (digit : Text.isDigit c = true) :
    Text.isDecimal c = true := by
  simp only [Text.isDigit, Bool.and_eq_true, decide_eq_true_eq] at digit
  have low : 0x30 ≤ c.toNat := digit.1
  have high : c.toNat ≤ 0x39 := digit.2
  -- These are the digits of the first range.
  rw [Text.isDecimal, Text.inRanges, List.any_eq_true]
  exact ⟨(0x30, 0x39), .head _, by simp [low, high]⟩

theorem IsRegistrant.isDecimal (isOne : IsRegistrant Text.isDigit registrant) :
    IsRegistrant Text.isDecimal registrant :=
  ⟨fun c mem => isDecimal_of_isDigit (isOne.digits c mem), isOne.least, isOne.most⟩

theorem hasForm_stem_append (isOne : IsRegistrant Text.isDecimal registrant) (name : List Char) :
    hasForm (stem registrant ++ name) = isName name := by
  have leads : Text.rest? ['1', '0', '.'] (stem registrant ++ name) =
      some (registrant ++ '/' :: name) := by
    simp [stem, Text.rest?]
  obtain ⟨taken, left⟩ := (span_slash_iff isDecimal_slash).2
    ⟨(rfl : registrant ++ '/' :: name = _), isOne.digits⟩
  simp [hasForm, leads, taken, left, isOne.least, isOne.most]

theorem exists_stem_of_hasForm (form : hasForm cs = true) : ∃ registrant name,
    cs = stem registrant ++ name ∧ IsRegistrant Text.isDecimal registrant ∧
      isName name = true := by
  unfold hasForm at form
  split at form
  · cases form
  · next rest leads =>
    simp only [Bool.and_eq_true, decide_eq_true_eq] at form
    obtain ⟨⟨least, most⟩, form⟩ := form
    split at form
    · next name slash =>
      obtain ⟨split, digits⟩ := (span_slash_iff isDecimal_slash).1 ⟨rfl, slash⟩
      exact ⟨_, name, eq_stem_append leads split, ⟨digits, least, most⟩, form⟩
    · cases form

theorem exists_stem_of_startsForm (form : startsForm cs = true) : ∃ registrant name,
    cs = stem registrant ++ name ∧ IsRegistrant Text.isDigit registrant := by
  unfold startsForm at form
  split at form
  · cases form
  · next rest leads =>
    simp only [Bool.and_eq_true, decide_eq_true_eq] at form
    obtain ⟨⟨least, most⟩, form⟩ := form
    split at form
    · next c rest slash =>
      obtain ⟨split, digits⟩ := (span_slash_iff (by decide)).1 ⟨rfl, slash⟩
      exact ⟨_, c :: rest, eq_stem_append leads split, digits, least, most⟩
    · cases form

/-! ### Spellings -/

theorem head?_stem_append (registrant name : List Char) :
    (stem registrant ++ name).head? = some '1' := rfl

theorem not_isBlank_of_mem_stem (isOne : IsRegistrant Text.isDecimal registrant) {c : Char}
    (mem : c ∈ stem registrant) : Text.isBlank c = false := by
  have others : ∀ c ∈ ['1', '0', '.', '/'], Text.isBlank c = false := by simp [Text.isBlank]
  by_cases digit : c ∈ registrant
  · exact Text.not_isBlank_of_isDecimal (isOne.digits c digit)
  · apply others
    simpa [stem, digit] using mem

theorem not_isBlank_of_hasForm (form : hasForm cs = true) : ∀ c ∈ cs, Text.isBlank c = false := by
  obtain ⟨registrant, name, rfl, isOne, isName⟩ := exists_stem_of_hasForm form
  obtain ⟨-, clean⟩ : name ≠ [] ∧ ∀ c ∈ name, Text.isBlank c = false := by
    simpa [Doi.isName] using isName
  exact List.forall_mem_append.2 ⟨fun c mem => not_isBlank_of_mem_stem isOne mem, clean⟩

theorem trimWhile_of_hasForm (form : hasForm cs = true) : Text.trimWhile Text.isBlank cs = cs :=
  Text.trimWhile_eq_self_of_forall_not (not_isBlank_of_hasForm form)

theorem trim_of_hasForm {d : String} (form : hasForm d.toList = true) : Text.trim d = d := by
  rw [Text.trim, trimWhile_of_hasForm form, String.ofList_toList]

theorem validate_of_hasForm {d : String} (form : hasForm d.toList = true) : validate d = true := by
  rw [validate, trimWhile_of_hasForm form, form]

/-- Blanks around a text do not make it less valid, so the bare form is what is valid and has no
blank. -/
theorem hasForm_iff {d : String} : hasForm d.toList = true ↔
    validate d = true ∧ ∀ c ∈ d.toList, Text.isBlank c = false := by
  constructor
  · intro form
    exact ⟨validate_of_hasForm form, not_isBlank_of_hasForm form⟩
  · rintro ⟨valid, clean⟩
    rwa [validate, Text.trimWhile_eq_self_of_forall_not clean] at valid

theorem validate_trim (s : String) : validate (Text.trim s) = hasForm (Text.trim s).toList := by
  rw [validate, Text.trim, String.toList_ofList, Text.trimWhile_trimWhile]

theorem hasForm_of_normalize {s d : String} (normal : normalize s = some d) :
    hasForm d.toList = true := by
  simp only [normalize, Option.ite_none_right_eq_some, Option.some.injEq] at normal
  obtain ⟨valid, bare⟩ := normal
  rwa [validate_trim, bare] at valid

/-- No resolver starts with another one, so that their order makes no difference. -/
theorem eq_of_resolver_isPrefix :
    ∀ p ∈ resolvers, ∀ q ∈ resolvers, p.toList <+: q.toList → p = q := by
  decide +kernel

theorem head?_resolver {resolver : String} (known : resolver ∈ resolvers) :
    ∃ c, resolver.toList.head? = some c ∧ Text.isBlank c = false ∧ c ≠ '1' := by
  simp only [resolvers, List.mem_cons, List.not_mem_nil, or_false] at known
  rcases known with rfl | rfl | rfl | rfl | rfl | rfl | rfl <;> exact ⟨_, rfl, by decide⟩

theorem withoutResolver_append {resolver : String} (known : resolver ∈ resolvers) (s : String) :
    withoutResolver (resolver ++ s) = s := by
  have leads : Text.after? resolver (resolver ++ s) = some s := Text.after?_eq_some_iff.2 rfl
  unfold withoutResolver
  cases found : resolvers.findSome? fun resolver' => Text.after? resolver' (resolver ++ s) with
  | none => rw [List.findSome?_eq_none_iff.1 found _ known] at leads; cases leads
  | some rest =>
    obtain ⟨other, known', leads'⟩ := List.exists_of_findSome?_eq_some found
    have split := congrArg String.toList (Text.after?_eq_some_iff.1 leads')
    rw [String.toList_append, String.toList_append] at split
    have same : resolver = other := by
      rcases List.prefix_or_prefix_of_prefix (List.prefix_append resolver.toList s.toList)
        (split ▸ List.prefix_append other.toList rest.toList) with shorter | shorter
      · exact eq_of_resolver_isPrefix _ known _ known' shorter
      · exact (eq_of_resolver_isPrefix _ known' _ known shorter).symm
    subst same
    exact (String.toList_inj.1 (List.append_cancel_left split)).symm

theorem toList_url (d : String) : (url d).toList = "https://doi.org/".toList ++ d.toList :=
  String.toList_append

theorem url_inj {d e : String} : url d = url e ↔ d = e := by
  simp [← String.toList_inj, toList_url]

theorem trim_url (d : String) :
    Text.trim (url d) = url (String.ofList (Text.dropEndWhile Text.isBlank d.toList)) := by
  have start : (url d).toList.dropWhile Text.isBlank = "https://doi.org/".toList ++ d.toList := by
    rw [toList_url]
    exact List.dropWhile_cons_of_neg (by decide)
  rw [Text.trim, Text.trimWhile, start, Text.dropEndWhile_append rfl (by decide)]
  apply String.toList_inj.1
  simp [toList_url]

theorem withoutResolver_url (d : String) : withoutResolver (url d) = d :=
  withoutResolver_append (.head _) d

/-- An address is read back, but for the blanks at the ends of what it was made of. -/
theorem normalize_url (d : String) :
    normalize (url d) = if validate d then some (Text.trim d) else none := by
  have bare : Text.trim (String.ofList (Text.dropEndWhile Text.isBlank d.toList)) =
      Text.trim d := by
    rw [Text.trim, String.toList_ofList, Text.trimWhile_dropEndWhile, ← Text.trim]
  rw [normalize, trim_url, withoutResolver_url, bare, validate_trim, Text.trim,
    String.toList_ofList, ← validate]

theorem normalize_url_of_hasForm {d : String} (form : hasForm d.toList = true) :
    normalize (url d) = some d := by
  rw [normalize_url, if_pos (validate_of_hasForm form), trim_of_hasForm form]

end

/-! ### Every spelling -/

/-- A text that is an identifier, alone or behind a resolver, with any blanks around the two. -/
inductive Spells (d : String) : String → Prop where
  | alone {before after : String} (front : Text.isBlankText before = true)
      (back : Text.isBlankText after = true) : Spells d (before ++ d ++ after)
  | resolved {before resolver between after : String} (known : resolver ∈ resolvers)
      (front : Text.isBlankText before = true) (gap : Text.isBlankText between = true)
      (back : Text.isBlankText after = true) :
      Spells d (before ++ (resolver ++ (between ++ d)) ++ after)

section
variable {d resolver s : String}

theorem getLast?_of_hasForm {cs : List Char} (form : hasForm cs = true) :
    ∃ c, cs.getLast? = some c ∧ Text.isBlank c = false := by
  cases last : cs.getLast? with
  | none => rw [List.getLast?_eq_none_iff.1 last] at form; cases form
  | some c => exact ⟨c, rfl, not_isBlank_of_hasForm form c (List.mem_of_getLast? last)⟩

theorem withoutResolver_of_hasForm (form : hasForm d.toList = true) : withoutResolver d = d := by
  obtain ⟨registrant, name, split, -, -⟩ := exists_stem_of_hasForm form
  have none : (resolvers.findSome? fun resolver => Text.after? resolver d) = none := by
    rw [List.findSome?_eq_none_iff]
    intro resolver known
    rw [Option.eq_none_iff_forall_ne_some]
    intro rest leads
    obtain ⟨c, head, -, other⟩ := head?_resolver known
    rw [Text.after?_eq_some_iff.1 leads, String.toList_append] at split
    have first := congrArg List.head? split
    rw [List.head?_append, head, head?_stem_append] at first
    exact other (Option.some.inj first)
  rw [withoutResolver, none, Option.getD_none]

theorem trim_resolved (form : hasForm d.toList = true) (known : resolver ∈ resolvers)
    (between : String) : Text.trim (resolver ++ (between ++ d)) = resolver ++ (between ++ d) := by
  obtain ⟨first, head, solid, -⟩ := head?_resolver known
  obtain ⟨last, end', solid'⟩ := getLast?_of_hasForm form
  have start : (resolver ++ (between ++ d)).toList.head? = some first := by simp [head]
  have finish : (resolver ++ (between ++ d)).toList.getLast? = some last := by
    simp [List.getLast?_append, end']
  rw [Text.trim, Text.trimWhile_eq_self start solid finish solid', String.ofList_toList]

theorem normalize_of_spells (form : hasForm d.toList = true) (spelled : Spells d s) :
    normalize s = some d := by
  have bare : Text.trim (withoutResolver (Text.trim s)) = d := by
    cases spelled with
    | alone front back =>
      rw [Text.trim_around front back, trim_of_hasForm form, withoutResolver_of_hasForm form,
        trim_of_hasForm form]
    | resolved known front gap back =>
      have trimmed := Text.trim_around gap (rfl : Text.isBlankText "" = true) d
      rw [String.append_empty] at trimmed
      rw [Text.trim_around front back, trim_resolved form known, withoutResolver_append known,
        trimmed, trim_of_hasForm form]
  rw [normalize, bare, if_pos (validate_of_hasForm form)]

theorem spells_of_normalize (normal : normalize s = some d) : Spells d s := by
  simp only [normalize, Option.ite_none_right_eq_some, Option.some.injEq] at normal
  obtain ⟨-, bare⟩ := normal
  obtain ⟨before, after, split, front, back⟩ := Text.exists_trim s
  unfold withoutResolver at bare
  cases found : resolvers.findSome? fun resolver => Text.after? resolver (Text.trim s) with
  | none =>
    rw [found, Option.getD_none, Text.trim_trim] at bare
    rw [bare] at split
    rw [split]
    exact .alone front back
  | some rest =>
    obtain ⟨resolver, known, leads⟩ := List.exists_of_findSome?_eq_some found
    obtain ⟨between, after', split', gap, back'⟩ := Text.exists_trim rest
    rw [found, Option.getD_some] at bare
    rw [bare] at split'
    rw [Text.after?_eq_some_iff.1 leads, split'] at split
    have whole : s = before ++ (resolver ++ (between ++ d)) ++ (after' ++ after) := by
      rw [split]
      simp only [String.append_assoc]
    rw [whole]
    exact .resolved known front gap (Text.isBlankText_append.2 ⟨back', back⟩)

end

/-- The identifiers that come out are the ones in the bare form, each from the texts that spell it.
One that comes out is the normal form of itself and of its address. -/
theorem normalize_is_canonical (s d : String) :
    (normalize s = some d ↔
      (validate d = true ∧ ∀ c ∈ d.toList, Text.isBlank c = false) ∧ Spells d s) ∧
    (normalize s = some d → normalize d = some d ∧ toUrl s = some ("https://doi.org/" ++ d) ∧
      (toUrl s).bind normalize = some d) := by
  constructor
  · constructor
    · intro normal
      exact ⟨hasForm_iff.1 (hasForm_of_normalize normal), spells_of_normalize normal⟩
    · rintro ⟨isForm, spelled⟩
      exact normalize_of_spells (hasForm_iff.2 isForm) spelled
  · intro normal
    have form := hasForm_of_normalize normal
    have alone : Spells d ("" ++ d ++ "") := .alone rfl rfl
    have address : toUrl s = some (url d) := by rw [toUrl, normal, Option.map_some]
    rw [String.empty_append, String.append_empty] at alone
    refine ⟨normalize_of_spells form alone, address, ?_⟩
    rw [address, Option.bind_some, normalize_url_of_hasForm form]

theorem normalize_is_canonical_padded :
    normalize "\t http://dx.doi.org/\u2003 10.１２３４/a(b). \n" = some "10.１２３４/a(b)." ∧
      toUrl "\t http://dx.doi.org/\u2003 10.１２３４/a(b). \n" =
        some "https://doi.org/10.１２３４/a(b)." := by
  obtain ⟨spelled_iff, canonical⟩ := normalize_is_canonical
    "\t http://dx.doi.org/\u2003 10.１２３４/a(b). \n" "10.１２３４/a(b)."
  have form : hasForm "10.１２３４/a(b).".toList = true := by decide +kernel
  have spelled := @Spells.resolved "10.１２３４/a(b)." "\t " "http://dx.doi.org/" "\u2003 " " \n"
    (by decide) (by decide) (by decide) (by decide)
  have normal := spelled_iff.2 ⟨hasForm_iff.1 form, spelled⟩
  exact ⟨normal, (canonical normal).2.1⟩

/-! ### Running text -/

theorem getLast?_stem (registrant : List Char) : (stem registrant).getLast? = some '/' :=
  List.getLast?_concat (l := '1' :: '0' :: '.' :: registrant)

/-- What is found in running text has a registrant and a slash. Its name is what is left when the
punctuation is cut off, and that may be nothing. -/
theorem exists_stem_of_inText? {cs : List Char} {d : String} (found : inText? cs = some d) :
    ∃ registrant name, d.toList = stem registrant ++ name ∧ IsRegistrant Text.isDigit registrant ∧
      ∀ c ∈ name, Text.isBlank c = false := by
  induction cs with
  | nil => cases found
  | cons c cs ih =>
    rw [inText?] at found
    split at found
    · next form =>
      obtain ⟨registrant, name, split, isOne⟩ := exists_stem_of_startsForm form
      have whole : ∀ c ∈ stem registrant, (!Text.isBlank c) = true := by
        intro c mem
        simp [not_isBlank_of_mem_stem isOne.isDecimal mem]
      -- The slash is no punctuation, so that only the name is cut.
      have cut := Text.dropEndWhile_append (p := (['.', ',', ';', ')'].contains ·))
        (getLast?_stem registrant) (by decide) (name.takeWhile (!Text.isBlank ·))
      rw [split, List.takeWhile_append_of_pos whole, cut] at found
      have spelled := congrArg String.toList (Option.some.inj found)
      rw [String.toList_ofList] at spelled
      refine ⟨registrant, _, spelled.symm, isOne, fun c mem => ?_⟩
      have kept := (Text.dropEndWhile_prefix _ _).subset mem
      simpa using List.all_eq_true.1 List.all_takeWhile c kept
    · exact ih found

/-- An identifier in running text is in the bare form unless all of its name was cut off. -/
theorem hasForm_or_eq_stem_of_inText? {cs : List Char} {d : String} (found : inText? cs = some d) :
    hasForm d.toList = true ∨ ∃ registrant, d.toList = stem registrant ∧
      IsRegistrant Text.isDigit registrant := by
  obtain ⟨registrant, name, spelled, isOne, clean⟩ := exists_stem_of_inText? found
  rw [spelled, hasForm_stem_append isOne.isDecimal]
  cases name with
  | nil => exact .inr ⟨registrant, List.append_nil _, isOne⟩
  | cons c name => exact .inl (by simpa [isName] using clean)

theorem not_validate_of_eq_stem {registrant : List Char} {d : String}
    (spelled : d.toList = stem registrant) (isOne : IsRegistrant Text.isDigit registrant) :
    validate d = false := by
  have trimmed : Text.trimWhile Text.isBlank (stem registrant) = stem registrant :=
    Text.trimWhile_eq_self_of_forall_not fun _ => not_isBlank_of_mem_stem isOne.isDecimal
  have nameless := hasForm_stem_append isOne.isDecimal []
  rw [List.append_nil] at nameless
  rw [validate, spelled, trimmed, nameless]
  rfl

end Doi

end Manuscript
