import Manuscript.Pmid.Cache

/-!
Filling the cache of PubMed identifiers. What is missing is asked for and the answers are recorded,
each under the normal form of what was asked for. An identifier stops being missing if it is the
normal form of one that was; so the second round of asking finds what a single one leaves, and
every further round too.
-/

set_option autoImplicit false

namespace Manuscript

/-! ### Lengths of trimmed texts -/

theorem Text.length_trimWhile_le (p : Char → Bool) (cs : List Char) :
    (Text.trimWhile p cs).length ≤ cs.length := by
  obtain ⟨before, after, same, -, -⟩ := Text.exists_trimWhile p cs
  have length := congrArg List.length same
  simp only [List.length_append] at length
  omega

namespace Pmid

/-! ### Normal forms -/

/-- Whether a text is its own normal form. -/
def IsBare (s : String) : Prop := normalize s = s

instance : DecidablePred IsBare := fun s => inferInstanceAs (Decidable (normalize s = s))

def address? (s : String) : Option String :=
  (Text.after? "https://" s).orElse fun _ => Text.after? "http://" s

/-- Whether a text starts with `pmid`, in any case. -/
def isMarked (s : String) : Bool := Text.startsWith "pmid" (Text.lowerAscii s)

theorem normalize_of_address {s address : String} (found : address? (Text.trim s) = some address) :
    normalize s = pathOf address := by
  rw [address?] at found
  simp only [normalize, found]

theorem normalize_of_isMarked {s : String} (none : address? (Text.trim s) = none)
    (marked : isMarked (Text.trim s) = true) : normalize s =
      Text.trim (String.ofList
        (((Text.trim s).toList.drop 4).dropWhile fun c => c == ':' || c == ' ')) := by
  rw [address?] at none
  rw [isMarked] at marked
  simp only [normalize, none, marked, if_true]

theorem normalize_of_not_isMarked {s : String} (none : address? (Text.trim s) = none)
    (other : isMarked (Text.trim s) = false) : normalize s = Text.trim s := by
  rw [address?] at none
  rw [isMarked] at other
  simp only [normalize, none, other, Bool.false_eq_true, if_false]

theorem length_lt_of_address? {s address : String} (found : address? s = some address) :
    address.toList.length < s.toList.length := by
  have behind {lead : String} (long : 0 < lead.toList.length)
      (found : Text.after? lead s = some address) : address.toList.length < s.toList.length := by
    rw [Text.after?_eq_some_iff.1 found, String.toList_append, List.length_append]
    omega
  unfold address? at found
  cases secure : Text.after? "https://" s with
  | some rest =>
    rw [secure] at found
    cases found
    exact behind (by decide) secure
  | none =>
    rw [secure] at found
    exact behind (by decide) found

theorem length_trim_le (s : String) : (Text.trim s).toList.length ≤ s.toList.length := by
  rw [Text.trim, String.toList_ofList]
  exact Text.length_trimWhile_le _ _

theorem length_pathOf_le (address : String) :
    (pathOf address).toList.length ≤ address.toList.length := by
  have cut := Text.length_dropWhile_le (· ≠ '/') address.toList
  have trimmed := Text.length_trimWhile_le (· == '/')
    ((address.toList.dropWhile (· ≠ '/')).drop 1)
  rw [pathOf, String.toList_ofList]
  rw [List.length_drop] at trimmed
  omega

theorem four_le_length_of_isMarked {s : String} (marked : isMarked s = true) :
    4 ≤ s.toList.length := by
  obtain ⟨tail, found⟩ := Option.isSome_iff_exists.1 marked
  have same := congrArg (List.length ∘ String.toList) (Text.after?_eq_some_iff.1 found)
  simp only [Function.comp_apply, Text.lowerAscii, String.toList_ofList, List.length_map,
    String.toList_append, List.length_append] at same
  have lead : "pmid".toList.length = 4 := rfl
  omega

/-- The bare identifiers are the trimmed texts that are neither an address nor marked as a PubMed
identifier: every other spelling has a shorter normal form. -/
theorem isBare_iff {s : String} :
    IsBare s ↔ Text.trim s = s ∧ address? s = none ∧ isMarked s = false := by
  constructor
  · intro bare
    -- Any other spelling is longer than what is read from it.
    have length := congrArg (List.length ∘ String.toList) bare
    have short := length_trim_le s
    simp only [Function.comp_apply] at length
    cases found : address? (Text.trim s) with
    | some address =>
      rw [normalize_of_address found] at length
      have := length_lt_of_address? found
      have := length_pathOf_le address
      omega
    | none =>
      cases marked : isMarked (Text.trim s) with
      | true =>
        have := four_le_length_of_isMarked marked
        rw [normalize_of_isMarked found marked] at length
        have number := length_trim_le (String.ofList
          (((Text.trim s).toList.drop 4).dropWhile fun c => c == ':' || c == ' '))
        have cut := Text.length_dropWhile_le (fun c => c == ':' || c == ' ')
          ((Text.trim s).toList.drop 4)
        rw [String.toList_ofList] at number
        rw [List.length_drop] at cut
        omega
      | false =>
        have trimmed : Text.trim s = s := (normalize_of_not_isMarked found marked).symm.trans bare
        rw [trimmed] at found marked
        exact ⟨trimmed, found, marked⟩
  · rintro ⟨trimmed, none, other⟩
    rw [← trimmed] at none other
    exact (normalize_of_not_isMarked none other).trans trimmed

namespace Cache

/-! ### What is recorded -/

theorem contains_foldl_insert (entries : List (String × Option String)) (cache : Cache)
    (key : String) :
    (entries.foldl (fun cache (pmid, doi) => cache.insert pmid doi) cache).entries.contains key =
      (cache.entries.contains key || entries.any fun entry => normalize entry.1 == key) := by
  induction entries generalizing cache with
  | nil => rw [List.foldl_nil, List.any_nil, Bool.or_false]
  | cons entry entries ih =>
    have recorded : (cache.insert entry.1 entry.2).entries.contains key =
        (cache.entries.contains key || normalize entry.1 == key) := by
      rw [Bool.or_comm, Bool.beq_comm]
      exact Dict.contains_insert cache.entries (normalize entry.1) key entry.2
    rw [List.foldl_cons, ih, recorded, List.any_cons, Bool.or_assoc]

theorem contains_extend (cache : Cache) (findings : Findings) (key : String) :
    (cache.extend findings).entries.contains key =
      (cache.entries.contains key || findings.keys.any (normalize · == key)) := by
  rw [extend, contains_foldl_insert, Dict.keys, List.any_map]
  rfl

/-! ### What is missing -/

/-- The texts of a list that are neither empty nor known, each once. -/
def unknown (known : String → Bool) (keys : List String) : List String :=
  keys.foldl (fun out key =>
    if key.isEmpty || known key || out.contains key then out else out ++ [key]) []

theorem missing_eq_unknown (cache : Cache) (pmids : List String) :
    cache.missing pmids = unknown cache.entries.contains (pmids.map normalize) := by
  rw [unknown, List.foldl_map]
  rfl

theorem mem_unknown_iff {known : String → Bool} {keys : List String} {key : String} :
    key ∈ unknown known keys ↔ key ∈ keys ∧ key ≠ "" ∧ known key = false := by
  have grow : ∀ keys out : List String, key ∈ keys.foldl (fun out key =>
        if key.isEmpty || known key || out.contains key then out else out ++ [key]) out ↔
      key ∈ out ∨ key ∈ keys ∧ key ≠ "" ∧ known key = false := by
    intro keys
    induction keys with
    | nil => simp
    | cons first keys ih =>
      intro out
      rw [List.foldl_cons, ih, List.mem_cons]
      by_cases same : key = first
      · subst same
        by_cases listed : key ∈ out <;> by_cases empty : key = "" <;>
          cases known key <;> simp [listed, empty]
      · split <;> simp [same]
  exact (grow keys []).trans (by simp)

theorem unknown_eq_filter {known more both : String → Bool}
    (joined : ∀ key, both key = (known key || more key)) (keys : List String) :
    unknown both keys = (unknown known keys).filter (!more ·) := by
  have grow : ∀ keys out : List String, keys.foldl (fun out key =>
        if key.isEmpty || both key || out.contains key then out else out ++ [key])
        (out.filter (!more ·)) =
      (keys.foldl (fun out key =>
        if key.isEmpty || known key || out.contains key then out else out ++ [key])
        out).filter (!more ·) := by
    intro keys
    induction keys with
    | nil => exact fun _ => rfl
    | cons key keys ih =>
      intro out
      rw [List.foldl_cons, List.foldl_cons, ← ih]
      congr 1
      have listed : (out.filter (!more ·)).contains key = (out.contains key && !more key) := by
        rw [Bool.eq_iff_iff]
        simp [List.mem_filter]
      rw [joined, listed]
      cases key.isEmpty <;> cases known key <;> cases found : more key <;>
        cases out.contains key <;> simp [found]
  exact grow keys []

/-- Whether findings hold an answer for each text of a list, and for no other. -/
def Answers (findings : Findings) (asked : List String) : Prop :=
  ∀ key, key ∈ findings.keys ↔ key ∈ asked

section
variable {cache : Cache} {findings : Findings} {pmids : List String}

/-- With an answer for all that is missing, it stays missing unless it is the normal form of
something that was missing. -/
theorem missing_extend (answered : Answers findings (cache.missing pmids)) :
    (cache.extend findings).missing pmids =
      (cache.missing pmids).filter fun key => !(cache.missing pmids).any (normalize · == key) := by
  rw [missing_eq_unknown (cache.extend findings), missing_eq_unknown cache]
  apply unknown_eq_filter
  intro key
  rw [contains_extend, ← missing_eq_unknown]
  congr 1
  rw [Bool.eq_iff_iff, List.any_eq_true, List.any_eq_true]
  exact exists_congr fun name => and_congr_left fun _ => answered name

theorem missing_extend_eq_nil_iff (answered : Answers findings (cache.missing pmids)) :
    (cache.extend findings).missing pmids = [] ↔
      ∀ key ∈ cache.missing pmids, ∃ asked ∈ cache.missing pmids, normalize asked = key := by
  rw [missing_extend answered, List.filter_eq_nil_iff]
  simp

-- The normal form of `PMID: PMID: 5` is not bare, so its answer is recorded under another key.
example : missing (extend empty (Dict.ofList [("PMID: 5", none)])) ["PMID: PMID: 5"] =
    missing empty ["PMID: PMID: 5"] := by decide +kernel

/-- Where every spelling has a bare normal form, nothing is missing when all is answered. -/
theorem missing_extend_eq_nil (answered : Answers findings (cache.missing pmids))
    (bare : ∀ pmid ∈ pmids, IsBare (normalize pmid)) :
    (cache.extend findings).missing pmids = [] := by
  rw [missing_extend_eq_nil_iff answered]
  intro key mem
  have spelled := mem
  rw [missing_eq_unknown] at spelled
  obtain ⟨pmid, listed, rfl⟩ := List.mem_map.1 (mem_unknown_iff.1 spelled).1
  exact ⟨normalize pmid, mem, bare pmid listed⟩

end

/-! ### Rounds -/

section
variable (answer : String → Option String) (pmids : List String)

/-- Asks for all that is missing and records the answers. -/
def fetch (cache : Cache) : Cache :=
  cache.extend (Dict.ofList ((cache.missing pmids).map fun key => (key, answer key)))

def fetched : (rounds : Nat) → Cache → Cache
  | 0, cache => cache
  | rounds + 1, cache => fetched rounds (fetch answer pmids cache)

theorem missing_fetch (cache : Cache) : (fetch answer pmids cache).missing pmids =
    (cache.missing pmids).filter fun key => !(cache.missing pmids).any (normalize · == key) := by
  apply missing_extend
  intro key
  rw [Dict.mem_keys_iff, Dict.contains_ofList]
  simp

/-- The first round settles what will ever be found: every further one leaves the same missing. -/
theorem missing_fetched (rounds : Nat) (cache : Cache) :
    (fetched answer pmids (rounds + 1) cache).missing pmids =
      (fetch answer pmids cache).missing pmids := by
  induction rounds generalizing cache with
  | zero => rfl
  | succ rounds ih =>
    rw [fetched, ih, missing_fetch, missing_fetch]
    -- What the second round asks for was asked for in the first, so it records nothing new.
    rw [List.filter_eq_self]
    intro key mem
    rw [List.mem_filter, Bool.not_eq_true', List.any_eq_false] at mem
    rw [Bool.not_eq_true', List.any_eq_false]
    exact fun asked place => mem.2 asked (List.mem_filter.1 place).1

end

end Cache

end Pmid

end Manuscript
