import Manuscript.Reference.Registry

/-!
Inheritance by letters. Identifiers inherit one after the other, in increasing order, and every
identifier is less than those that it inherits from. So what it reads is what was there before any
of them inherited, and inheriting is one step for all identifiers at once.
-/

set_option autoImplicit false

namespace Manuscript

/-! ### Dictionaries -/

namespace Dict

variable {α β : Type}

theorem lookup_filterMap (d : Dict α) (key : β → String) (other : String) (l : List β) :
    lookup other (l.filterMap fun b => (d.find? (key b)).map (key b, ·)) =
      if other ∈ l.map key then d.find? other else none := by
  induction l with
  | nil => rfl
  | cons b l ih =>
    rw [List.filterMap_cons, List.map_cons]
    cases found : d.find? (key b) with
    | none =>
      rw [Option.map_none, ih]
      by_cases same : other = key b
      · rw [same, found, ite_self, ite_self]
      · simp only [List.mem_cons, same, false_or]
    | some value =>
      rw [Option.map_some, lookup, ih]
      by_cases same : other = key b
      · rw [if_pos same, same, if_pos List.mem_cons_self, found]
      · rw [if_neg same]
        simp only [List.mem_cons, same, false_or]

theorem keys_eq_of_isSome {d e : Dict α}
    (same : ∀ key, (d.find? key).isSome = (e.find? key).isSome) : d.keys = e.keys := by
  have shape : d.map (fun _ => ()) = e.map fun _ => () := by
    apply ext_find?
    intro key
    have here := same key
    rw [find?_map, find?_map]
    cases left : d.find? key <;> cases right : e.find? key <;> simp_all
  have keys (d : Dict α) : (d.map fun _ => ()).keys = d.keys := by
    simp [keys, map, Function.comp_def]
  rw [← keys d, shape, keys e]

end Dict

namespace Reference.Registry

/-! ### Letters -/

def letters : List Char := "abcdefghijklmnopqrstuvwxyz".toList

theorem isLowerLatin_iff {c : Char} : Text.isLowerLatin c = true ↔ c ∈ letters := by
  have spelled : letters = (List.range 26).map fun i => Char.ofNat (97 + i) := by decide +kernel
  have back : ∀ c ∈ letters, Text.isLowerLatin c = true :=
    List.all_eq_true.1 (by decide +kernel)
  refine ⟨fun lower => ?_, back c⟩
  simp only [Text.isLowerLatin, Bool.and_eq_true, decide_eq_true_eq] at lower
  have low : 97 ≤ c.toNat := lower.1
  have high : c.toNat ≤ 122 := lower.2
  rw [spelled, List.mem_map]
  refine ⟨c.toNat - 97, List.mem_range.2 (by omega), ?_⟩
  rw [Nat.add_sub_cancel' low, Char.ofNat_toNat]

theorem isLettered_iff {name candidate : String} :
    isLettered name candidate = true ↔ candidate ∈ letters.map name.push := by
  have pushed (c : Char) : candidate.toList = name.toList ++ [c] ↔ name.push c = candidate := by
    rw [← String.toList_inj, String.toList_push, eq_comm]
  rw [isLettered, List.mem_map]
  constructor
  · intro lettered
    split at lettered
    · next c rest =>
      exact ⟨c, isLowerLatin_iff.1 lettered, (pushed c).1 (Text.rest?_eq_some_iff.1 rest)⟩
    · cases lettered
  · rintro ⟨c, mem, same⟩
    rw [Text.rest?_eq_some_iff.2 ((pushed c).2 same)]
    exact isLowerLatin_iff.2 mem

theorem lt_push (name : String) (c : Char) : name < name.push c := by
  rw [String.lt_iff, String.toList_push]
  induction name.toList with
  | nil => exact List.nil_lt_cons c []
  | cons d cs ih => exact List.cons_lt_cons_iff.2 (.inr ⟨rfl, ih⟩)

theorem push_lt_push (name : String) {c d : Char} (lt : c < d) : name.push c < name.push d := by
  rw [String.lt_iff, String.toList_push, String.toList_push]
  induction name.toList with
  | nil => exact List.cons_lt_cons_iff.2 (.inl lt)
  | cons e cs ih => exact List.cons_lt_cons_iff.2 (.inr ⟨rfl, ih⟩)

/-! ### One identifier -/

/-- What an identifier followed by a letter stands for, for the letters from a to z in order. -/
def lettered (lookup : Lookup) (name : String) : List Resolution :=
  letters.flatMap fun c => (lookup.find? (name.push c)).getD []

theorem filter_isLettered (lookup : Lookup) (name : String) :
    (lookup.entries.filter fun entry => isLettered name entry.1) =
      letters.filterMap fun c => (lookup.find? (name.push c)).map (name.push c, ·) := by
  refine Dict.eq_of_lookup (lookup.sorted.filter _) ?_ fun key => ?_
  · have increasing : letters.Pairwise (· < ·) := by decide
    refine List.pairwise_filterMap.2 (increasing.imp ?_)
    intro c d lt entry first entry' second
    obtain ⟨_, _, rfl⟩ := Option.map_eq_some_iff.1 first
    obtain ⟨_, _, rfl⟩ := Option.map_eq_some_iff.1 second
    exact push_lt_push name lt
  · rw [Dict.lookup_filter, Dict.lookup_filterMap, ← Dict.find?]
    simp only [isLettered_iff]

theorem inherited_eq (lookup : Lookup) (name : String) :
    (lookup.entries.filter fun entry => isLettered name entry.1).flatMap (·.2) =
      lettered lookup name := by
  rw [filter_isLettered, lettered]
  induction letters with
  | nil => rfl
  | cons c cs ih =>
    rw [List.filterMap_cons, List.flatMap_cons, ← ih]
    cases lookup.find? (name.push c) <;> rfl

theorem find?_inherit_of_ne {lookup : Lookup} {name other : String} (ne : other ≠ name) :
    (inherit lookup name).find? other = lookup.find? other := by
  unfold inherit
  simp only
  split
  · rfl
  · rw [Dict.find?_insert, if_neg ne]

theorem find?_inherit_self {lookup : Lookup} {name : String}
    (bare : lookup.find? name = some []) :
    (inherit lookup name).find? name = some (lettered lookup name) := by
  simp only [inherit, inherited_eq]
  split
  · next none => rw [bare, List.isEmpty_iff.1 none]
  · rw [Dict.find?_insert, if_pos rfl]

/-- An identifier reads nothing that a lesser one changes by inheriting. -/
theorem lettered_inherit {lookup : Lookup} {name other : String} (lt : name < other) :
    lettered (inherit lookup name) other = lettered lookup other := by
  have apart (c : Char) : other.push c ≠ name :=
    (String.ne_of_lt (String.lt_trans lt (lt_push other c))).symm
  simp only [lettered, find?_inherit_of_ne (apart _)]

/-! ### All identifiers -/

/-- Identifiers without resolutions that inherit one after the other, in increasing order, get what
each would get if it were the only one. -/
theorem find?_foldl_inherit {names : List String} (increasing : names.Pairwise (· < ·))
    {lookup : Lookup} (bare : ∀ name ∈ names, lookup.find? name = some []) (other : String) :
    (names.foldl inherit lookup).find? other =
      if other ∈ names then some (lettered lookup other) else lookup.find? other := by
  induction names generalizing lookup with
  | nil => rfl
  | cons name names ih =>
    obtain ⟨less, rest⟩ := List.pairwise_cons.1 increasing
    obtain ⟨here, later⟩ := List.forall_mem_cons.1 bare
    have still : ∀ n ∈ names, (inherit lookup name).find? n = some [] := fun n mem => by
      rw [find?_inherit_of_ne (String.ne_of_lt (less n mem)).symm, later n mem]
    rw [List.foldl_cons, ih rest still]
    by_cases mem : other ∈ names
    · rw [if_pos mem, if_pos (List.mem_cons_of_mem name mem), lettered_inherit (less other mem)]
    · by_cases same : other = name
      · rw [if_neg mem, same, find?_inherit_self here, if_pos List.mem_cons_self]
      · rw [if_neg mem, find?_inherit_of_ne same, if_neg (by simp [same, mem])]

theorem mem_bare_iff {lookup : Lookup} {name : String} :
    name ∈ (lookup.entries.filter (·.2.isEmpty)).map (·.1) ↔ lookup.find? name = some [] := by
  rw [Dict.find?_eq_some_iff, List.mem_map]
  constructor
  · rintro ⟨⟨key, resolutions⟩, mem, rfl⟩
    obtain ⟨place, empty⟩ := List.mem_filter.1 mem
    obtain rfl : resolutions = [] := List.isEmpty_iff.1 empty
    exact place
  · exact fun mem => ⟨(name, []), List.mem_filter.2 ⟨mem, rfl⟩, rfl⟩

theorem find?_inheritAll_eq (r : Registry) (name : String) :
    r.inheritAll.lookup.find? name =
      if r.lookup.find? name = some [] then some (lettered r.lookup name)
      else r.lookup.find? name := by
  have increasing : ((r.lookup.entries.filter (·.2.isEmpty)).map (·.1)).Pairwise (· < ·) :=
    List.pairwise_map.2 (r.lookup.sorted.filter _)
  have all := find?_foldl_inherit increasing (fun _ mem => mem_bare_iff.1 mem) name
  simp only [mem_bare_iff] at all
  exact all

theorem find?_inheritAll {r : Registry} {name : String} {resolutions : List Resolution}
    (found : r.lookup.find? name = some resolutions) (nonempty : resolutions ≠ []) :
    r.inheritAll.lookup.find? name = some resolutions := by
  rw [find?_inheritAll_eq, found, if_neg (by simpa using nonempty)]

theorem isSome_find?_inheritAll (r : Registry) (name : String) :
    (r.inheritAll.lookup.find? name).isSome = (r.lookup.find? name).isSome := by
  rw [find?_inheritAll_eq]
  split
  · next bare => rw [bare]; rfl
  · rfl

/-- Inheritance by letters is one step: of the registry before it, the keys stay, a key with
resolutions keeps them, and one without gets what the registry before has under it with one letter
more. -/
theorem inheritance_is_one_step (sources : Sources) (a : Article) {r : Registry}
    (registered : ofReferences sources a.references = .ok r) :
    ∃ before, addAll sources .empty 0 a.references = .ok before ∧
      r = { before with lookup := r.lookup } ∧ r.lookup.keys = before.lookup.keys ∧
      (∀ name resolutions, before.lookup.find? name = some resolutions → resolutions ≠ [] →
        r.lookup.find? name = some resolutions) ∧
      ∀ name, before.lookup.find? name = some [] →
        r.lookup.find? name = some (lettered before.lookup name) := by
  unfold ofReferences at registered
  cases added : addAll sources .empty 0 a.references with
  | error fault => rw [added] at registered; cases registered
  | ok before =>
    rw [added] at registered
    cases registered
    refine ⟨before, rfl, rfl, Dict.keys_eq_of_isSome (isSome_find?_inheritAll before), ?_,
      fun name bare => ?_⟩
    · exact fun name resolutions found nonempty => find?_inheritAll found nonempty
    · rw [find?_inheritAll_eq, if_pos bare]

/-- An article with entries that hold nothing, r3 and r3a, and entries that hold a note each, r3aa
and r3b. -/
def chainedArticle : Article :=
  let ref (id : String) (parts : List Node) : Node :=
    (Node.branch "ref" parts).setAttr "id" (.string id)
  .ofTree (.branch "article" [.branch "back" [.branch "ref-list"
    [ref "r3" [], ref "r3a" [], ref "r3aa" [.branch "note" []], ref "r3b" [.branch "note" []]]]])

theorem inheritance_is_one_step_chained :
    ∃ r, ofReferences {} chainedArticle.references = .ok r ∧
      ∃ before, addAll {} .empty 0 chainedArticle.references = .ok before ∧
        r = { before with lookup := r.lookup } ∧ r.lookup.keys = before.lookup.keys ∧
        (∀ name resolutions, before.lookup.find? name = some resolutions → resolutions ≠ [] →
          r.lookup.find? name = some resolutions) ∧
        ∀ name, before.lookup.find? name = some [] →
          r.lookup.find? name = some (lettered before.lookup name) := by
  have works : (ofReferences {} chainedArticle.references).toOption.isSome = true := by
    decide +kernel
  cases registered : ofReferences {} chainedArticle.references with
  | error fault => rw [registered] at works; cases works
  | ok r => exact ⟨r, rfl, inheritance_is_one_step {} chainedArticle registered⟩

/-- What r3a inherits is not handed on to r3. -/
example : (ofReferences {} chainedArticle.references).toOption.map (·.lookup.entries) = some
    [("r3", [.footnote "2"]), ("r3a", [.footnote "1"]), ("r3aa", [.footnote "1"]),
      ("r3b", [.footnote "2"])] := by
  decide +kernel

end Reference.Registry

end Manuscript
