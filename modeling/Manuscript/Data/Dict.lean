/-!
Dictionaries from texts, in increasing order of their keys. A key occurs once, so two dictionaries
with the same lookups are equal; the main statements give the lookups after an insertion and after
an erasure.
-/

set_option autoImplicit false

namespace Manuscript

/-- A finite map from texts, listed by increasing key. -/
@[ext] structure Dict (α : Type) where
  entries : List (String × α)
  sorted : entries.Pairwise fun a b => a.1 < b.1

namespace Dict

variable {α β : Type}

def empty : Dict α := ⟨[], .nil⟩

instance : Inhabited (Dict α) := ⟨empty⟩

instance [BEq α] : BEq (Dict α) := ⟨fun d e => d.entries == e.entries⟩

instance [BEq α] [LawfulBEq α] : LawfulBEq (Dict α) where
  eq_of_beq h := Dict.ext (eq_of_beq (α := List (String × α)) h)
  rfl := beq_self_eq_true (α := List (String × α)) _

def isEmpty (d : Dict α) : Bool := d.entries.isEmpty

def size (d : Dict α) : Nat := d.entries.length

def keys (d : Dict α) : List String := d.entries.map (·.1)

def values (d : Dict α) : List α := d.entries.map (·.2)

def lookup (key : String) : List (String × α) → Option α
  | [] => none
  | (k, v) :: rest => if key = k then some v else lookup key rest

def find? (d : Dict α) (key : String) : Option α := lookup key d.entries

def contains (d : Dict α) (key : String) : Bool := (d.find? key).isSome

/-- Puts `value` under `key` at its place, instead of the value that is there. -/
def put (key : String) (value : α) : List (String × α) → List (String × α)
  | [] => [(key, value)]
  | (k, v) :: rest =>
    if key = k then (key, value) :: rest
    else if key < k then (key, value) :: (k, v) :: rest
    else (k, v) :: put key value rest

theorem mem_put {key : String} {value : α} {entry : String × α} {l : List (String × α)}
    (h : entry ∈ put key value l) : entry = (key, value) ∨ entry ∈ l := by
  induction l with
  | nil => simpa [put] using h
  | cons head rest ih =>
    obtain ⟨k, v⟩ := head
    simp only [put] at h
    split at h
    · rcases List.mem_cons.1 h with h | h
      · exact .inl h
      · exact .inr (List.mem_cons_of_mem _ h)
    · split at h
      · rcases List.mem_cons.1 h with h | h
        · exact .inl h
        · exact .inr h
      · rcases List.mem_cons.1 h with h | h
        · exact .inr (h ▸ List.mem_cons_self)
        · rcases ih h with h | h
          · exact .inl h
          · exact .inr (List.mem_cons_of_mem _ h)

private theorem lt_of_not_lt_of_ne {a b : String} (ne : a ≠ b) (h : ¬ a < b) : b < a := by
  rcases String.le_total a b with le | le
  · exact absurd (String.le_antisymm le (String.not_lt.1 h)) ne
  · exact Classical.byContradiction fun g => ne (String.le_antisymm (String.not_lt.1 g) le)

theorem sorted_put {key : String} {value : α} {l : List (String × α)}
    (h : l.Pairwise fun a b => a.1 < b.1) : (put key value l).Pairwise fun a b => a.1 < b.1 := by
  induction l with
  | nil => simp [put]
  | cons head rest ih =>
    obtain ⟨k, v⟩ := head
    obtain ⟨below, tail⟩ := List.pairwise_cons.1 h
    simp only [put]
    split
    · next eq => subst eq; exact List.pairwise_cons.2 ⟨below, tail⟩
    · next ne =>
      split
      · next lt =>
        refine List.pairwise_cons.2 ⟨fun a ha => ?_, h⟩
        rcases List.mem_cons.1 ha with rfl | ha
        · exact lt
        · exact String.lt_trans lt (below a ha)
      · next nlt =>
        refine List.pairwise_cons.2 ⟨fun a ha => ?_, ih tail⟩
        rcases mem_put ha with rfl | ha
        · exact lt_of_not_lt_of_ne ne nlt
        · exact below a ha

def insert (d : Dict α) (key : String) (value : α) : Dict α :=
  ⟨put key value d.entries, sorted_put d.sorted⟩

def insert? (d : Dict α) (key : String) : Option α → Dict α
  | some value => d.insert key value
  | none => d

def erase (d : Dict α) (key : String) : Dict α :=
  ⟨d.entries.filter fun entry => entry.1 ≠ key, d.sorted.filter _⟩

def ofList (l : List (String × α)) : Dict α :=
  l.foldl (fun d (key, value) => d.insert key value) empty

/-- Inserts all entries of `e`; they replace those of `d`. -/
def insertAll (d e : Dict α) : Dict α :=
  e.entries.foldl (fun d (key, value) => d.insert key value) d

def map (f : α → β) (d : Dict α) : Dict β where
  entries := d.entries.map fun (key, value) => (key, f value)
  sorted := by
    rw [List.pairwise_map]
    exact d.sorted

/-! ### Lookups -/

theorem lookup_put_self (key : String) (value : α) (l : List (String × α)) :
    lookup key (put key value l) = some value := by
  induction l with
  | nil => simp [put, lookup]
  | cons head rest ih =>
    obtain ⟨k, v⟩ := head
    simp only [put]
    split
    · simp [lookup]
    · split
      · simp [lookup]
      · next ne _ => simp [lookup, ne, ih]

theorem lookup_put_of_ne {key other : String} (ne : other ≠ key) (value : α)
    (l : List (String × α)) : lookup other (put key value l) = lookup other l := by
  induction l with
  | nil => simp [put, lookup, ne]
  | cons head rest ih =>
    obtain ⟨k, v⟩ := head
    simp only [put]
    split
    · next eq => subst eq; simp [lookup, ne]
    · split
      · simp [lookup, ne]
      · simp only [lookup, ih]

@[simp] theorem find?_empty (key : String) : (empty : Dict α).find? key = none := rfl

theorem find?_insert (d : Dict α) (key other : String) (value : α) :
    (d.insert key value).find? other = if other = key then some value else d.find? other := by
  split
  · next eq => subst eq; exact lookup_put_self ..
  · next ne => exact lookup_put_of_ne ne ..

theorem find?_insert? (d : Dict α) (key other : String) (value : Option α) :
    (d.insert? key value).find? other =
      if other = key then value.or (d.find? other) else d.find? other := by
  cases value with
  | none => simp [insert?]
  | some value => simp [insert?, find?_insert]

theorem find?_erase (d : Dict α) (key other : String) :
    (d.erase key).find? other = if other = key then none else d.find? other := by
  simp only [find?, erase]
  generalize d.entries = l
  induction l with
  | nil => simp [lookup]
  | cons head rest ih =>
    obtain ⟨k, v⟩ := head
    by_cases hk : k = key <;> by_cases ho : other = k <;> simp_all [lookup]

theorem lookup_eq_some_iff {key : String} {value : α} {l : List (String × α)}
    (sorted : l.Pairwise fun a b => a.1 < b.1) :
    lookup key l = some value ↔ (key, value) ∈ l := by
  induction l with
  | nil => simp [lookup]
  | cons head rest ih =>
    obtain ⟨k, v⟩ := head
    obtain ⟨below, tail⟩ := List.pairwise_cons.1 sorted
    rw [List.mem_cons, Prod.mk.injEq, ← ih tail, lookup]
    by_cases same : key = k
    · subst same
      have none : lookup key rest ≠ some value := fun found =>
        absurd (below _ ((ih tail).1 found)) (String.lt_irrefl key)
      simp [none, eq_comm]
    · simp [same]

theorem find?_eq_some_iff {d : Dict α} {key : String} {value : α} :
    d.find? key = some value ↔ (key, value) ∈ d.entries :=
  lookup_eq_some_iff d.sorted

theorem lookup_eq_none_of_forall_ne {key : String} {l : List (String × α)}
    (other : ∀ entry ∈ l, entry.1 ≠ key) : lookup key l = none := by
  induction l with
  | nil => rfl
  | cons head rest ih =>
    obtain ⟨first, others⟩ := List.forall_mem_cons.1 other
    rw [lookup, if_neg first.symm, ih others]

theorem lookup_eq_none_of_lt {key : String} {l : List (String × α)}
    (below : ∀ entry ∈ l, key < entry.1) : lookup key l = none :=
  lookup_eq_none_of_forall_ne fun entry mem => (String.ne_of_lt (below entry mem)).symm

theorem lookup_append (key : String) (l m : List (String × α)) :
    lookup key (l ++ m) = (lookup key l).or (lookup key m) := by
  induction l with
  | nil => rfl
  | cons head rest ih =>
    rw [List.cons_append, lookup, lookup, ih]
    split <;> rfl

theorem lookup_map (f : α → β) (key : String) (l : List (String × α)) :
    lookup key (l.map fun entry => (entry.1, f entry.2)) = (lookup key l).map f := by
  induction l with
  | nil => rfl
  | cons head rest ih =>
    rw [List.map_cons, lookup, lookup, ih]
    split <;> rfl

theorem lookup_filter (keep : String → Bool) (key : String) (l : List (String × α)) :
    lookup key (l.filter fun entry => keep entry.1) = if keep key then lookup key l else none := by
  induction l with
  | nil => cases keep key <;> rfl
  | cons head rest ih =>
    by_cases same : key = head.1
    · subst same
      cases kept : keep head.1 <;> simp [kept, ih, lookup]
    · cases kept : keep head.1 <;> simp [kept, ih, lookup, same]

theorem eq_of_lookup {l m : List (String × α)} (left : l.Pairwise fun a b => a.1 < b.1)
    (right : m.Pairwise fun a b => a.1 < b.1) (same : ∀ key, lookup key l = lookup key m) :
    l = m := by
  induction l generalizing m with
  | nil =>
    cases m with
    | nil => rfl
    | cons head rest => exact absurd (same head.1) (by simp [lookup])
  | cons head rest ih =>
    obtain ⟨k, v⟩ := head
    obtain ⟨below, sorted⟩ := List.pairwise_cons.1 left
    have here := same k
    rw [lookup, if_pos rfl] at here
    cases m with
    | nil => exact absurd here (by simp [lookup])
    | cons other tail =>
      obtain ⟨k', v'⟩ := other
      obtain ⟨below', sorted'⟩ := List.pairwise_cons.1 right
      -- The smaller of the two first keys is missing in the other list.
      by_cases eq : k = k'
      · subst eq
        obtain rfl : v = v' := by simpa [lookup] using here
        refine congrArg _ (ih sorted sorted' fun key => ?_)
        by_cases first : key = k
        · rw [first, lookup_eq_none_of_lt below, lookup_eq_none_of_lt below']
        · simpa [lookup, first] using same key
      · by_cases lt : k < k'
        · rw [lookup_eq_none_of_lt] at here
          · exact absurd here (by simp)
          · refine List.forall_mem_cons.2 ⟨lt, fun entry mem => ?_⟩
            exact String.lt_trans lt (below' entry mem)
        · have gt := lt_of_not_lt_of_ne eq lt
          have there := same k'
          rw [lookup_eq_none_of_lt] at there
          · exact absurd there (by simp [lookup])
          · exact List.forall_mem_cons.2 ⟨gt, fun entry mem => String.lt_trans gt (below entry mem)⟩

theorem ext_find? {d e : Dict α} (same : ∀ key, d.find? key = e.find? key) : d = e :=
  Dict.ext (eq_of_lookup d.sorted e.sorted same)

/-- Dictionaries that hold nothing but their keys are equal if they have the same keys. -/
theorem ext_contains {d e : Dict Unit} (same : ∀ key, d.contains key = e.contains key) : d = e := by
  apply ext_find?
  intro key
  have known := same key
  unfold contains at known
  cases left : d.find? key <;> cases right : e.find? key <;> simp_all

@[simp] theorem erase_insert (d : Dict α) (key : String) (value : α) :
    (d.insert key value).erase key = d.erase key := by
  apply ext_find?
  intro other
  rw [find?_erase, find?_erase, find?_insert]
  split <;> rfl

@[simp] theorem erase_erase (d : Dict α) (key : String) :
    (d.erase key).erase key = d.erase key := by
  apply ext_find?
  intro other
  rw [find?_erase, find?_erase]
  split <;> rfl

theorem mem_of_lookup {key : String} {value : α} {l : List (String × α)}
    (found : lookup key l = some value) : (key, value) ∈ l := by
  induction l with
  | nil => cases found
  | cons head rest ih =>
    rw [lookup] at found
    split at found
    · next same =>
      cases found
      exact same ▸ List.mem_cons_self
    · exact List.mem_cons_of_mem _ (ih found)

theorem lookup_reverse {l : List (String × α)} (distinct : l.Pairwise fun a b => a.1 ≠ b.1)
    (key : String) : lookup key l.reverse = lookup key l := by
  induction l with
  | nil => rfl
  | cons head rest ih =>
    obtain ⟨k, v⟩ := head
    obtain ⟨others, tail⟩ := List.pairwise_cons.1 distinct
    rw [List.reverse_cons, lookup_append, ih tail, lookup]
    by_cases same : key = k
    · subst same
      simp [lookup, lookup_eq_none_of_forall_ne fun entry mem => (others entry mem).symm]
    · simp [lookup, same]

theorem find?_foldl_insert (l : List (String × α)) (d : Dict α) (key : String) :
    (l.foldl (fun d (k, v) => d.insert k v) d).find? key =
      (lookup key l.reverse).or (d.find? key) := by
  induction l generalizing d with
  | nil => rfl
  | cons head rest ih =>
    obtain ⟨k, v⟩ := head
    rw [List.foldl_cons, ih, find?_insert, List.reverse_cons, lookup_append, lookup, lookup]
    by_cases same : key = k <;> simp [same]

theorem distinct (d : Dict α) : d.entries.Pairwise fun a b => a.1 ≠ b.1 :=
  d.sorted.imp String.ne_of_lt

theorem find?_ofList_reverse (l : List (String × α)) (key : String) :
    (ofList l).find? key = lookup key l.reverse := by
  rw [ofList, find?_foldl_insert, find?_empty, Option.or_none]

theorem find?_ofList {l : List (String × α)} (distinct : l.Pairwise fun a b => a.1 ≠ b.1)
    (key : String) : (ofList l).find? key = lookup key l := by
  rw [find?_ofList_reverse, lookup_reverse distinct]

theorem find?_map (f : α → β) (d : Dict α) (key : String) :
    (d.map f).find? key = (d.find? key).map f :=
  lookup_map f key d.entries

theorem find?_insertAll (d e : Dict α) (key : String) :
    (d.insertAll e).find? key = (e.find? key).or (d.find? key) := by
  rw [insertAll, find?_foldl_insert, lookup_reverse e.distinct]
  rfl

@[simp] theorem insertAll_empty (d : Dict α) : d.insertAll empty = d := rfl

@[simp] theorem empty_insertAll (d : Dict α) : empty.insertAll d = d := by
  apply ext_find?
  intro key
  rw [find?_insertAll, find?_empty, Option.or_none]

theorem contains_insertAll (d e : Dict α) (key : String) :
    (d.insertAll e).contains key = (d.contains key || e.contains key) := by
  rw [contains, find?_insertAll, Option.isSome_or, Bool.or_comm]
  rfl

theorem insertAll_assoc (d e f : Dict α) :
    (d.insertAll e).insertAll f = d.insertAll (e.insertAll f) := by
  apply ext_find?
  intro key
  simp only [find?_insertAll, Option.or_assoc]

theorem contains_insert (d : Dict α) (key other : String) (value : α) :
    (d.insert key value).contains other = (other == key || d.contains other) := by
  rw [contains, find?_insert]
  by_cases same : other = key <;> simp [same, contains]

theorem contains_ofList (l : List (String × α)) (key : String) :
    (ofList l).contains key = l.any (·.1 == key) := by
  have grow : ∀ (l : List (String × α)) (d : Dict α),
      (l.foldl (fun d (k, v) => d.insert k v) d).contains key =
        (d.contains key || l.any (·.1 == key)) := by
    intro l
    induction l with
    | nil => simp
    | cons head rest ih =>
      intro d
      rw [List.foldl_cons, ih, contains_insert, List.any_cons, Bool.or_assoc, Bool.or_left_comm,
        Bool.beq_comm]
  exact (grow l empty).trans (Bool.false_or _)

theorem mem_of_mem_ofList {entry : String × α} {l : List (String × α)}
    (mem : entry ∈ (ofList l).entries) : entry ∈ l := by
  have found := find?_eq_some_iff.2 mem
  rw [find?_ofList_reverse] at found
  exact List.mem_reverse.1 (mem_of_lookup found)

theorem isEmpty_ofList {l : List (String × α)} (some : l ≠ []) : (ofList l).isEmpty = false := by
  obtain ⟨entry, rest, rfl⟩ := List.exists_cons_of_ne_nil some
  have known : (ofList (entry :: rest)).contains entry.1 = true := by
    rw [contains_ofList, List.any_cons, beq_self_eq_true, Bool.true_or]
  rw [isEmpty, List.isEmpty_eq_false_iff]
  intro none
  rw [contains, find?, none] at known
  cases known

theorem mem_keys_iff {d : Dict α} {key : String} : key ∈ d.keys ↔ d.contains key = true := by
  rw [contains, Option.isSome_iff_exists, keys, List.mem_map]
  constructor
  · rintro ⟨⟨_, value⟩, mem, rfl⟩
    exact ⟨value, find?_eq_some_iff.2 mem⟩
  · rintro ⟨value, found⟩
    exact ⟨(key, value), find?_eq_some_iff.1 found, rfl⟩

theorem ofList_entries (d : Dict α) : ofList d.entries = d := by
  apply ext_find?
  intro key
  exact find?_ofList d.distinct key

end Dict

end Manuscript
