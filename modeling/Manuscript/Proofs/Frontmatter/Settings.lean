import Manuscript.Frontmatter.Project

/-!
Metadata in the settings of a project. Of what the settings have already, the fields of the metadata
replace those of the same name under `project`, and every other entry stays, there and outside. That
is said of the entries that are looked up, so the order of entries is left open. A `project` that is
no mapping is replaced as a whole, and so is one under a tag.
-/

set_option autoImplicit false

namespace Manuscript.Yaml

mutual
/-- Whether two values are the same in all parts, the order of entries and the texts of numbers
included. -/
def identical : Yaml → Yaml → Bool
  | .null, .null => true
  | .bool a, .bool b => a == b
  | .number a, .number b => a == b
  | .string a, .string b => a == b
  | .sequence as, .sequence bs => identicalItems as bs
  | .mapping as, .mapping bs => identicalEntries as bs
  | .tagged s a, .tagged t b => s == t && identical a b
  | _, _ => false

def identicalItems : List Yaml → List Yaml → Bool
  | [], [] => true
  | a :: as, b :: bs => identical a b && identicalItems as bs
  | _, _ => false

def identicalEntries : List (Yaml × Yaml) → List (Yaml × Yaml) → Bool
  | [], [] => true
  | (k, a) :: as, (l, b) :: bs => identical k l && identical a b && identicalEntries as bs
  | _, _ => false
end

mutual
theorem eq_of_identical (a b : Yaml) (alike : identical a b = true) : a = b := by
  cases a <;> cases b <;> simp only [identical, Bool.and_eq_true, beq_iff_eq, Bool.false_eq_true]
    at alike <;> try rfl
  case bool => rw [alike]
  case number => rw [alike]
  case string => rw [alike]
  case sequence as bs => rw [eq_of_identicalItems as bs alike]
  case mapping as bs => rw [eq_of_identicalEntries as bs alike]
  case tagged s a t b => rw [alike.1, eq_of_identical a b alike.2]

theorem eq_of_identicalItems (as bs : List Yaml) (alike : identicalItems as bs = true) :
    as = bs := by
  match as, bs with
  | [], [] => rfl
  | [], _ :: _ => cases alike
  | _ :: _, [] => cases alike
  | a :: as, b :: bs =>
    simp only [identicalItems, Bool.and_eq_true] at alike
    rw [eq_of_identical a b alike.1, eq_of_identicalItems as bs alike.2]

theorem eq_of_identicalEntries (as bs : List (Yaml × Yaml))
    (alike : identicalEntries as bs = true) : as = bs := by
  match as, bs with
  | [], [] => rfl
  | [], _ :: _ => cases alike
  | _ :: _, [] => cases alike
  | (k, a) :: as, (l, b) :: bs =>
    simp only [identicalEntries, Bool.and_eq_true] at alike
    rw [eq_of_identical k l alike.1.1, eq_of_identical a b alike.1.2,
      eq_of_identicalEntries as bs alike.2]
end

mutual
theorem identical_self : (a : Yaml) → identical a a = true
  | .null => rfl
  | .bool _ | .number _ | .string _ => by simp [identical]
  | .sequence items => by rw [identical, identicalItems_self items]
  | .mapping entries => by rw [identical, identicalEntries_self entries]
  | .tagged _ value => by rw [identical, identical_self value, beq_self_eq_true, Bool.and_self]

theorem identicalItems_self : (as : List Yaml) → identicalItems as as = true
  | [] => rfl
  | a :: as => by rw [identicalItems, identical_self a, identicalItems_self as, Bool.and_self]

theorem identicalEntries_self : (as : List (Yaml × Yaml)) → identicalEntries as as = true
  | [] => rfl
  | (k, a) :: as => by
    rw [identicalEntries, identical_self k, identical_self a, identicalEntries_self as,
      Bool.and_self, Bool.and_self]
end

instance : DecidableEq Yaml := fun a b =>
  decidable_of_iff (identical a b = true)
    ⟨eq_of_identical a b, fun same => same ▸ identical_self a⟩

/-! ### Texts as keys -/

theorem beq_string_iff {key : Yaml} {name : String} :
    (key == .string name) = true ↔ key = .string name := by
  show same key (.string name) = true ↔ key = .string name
  cases key <;> simp [same]

theorem string_beq_iff {key : Yaml} {name : String} :
    (Yaml.string name == key) = true ↔ key = .string name := by
  show same (.string name) key = true ↔ key = .string name
  cases key <;> simp [same]
  exact eq_comm

section
variable {entries : List (Yaml × Yaml)} {fields : List (String × Json)} {key value : Yaml}
  {name : String}

theorem lookup_put_self (name : String) (value : Yaml) (entries : List (Yaml × Yaml)) :
    lookup (.string name) (put (.string name) value entries) = some value := by
  have here : (Yaml.string name == .string name) = true := beq_string_iff.2 rfl
  induction entries with
  | nil => rw [put, lookup, if_pos here]
  | cons entry entries ih =>
    obtain ⟨k, v⟩ := entry
    rw [put]
    split
    · next own => rw [lookup, if_pos own]
    · next other => rw [lookup, if_neg other, ih]

theorem lookup_put_of_ne (other : key ≠ .string name) (value : Yaml)
    (entries : List (Yaml × Yaml)) :
    lookup key (put (.string name) value entries) = lookup key entries := by
  have apart : ¬(Yaml.string name == key) = true := fun own => other (string_beq_iff.1 own)
  induction entries with
  | nil => simp only [put, lookup, if_neg apart]
  | cons entry entries ih =>
    obtain ⟨k, v⟩ := entry
    rw [put]
    split
    · next own =>
      rw [beq_string_iff] at own
      rw [own, lookup, lookup, if_neg apart, if_neg apart]
    · rw [lookup, lookup, ih]

theorem put_eq_self (found : lookup (.string name) entries = some value) :
    put (.string name) value entries = entries := by
  induction entries with
  | nil => cases found
  | cons entry entries ih =>
    obtain ⟨k, v⟩ := entry
    rw [lookup] at found
    rw [put]
    split at found
    · next own => rw [if_pos own, Option.some.inj found]
    · next other => rw [if_neg other, ih found]

theorem put_of_fresh (fresh : ∀ entry ∈ entries, entry.1 ≠ .string name) (value : Yaml) :
    put (.string name) value entries = entries ++ [(.string name, value)] := by
  induction entries with
  | nil => rfl
  | cons entry entries ih =>
    obtain ⟨first, rest⟩ := List.forall_mem_cons.1 fresh
    rw [put, if_neg fun own => first (beq_string_iff.1 own), ih rest, List.cons_append]

/-! ### Fields put under their names -/

theorem putAll_ofFields_cons (name : String) (value : Json) (fields : List (String × Json))
    (entries : List (Yaml × Yaml)) : putAll entries (ofFields ((name, value) :: fields)) =
      putAll (put (.string name) (ofJson value) entries) (ofFields fields) := rfl

theorem lookup_putAll_of_ne (other : ∀ field ∈ fields, key ≠ .string field.1)
    (entries : List (Yaml × Yaml)) :
    lookup key (putAll entries (ofFields fields)) = lookup key entries := by
  induction fields generalizing entries with
  | nil => rfl
  | cons field fields ih =>
    obtain ⟨first, rest⟩ := List.forall_mem_cons.1 other
    rw [putAll_ofFields_cons, ih rest, lookup_put_of_ne first]

theorem lookup_putAll_of_mem {field : String × Json}
    (distinct : fields.Pairwise fun a b => a.1 ≠ b.1) (mem : field ∈ fields)
    (entries : List (Yaml × Yaml)) :
    lookup (.string field.1) (putAll entries (ofFields fields)) = some (ofJson field.2) := by
  induction fields generalizing entries with
  | nil => cases mem
  | cons head fields ih =>
    obtain ⟨others, distinct⟩ := List.pairwise_cons.1 distinct
    rw [putAll_ofFields_cons]
    rcases List.mem_cons.1 mem with rfl | mem
    · -- No later field has the name, so what is put first stays.
      have later : ∀ other ∈ fields, Yaml.string field.1 ≠ .string other.1 :=
        fun other mem same => others other mem (Yaml.string.inj same)
      rw [lookup_putAll_of_ne later, lookup_put_self]
    · exact ih distinct mem _

theorem putAll_eq_append (distinct : fields.Pairwise fun a b => a.1 ≠ b.1)
    (fresh : ∀ entry ∈ entries, ∀ field ∈ fields, entry.1 ≠ .string field.1) :
    putAll entries (ofFields fields) = entries ++ ofFields fields := by
  induction fields generalizing entries with
  | nil => exact (List.append_nil _).symm
  | cons field fields ih =>
    obtain ⟨others, distinct⟩ := List.pairwise_cons.1 distinct
    have first : put (.string field.1) (ofJson field.2) entries =
        entries ++ [(.string field.1, ofJson field.2)] :=
      put_of_fresh (fun entry mem => fresh entry mem field List.mem_cons_self) _
    rw [putAll_ofFields_cons, first, ih distinct, List.append_assoc]
    · rfl
    · refine List.forall_mem_append.2 ⟨fun entry mem other later => ?_, fun entry mem => ?_⟩
      · exact fresh entry mem other (List.mem_cons_of_mem _ later)
      · rw [List.mem_singleton.1 mem]
        exact fun other later same => others other later (Yaml.string.inj same)

theorem putAll_eq_self
    (there : ∀ field ∈ fields, lookup (.string field.1) entries = some (ofJson field.2)) :
    putAll entries (ofFields fields) = entries := by
  induction fields with
  | nil => rfl
  | cons field fields ih =>
    obtain ⟨first, rest⟩ := List.forall_mem_cons.1 there
    rw [putAll_ofFields_cons, put_eq_self first, ih rest]

end

/-! ### Documents -/

/-- The entries of a mapping, which may stand under tags. -/
def entries? : Yaml → Option (List (Yaml × Yaml))
  | .mapping entries => some entries
  | .tagged _ value => value.entries?
  | _ => none

/-- Whether a value has a text, and reading that gives the value back. -/
def RoundTrips (value : Yaml) : Prop :=
  ∃ text, value.print? = some text ∧ read text = .ok value

theorem roundTrips_iff {value : Yaml} :
    value.RoundTrips ↔ (value.print?.bind fun text => (read text).toOption) = some value := by
  simp only [RoundTrips, Option.bind_eq_some_iff]
  refine exists_congr fun text => and_congr_right fun _ => ?_
  cases read text <;> simp [Except.toOption]

instance (value : Yaml) : Decidable value.RoundTrips := decidable_of_iff' _ roundTrips_iff

end Manuscript.Yaml

namespace Manuscript.Frontmatter

open Manuscript.Yaml

/-! ### Fields of metadata -/

theorem names_sublist_fieldNames (f : Frontmatter) : (f.fields.map (·.1)).Sublist fieldNames := by
  have one (name : String) (value : Option String) :
      ((Json.textField name value).map (·.1)).Sublist [name] := by
    cases value with
    | none => exact List.nil_sublist _
    | some value => exact List.Sublist.refl _
  have many {α : Type} (name : String) (write : α → Json) (items : List α) :
      ((Json.listField name write items).map (·.1)).Sublist [name] := by
    rw [Json.listField]
    split
    · exact List.nil_sublist _
    · exact List.Sublist.refl _
  have venue : (((f.venue.map fun title =>
      ("venue", Json.object [("title", .string title)])).toList).map (·.1)).Sublist ["venue"] := by
    cases f.venue with
    | none => exact List.nil_sublist _
    | some title => exact List.Sublist.refl _
  have abbreviations : ((if f.abbreviations.isEmpty then [] else
      [("abbreviations", Json.object (f.abbreviations.map Json.string).entries)]).map
        (·.1)).Sublist ["abbreviations"] := by
    split
    · exact List.nil_sublist _
    · exact List.Sublist.refl _
  simp only [fields, List.map_append]
  exact ((((((((((one _ _).append (one _ _)).append (one _ _)).append (one _ _)).append
    (one _ _)).append (many _ _ _)).append (many _ _ _)).append (many _ _ _)).append venue).append
      (one _ _)).append (one _ _) |>.append abbreviations

theorem fields_distinct (f : Frontmatter) : f.fields.Pairwise fun a b => a.1 ≠ b.1 := by
  have names : (f.fields.map (·.1)).Nodup := f.names_sublist_fieldNames.nodup (by decide)
  exact List.pairwise_map.1 names

/-! ### Merged settings -/

/-- The entries of the mapping under `project`; there are none if something else stands there. -/
def projectEntries (settings : List (Yaml × Yaml)) : List (Yaml × Yaml) :=
  match lookup (.string "project") settings with
  | some (.mapping entries) => entries
  | _ => []

theorem mergeEntries_eq (f : Frontmatter) (settings : List (Yaml × Yaml)) :
    f.mergeEntries settings =
      put (.string "project") (.mapping (putAll (projectEntries settings) f.entries)) settings := by
  have alone : putAll [] f.entries = f.entries :=
    putAll_eq_append f.fields_distinct (List.forall_mem_nil _)
  unfold mergeEntries projectEntries
  cases lookup (.string "project") settings with
  | none => simp only [alone]
  | some value =>
    cases value with
    | mapping old => rfl
    | _ => simp only [alone]

structure Merged (f : Frontmatter) (before after : List (Yaml × Yaml)) : Prop where
  /-- What is not under `project` stays. -/
  outside : ∀ key, key ≠ .string "project" → lookup key after = lookup key before
  project : ∃ own, lookup (.string "project") after = some (.mapping own)
  /-- Under `project` the fields have their values. -/
  fields : ∀ field ∈ f.fields,
    lookup (.string field.1) (projectEntries after) = some (ofJson field.2)
  /-- What a mapping there has that is no field stays, and nothing is added to it. -/
  inside : ∀ key, (∀ field ∈ f.fields, key ≠ .string field.1) →
    lookup key (projectEntries after) = lookup key (projectEntries before)

theorem projectEntries_mergeEntries (f : Frontmatter) (settings : List (Yaml × Yaml)) :
    projectEntries (f.mergeEntries settings) = putAll (projectEntries settings) f.entries := by
  rw [mergeEntries_eq, projectEntries, lookup_put_self]

theorem merged_mergeEntries (f : Frontmatter) (settings : List (Yaml × Yaml)) :
    f.Merged settings (f.mergeEntries settings) := by
  constructor
  case outside =>
    intro key other
    rw [mergeEntries_eq, lookup_put_of_ne other]
  case project => exact ⟨_, by rw [mergeEntries_eq, lookup_put_self]⟩
  case fields =>
    intro field mem
    rw [projectEntries_mergeEntries]
    exact lookup_putAll_of_mem f.fields_distinct mem _
  case inside =>
    intro key other
    rw [projectEntries_mergeEntries]
    exact lookup_putAll_of_ne other _

theorem mergeEntries_mergeEntries (f : Frontmatter) (settings : List (Yaml × Yaml)) :
    f.mergeEntries (f.mergeEntries settings) = f.mergeEntries settings := by
  have there := (f.merged_mergeEntries settings).fields
  have known : lookup (.string "project") (f.mergeEntries settings) =
      some (.mapping (projectEntries (f.mergeEntries settings))) := by
    rw [projectEntries_mergeEntries, mergeEntries_eq, lookup_put_self]
  rw [mergeEntries_eq, entries, putAll_eq_self there, put_eq_self known]

theorem mergeInto?_eq_none (f : Frontmatter) :
    {settings : Yaml} → settings.entries? = none → f.mergeInto? settings = none
  | .mapping _, missing => by cases missing
  | .tagged _ value, missing => by
    rw [mergeInto?, f.mergeInto?_eq_none (show value.entries? = none from missing)]
    rfl
  | .null, _ | .bool _, _ | .number _, _ | .string _, _ | .sequence _, _ => rfl

/-- The settings are merged under their tags, and merging once more leaves them as they are. -/
theorem exists_mergeInto? (f : Frontmatter) : {settings : Yaml} → {before : List (Yaml × Yaml)} →
    settings.entries? = some before → ∃ merged, f.mergeInto? settings = some merged ∧
      merged.entries? = some (f.mergeEntries before) ∧ f.mergeInto? merged = some merged
  | .mapping entries, before, found => by
    cases found
    refine ⟨_, rfl, rfl, ?_⟩
    rw [mergeInto?, mergeEntries_mergeEntries]
  | .tagged tag value, before, found => by
    obtain ⟨merged, into, entries, again⟩ :=
      f.exists_mergeInto? (show value.entries? = some before from found)
    refine ⟨.tagged tag merged, ?_, entries, ?_⟩
    · rw [mergeInto?, into]
      rfl
    · rw [mergeInto?, again]
      rfl

/-- Merging metadata into the settings of a project. It fails if the text of the settings cannot be
read, or is no mapping. Otherwise the fields of the metadata come under `project`, all other entries
stay, there and outside, and no others appear. Where values can be written and read back, this is
what the new text holds, and merging once more does not change it. -/
theorem mergeProject_keeps_entries (existing : Option String) (f : Frontmatter) :
    match Yaml.read (existing.getD freshProject) with
    | .error cause => mergeProject existing f = .error (.unreadable cause)
    | .ok settings =>
      match settings.entries? with
      | none => mergeProject existing f = .error .notAMapping
      | some before => ∃ merged after, merged.entries? = some after ∧ f.Merged before after ∧
          (merged.RoundTrips → ∃ text, mergeProject existing f = .ok text ∧
            Yaml.read text = .ok merged ∧ mergeProject (some text) f = .ok text) := by
  unfold mergeProject
  cases Yaml.read (existing.getD freshProject) with
  | error cause => rfl
  | ok settings =>
    dsimp only
    split
    · next missing =>
      simp only [f.mergeInto?_eq_none missing]
      rfl
    · next before found =>
      obtain ⟨merged, into, entries, again⟩ := f.exists_mergeInto? found
      refine ⟨merged, _, entries, f.merged_mergeEntries before, ?_⟩
      rintro ⟨text, printed, back⟩
      refine ⟨text, ?_, back, ?_⟩
      · simp only [into, printed]
        rfl
      · simp only [Option.getD_some, back, again, printed]
        rfl

/-- Merged settings that can be read back. -/
example : ∃ settings ∈ (Yaml.read "version: 1\nproject:\n  title: Old\n  github: x/y\n").toOption,
    ∃ merged ∈ mergeInto? { title := some "New", keywords := ["a: b"] } settings,
      merged.RoundTrips := by
  decide +kernel

/-- Settings under a tag are merged, and a `project` under a tag is replaced. -/
example : (mergeProject (some "!s\nsite: a\nproject: !p\n  github: x/y\n")
    { title := some "New" }).toOption = some "!s\nsite: a\nproject:\n  title: New\n" := by
  decide +kernel

end Manuscript.Frontmatter
