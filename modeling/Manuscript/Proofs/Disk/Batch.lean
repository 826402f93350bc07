import Manuscript.Proofs.Disk.Reading

/-!
Two conversions into one folder, in either order. The documents and logs of articles with different
stems have different names, so it does not matter which are written first. The bibliography has one
name for all articles and stays as it is once it is there, so where none was there it is that of the
article that comes first, and this is all that is left of the order.
-/

set_option autoImplicit false

namespace Manuscript.Disk

/-! ### Changes in either order -/

namespace Delta

/-- Whether two runs deal with different files. -/
def Apart (δ ε : Delta) : Prop := ∀ key ∈ δ.keys, key ∉ ε.keys

variable {δ ε ζ : Delta} {d d' d'' : Disk}

theorem Apart.symm (apart : δ.Apart ε) : ε.Apart δ := fun key late early => apart key early late

theorem Apart.lookup (apart : δ.Apart ε) (key : String) :
    (Dict.lookup key ε.files).or (Dict.lookup key δ.files) =
      (Dict.lookup key δ.files).or (Dict.lookup key ε.files) := by
  by_cases here : key ∈ δ.keys
  · rw [lookup_of_not_mem (apart key here), Option.none_or, Option.or_none]
  · rw [lookup_of_not_mem here, Option.none_or, Option.or_none]

/-- Of a run only the folders count and what was written last under each key. -/
theorem Turns.congr (turns : δ.Turns d d') (folders : ∀ key, key ∈ ε.folders ↔ key ∈ δ.folders)
    (files : ∀ key, Dict.lookup key ε.files = Dict.lookup key δ.files) : ε.Turns d d' := by
  constructor
  · intro key
    rw [turns.folders, folders]
  · intro key
    rw [turns.files, files]

theorem Turns.swap (apart : δ.Apart ε) (turns : (ζ.after (ε.after δ)).Turns d d') :
    (ζ.after (δ.after ε)).Turns d d' := by
  refine turns.congr (fun key => ?_) fun key => ?_
  · simp only [after, List.mem_append, or_comm]
  · simp only [after, Dict.lookup_append, apart.lookup]

theorem Turns.unique (turns : δ.Turns d d') (turns' : δ.Turns d d'') : d' = d'' := by
  have same (key : String) : d'.entries.find? key = d''.entries.find? key := by
    refine find?_eq_of ?_ ?_
    · rw [turns.folders, turns'.folders]
    · rw [turns.files, turns'.files]
  obtain ⟨entries⟩ := d'
  obtain ⟨entries'⟩ := d''
  exact congrArg Disk.mk (Dict.ext_find? same)

/-- Whether a run leaves alone what a path leads to, and its draft if it may lead to a file. -/
structure Avoids (δ : Delta) (folder : Place) (path : Path) : Prop where
  file : keyFrom folder path ∉ δ.keys
  draft : Path.endsAtFolder path = false → draftFrom folder path ∉ δ.keys

/-- What the bibliography leaves, if one is written. -/
def listing? (folder : Place) (path : Path) : Option String → Delta
  | none => .empty
  | some text => .listing folder path text

theorem Avoids.apart {folder : Place} {path : Path} (avoids : δ.Avoids folder path)
    (file : Path.endsAtFolder path = false) (text : String) :
    (listing folder path text).Apart δ := by
  intro key mem
  simp only [listing, keys, List.map_cons, List.map_nil, List.mem_cons, List.not_mem_nil,
    or_false] at mem
  rcases mem with rfl | rfl
  · exact avoids.file
  · exact avoids.draft file

end Delta

section
variable {wanted wanted' : Option String} {folder : Place} {path : Path} {δ ε : Delta}
  {d d' d'' e' e'' m m' n n' : Disk}

theorem Listed.eq_of_found (listed : Listed wanted folder path d d')
    (found : d.Found folder path) : d' = d := by
  cases listed with
  | unwanted _ => rfl
  | kept _ _ => rfl
  | written _ missing _ _ _ => exact absurd found missing

theorem Listed.eq_of_none (listed : Listed none folder path d d') : d' = d := by
  cases listed with
  | unwanted _ => rfl
  | kept wants _ => cases wants
  | written wants _ _ _ _ => cases wants

theorem found_iff (folders : ∀ key, d'.HasFolder key ↔ d.HasFolder key)
    (kept : d'.content? (keyFrom folder path) = d.content? (keyFrom folder path)) :
    d'.Found folder path ↔ d.Found folder path :=
  ⟨fun found => found.mono (fun key => (folders key).1) kept.symm,
    fun found => found.mono (fun key => (folders key).2) kept⟩

/-- Of two runs only the first that lists does so, unless something is found before; and it may as
well list when all records are written. -/
theorem Run.turns_two (first : Run δ wanted folder path d m d')
    (second : Run ε wanted' folder path d' m' d'') (avoids : ε.Avoids folder path)
    (known : ∀ key ∈ ε.folders, m.HasFolder key) :
    m.Found folder path ∧ (ε.after δ).Turns d d'' ∨ ¬ m.Found folder path ∧
      ((Delta.listing? folder path (wanted.or wanted')).after (ε.after δ)).Turns d d'' := by
  obtain ⟨turns, listed⟩ := first
  obtain ⟨turns', listed'⟩ := second
  have kept := turns'.content?_of_not_mem avoids.file
  have onward (found : d'.Found folder path) : m'.Found folder path :=
    found.mono (fun _ => turns'.hasFolder) kept
  -- What is found before the first listing is found by both; else the first that lists makes it.
  by_cases found : m.Found folder path
  · obtain rfl := listed.eq_of_found found
    obtain rfl := listed'.eq_of_found (onward found)
    exact .inl ⟨found, turns.trans turns'⟩
  · refine .inr ⟨found, ?_⟩
    cases listed with
    | kept _ there => exact absurd there found
    | written wants _ listing there file =>
      obtain rfl := listed'.eq_of_found (onward there)
      rw [wants]
      refine ((turns.trans listing).trans turns').congr (fun key => ?_) fun key => ?_
      · simp only [Delta.after, Delta.listing?, Option.some_or, List.mem_append, or_left_comm]
      · simp only [Delta.after, Delta.listing?, Option.some_or, Dict.lookup_append,
          ← Option.or_assoc, (avoids.apart file _).lookup]
    | unwanted none =>
      have folders (key : String) : m'.HasFolder key ↔ d'.HasFolder key := by
        rw [turns'.folders, or_iff_left_of_imp (known key)]
      have missing : ¬ m'.Found folder path := fun there => found ((found_iff folders kept).1 there)
      rw [none, Option.none_or]
      cases listed' with
      | unwanted none' =>
        rw [none']
        exact (turns.trans turns').trans .refl
      | kept _ there => exact absurd there missing
      | written wants _ listing _ _ =>
        rw [wants]
        exact (turns.trans turns').trans listing

theorem Run.eq_of_none (first : Run δ none folder path d m d')
    (second : Run ε none folder path d' m' d'') (first' : Run ε none folder path d n e')
    (second' : Run δ none folder path e' n' e'') (apart : δ.Apart ε) : d'' = e'' := by
  obtain rfl := first.listed.eq_of_none
  obtain rfl := second.listed.eq_of_none
  obtain rfl := first'.listed.eq_of_none
  obtain rfl := second'.listed.eq_of_none
  have left := (first.turns.trans second.turns).trans .refl
  have right := (first'.turns.trans second'.turns).trans .refl
  exact left.unique (right.swap apart.symm)

/-- In either order two runs leave the same, but that the first to list is the one that lists. -/
theorem Run.eq_or_listed (first : Run δ wanted folder path d m d')
    (second : Run ε wanted' folder path d' m' d'') (first' : Run ε wanted' folder path d n e')
    (second' : Run δ wanted folder path e' n' e'') (apart : δ.Apart ε)
    (avoids : δ.Avoids folder path) (avoids' : ε.Avoids folder path)
    (known : ∀ key ∈ ε.folders, m.HasFolder key) (known' : ∀ key ∈ δ.folders, n.HasFolder key) :
    d'' = e'' ∨ ∃ p q, wanted = some p ∧ wanted' = some q ∧ ¬ m.Found folder path ∧
      d''.content? (keyFrom folder path) = some (.text p) ∧
      e''.content? (keyFrom folder path) = some (.text q) ∧
      ∀ key ≠ keyFrom folder path, d''.entries.find? key = e''.entries.find? key := by
  -- Both first runs make the same folders and leave the path alone, so they find the same there.
  have folders (key : String) : n.HasFolder key ↔ m.HasFolder key := by
    constructor <;> intro there
    · rcases (first'.turns.folders key).1 there with old | new
      · exact first.turns.hasFolder old
      · exact known key new
    · rcases (first.turns.folders key).1 there with old | new
      · exact first'.turns.hasFolder old
      · exact known' key new
  have same : n.Found folder path ↔ m.Found folder path := by
    refine found_iff folders ?_
    rw [first.turns.content?_of_not_mem avoids.file, first'.turns.content?_of_not_mem avoids'.file]
  rcases first.turns_two second avoids' known with ⟨found, left⟩ | ⟨missing, left⟩ <;>
    rcases first'.turns_two second' avoids known' with ⟨found', right⟩ | ⟨missing', right⟩
  · exact .inl ((left.trans .refl).unique ((right.trans .refl).swap apart.symm))
  · exact absurd (same.2 found) missing'
  · exact absurd (same.1 found') missing
  · have right := right.swap apart.symm
    cases wanted with
    | none =>
      rw [Option.or_none] at right
      exact .inl (left.unique right)
    | some p =>
      cases wanted' with
      | none => exact .inl (left.unique right)
      | some q =>
        refine .inr ⟨p, q, rfl, rfl, missing, ?_, ?_, fun key other => find?_eq_of ?_ ?_⟩
        · rw [left.files]
          exact congrArg (Option.getD · _) (if_pos rfl)
        · rw [right.files]
          exact congrArg (Option.getD · _) (if_pos rfl)
        · rw [left.folders, right.folders]
          rfl
        · simp only [left.files, right.files, Option.some_or, Delta.listing?, Delta.listing,
            Delta.after, List.cons_append, Dict.lookup, if_neg other]

end

/-! ### Records of different articles -/

/-- The names under which outputs and their drafts are written, as they end. -/
def keptEndings : List String := outputEndings ++ outputEndings.map (· ++ ".tmp")

theorem suffix_or_suffix {s t first second : String} (same : s ++ first = t ++ second) :
    first.toList <:+ second.toList ∨ second.toList <:+ first.toList := by
  rw [← String.toList_inj, String.toList_append, String.toList_append] at same
  have behind : second.toList <:+ s.toList ++ first.toList := same ▸ List.suffix_append ..
  exact List.suffix_or_suffix_of_suffix (List.suffix_append ..) behind

theorem stem_unique {s t first second : String} (kept : first ∈ keptEndings)
    (kept' : second ∈ keptEndings) (same : s ++ first = t ++ second) : s = t := by
  have endings : ∀ e ∈ keptEndings, ∀ f ∈ keptEndings, e.toList <:+ f.toList → e = f := by decide
  obtain rfl : first = second := (suffix_or_suffix same).elim (endings first kept second kept')
    fun back => (endings second kept' first kept back).symm
  rw [← String.toList_inj, String.toList_append, String.toList_append] at same
  exact String.toList_inj.1 (List.append_cancel_right same)

section
variable {c : Config} {a b article : Path} {s t : Timed} {key : String}

theorem keyOf_output {ending : String} (isEnding : ending ∈ outputEndings) :
    keyOf (outputFile c article ending) =
      Place.key (placeOf (c.outputDir article) ++ [stemOf article ++ ending]) := by
  rw [keyOf_eq, placeOf_named (name?_output isEnding), folderOf_output isEnding]

theorem keyOf_draftOf_output {ending : String} (isEnding : ending ∈ outputEndings) :
    keyOf (draftOf (outputFile c article ending)) =
      Place.key (placeOf (c.outputDir article) ++ [stemOf article ++ (ending ++ ".tmp")]) := by
  rw [keyOf_eq, placeOf_draftOf (name?_output isEnding), folderOf_output isEnding,
    String.append_assoc]

/-- Records are kept under names that start with the stem of the article. -/
theorem exists_ending_of_mem_keys (mem : key ∈ (Delta.ofRecords (records c article t)).keys) :
    ∃ ending ∈ keptEndings, '/' ∉ (stemOf article ++ ending).toList ∧
      key = Place.key (placeOf (c.outputDir article) ++ [stemOf article ++ ending]) := by
  obtain ⟨file, recorded, here⟩ := mem_keys_ofRecords mem
  rw [map_fst_records] at recorded
  obtain ⟨ending, isEnding, rfl⟩ := exists_ending_of_mem_recordFiles recorded
  have name : Path.IsName (stemOf article ++ ending) := isName_output isEnding
  rcases here with own | draft
  · refine ⟨ending, List.mem_append_left _ isEnding, name.plain, ?_⟩
    rw [own, keyOf_output isEnding]
  · refine ⟨ending ++ ".tmp", List.mem_append_right _ (List.mem_map_of_mem isEnding), ?_, ?_⟩
    · rw [← String.append_assoc]
      exact name.draft.plain
    · rw [draft, keyOf_draftOf_output isEnding]

theorem apart_records (different : stemOf a ≠ stemOf b) :
    (Delta.ofRecords (records c a s)).Apart (.ofRecords (records c b t)) := by
  intro key mem mem'
  obtain ⟨ending, kept, plain, here⟩ := exists_ending_of_mem_keys mem
  obtain ⟨ending', kept', plain', here'⟩ := exists_ending_of_mem_keys mem'
  exact different (stem_unique kept kept' (Place.key_concat_inj plain plain' (here ▸ here')).1)

/-- Two files with the same draft have the same name in the same folder. -/
theorem keyOf_eq_of_drafts {p q : Path} {m n : String} (left : Path.name? p = some m)
    (right : Path.name? q = some n) (same : keyOf (draftOf p) = keyOf (draftOf q)) :
    keyOf p = keyOf q := by
  rw [keyOf_eq, keyOf_eq, placeOf_draftOf left, placeOf_draftOf right] at same
  have plain {r : Path} {k : String} (named : Path.name? r = some k) : '/' ∉ (k ++ ".tmp").toList :=
    (Path.isName_of_name? named).1.draft.plain
  obtain ⟨names, front⟩ := Place.key_concat_inj (plain left) (plain right) same
  obtain rfl : m = n := by
    rw [← String.toList_inj, String.toList_append, String.toList_append] at names
    exact String.toList_inj.1 (List.append_cancel_right names)
  rw [keyOf_eq, keyOf_eq, placeOf_named left, placeOf_named right, Place.key_concat, front,
    Place.key_concat]

/-- A path that leads to none of the records and to none of their drafts is left alone by them, and
so is its draft. -/
theorem avoids_records
    (free : ∀ file ∈ recordFiles c article, keyOf (bibliographyFile c article) ≠ keyOf file ∧
      keyOf (bibliographyFile c article) ≠ keyOf (draftOf file)) :
    (Delta.ofRecords (records c article t)).Avoids (placeOf (c.outputDir article))
      c.bibliographyFile := by
  constructor
  · intro mem
    obtain ⟨file, recorded, here⟩ := mem_keys_ofRecords mem
    rw [map_fst_records] at recorded
    rw [← keyOf_join] at here
    exact here.elim (free file recorded).1 (free file recorded).2
  · intro isFile mem
    obtain ⟨n, named⟩ := Path.isSome_name? isFile
    obtain ⟨file, recorded, here⟩ := mem_keys_ofRecords mem
    rw [map_fst_records] at recorded
    obtain ⟨ending, isEnding, rfl⟩ := exists_ending_of_mem_recordFiles recorded
    rw [← keyOf_draftOf_join named] at here
    rcases here with own | draft
    · -- The name of a draft ends as no output does.
      have endings : ∀ e ∈ outputEndings, ¬ e.toList <:+ ".tmp".toList ∧
          ¬ ".tmp".toList <:+ e.toList := by decide
      have name := (Path.isName_of_name? named).1.draft
      have output : Path.IsName (stemOf article ++ ending) := isName_output isEnding
      rw [keyOf_eq, placeOf_draftOf (steps_join_dropLast named).1, keyOf_output isEnding] at own
      have names := (Place.key_concat_inj name.plain output.plain own).1
      exact (suffix_or_suffix names).elim (endings ending isEnding).2 (endings ending isEnding).1
    · have whole : Path.name? (bibliographyFile c article) = some n := (steps_join_dropLast named).1
      exact (free _ recorded).1 (keyOf_eq_of_drafts whole (name?_output isEnding) draft)

end

/-! ### Two conversions -/

section
variable {c : Config} {a b : Path} {s s' t t' : Timed} {d d₁ d₂ e₁ e₂ m : Disk}
  {cacheFolder : Option String}

theorem hasFolder_of_turns {text : String} (found : d.read b = .ok text)
    (turns : (Delta.ofRecords (records c a s)).Turns d m) :
    ∀ key ∈ (Delta.ofRecords (records c b t)).folders, m.HasFolder key := by
  intro key mem
  have inside := mem_folders_records_iff.1 mem
  cases dir : c.dir with
  | none => exact turns.hasFolder (hasFolder_of_read dir found key inside)
  | some folder =>
    have same : c.outputDir b = c.outputDir a := by simp [Config.outputDir, dir]
    rw [same] at inside
    exact (turns.folders key).2 (.inr (mem_folders_records_iff.2 inside))

/-- Two articles with different stems that are converted into one folder leave the same in either
order, but for the bibliography: where none was there and both have one, it is that of the article
that comes first. All conversions have to succeed, none may change what another one reads, and the
bibliography may not take the place of a document, a log or the draft of one. -/
theorem convertToFiles_either_order (mode : c.frontmatter ≠ .project)
    (different : Path.stem? a ≠ Path.stem? b)
    (shared : placeOf (c.outputDir a) = placeOf (c.outputDir b))
    (free : c.writeBibliography = true → ∀ file ∈ recordFiles c a ++ recordFiles c b,
      keyOf (bibliographyFile c a) ≠ keyOf file ∧
        keyOf (bibliographyFile c a) ≠ keyOf (draftOf file))
    (first : outcome ((storage cacheFolder).convertToFiles c a) d = (.ok s, d₁))
    (second : outcome ((storage cacheFolder).convertToFiles c b) d₁ = (.ok t, d₂))
    (first' : outcome ((storage cacheFolder).convertToFiles c b) d = (.ok t', e₁))
    (second' : outcome ((storage cacheFolder).convertToFiles c a) e₁ = (.ok s', e₂))
    (untouched : ∀ file ∈ sources cacheFolder c b, d₁.look file = d.look file)
    (untouched' : ∀ file ∈ sources cacheFolder c a, e₁.look file = d.look file) :
    (s' = s ∧ t' = t) ∧ (d₂ = e₂ ∨ ∃ p q,
      bibliography? c s = some p ∧ bibliography? c t = some q ∧
      d.isPresent (bibliographyFile c a) = false ∧
      d₂.content? (keyOf (bibliographyFile c a)) = some (.text p) ∧
      e₂.content? (keyOf (bibliographyFile c a)) = some (.text q) ∧
      ∀ key ≠ keyOf (bibliographyFile c a), d₂.entries.find? key = e₂.entries.find? key) := by
  obtain ⟨converted, m, there, run⟩ := of_convertToFiles mode first
  obtain ⟨converted₂, _, -, run₂⟩ := of_convertToFiles mode second
  obtain ⟨converted', n, -, run'⟩ := of_convertToFiles mode first'
  obtain ⟨converted₂', _, -, run₂'⟩ := of_convertToFiles mode second'
  -- The sources are the same in either order, and so are the two conversions.
  obtain rfl := convert_unique untouched converted₂ converted'
  obtain rfl := convert_unique untouched' converted₂' converted
  rw [← shared] at run₂ run'
  obtain ⟨_, readA⟩ := read_of_convert converted
  obtain ⟨_, readB⟩ := read_of_convert converted'
  have apart : (Delta.ofRecords (records c a s')).Apart (.ofRecords (records c b t)) := by
    apply apart_records
    rintro same
    rw [stem?_of_read readA, stem?_of_read readB, same] at different
    exact different rfl
  refine ⟨⟨rfl, rfl⟩, ?_⟩
  by_cases wants : c.writeBibliography = true
  · obtain ⟨freeA, freeB⟩ := List.forall_mem_append.1 (free wants)
    have avoids := avoids_records (t := s') freeA
    have avoids' : (Delta.ofRecords (records c b t)).Avoids (placeOf (c.outputDir a))
        c.bibliographyFile := by
      rw [shared]
      refine avoids_records ?_
      rwa [bibliographyFile, keyOf_join, shared, ← keyOf_join] at freeB
    have known := hasFolder_of_turns (t := t) readB run.turns
    have known' := hasFolder_of_turns (t := s') readA run'.turns
    rcases run.eq_or_listed run₂ run' run₂' apart avoids avoids' known known' with
      same | ⟨p, q, left, right, missing, rest⟩
    · exact .inl same
    · refine .inr ⟨p, q, left, right, ?_, ?_⟩
      · have same : keyOf (bibliographyFile c a) = keyFrom _ c.bibliographyFile := keyOf_join
        rw [← Bool.not_eq_true]
        intro present
        have still := isPresent_mono present (fun _ => run.turns.hasFolder)
          (run.turns.content?_of_not_mem (same ▸ avoids.file))
        exact missing ((isPresent_join_iff there).1 still).2
      · rw [bibliographyFile, keyOf_join]
        exact rest
  · have none (t : Timed) : bibliography? c t = none := if_neg wants
    rw [none] at run run₂ run' run₂'
    exact .inl (run.eq_of_none run₂ run' run₂' apart)

-- What paths lead to on two disks is compared below.
deriving instance DecidableEq for Except

/-- An article with one reference that gets into the bibliography. -/
private def citing (title : String) : String :=
  "<article><back><ref-list><ref id='r'><mixed-citation><source>" ++ title
    ++ "</source></mixed-citation></ref></ref-list></back></article>"

/-- An article with one reference that has an identifier too. -/
private def identified (pmid : String) : String :=
  "<article><back><ref-list><ref id='r'><mixed-citation><source>A</source>"
    ++ "<pub-id pub-id-type='pmid'>" ++ pmid ++ "</pub-id></mixed-citation></ref></ref-list></back>"
    ++ "</article>"

private def plainly (text : String) : String :=
  "<article><body>" ++ text ++ "</body></article>"

private def shelf (files : List (Path × String)) : Disk :=
  files.foldl (fun d file => d.place file.1 (.file (.text file.2))) empty

/-- The disk that a conversion leaves, whether or not it succeeds. -/
private def afterwards (c : Config) (d : Disk) (article : Path) : Disk :=
  (outcome ((storage none).convertToFiles c article) d).2

private theorem exists_timed (c : Config) (d : Disk) (article : Path)
    (succeeds : (outcome ((storage none).convertToFiles c article) d).1.isOk = true) :
    ∃ t, outcome ((storage none).convertToFiles c article) d = (.ok t, afterwards c d article) := by
  rw [afterwards]
  rcases run : outcome ((storage none).convertToFiles c article) d with ⟨failure | t, d'⟩
  · rw [run] at succeeds
    cases succeeds
  · exact ⟨t, rfl⟩

private def paged : Config := {dir := some "o", frontmatter := .page, writeLog := false}

/-- Two articles that each have a bibliography. -/
private def pair : Disk := shelf [("a.xml", citing "A"), ("b.xml", citing "B")]

theorem convertToFiles_either_order_citing : ∃ p q, p ≠ q ∧
    (afterwards paged (afterwards paged pair "a.xml") "b.xml").content?
      (keyOf (bibliographyFile paged "a.xml")) = some (.text p) ∧
    (afterwards paged (afterwards paged pair "b.xml") "a.xml").content?
      (keyOf (bibliographyFile paged "a.xml")) = some (.text q) ∧
    ∀ key ≠ keyOf (bibliographyFile paged "a.xml"),
      (afterwards paged (afterwards paged pair "a.xml") "b.xml").entries.find? key =
        (afterwards paged (afterwards paged pair "b.xml") "a.xml").entries.find? key := by
  obtain ⟨s, first⟩ := exists_timed paged pair "a.xml" (by decide +kernel)
  obtain ⟨t, second⟩ := exists_timed paged (afterwards paged pair "a.xml") "b.xml"
    (by decide +kernel)
  obtain ⟨t', first'⟩ := exists_timed paged pair "b.xml" (by decide +kernel)
  obtain ⟨s', second'⟩ := exists_timed paged (afterwards paged pair "b.xml") "a.xml"
    (by decide +kernel)
  have order := convertToFiles_either_order (by decide) (by decide) (by decide +kernel)
    (fun _ => by decide +kernel) first second first' second' (by decide +kernel) (by decide +kernel)
  have differ : (afterwards paged (afterwards paged pair "a.xml") "b.xml").content?
      (keyOf (bibliographyFile paged "a.xml")) ≠
        (afterwards paged (afterwards paged pair "b.xml") "a.xml").content?
          (keyOf (bibliographyFile paged "a.xml")) := by decide +kernel
  rcases order.2 with same | ⟨p, q, -, -, -, left, right, rest⟩
  · rw [same] at differ
    exact absurd rfl differ
  · refine ⟨p, q, ?_, left, right, rest⟩
    rintro rfl
    exact differ (left.trans right.symm)

/-! ### What the order tells -/

/-- What articles leave that are converted one after the other, if all conversions succeed. -/
def batch (c : Config) : List Path → Disk → Option Disk
  | [], d => some d
  | article :: rest, d =>
    match outcome ((storage none).convertToFiles c article) d with
    | (.ok _, d') => batch c rest d'
    | (.error _, _) => none

/-- Whether two articles with different stems can be converted into one folder in either order, but
what is then kept under a key depends on which comes first. -/
def OrderTells (c : Config) (a b : Path) (d : Disk) (key : String) : Prop :=
  (c.frontmatter ≠ .project ∧ Path.stem? a ≠ Path.stem? b ∧ c.outputDir a = c.outputDir b) ∧
    ∃ left ∈ batch c [a, b] d, ∃ right ∈ batch c [b, a] d, left.content? key ≠ right.content? key

instance (c : Config) (a b : Path) (d : Disk) (key : String) : Decidable (OrderTells c a b d key) :=
  inferInstanceAs (Decidable (_ ∧ _))

/-- The order tells what a bibliography holds that both articles could list. It also tells where one
article is an output for the other, where the bibliography has the name of a draft or comes to that
of a document on a way round, and where the folder for outputs, once it is made, leads to a cache. A
bibliography can even stand in the way of the other article, so that this cannot be converted
afterwards. -/
theorem order_tells :
    OrderTells {dir := some ".", writeLog := false} "a.xml" "b.xml"
      (shelf [("a.xml", citing "A"), ("b.xml", citing "B")]) "main.bib" ∧
    OrderTells {dir := some ".", writeLog := false} "a.xml" "a.myst.json"
      (shelf [("a.xml", plainly "&lt;article/&gt;"), ("a.myst.json", plainly "A")])
      "a.myst.myst.json" ∧
    OrderTells {dir := some ".", writeLog := false, bibliographyFile := "a.myst.json.tmp"}
      "a.xml" "b.xml" (shelf [("a.xml", plainly "A"), ("b.xml", citing "B")]) "a.myst.json.tmp" ∧
    OrderTells {dir := some ".", writeLog := false, bibliographyFile := "o/../a.myst.json"}
      "a.xml" "b.xml" (shelf [("a.xml", plainly "A"), ("b.xml", citing "B")]) "a.myst.json" ∧
    OrderTells {dir := some "o/..", writeLog := false} "a.xml" "b.xml"
      (shelf [("a.xml", plainly "A"), ("b.xml", identified "1"),
        ("_build/cache/jats-pmid-doi.json", "\x7b\"1\": \"10.1/x\"\x7d")]) "main.bib" ∧
    let c : Config := {dir := some ".", writeLog := false, bibliographyFile := "a.myst.json/b"}
    let d := shelf [("a.xml", plainly "A"), ("b.xml", citing "B")]
    (batch c ["a.xml"] d).isSome ∧ (batch c ["b.xml"] d).isSome ∧
      batch c ["a.xml", "b.xml"] d = none ∧ batch c ["b.xml", "a.xml"] d = none := by
  refine ⟨?_, ?_, ?_, ?_, ?_, ?_⟩ <;> decide +kernel

end

end Manuscript.Disk
