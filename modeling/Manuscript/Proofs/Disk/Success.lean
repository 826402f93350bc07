import Manuscript.Proofs.Disk.Effect
import Manuscript.Proofs.Disk.Outputs

/-!
What a successful conversion leaves: the document and the logs under names of its own, and then the
bibliography, if there is one and none is found. Where something is found depends on the folders
there and on what is kept under its key, and on nothing else.
-/

set_option autoImplicit false

namespace Manuscript.Disk

/-! ### Documents and logs -/

/-- The files with what is known of an article alone: its document and its logs. -/
def recordFiles (c : Config) (article : Path) : List Path :=
  outputFile c article ".myst.json" :: if c.writeLog then
    [outputFile c article ".log.json", outputFile c article ".log.yml"] else []

/-- The logs with their contents, in the order in which they are written. -/
def logRecords (c : Config) (article : Path) (t : Timed) : List (Path × String) :=
  if c.writeLog then
    let log := t.conversion.stats.toJson t.milliseconds
    [(outputFile c article ".log.json", log.pretty),
      (outputFile c article ".log.yml", (Yaml.ofJson log).print)]
  else []

def records (c : Config) (article : Path) (t : Timed) : List (Path × String) :=
  (outputFile c article ".myst.json", documentText c.frontmatter t.conversion) ::
    logRecords c article t

def bibliography? (c : Config) (t : Timed) : Option String :=
  if c.writeBibliography then t.conversion.bibliography else none

/-- What files that are written one after the other leave. -/
def Delta.ofRecords : List (Path × String) → Delta
  | [] => .empty
  | (path, content) :: rest => (ofRecords rest).after (.writing path content)

section
variable {c : Config} {article : Path} {t : Timed} {d d' : Disk} {cacheFolder : Option String}

theorem map_fst_records : (records c article t).map (·.1) = recordFiles c article := by
  unfold records logRecords recordFiles
  cases c.writeLog <;> rfl

theorem exists_ending_of_mem_recordFiles {file : Path} (mem : file ∈ recordFiles c article) :
    ∃ ending ∈ outputEndings, file = outputFile c article ending := by
  unfold recordFiles at mem
  rcases List.mem_cons.1 mem with rfl | mem
  · exact ⟨".myst.json", by decide, rfl⟩
  · split at mem
    · simp only [List.mem_cons, List.not_mem_nil, or_false] at mem
      rcases mem with rfl | rfl
      · exact ⟨".log.json", by decide, rfl⟩
      · exact ⟨".log.yml", by decide, rfl⟩
    · cases mem

theorem mem_keys_ofRecords {rs : List (Path × String)} {key : String}
    (mem : key ∈ (Delta.ofRecords rs).keys) :
    ∃ file ∈ rs.map (·.1), key = keyOf file ∨ key = keyOf (draftOf file) := by
  induction rs with
  | nil => cases mem
  | cons r rs ih =>
    rw [Delta.ofRecords, Delta.after, Delta.keys, List.map_append, List.mem_append] at mem
    rcases mem with later | here
    · obtain ⟨file, place, same⟩ := ih later
      exact ⟨file, List.mem_cons_of_mem _ place, same⟩
    · refine ⟨r.1, List.mem_cons_self, ?_⟩
      simpa [Delta.writing] using here

theorem mem_folders_ofRecords_iff {rs : List (Path × String)} {key : String} :
    key ∈ (Delta.ofRecords rs).folders ↔ ∃ file ∈ rs.map (·.1), key ∈ trailOf file := by
  induction rs with
  | nil => simp [Delta.ofRecords, Delta.empty]
  | cons r rs ih =>
    rw [Delta.ofRecords, Delta.after, List.mem_append, ih, or_comm]
    simp [Delta.writing]

/-- The keys of the folders on the way to a folder. -/
def wayTo (folder : Path) : List String :=
  (trail (origin folder) (Path.steps folder)).map Place.key

theorem mem_folders_records_iff {key : String} :
    key ∈ (Delta.ofRecords (records c article t)).folders ↔ key ∈ wayTo (c.outputDir article) := by
  have way {file : Path} (mem : file ∈ recordFiles c article) :
      trailOf file = wayTo (c.outputDir article) := by
    obtain ⟨ending, isEnding, rfl⟩ := exists_ending_of_mem_recordFiles mem
    obtain ⟨steps, start⟩ : (Path.steps (outputFile c article ending)).dropLast = _ ∧ _ :=
      steps_output isEnding
    rw [trailOf, steps, start, wayTo]
  rw [mem_folders_ofRecords_iff, map_fst_records]
  constructor
  · rintro ⟨file, mem, inside⟩
    rwa [way mem] at inside
  · intro inside
    have first : outputFile c article ".myst.json" ∈ recordFiles c article := List.mem_cons_self
    exact ⟨_, first, by rwa [way first]⟩

theorem walk_of_isPresent {path : Path} {n : String} (present : d.isPresent path = true)
    (named : Path.name? path = some n) :
    d.walk (origin path) (Path.steps path).dropLast = .ok (folderOf path) := by
  obtain ⟨p, found, -⟩ := isPresent_iff.1 present
  have walked := (locate_eq_ok_iff.1 found).2.2
  rw [steps_of_named named, walk_append] at walked
  cases inner : d.walk (origin path) (Path.steps path).dropLast with
  | error cause =>
    rw [inner] at walked
    cases walked
  | ok q => rw [folderOf, walk_eq_ok inner]

end

/-! ### What is found -/

/-- Where the steps of a path start that is joined to a folder. -/
def startFrom (folder : Place) (path : Path) : Place :=
  if Path.isAbsolute path then [""] else folder

/-- The key of what a path from a folder leads to. -/
def keyFrom (folder : Place) (path : Path) : String :=
  (climb (startFrom folder path) (Path.steps path)).key

/-- Whether something is found on a path from a folder. -/
def Found (d : Disk) (folder : Place) (path : Path) : Prop :=
  ∃ p, d.walk (startFrom folder path) (Path.steps path) = .ok p ∧
    (d.at? p = some .folder ∨
      (∃ content, d.at? p = some (.file content)) ∧ Path.endsAtFolder path = false)

section
variable {d d' : Disk} {folder path : Path}

theorem keyOf_join : keyOf (Path.join folder path) = keyFrom (placeOf folder) path := by
  rw [keyOf, keyFrom, startFrom, origin, Path.isAbsolute_join, Path.steps_join]
  cases Path.isAbsolute path with
  | true => rfl
  | false =>
    rw [Bool.false_or, if_neg Bool.false_ne_true, if_neg Bool.false_ne_true, climb_append]
    rfl

theorem walk_join (there : d.walk (origin folder) (Path.steps folder) = .ok (placeOf folder)) :
    d.walk (origin (Path.join folder path)) (Path.steps (Path.join folder path)) =
      d.walk (startFrom (placeOf folder) path) (Path.steps path) := by
  rw [startFrom, origin, Path.isAbsolute_join, Path.steps_join]
  cases Path.isAbsolute path with
  | true => rfl
  | false =>
    rw [Bool.false_or, if_neg Bool.false_ne_true, if_neg Bool.false_ne_true, walk_append, ← origin,
      there]
    rfl

theorem isPresent_join_iff
    (there : d.walk (origin folder) (Path.steps folder) = .ok (placeOf folder)) :
    d.isPresent (Path.join folder path) = true ↔
      (refusal? (Path.join folder path) = none ∧ Path.join folder path ≠ "") ∧
        d.Found (placeOf folder) path := by
  rw [isPresent_iff, Found, Path.endsAtFolder_join]
  simp only [locate_eq_ok_iff, walk_join there, and_assoc, exists_and_left]

/-- What is found is still found where there are more folders and the file there is the same. -/
theorem Found.mono {p : Place} (found : d.Found p path)
    (more : ∀ key, d.HasFolder key → d'.HasFolder key)
    (kept : d'.content? (keyFrom p path) = d.content? (keyFrom p path)) : d'.Found p path := by
  obtain ⟨q, walked, there⟩ := found
  refine ⟨q, walk_mono more walked, at?_mono more ?_ there⟩
  rwa [walk_eq_ok walked]

theorem isPresent_mono (present : d.isPresent path = true)
    (more : ∀ key, d.HasFolder key → d'.HasFolder key)
    (kept : d'.content? (keyOf path) = d.content? (keyOf path)) : d'.isPresent path = true := by
  obtain ⟨q, found, there⟩ := isPresent_iff.1 present
  obtain ⟨accepted, nonempty, walked⟩ := locate_eq_ok_iff.1 found
  refine isPresent_iff.2 ⟨q, ?_, at?_mono more ?_ there⟩
  · exact locate_eq_ok_iff.2 ⟨accepted, nonempty, walk_mono more walked⟩
  · rwa [placeOf_of_locate found]

/-! ### The bibliography -/

/-- The key of the draft of what a path from a folder leads to. -/
def draftFrom (folder : Place) (path : Path) : String :=
  Place.key (climb (startFrom folder path) (Path.steps path).dropLast
    ++ [(Path.name? path).getD "" ++ ".tmp"])

/-- What a file leaves that is written whole to a path from a folder. -/
def Delta.listing (folder : Place) (path : Path) (content : String) : Delta :=
  ⟨(trail (startFrom folder path) (Path.steps path).dropLast).map Place.key,
    [(keyFrom folder path, some (.text content)), (draftFrom folder path, none)]⟩

theorem steps_join_dropLast {n : String} (named : Path.name? path = some n) :
    Path.name? (Path.join folder path) = some n ∧
      (Path.steps (Path.join folder path)).dropLast =
        if Path.isAbsolute path then (Path.steps path).dropLast
        else Path.steps folder ++ (Path.steps path).dropLast := by
  obtain ⟨name, front, whole⟩ := Path.isName_of_name? named
  have last : (Path.steps (Path.join folder path)).getLast? = some n := by
    rw [Path.steps_join, whole]
    split
    · exact List.getLast?_concat
    · rw [← List.append_assoc, List.getLast?_concat]
  constructor
  · simp [Path.name?_eq, last, Option.filter, name.other]
  · rw [Path.steps_join, whole]
    split
    · rfl
    · rw [← List.append_assoc, List.dropLast_concat, List.dropLast_concat]

theorem folderOf_join {n : String} (named : Path.name? path = some n) :
    folderOf (Path.join folder path) =
      climb (startFrom (placeOf folder) path) (Path.steps path).dropLast := by
  rw [folderOf, (steps_join_dropLast named).2, origin, Path.isAbsolute_join, startFrom]
  cases Path.isAbsolute path with
  | true => rfl
  | false =>
    rw [Bool.false_or, if_neg Bool.false_ne_true, if_neg Bool.false_ne_true, climb_append]
    rfl

theorem keyOf_draftOf_join {n : String} (named : Path.name? path = some n) :
    keyOf (draftOf (Path.join folder path)) = draftFrom (placeOf folder) path := by
  rw [keyOf_eq, placeOf_draftOf (steps_join_dropLast named).1, folderOf_join named, draftFrom,
    named]
  rfl

/-- A joined path leads through the folders of its first part, or starts anew. -/
theorem trailOf_join {n : String} (named : Path.name? path = some n) :
    trailOf (Path.join folder path) = (if Path.isAbsolute path then [] else wayTo folder) ++
      (trail (startFrom (placeOf folder) path) (Path.steps path).dropLast).map Place.key := by
  rw [trailOf, (steps_join_dropLast named).2, origin, Path.isAbsolute_join, startFrom]
  cases Path.isAbsolute path with
  | true => rfl
  | false =>
    rw [Bool.false_or, if_neg Bool.false_ne_true, if_neg Bool.false_ne_true,
      if_neg Bool.false_ne_true, trail_append, List.map_append]
    rfl

/-- Where the folders on the way to a folder are there, a path leads on from it. -/
theorem turns_listing {content : String} (file : Path.endsAtFolder path = false)
    (way : ∀ key ∈ wayTo folder, d.HasFolder key)
    (turns : (Delta.writing (Path.join folder path) content).Turns d d') :
    (Delta.listing (placeOf folder) path content).Turns d d' := by
  obtain ⟨n, named⟩ := Path.isSome_name? file
  obtain ⟨folders, files⟩ := turns
  rw [Delta.writing] at folders files
  simp only [keyOf_join, keyOf_draftOf_join named] at files
  have front (key : String) (inside : key ∈ if Path.isAbsolute path then [] else wayTo folder) :
      d.HasFolder key := by
    split at inside
    · cases inside
    · exact way key inside
  refine ⟨fun key => ?_, files⟩
  rw [folders, trailOf_join named, List.mem_append, ← or_assoc, or_iff_left_of_imp (front key)]
  rfl

/-- What becomes of the bibliography once all else is written: it is written if it is wanted and
nothing is found in its place. -/
inductive Listed (wanted : Option String) (folder : Place) (path : Path) (d : Disk) : Disk → Prop
  | unwanted : wanted = none → Listed wanted folder path d d
  | kept {text : String} : wanted = some text → d.Found folder path → Listed wanted folder path d d
  | written {text : String} {d' : Disk} : wanted = some text → ¬ d.Found folder path →
    (Delta.listing folder path text).Turns d d' → d'.Found folder path →
    Path.endsAtFolder path = false → Listed wanted folder path d d'

/-- A run that makes one disk into a second by writing its records, and that into a third when it
comes to the bibliography. -/
structure Run (δ : Delta) (wanted : Option String) (folder : Place) (path : Path)
    (d mid d' : Disk) : Prop where
  turns : δ.Turns d mid
  listed : Listed wanted folder path mid d'

end

/-! ### One conversion -/

section
variable {c : Config} {article : Path} {t : Timed} {d d' : Disk} {cacheFolder : Option String}

theorem turns_logRecords
    (done : outcome (if c.writeLog then
      (storage cacheFolder).writeLog c article (t.conversion.stats.toJson t.milliseconds)
      else pure () : Action Unit) d = (.ok (), d')) :
    (Delta.ofRecords (logRecords c article t)).Turns d d' := by
  unfold logRecords
  split at done
  · next logs =>
    obtain ⟨_, e, machine, readable⟩ := outcome_bind_eq_ok done
    have first := (turns_writeWhole machine).1
    have second := (turns_writeWhole readable).1
    rw [if_pos logs]
    exact first.trans (second.trans .refl)
  · next none =>
    cases done
    rw [if_neg none]
    exact .refl

theorem listed_of_outcome
    (way : ∀ key ∈ wayTo (c.outputDir article), d.HasFolder key)
    (there : d.walk (origin (c.outputDir article)) (Path.steps (c.outputDir article)) =
      .ok (placeOf (c.outputDir article)))
    (done : outcome (if c.writeBibliography then
      match t.conversion.bibliography with
      | some text =>
        (storage cacheFolder).writeBibliography (bibliographyFile c article) text
      | none => pure () else pure () : Action Unit) d = (.ok (), d')) :
    Listed (bibliography? c t) (placeOf (c.outputDir article)) c.bibliographyFile d d' := by
  split at done
  · next wanted =>
    have same : bibliography? c t = t.conversion.bibliography := if_pos wanted
    split at done
    · next text made =>
      rw [made] at same
      unfold Storage.writeBibliography at done
      obtain ⟨present, e, looked, wrote⟩ := outcome_bind_eq_ok done
      cases looked
      split at wrote
      · next here =>
        cases wrote
        exact .kept same ((isPresent_join_iff there).1 here).2
      · next gone =>
        obtain ⟨turns, present, file⟩ := turns_writeWhole wrote
        rw [bibliographyFile, Path.endsAtFolder_join] at file
        -- Writing takes no folder away, so that the path leads to the same place as before.
        have onward := walk_mono (fun _ => turns.hasFolder) there
        obtain ⟨accepted, found⟩ := (isPresent_join_iff onward).1 present
        refine .written same (fun before => gone ?_) (turns_listing file way turns) found file
        exact (isPresent_join_iff there).2 ⟨accepted, before⟩
    · next none =>
      cases done
      exact .unwanted (same.trans none)
  · next unwanted =>
    cases done
    exact .unwanted (if_neg unwanted)

/-- A successful conversion writes its records, and then the bibliography or not. -/
theorem of_convertToFiles (mode : c.frontmatter ≠ .project)
    (done : outcome ((storage cacheFolder).convertToFiles c article) d = (.ok t, d')) :
    outcome ((storage cacheFolder).convert c article) d = (.ok t, d) ∧
      ∃ mid, mid.walk (origin (c.outputDir article)) (Path.steps (c.outputDir article)) =
          .ok (placeOf (c.outputDir article)) ∧
        Run (.ofRecords (records c article t)) (bibliography? c t)
          (placeOf (c.outputDir article)) c.bibliographyFile d mid d' := by
  rw [convertToFiles_eq] at done
  obtain ⟨t', e, converted, wrote⟩ := outcome_bind_eq_ok done
  have still : (outcome ((storage cacheFolder).convert c article) d).2 = d :=
    still_convert c article d
  rw [converted] at still
  obtain rfl : e = d := still
  unfold writeOutputs at wrote
  rw [if_neg mode, pure_bind] at wrote
  obtain ⟨_, d₁, document, behind⟩ := outcome_bind_eq_ok wrote
  obtain ⟨_, d₂, logs, last⟩ := outcome_bind_eq_ok behind
  obtain ⟨_, d₃, bibliography, finished⟩ := outcome_bind_eq_ok last
  cases finished
  obtain ⟨turns, present, file⟩ := turns_writeWhole document
  obtain ⟨n, named⟩ := Path.isSome_name? file
  have inFolder := walk_of_isPresent present named
  have isEnding : ".myst.json" ∈ outputEndings := by decide
  rw [folderOf_output isEnding, (steps_output isEnding).1, (steps_output isEnding).2] at inFolder
  have rest := turns_logRecords logs
  -- Once the document is there, the folders on the way are.
  have whole : (Delta.ofRecords (records c article t)).Turns e d₂ := turns.trans rest
  have way (key : String) (mem : key ∈ wayTo (c.outputDir article)) : d₂.HasFolder key :=
    (whole.folders key).2 (.inr (mem_folders_records_iff.2 mem))
  have onward := walk_mono (fun _ => rest.hasFolder) inFolder
  exact ⟨converted, d₂, onward, whole, listed_of_outcome way onward bibliography⟩

end

end Manuscript.Disk
