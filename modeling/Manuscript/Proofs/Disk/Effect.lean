import Manuscript.Proofs.Disk.Location

/-!
What successful writing leaves on a disk, exactly. A file that is written whole is there with its
content, its draft is not, and all folders on the way to it are; whatever else was there is as it
was. So what a run of writing leaves is told by the folders that it needs and by what was written
last under each key.
-/

set_option autoImplicit false

namespace Manuscript.Disk

/-! ### Folders and files -/

def HasFolder (d : Disk) (key : String) : Prop := d.entries.find? key = some .folder

def content? (d : Disk) (key : String) : Option Content :=
  match d.entries.find? key with
  | some (.file content) => some content
  | _ => none

section
variable {d e : Disk} {key : String} {content : Content}

theorem content?_eq_some_iff :
    d.content? key = some content ↔ d.entries.find? key = some (.file content) := by
  unfold content?
  split
  · next there => rw [there]; simp
  · next other => simpa using fun there => other content there

theorem find?_eq_of (folders : d.HasFolder key ↔ e.HasFolder key)
    (files : d.content? key = e.content? key) : d.entries.find? key = e.entries.find? key := by
  apply Option.ext
  rintro (_ | content)
  · exact folders
  · rw [← content?_eq_some_iff, files, content?_eq_some_iff]

end

/-! ### Changes of a run -/

/-- What a run of writing leaves: the keys of the folders that it needs, and the keys of the files
that it deals with, with what they hold or `none` where a file is gone, the latest first. -/
structure Delta where
  folders : List String
  files : List (String × Option Content)

namespace Delta

def empty : Delta := ⟨[], []⟩

def after (late early : Delta) : Delta :=
  ⟨late.folders ++ early.folders, late.files ++ early.files⟩

def keys (δ : Delta) : List String := δ.files.map (·.1)

/-- Whether a run makes one disk into another. -/
structure Turns (δ : Delta) (d d' : Disk) : Prop where
  folders : ∀ key, d'.HasFolder key ↔ d.HasFolder key ∨ key ∈ δ.folders
  files : ∀ key, d'.content? key = (Dict.lookup key δ.files).getD (d.content? key)

variable {δ ε : Delta} {d d' d'' : Disk}

theorem Turns.refl : Turns empty d d := ⟨fun _ => by simp [empty], fun _ => rfl⟩

theorem Turns.trans (first : δ.Turns d d') (second : ε.Turns d' d'') :
    (ε.after δ).Turns d d'' := by
  constructor
  · intro key
    rw [second.folders, first.folders, after, List.mem_append, or_assoc, or_comm (a := key ∈ _)]
  · intro key
    rw [second.files, first.files, after, Dict.lookup_append]
    cases Dict.lookup key ε.files <;> rfl

theorem lookup_of_not_mem {key : String} (other : key ∉ δ.keys) : Dict.lookup key δ.files = none :=
  Dict.lookup_eq_none_of_forall_ne fun _ mem same => other (same ▸ List.mem_map_of_mem mem)

theorem Turns.content?_of_not_mem (turns : δ.Turns d d') {key : String} (other : key ∉ δ.keys) :
    d'.content? key = d.content? key := by
  rw [turns.files, lookup_of_not_mem other]
  rfl

theorem Turns.hasFolder (turns : δ.Turns d d') {key : String} (here : d.HasFolder key) :
    d'.HasFolder key :=
  (turns.folders key).2 (.inl here)

end Delta

/-! ### Folders on the way -/

/-- The places that a walk enters by a step downward. -/
def trail (p : Place) : List String → List Place
  | [] => []
  | step :: steps =>
    if step = ".." then trail (if p = [""] then p else p.dropLast) steps
    else (p ++ [step]) :: trail (p ++ [step]) steps

theorem trail_append (p : Place) (xs ys : List String) :
    trail p (xs ++ ys) = trail p xs ++ trail (climb p xs) ys := by
  induction xs generalizing p with
  | nil => rfl
  | cons x xs ih =>
    rw [List.cons_append, trail, trail, climb]
    split
    · exact ih _
    · rw [ih, List.cons_append]

/-- The keys of the folders that a path leads through. -/
def trailOf (path : Path) : List String :=
  (trail (origin path) (Path.steps path).dropLast).map Place.key

section
variable {d d' : Disk} {path : Path}

theorem at?_concat {p : Place} {n : String} (name : n ≠ "") :
    d.at? (p ++ [n]) = d.entries.find? (Place.key (p ++ [n])) := by
  have inner : ¬ (p ++ [n] = [] ∨ p ++ [n] = [""]) := by
    rintro (none | root)
    · simp at none
    · cases p with
      | nil => exact name (List.cons.inj root).1
      | cons m p => simp at root
  rw [at?, if_neg inner]

theorem turns_entered {p : Place} (there : d.HasFolder p.key) :
    Delta.Turns ⟨[p.key], []⟩ d d := by
  refine ⟨fun key => ?_, fun _ => rfl⟩
  rw [List.mem_singleton, or_iff_left_of_imp]
  rintro rfl
  exact there

theorem turns_put {p : Place} (free : d.entries.find? p.key = none) :
    Delta.Turns ⟨[p.key], []⟩ d (d.put p .folder) := by
  constructor
  · intro key
    rw [HasFolder, find?_put, List.mem_singleton]
    by_cases here : key = p.key <;> simp [here, HasFolder]
  · intro key
    show content? _ key = content? d key
    rw [content?, content?, find?_put]
    by_cases here : key = p.key <;> simp [here, free]

theorem turns_trail {p : Place} {step : String} {steps : List String} {d'' : Disk}
    (other : step ≠ "..") (first : Delta.Turns ⟨[Place.key (p ++ [step])], []⟩ d d')
    (rest : Delta.Turns ⟨(trail (p ++ [step]) steps).map Place.key, []⟩ d' d'') :
    Delta.Turns ⟨(trail p (step :: steps)).map Place.key, []⟩ d d'' := by
  constructor
  · intro key
    rw [rest.folders, first.folders, List.mem_singleton, trail, if_neg other, or_assoc]
    exact or_congr_right List.mem_cons.symm
  · intro key
    rw [rest.files, first.files]
    rfl

theorem turns_makeFrom {made : Bool} {p : Place} {steps : List String}
    (named : ∀ step ∈ steps, step ≠ "") (done : d.makeFrom made p steps = (.ok (), d')) :
    Delta.Turns ⟨(trail p steps).map Place.key, []⟩ d d' := by
  fun_induction makeFrom d made p steps with
  | case1 =>
    cases done
    exact .refl
  | case2 d made p steps ih =>
    rw [trail, if_pos rfl]
    exact ih (List.forall_mem_cons.1 named).2 done
  | case3 => cases done
  | case4 d made p step steps other _ next there ih =>
    obtain ⟨name, rest⟩ := List.forall_mem_cons.1 named
    rw [at?_concat name] at there
    exact turns_trail other (turns_entered there) (ih rest done)
  | case5 => cases done
  | case6 d made p step steps other _ next free ih =>
    obtain ⟨name, rest⟩ := List.forall_mem_cons.1 named
    rw [at?_concat name] at free
    exact turns_trail other (turns_put free) (ih rest done)

theorem ne_empty_of_mem_steps {step : String} (mem : step ∈ Path.steps path) : step ≠ "" := by
  rintro rfl
  have step := (Path.plain_of_mem_steps mem).2
  cases step

theorem turns_makeFolders (done : d.makeFolders path = (.ok (), d')) :
    Delta.Turns ⟨(trail (origin path) (Path.steps path)).map Place.key, []⟩ d d' := by
  unfold makeFolders at done
  split at done
  · cases done
  · exact turns_makeFrom (fun _ mem => ne_empty_of_mem_steps mem) done

/-! ### Walks -/

theorem walk_append (d : Disk) (p : Place) (xs ys : List String) :
    d.walk p (xs ++ ys) = d.walk p xs >>= fun q => d.walk q ys := by
  induction xs generalizing p with
  | nil => rfl
  | cons x xs ih =>
    rw [List.cons_append, walk, walk]
    split
    · rfl
    · rfl
    · split
      · exact ih _
      · split
        · rfl
        · exact ih _

theorem at?_eq_folder_iff {p : Place} :
    d.at? p = some .folder ↔ (p = [] ∨ p = [""]) ∨ d.HasFolder p.key := by
  unfold at?
  split
  · next top => simp [top]
  · next inner => simp [inner, HasFolder]

theorem at?_eq_file_iff {p : Place} {content : Content} :
    d.at? p = some (.file content) ↔
      ¬ (p = [] ∨ p = [""]) ∧ d.content? p.key = some content := by
  unfold at?
  split
  · next top => simp [top]
  · next inner => simp only [inner, content?_eq_some_iff, not_false_eq_true, true_and]

/-- What is at a place is there where there are more folders and the file there is the same. -/
theorem at?_mono {p : Place} {file : Prop} (more : ∀ key, d.HasFolder key → d'.HasFolder key)
    (kept : d'.content? p.key = d.content? p.key)
    (there : d.at? p = some .folder ∨ (∃ content, d.at? p = some (.file content)) ∧ file) :
    d'.at? p = some .folder ∨ (∃ content, d'.at? p = some (.file content)) ∧ file := by
  refine there.imp (fun there => ?_) fun ⟨⟨content, there⟩, ends⟩ => ⟨⟨content, ?_⟩, ends⟩
  · exact at?_eq_folder_iff.2 ((at?_eq_folder_iff.1 there).imp_right (more p.key))
  · rw [at?_eq_file_iff] at there ⊢
    rwa [kept]

theorem walk_mono {p q : Place} {steps : List String}
    (more : ∀ key, d.HasFolder key → d'.HasFolder key)
    (found : d.walk p steps = .ok q) : d'.walk p steps = .ok q := by
  have folders (p : Place) (there : d.at? p = some .folder) : d'.at? p = some .folder :=
    at?_eq_folder_iff.2 ((at?_eq_folder_iff.1 there).imp_right (more p.key))
  induction steps generalizing p with
  | nil => exact found
  | cons step steps ih =>
    rw [walk] at found ⊢
    split at found
    · cases found
    · cases found
    · next there =>
      rw [folders p there]
      dsimp only
      split at found
      · next up => rw [if_pos up]; exact ih found
      · next down =>
        rw [if_neg down]
        split at found
        · cases found
        · next short => rw [if_neg short]; exact ih found

theorem locate_eq_ok_iff {p : Place} : d.locate path = .ok p ↔
    refusal? path = none ∧ path ≠ "" ∧ d.walk (origin path) (Path.steps path) = .ok p := by
  unfold locate
  cases refusal? path with
  | some cause => simp
  | none =>
    by_cases none : path = ""
    · simp [none]
    · simp [none]

theorem isPresent_iff : d.isPresent path = true ↔ ∃ p, d.locate path = .ok p ∧
    (d.at? p = some .folder ∨
      (∃ content, d.at? p = some (.file content)) ∧ Path.endsAtFolder path = false) := by
  rw [isPresent, look]
  cases d.locate path with
  | error cause => simp [bind, Except.bind, Except.isOk, Except.toBool]
  | ok p =>
    simp only [bind, Except.bind, Except.ok.injEq, exists_eq_left']
    rcases there : d.at? p with _ | _ | content
    · simp [Except.isOk, Except.toBool]
    · simp [Except.isOk, Except.toBool, pure, Except.pure]
    · cases Path.endsAtFolder path <;> simp [Except.isOk, Except.toBool, pure, Except.pure]

/-! ### Written files -/

theorem not_hasFolder_of_checkTarget {p : Place} (free : d.checkTarget p = .ok ()) :
    ¬ d.HasFolder p.key := by
  intro there
  rw [checkTarget] at free
  split at free
  · cases free
  · cases free
  · rw [if_pos (at?_eq_folder_iff.2 (.inr there))] at free
    cases free

theorem not_hasFolder_of_write {s : String} (written : d.write path s = .ok d') :
    ¬ d.HasFolder (keyOf path) := by
  unfold write at written
  cases place : d.locate path with
  | error cause => rw [place] at written; cases written
  | ok p =>
    rw [place] at written
    cases checked : d.checkTarget p with
    | error cause => simp [checked, bind, Except.bind] at written
    | ok _ =>
      rw [← locate_eq_ok place]
      exact not_hasFolder_of_checkTarget checked

/-- A file that is moved to a path gets to a place that is free of folders. -/
theorem target_of_move {old new : Path} (moved : d.move old new = .ok d') :
    ¬ d.HasFolder (keyOf new) ∧ Path.endsAtFolder new = false ∧ ∃ p, d.locate new = .ok p := by
  unfold move at moved
  cases source : d.locate old with
  | error cause => rw [source] at moved; cases moved
  | ok p =>
    simp only [source, bind, Except.bind] at moved
    split at moved
    · cases moved
    · cases moved
    · cases target : d.locate new with
      | error cause => rw [target] at moved; cases moved
      | ok q =>
        simp only [target] at moved
        split at moved
        · split at moved
          · split at moved <;> cases moved
          · cases moved
          · split at moved <;> cases moved
        · next file =>
          cases checked : d.checkTarget q with
          | error cause => simp [checked] at moved
          | ok _ =>
            rw [← locate_eq_ok target]
            exact ⟨not_hasFolder_of_checkTarget checked, by simpa using file, q, rfl⟩

theorem hasFolder_of_move {old new : Path} (moved : d.move old new = .ok d') {key : String}
    (there : d.HasFolder key) : d'.HasFolder key := by
  obtain ⟨content, source, whole⟩ := find?_of_move moved
  have free := (target_of_move moved).1
  rw [HasFolder, whole, if_neg, if_neg]
  · exact there
  · rintro rfl
    cases there.symm.trans source
  · rintro rfl
    exact free there

theorem placeOf_of_locate {p : Place} (found : d.locate path = .ok p) : p = placeOf path :=
  walk_eq_ok (locate_eq_ok_iff.1 found).2.2

theorem isPresent_of_content? {p : Place} {content : Content} (found : d.locate path = .ok p)
    (file : Path.endsAtFolder path = false) (there : d.content? (keyOf path) = some content) :
    d.isPresent path = true := by
  obtain ⟨n, named⟩ := Path.isSome_name? file
  have name : n ≠ "" := by
    rintro rfl
    have step := (Path.isName_of_name? named).1.step
    cases step
  refine isPresent_iff.2 ⟨p, found, .inr ⟨⟨content, ?_⟩, file⟩⟩
  rw [placeOf_of_locate found, placeOf_named named, at?_concat name, ← placeOf_named named]
  exact content?_eq_some_iff.1 there

/-- What a file that is written whole leaves: its content, no draft, and the folders on the way. -/
def Delta.writing (path : Path) (content : String) : Delta :=
  ⟨trailOf path, [(keyOf path, some (.text content)), (keyOf (draftOf path), none)]⟩

/-- A draft that is written and moved to its place leaves no trace but the file. -/
theorem turns_draft {content : String} {d'' : Disk}
    (written : d.write (draftOf path) content = .ok d')
    (moved : d'.move (draftOf path) path = .ok d'') :
    Delta.Turns ⟨[], [(keyOf path, some (.text content)), (keyOf (draftOf path), none)]⟩ d d'' := by
  have draft := find?_of_write written
  obtain ⟨content', there, whole⟩ := find?_of_move moved
  rw [draft, if_pos rfl] at there
  obtain rfl := Entry.file.inj (Option.some.inj there)
  -- Neither the draft nor the file takes the place of a folder.
  have target := (target_of_move moved).1
  rw [HasFolder, draft] at target
  constructor
  · intro key
    rw [HasFolder, whole, draft, or_iff_left List.not_mem_nil]
    by_cases here : key = keyOf path
    · rw [if_pos here, here]
      refine ⟨nofun, fun folder => ?_⟩
      by_cases own : keyOf path = keyOf (draftOf path)
      · exact absurd (own ▸ folder) (not_hasFolder_of_write written)
      · rw [if_neg own] at target
        exact absurd folder target
    · rw [if_neg here]
      by_cases drafted : key = keyOf (draftOf path)
      · rw [if_pos drafted, drafted]
        exact ⟨nofun, fun folder => absurd folder (not_hasFolder_of_write written)⟩
      · rw [if_neg drafted, if_neg drafted]
        exact Iff.rfl
  · intro key
    rw [content?, whole, draft, Dict.lookup, Dict.lookup, Dict.lookup]
    by_cases here : key = keyOf path
    · rw [if_pos here, if_pos here]
      rfl
    · rw [if_neg here, if_neg here]
      by_cases drafted : key = keyOf (draftOf path)
      · rw [if_pos drafted, if_pos drafted]
        rfl
      · rw [if_neg drafted, if_neg drafted, if_neg drafted]
        rfl

end

/-! ### Actions that succeed -/

section
variable {α β : Type} {d d' d'' : Disk}

theorem outcome_bind_eq_ok {x : Action α} {f : α → Action β} {b : β}
    (done : outcome (x >>= f) d = (.ok b, d'')) :
    ∃ a d', outcome x d = (.ok a, d') ∧ outcome (f a) d' = (.ok b, d'') := by
  rcases found : outcome x d with ⟨failure | a, d'⟩
  · rw [outcome_bind_of_error found] at done
    cases done
  · rw [outcome_bind_of_ok found] at done
    exact ⟨a, d', rfl, done⟩

theorem run_of_outcome_writing {path : Path} {action : StateM Disk (Except Cause Unit)}
    (done : outcome (Storage.writing path action) d = (.ok (), d')) :
    action.run d = (.ok (), d') := by
  rcases run : action.run d with ⟨cause | _, e⟩
  · rw [outcome_writing_of_error run] at done
    cases done
  · rw [outcome_writing_of_ok run] at done
    cases done
    rfl

theorem eq_ok_of_run_attempt {change : Disk → Except Cause Disk}
    (done : (attempt change).run d = (.ok (), d')) : change d = .ok d' := by
  cases changed : change d with
  | error cause =>
    rw [run_attempt_of_error changed] at done
    cases done
  | ok e =>
    rw [run_attempt_of_ok changed] at done
    cases done
    rfl

variable {cacheFolder : Option String} {path : Path} {content : String}

/-- A file that is written whole is there, and so are the folders on the way, and that is all. -/
theorem turns_writeWhole
    (done : outcome ((storage cacheFolder).writeWhole path content) d = (.ok (), d')) :
    (Delta.writing path content).Turns d d' ∧ d'.isPresent path = true ∧
      Path.endsAtFolder path = false := by
  rw [writeWhole_eq] at done
  obtain ⟨_, d₁, made, done⟩ := outcome_bind_eq_ok done
  obtain ⟨_, d₂, written, moved⟩ := outcome_bind_eq_ok done
  have written := eq_ok_of_run_attempt (run_of_outcome_writing written)
  have moved := eq_ok_of_run_attempt (run_of_outcome_writing moved)
  have draft := turns_draft written moved
  obtain ⟨-, file, p, found⟩ := target_of_move moved
  obtain ⟨n, named⟩ := Path.isSome_name? file
  obtain ⟨folder, parent⟩ := Path.isSome_parent? named
  obtain ⟨steps, absolute⟩ := Path.steps_of_parent? parent
  -- The folders that are made are those on the way to the file, as it is no folder itself.
  have way : Delta.Turns ⟨trailOf path, []⟩ d d₁ := by
    rw [trailOf, ← steps, origin, ← absolute, ← origin]
    rw [parent, Option.bind_some] at made
    by_cases none : folder = ""
    · rw [none] at made ⊢
      cases made
      exact .refl
    · have some : Text.nonEmpty? folder = some folder := by simp [Text.nonEmpty?, none]
      rw [some] at made
      exact turns_makeFolders (run_of_outcome_writing made)
  have there : d'.locate path = .ok p := by
    obtain ⟨accepted, nonempty, walked⟩ := locate_eq_ok_iff.1 found
    have more (key : String) (there : d₂.HasFolder key) : d'.HasFolder key :=
      hasFolder_of_move moved there
    exact locate_eq_ok_iff.2 ⟨accepted, nonempty, walk_mono more walked⟩
  have file' : d'.content? (keyOf path) = some (.text content) := by
    rw [draft.files, Dict.lookup, if_pos rfl]
    rfl
  exact ⟨way.trans draft, isPresent_of_content? there file file', file⟩

end

end Manuscript.Disk
