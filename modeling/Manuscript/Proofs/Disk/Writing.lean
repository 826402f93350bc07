import Manuscript.Disk.Basic
import Manuscript.Disk.Conversion

/-!
What writing files changes on a disk. A file is written under another name first and then moved to
its place, so a place holds at all times what it held before or a whole new content; a draft stays
behind where the file cannot be moved. Everything is said of the keys under which places are kept,
so that nothing has to be known about when two paths lead to the same place.
-/

set_option autoImplicit false

namespace Manuscript.Disk

/-! ### Places of paths -/

/-- Walks on from a place without a look at what is there. -/
def climb (p : Place) : List String → Place
  | [] => p
  | step :: steps =>
    climb (if step = ".." then if p = [""] then p else p.dropLast else p ++ [step]) steps

/-- The key of the place that a path leads to, if it leads anywhere. -/
def keyOf (path : Path) : String := (climb (origin path) (Path.steps path)).key

theorem walk_eq_ok {d : Disk} {p q : Place} {steps : List String} (found : d.walk p steps = .ok q) :
    q = climb p steps := by
  induction steps generalizing p with
  | nil => exact (Except.ok.inj found).symm
  | cons step steps ih =>
    rw [walk] at found
    rw [climb]
    split at found
    · cases found
    · cases found
    · split at found
      · next up => rw [if_pos up]; exact ih found
      · next down =>
        rw [if_neg down]
        split at found
        · cases found
        · exact ih found

theorem locate_eq_ok {d : Disk} {path : Path} {p : Place} (found : d.locate path = .ok p) :
    p.key = keyOf path := by
  unfold locate at found
  split at found
  · cases found
  · split at found
    · cases found
    · rw [walk_eq_ok found, keyOf]

/-! ### Changes -/

/-- The path under which a file is written before it is moved to its own. -/
def draftOf (path : Path) : Path := Path.withName path ((Path.name? path).getD "" ++ ".tmp")

/-- What may become of what is kept under a key while files are written, where `W` tells which
paths get which contents, and `left` which of them have left their draft behind. -/
inductive Change (W : Path → String → Prop) (left : Path → Prop) (key : String) :
    Option Entry → Option Entry → Prop
  | same {e : Option Entry} : Change W left key e e
  | made : Change W left key none (some .folder)
  | written {path : Path} {s : String} {e : Option Entry} : W path s → keyOf path = key →
    Change W left key e (some (.file (.text s)))
  /-- A draft has been here and is gone; a folder may have come to be in its place. -/
  | spent {path : Path} {s : String} {e f : Option Entry} : W path s → keyOf (draftOf path) = key →
    (f = none ∨ f = some .folder) → Change W left key e f
  | drafted {path : Path} {s : String} {e : Option Entry} : W path s → left path →
    keyOf (draftOf path) = key → Change W left key e (some (.file (.text s)))

/-- Whether all that is kept on a disk has changed only as it may. -/
def Changed (W : Path → String → Prop) (left : Path → Prop) (before after : Disk) : Prop :=
  ∀ key, Change W left key (before.entries.find? key) (after.entries.find? key)

/-- The path whose draft is left behind by a run: the one that could not be written. -/
def leftBy {α : Type} : Except Failure α → Path → Prop
  | .error (.unwritable path _) => (· = path)
  | _ => fun _ => False

section
variable {W : Path → String → Prop} {left : Path → Prop} {d d' d'' : Disk}

theorem Changed.refl : Changed W left d d := fun _ => .same

theorem Change.weaken {key : String} {e f : Option Entry}
    (change : Change W (fun _ => False) key e f) : Change W left key e f := by
  cases change with
  | same => exact .same
  | made => exact .made
  | written wanted here => exact .written wanted here
  | spent wanted here gone => exact .spent wanted here gone
  | drafted _ never _ => exact never.elim

/-- Only the last change leaves a draft behind. -/
theorem Change.trans {key : String} {e f g : Option Entry}
    (first : Change W (fun _ => False) key e f) (second : Change W left key f g) :
    Change W left key e g := by
  cases second with
  | same => exact first.weaken
  | written wanted here => exact .written wanted here
  | spent wanted here gone => exact .spent wanted here gone
  | drafted wanted still here => exact .drafted wanted still here
  | made =>
    -- A folder can be made where nothing was, or where a draft has been.
    cases first with
    | same => exact .made
    | spent wanted here _ => exact .spent wanted here (.inr rfl)

theorem Changed.trans (first : Changed W (fun _ => False) d d') (second : Changed W left d' d'') :
    Changed W left d d'' :=
  fun key => (first key).trans (second key)

/-- Under a key of no output and no draft of one, there is a file afterwards exactly if it was there
before. -/
theorem Changed.file_iff (changed : Changed W left d d') {key : String}
    (other : ∀ path s, W path s → keyOf path ≠ key ∧ keyOf (draftOf path) ≠ key)
    (content : Content) : d'.entries.find? key = some (.file content) ↔
      d.entries.find? key = some (.file content) := by
  have change := changed key
  generalize d.entries.find? key = e, d'.entries.find? key = f at change ⊢
  cases change with
  | same => exact .rfl
  | made => simp
  | written wanted here => exact absurd here (other _ _ wanted).1
  | spent wanted here _ => exact absurd here (other _ _ wanted).2
  | drafted wanted _ here => exact absurd here (other _ _ wanted).2

/-- A file is afterwards what it was before or a whole new output, or else it is the draft of an
output that could not be written. -/
theorem Changed.whole (changed : Changed W left d d') {key : String} {content : Content}
    (there : d'.entries.find? key = some (.file content)) :
    d.entries.find? key = some (.file content) ∨
      (∃ path s, W path s ∧ keyOf path = key ∧ content = .text s) ∨
      ∃ path s, W path s ∧ left path ∧ keyOf (draftOf path) = key := by
  have change := changed key
  rw [there] at change
  generalize d.entries.find? key = e at change ⊢
  cases change with
  | same => exact .inl rfl
  | written wanted here => exact .inr (.inl ⟨_, _, wanted, here, rfl⟩)
  | drafted wanted still here => exact .inr (.inr ⟨_, _, wanted, still, here⟩)
  | spent _ _ gone => rcases gone with gone | gone <;> cases gone

theorem Changed.lasts (changed : Changed W left d d')
    (unused : ∀ path s, W path s → d.entries.find? (keyOf (draftOf path)) = none) {key : String}
    {content : Content} (there : d.entries.find? key = some (.file content)) :
    ∃ content, d'.entries.find? key = some (.file content) := by
  have change := changed key
  rw [there] at change
  generalize d'.entries.find? key = f at change ⊢
  cases change with
  | same => exact ⟨content, rfl⟩
  | written => exact ⟨_, rfl⟩
  | drafted => exact ⟨_, rfl⟩
  | spent wanted here _ =>
    rw [← here, unused _ _ wanted] at there
    cases there

/-! ### Operations -/

theorem find?_put (d : Disk) (p : Place) (e : Entry) (key : String) :
    (d.put p e).entries.find? key = if key = p.key then some e else d.entries.find? key :=
  Dict.find?_insert ..

theorem find?_remove (d : Disk) (p : Place) (key : String) :
    (d.remove p).entries.find? key = if key = p.key then none else d.entries.find? key :=
  Dict.find?_erase ..

theorem find?_of_at? {p : Place} {e : Option Entry} (found : d.at? p = e)
    (other : e ≠ some .folder) : d.entries.find? p.key = e := by
  unfold at? at found
  split at found
  · exact absurd found.symm other
  · exact found

theorem changed_makeFrom (d : Disk) (made : Bool) (p : Place) (steps : List String) :
    Changed W left d (d.makeFrom made p steps).2 := by
  fun_induction makeFrom d made p steps with
  | case1 => exact .refl
  | case2 _ _ _ _ ih => exact ih
  | case3 => exact .refl
  | case4 _ _ _ _ _ _ _ _ _ ih => exact ih
  | case5 => exact .refl
  | case6 d made p step steps _ _ next free ih =>
    refine Changed.trans (fun key => ?_) ih
    rw [find?_put]
    split
    · next same =>
      subst same
      rw [find?_of_at? free nofun]
      exact .made
    · exact .same

theorem changed_makeFolders (d : Disk) (path : Path) :
    Changed W left d (d.makeFolders path).2 := by
  unfold makeFolders
  split
  · exact .refl
  · exact changed_makeFrom d false (origin path) (Path.steps path)

theorem find?_of_write {path : Path} {s : String} (written : d.write path s = .ok d')
    (key : String) : d'.entries.find? key =
      if key = keyOf path then some (.file (.text s)) else d.entries.find? key := by
  unfold write at written
  cases place : d.locate path with
  | error cause => rw [place] at written; cases written
  | ok p =>
    rw [place] at written
    cases checked : d.checkTarget p with
    | error cause => simp [checked, bind, Except.bind] at written
    | ok _ =>
      simp only [checked, bind, Except.bind] at written
      split at written
      · cases written
      · obtain rfl := Except.ok.inj written
        rw [find?_put, locate_eq_ok place]

theorem find?_of_move {old new : Path} (moved : d.move old new = .ok d') :
    ∃ content, d.entries.find? (keyOf old) = some (.file content) ∧ ∀ key,
      d'.entries.find? key = if key = keyOf new then some (.file content)
        else if key = keyOf old then none else d.entries.find? key := by
  unfold move at moved
  cases source : d.locate old with
  | error cause => rw [source] at moved; cases moved
  | ok p =>
    simp only [source, bind, Except.bind] at moved
    split at moved
    · cases moved
    · cases moved
    · next content there =>
      cases target : d.locate new with
      | error cause => rw [target] at moved; cases moved
      | ok q =>
        simp only [target] at moved
        split at moved
        · -- A path that ends as that of a folder is no place for a file.
          split at moved
          · split at moved <;> cases moved
          · cases moved
          · split at moved <;> cases moved
        · split at moved
          · cases moved
          · obtain rfl := Except.ok.inj moved
            have here := find?_of_at? there (by simp)
            rw [locate_eq_ok source] at here
            refine ⟨content, here, fun key => ?_⟩
            rw [find?_put, find?_remove, locate_eq_ok source, locate_eq_ok target]

end

/-! ### Actions -/

abbrev Action (α : Type) : Type := ExceptT Failure (StateM Disk) α

/-- What an action gives, and the disk that it leaves. -/
def outcome {α : Type} (x : Action α) (d : Disk) : Except Failure α × Disk :=
  (ExceptT.run x).run d

section
variable {α β : Type}

theorem outcome_lift (x : StateM Disk α) (d : Disk) :
    outcome (liftM x : Action α) d = (.ok (x.run d).1, (x.run d).2) := rfl

theorem outcome_bind_of_ok {x : Action α} {f : α → Action β} {d d' : Disk} {a : α}
    (found : outcome x d = (.ok a, d')) : outcome (x >>= f) d = outcome (f a) d' := by
  have same : x d = (.ok a, d') := found
  show outcome (ExceptT.bind x f) d = _
  simp only [outcome, ExceptT.bind, ExceptT.run, ExceptT.mk, StateT.run, bind, StateT.bind, same]
  rfl

theorem outcome_bind_of_error {x : Action α} {f : α → Action β} {d d' : Disk} {failure : Failure}
    (found : outcome x d = (.error failure, d')) : outcome (x >>= f) d = (.error failure, d') := by
  have same : x d = (.error failure, d') := found
  show outcome (ExceptT.bind x f) d = _
  simp only [outcome, ExceptT.bind, ExceptT.run, ExceptT.mk, StateT.run, bind, StateT.bind, same]
  rfl

theorem outcome_writing_of_ok {path : Path} {action : StateM Disk (Except Cause Unit)} {d d' : Disk}
    (done : action.run d = (.ok (), d')) :
    outcome (Storage.writing path action) d = (.ok (), d') := by
  have lifted : outcome (liftM action) d = (.ok (.ok ()), d') := by rw [outcome_lift, done]
  exact outcome_bind_of_ok lifted

theorem outcome_writing_of_error {path : Path} {action : StateM Disk (Except Cause Unit)}
    {d d' : Disk} {cause : Cause} (failed : action.run d = (.error cause, d')) :
    outcome (Storage.writing path action) d = (.error (.unwritable path cause), d') := by
  have lifted : outcome (liftM action) d = (.ok (.error cause), d') := by rw [outcome_lift, failed]
  exact outcome_bind_of_ok lifted

theorem run_attempt_of_ok {change : Disk → Except Cause Disk} {d d' : Disk}
    (done : change d = .ok d') : (attempt change).run d = (.ok (), d') := by
  unfold attempt
  simp only [StateT.run_bind, StateT.run_get, pure_bind, done]
  rfl

theorem run_attempt_of_error {change : Disk → Except Cause Disk} {d : Disk} {cause : Cause}
    (failed : change d = .error cause) : (attempt change).run d = (.error cause, d) := by
  unfold attempt
  simp only [StateT.run_bind, StateT.run_get, pure_bind, failed]
  rfl

/-- Whether an action leaves every disk as it is. -/
def Still (x : Action α) : Prop := ∀ d, (outcome x d).2 = d

theorem still_pure (a : α) : Still (pure a) := fun _ => rfl

theorem still_throw (failure : Failure) : Still (throw failure : Action α) := fun _ => rfl

theorem still_lift {x : StateM Disk α} (still : ∀ d, (x.run d).2 = d) :
    Still (liftM x : Action α) := still

theorem Still.bind {x : Action α} {f : α → Action β} (first : Still x) (rest : ∀ a, Still (f a)) :
    Still (x >>= f) := by
  intro d
  have same := first d
  rcases found : outcome x d with ⟨failure | a, d'⟩ <;> rw [found] at same
  · rw [outcome_bind_of_error found]
    exact same
  · rw [outcome_bind_of_ok found]
    exact (rest a d').trans same

section
variable {W : Path → String → Prop}

/-- Whether an action changes a disk as writing files may. -/
def Keeps (W : Path → String → Prop) (x : Action α) : Prop :=
  ∀ d, Changed W (leftBy (outcome x d).1) d (outcome x d).2

theorem Still.keeps {x : Action α} (still : Still x) : Keeps W x := by
  intro d
  rw [still d]
  exact .refl

theorem Keeps.bind {x : Action α} {f : α → Action β} (first : Keeps W x)
    (rest : ∀ a, Keeps W (f a)) : Keeps W (x >>= f) := by
  intro d
  have change := first d
  rcases found : outcome x d with ⟨failure | a, d'⟩ <;> rw [found] at change
  · rw [outcome_bind_of_error found]
    cases failure <;> exact change
  · rw [outcome_bind_of_ok found]
    exact change.trans (rest a d')

end

/-! ### Whole files -/

variable {W : Path → String → Prop} {cacheFolder : Option String}

theorem writeWhole_eq (path : Path) (content : String) :
    (storage cacheFolder).writeWhole path content =
      ((match (Path.parent? path).bind Text.nonEmpty? with
        | some folder => Storage.writing path ((storage cacheFolder).makeFolders folder)
        | none => pure ()) >>= fun _ =>
      Storage.writing path ((storage cacheFolder).write (draftOf path) content) >>= fun _ =>
        Storage.writing path ((storage cacheFolder).move (draftOf path) path) : Action Unit) := by
  unfold Storage.writeWhole
  cases (Path.parent? path).bind Text.nonEmpty? with
  | none => rw [pure_bind]; rfl
  | some folder => rfl

theorem keeps_makeFolders (path folder : Path) :
    Keeps W (Storage.writing path ((storage cacheFolder).makeFolders folder)) := by
  intro d
  have run : ((storage cacheFolder).makeFolders folder).run d = d.makeFolders folder := rfl
  rcases made : d.makeFolders folder with ⟨cause | _, d'⟩ <;> rw [made] at run
  · rw [outcome_writing_of_error run]
    have change : Changed W (· = path) d (d.makeFolders folder).2 := changed_makeFolders d folder
    rw [made] at change
    exact change
  · rw [outcome_writing_of_ok run]
    have change : Changed W (fun _ => False) d (d.makeFolders folder).2 :=
      changed_makeFolders d folder
    rw [made] at change
    exact change

/-- A file is either in its place, and its draft gone, or it is not written, and what is left is its
draft at most. -/
theorem keeps_draft {path : Path} {content : String} (wanted : W path content) :
    Keeps W (Storage.writing path ((storage cacheFolder).write (draftOf path) content) >>= fun _ =>
      Storage.writing path ((storage cacheFolder).move (draftOf path) path) : Action Unit) := by
  intro d
  cases drafted : d.write (draftOf path) content with
  | error cause =>
    have run : ((storage cacheFolder).write (draftOf path) content).run d = (.error cause, d) :=
      run_attempt_of_error drafted
    rw [outcome_bind_of_error (outcome_writing_of_error run)]
    exact .refl -- Without a draft nothing is moved.
  | ok d' =>
    have run : ((storage cacheFolder).write (draftOf path) content).run d = (.ok (), d') :=
      run_attempt_of_ok drafted
    rw [outcome_bind_of_ok (outcome_writing_of_ok run)]
    have draft := find?_of_write drafted
    cases moved : d'.move (draftOf path) path with
    | error cause =>
      have run : ((storage cacheFolder).move (draftOf path) path).run d' = (.error cause, d') :=
        run_attempt_of_error moved
      rw [outcome_writing_of_error run]
      -- The draft is where it was written, and is not taken away.
      intro key
      rw [draft]
      split
      · next here => exact .drafted wanted rfl here.symm
      · exact .same
    | ok d'' =>
      have run : ((storage cacheFolder).move (draftOf path) path).run d' = (.ok (), d'') :=
        run_attempt_of_ok moved
      rw [outcome_writing_of_ok run]
      obtain ⟨content', there, whole⟩ := find?_of_move moved
      rw [draft, if_pos rfl] at there
      obtain rfl := Entry.file.inj (Option.some.inj there)
      -- Where a file and its draft have the same key, it counts as written.
      intro key
      rw [whole, draft]
      split
      · next here => exact .written wanted here.symm
      · split
        · next here => exact .spent wanted here.symm (.inl rfl)
        · exact .same

theorem keeps_writeWhole {path : Path} {content : String} (wanted : W path content) :
    Keeps W ((storage cacheFolder).writeWhole path content) := by
  rw [writeWhole_eq]
  refine .bind ?_ fun _ => keeps_draft wanted
  split
  · exact keeps_makeFolders path _
  · exact (still_pure ()).keeps

-- A folder is in the way of the file, and its draft stays.
example :
    let d : Disk := ⟨Dict.ofList [("a", .folder)]⟩
    (outcome ((storage none).writeWhole "a" "x") d).2.entries.keys = ["a", "a.tmp"] := by
  decide +kernel

end

end Manuscript.Disk
