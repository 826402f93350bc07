import Manuscript.Proofs.Disk.Success

/-!
What a conversion reads: its article, and the cache unless the settings tell what is known. Where
both are the same it gives the same, and where it succeeds the folder of the article is there with
all folders on the way.
-/

set_option autoImplicit false

namespace Manuscript.Disk

/-! ### Actions that read -/

section
variable {α β : Type} {d d' : Disk}

/-- Whether an action changes nothing and gives the same on two disks. -/
structure Alike (x : Action α) (d d' : Disk) : Prop where
  still : Still x
  same : (outcome x d).1 = (outcome x d').1

theorem alike_pure (a : α) : Alike (pure a) d d' := ⟨still_pure a, rfl⟩

theorem alike_throw (failure : Failure) : Alike (throw failure : Action α) d d' :=
  ⟨still_throw failure, rfl⟩

theorem alike_lift {x : StateM Disk α} (still : ∀ d, (x.run d).2 = d)
    (same : (x.run d).1 = (x.run d').1) : Alike (liftM x : Action α) d d' :=
  ⟨still_lift still, congrArg Except.ok same⟩

theorem Still.outcome_eq {x : Action α} (still : Still x) (d : Disk) :
    outcome x d = ((outcome x d).1, d) :=
  Prod.ext rfl (still d)

theorem Alike.bind {x : Action α} {f : α → Action β} (first : Alike x d d')
    (rest : ∀ a, Alike (f a) d d') : Alike (x >>= f) d d' := by
  refine ⟨first.still.bind fun a => (rest a).still, ?_⟩
  have here := first.still.outcome_eq d
  have there := first.still.outcome_eq d'
  rw [← first.same] at there
  cases result : (outcome x d).1 with
  | error failure =>
    rw [result] at here there
    rw [outcome_bind_of_error here, outcome_bind_of_error there]
  | ok a =>
    rw [result] at here there
    rw [outcome_bind_of_ok here, outcome_bind_of_ok there]
    exact (rest a).same

variable {cacheFolder : Option String} {c : Config} {article path : Path}

theorem read_congr (same : d.look path = d'.look path) : d.read path = d'.read path := by
  rw [read, same, read]

theorem alike_readArticle (same : d.look article = d'.look article) :
    Alike ((storage cacheFolder).readArticle article) d d' := by
  unfold Storage.readArticle
  refine .bind (alike_lift (fun _ => rfl) (read_congr same)) fun text => ?_
  split
  · exact alike_throw _
  · exact alike_throw _
  · exact alike_throw _
  · split
    · exact alike_pure _
    · exact alike_throw _

theorem run_bind_congr {x : StateM Disk α} {f : α → StateM Disk β} (still : ∀ d, (x.run d).2 = d)
    (first : (x.run d).1 = (x.run d').1) (rest : ∀ a, ((f a).run d).1 = ((f a).run d').1) :
    ((x >>= f).run d).1 = ((x >>= f).run d').1 := by
  show ((f (x.run d).1).run (x.run d).2).1 = ((f (x.run d').1).run (x.run d').2).1
  rw [still, still, first, rest]

theorem run_load_congr {project : Path}
    (same : d.look (Cache.file cacheFolder project) = d'.look (Cache.file cacheFolder project)) :
    ((Cache.load (storage cacheFolder) project).run d).1 =
      ((Cache.load (storage cacheFolder) project).run d').1 := by
  unfold Cache.load
  refine run_bind_congr (fun _ => rfl) (congrArg Except.isOk same) fun present => ?_
  split
  · refine run_bind_congr (fun _ => rfl) (read_congr same) fun text => ?_
    split
    · rfl
    · split <;> rfl
  · rfl

/-- The files that a conversion reads if they are there: the article, and the cache unless the
settings tell what is known. -/
def sources (cacheFolder : Option String) (c : Config) (article : Path) : List Path :=
  article :: if c.pmids.isNone then [Cache.file cacheFolder (c.outputDir article)] else []

theorem alike_findings
    (same : c.pmids = none → d.look (Cache.file cacheFolder (c.outputDir article)) =
      d'.look (Cache.file cacheFolder (c.outputDir article))) :
    Alike ((storage cacheFolder).findings c article) d d' := by
  unfold Storage.findings
  split
  · exact alike_pure _
  · next unset =>
    refine .bind (alike_lift (run_load_still _) (run_load_congr (same unset))) fun cache => ?_
    split
    · exact alike_pure _
    · exact alike_throw _

/-- A conversion gives the same where its sources are the same. -/
theorem alike_convert (same : ∀ file ∈ sources cacheFolder c article, d.look file = d'.look file) :
    Alike ((storage cacheFolder).convert c article) d d' := by
  obtain ⟨first, rest⟩ := List.forall_mem_cons.1 same
  have cache (unset : c.pmids = none) := rest (Cache.file cacheFolder (c.outputDir article))
    (by simp [unset])
  unfold Storage.convert
  refine (alike_readArticle first).bind fun a => (alike_findings cache).bind fun pmids => ?_
  refine .bind (alike_lift (fun _ => rfl) rfl) fun began => ?_
  split
  · exact alike_throw _
  · exact .bind (alike_lift (fun _ => rfl) rfl) fun _ => alike_pure _

theorem convert_unique {t t' : Timed} {e e' : Disk}
    (same : ∀ file ∈ sources cacheFolder c article, d.look file = d'.look file)
    (here : outcome ((storage cacheFolder).convert c article) d = (.ok t, e))
    (there : outcome ((storage cacheFolder).convert c article) d' = (.ok t', e')) : t = t' := by
  have results : (outcome ((storage cacheFolder).convert c article) d).1 =
      (outcome ((storage cacheFolder).convert c article) d').1 := (alike_convert same).same
  rw [here, there] at results
  exact Except.ok.inj results

theorem read_of_convert {t : Timed}
    (done : outcome ((storage cacheFolder).convert c article) d = (.ok t, d')) :
    ∃ text, d.read article = .ok text := by
  unfold Storage.convert at done
  obtain ⟨a, e, found, -⟩ := outcome_bind_eq_ok done
  unfold Storage.readArticle at found
  obtain ⟨result, e', looked, rest⟩ := outcome_bind_eq_ok found
  have same : d.read article = result := Except.ok.inj (Prod.mk.inj looked).1
  split at rest
  · cases rest
  · cases rest
  · cases rest
  · next text => exact ⟨text, same⟩

theorem isPresent_of_read {text : String} (found : d.read path = .ok text) :
    d.isPresent path = true ∧ Path.endsAtFolder path = false := by
  unfold read at found
  cases looked : d.look path with
  | error cause =>
    rw [looked] at found
    cases found
  | ok entry =>
    refine ⟨by rw [isPresent, looked]; rfl, ?_⟩
    rw [looked] at found
    unfold look at looked
    cases place : d.locate path with
    | error cause =>
      rw [place] at looked
      cases looked
    | ok p =>
      simp only [place, bind, Except.bind] at looked
      split at looked
      · cases looked
      · cases looked
        cases found
      · split at looked
        · cases looked
        · next file => simpa using file

/-! ### Folders that are there -/

theorem at?_of_walk {p q : Place} {step : String} {steps : List String}
    (walked : d.walk p (step :: steps) = .ok q) : d.at? p = some .folder := by
  rw [walk] at walked
  split at walked
  · cases walked
  · cases walked
  · assumption

theorem hasFolder_of_walk {p q : Place} {steps : List String} {n : String}
    (named : ∀ step ∈ steps, step ≠ "") (walked : d.walk p (steps ++ [n]) = .ok q) :
    ∀ key ∈ (trail p steps).map Place.key, d.HasFolder key := by
  induction steps generalizing p with
  | nil => exact List.forall_mem_nil _
  | cons step steps ih =>
    obtain ⟨name, rest⟩ := List.forall_mem_cons.1 named
    rw [List.cons_append, walk, at?_of_walk walked] at walked
    rw [trail]
    split
    · next up =>
      rw [if_pos up] at walked
      exact ih rest walked
    · next down =>
      simp only [if_neg down] at walked
      split at walked
      · cases walked
      · refine List.forall_mem_cons.2 ⟨?_, ih rest walked⟩
        obtain ⟨next, more, whole⟩ : ∃ next more, steps ++ [n] = next :: more :=
          List.exists_cons_of_ne_nil (List.append_ne_nil_of_right_ne_nil _ (List.cons_ne_nil _ _))
        rw [whole] at walked
        have there := at?_of_walk walked
        rwa [at?_concat name] at there

theorem steps_outputDir {n : String} (near : c.dir = none) (named : Path.name? article = some n) :
    Path.steps (c.outputDir article) = (Path.steps article).dropLast ∧
      origin (c.outputDir article) = origin article := by
  obtain ⟨folder, found⟩ := Path.isSome_parent? named
  obtain ⟨steps, absolute⟩ := Path.steps_of_parent? found
  rw [Config.outputDir, near, found, ← steps, origin, origin, ← absolute]
  by_cases none : folder = ""
  · rw [none]
    decide
  · simp [Text.nonEmpty?, none]

/-- An article that has been read without a folder for outputs is in the one for its own. -/
theorem hasFolder_of_read {text : String} (near : c.dir = none)
    (found : d.read article = .ok text) : ∀ key ∈ wayTo (c.outputDir article), d.HasFolder key := by
  obtain ⟨present, file⟩ := isPresent_of_read found
  obtain ⟨n, named⟩ := Path.isSome_name? file
  obtain ⟨steps, start⟩ := steps_outputDir near named
  obtain ⟨p, located, -⟩ := isPresent_iff.1 present
  have walked := (locate_eq_ok_iff.1 located).2.2
  rw [steps_of_named named] at walked
  rw [wayTo, steps, start]
  refine hasFolder_of_walk (fun step mem => ?_) walked
  exact ne_empty_of_mem_steps (List.dropLast_subset _ mem)

theorem stem?_of_read {text : String} (found : d.read article = .ok text) :
    Path.stem? article = some (stemOf article) := by
  obtain ⟨n, named⟩ := Path.isSome_name? (isPresent_of_read found).2
  rw [stemOf, Path.stem?, named]
  rfl

end

end Manuscript.Disk
