import Manuscript.Proofs.Disk.Writing

/-!
What a conversion between files changes. It reads an article and then writes its outputs one after
the other, so a failure leaves the first of them written and the others as they were. Besides the
outputs and the folders that they are in, only drafts change: the names with which outputs are
written first.
-/

set_option autoImplicit false

namespace Manuscript.Disk

/-! ### Outputs -/

/-- The paths of all that is written for an article. -/
def outputs (c : Config) (article : Path) : List Path :=
  [outputFile c article ".myst.json"]
    ++ (if c.frontmatter = .project then [projectFile c article] else [])
    ++ (if c.writeLog then [outputFile c article ".log.json", outputFile c article ".log.yml"]
      else [])
    ++ (if c.writeBibliography then [bibliographyFile c article] else [])

/-- The contents that the outputs get. The settings of a project are merged with what was there. -/
inductive Writes (c : Config) (article : Path) (t : Timed) : Path → String → Prop
  | document : Writes c article t (outputFile c article ".myst.json")
      (documentText c.frontmatter t.conversion)
  | project {existing : Option String} {text : String} : c.frontmatter = .project →
      t.conversion.frontmatter.mergeProject existing = .ok text →
      Writes c article t (projectFile c article) text
  | log : c.writeLog = true → Writes c article t (outputFile c article ".log.json")
      (t.conversion.stats.toJson t.milliseconds).pretty
  | readableLog : c.writeLog = true → Writes c article t (outputFile c article ".log.yml")
      (Yaml.ofJson (t.conversion.stats.toJson t.milliseconds)).print
  | bibliography {text : String} : c.writeBibliography = true →
      t.conversion.bibliography = some text → Writes c article t (bibliographyFile c article) text

section
variable {c : Config} {article : Path} {t : Timed} {cacheFolder : Option String}

theorem Writes.mem_outputs {path : Path} {text : String} (written : Writes c article t path text) :
    path ∈ outputs c article := by
  unfold outputs
  cases written with
  | document => simp
  | project mode _ => simp [mode]
  | log logs => simp [logs]
  | readableLog logs => simp [logs]
  | bibliography lists _ => simp [lists]

/-! ### Reading -/

theorem still_readArticle (path : Path) : Still ((storage cacheFolder).readArticle path) := by
  unfold Storage.readArticle
  refine .bind (still_lift fun _ => rfl) fun text => ?_
  split
  · exact still_throw _
  · exact still_throw _
  · exact still_throw _
  · split
    · exact still_pure _
    · exact still_throw _

theorem run_bind_still {α β : Type} {x : StateM Disk α} {f : α → StateM Disk β}
    (first : ∀ d, (x.run d).2 = d) (rest : ∀ a d, ((f a).run d).2 = d) (d : Disk) :
    ((x >>= f).run d).2 = d := by
  show ((f (x.run d).1).run (x.run d).2).2 = d
  rw [rest, first]

theorem run_load_still (project : Path) :
    ∀ d, ((Cache.load (storage cacheFolder) project).run d).2 = d := by
  unfold Cache.load
  refine run_bind_still (fun _ => rfl) fun present => ?_
  split
  · refine run_bind_still (fun _ => rfl) fun text d => ?_
    split
    · rfl
    · split <;> rfl
  · exact fun _ => rfl

theorem still_findings (c : Config) (path : Path) :
    Still ((storage cacheFolder).findings c path) := by
  unfold Storage.findings
  split
  · exact still_pure _
  · refine .bind (still_lift (run_load_still _)) fun cache => ?_
    split
    · exact still_pure _
    · exact still_throw _

theorem still_convert (c : Config) (article : Path) :
    Still ((storage cacheFolder).convert c article) := by
  unfold Storage.convert
  refine (still_readArticle article).bind fun a => (still_findings c article).bind fun pmids => ?_
  refine .bind (still_lift fun _ => rfl) fun began => ?_
  split
  · exact still_throw _
  · exact .bind (still_lift fun _ => rfl) fun _ => still_pure _

/-! ### Writing -/

theorem keeps_writeProject (mode : c.frontmatter = .project) :
    Keeps (Writes c article t)
      ((storage cacheFolder).writeProject (projectFile c article) t.conversion.frontmatter) := by
  unfold Storage.writeProject
  refine .bind (still_lift fun _ => rfl).keeps fun text => ?_
  split
  all_goals
    -- Settings are merged in the same way however they were found.
    refine .bind ?found fun existing => ?merged
    case found => first | exact (still_pure _).keeps | exact (still_throw _).keeps
    case merged =>
      dsimp only
      split
      · next text found => exact keeps_writeWhole (.project mode found)
      · exact (still_throw _).keeps

theorem keeps_writeLog (logs : c.writeLog = true) :
    Keeps (Writes c article t) ((storage cacheFolder).writeLog c article
      (t.conversion.stats.toJson t.milliseconds)) :=
  (keeps_writeWhole (.log logs)).bind fun _ => keeps_writeWhole (.readableLog logs)

theorem keeps_writeBibliography {text : String} (lists : c.writeBibliography = true)
    (made : t.conversion.bibliography = some text) :
    Keeps (Writes c article t)
      ((storage cacheFolder).writeBibliography (bibliographyFile c article) text) := by
  unfold Storage.writeBibliography
  refine .bind (still_lift fun _ => rfl).keeps fun present => ?_
  split
  · exact (still_pure _).keeps
  · exact keeps_writeWhole (.bibliography lists made)

/-- The outputs in the order in which they are written. -/
def writeOutputs (s : Storage (StateM Disk)) (c : Config) (article : Path) (t : Timed) :
    Action Timed :=
  s.writeWhole (outputFile c article ".myst.json") (documentText c.frontmatter t.conversion)
    >>= fun _ => (if c.frontmatter = .project then
      s.writeProject (projectFile c article) t.conversion.frontmatter else pure ())
    >>= fun _ => (if c.writeLog then
      s.writeLog c article (t.conversion.stats.toJson t.milliseconds) else pure ())
    >>= fun _ => (if c.writeBibliography then
      match t.conversion.bibliography with
      | some text => s.writeBibliography (bibliographyFile c article) text
      | none => pure () else pure ())
    >>= fun _ => pure t

theorem ite_pure_bind {α : Type} (chosen : Prop) [Decidable chosen] (x : Action Unit)
    (f : Unit → Action α) :
    (if chosen then x else pure ()) >>= f = if chosen then x >>= f else f () := by
  split
  · rfl
  · exact pure_bind () f

theorem convertToFiles_eq (c : Config) (article : Path) :
    ((storage cacheFolder).convertToFiles c article : Action Timed) =
      (storage cacheFolder).convert c article >>= writeOutputs (storage cacheFolder) c article := by
  unfold Storage.convertToFiles
  refine congrArg (fun rest => Storage.convert _ c article >>= rest) (funext fun t => ?_)
  unfold writeOutputs
  refine congrArg (fun rest => Storage.writeWhole _ _ _ >>= rest) (funext fun _ => ?_)
  -- An output that is not wanted is a step that does nothing, and falls away.
  simp only [ite_pure_bind]
  cases t.conversion.bibliography with
  | none => simp only [pure_bind]
  | some text => rfl

theorem keeps_writeOutputs (c : Config) (article : Path) (t : Timed) :
    Keeps (Writes c article t) (writeOutputs (storage cacheFolder) c article t) := by
  have skipped : Keeps (Writes c article t) (pure ()) := (still_pure ()).keeps
  unfold writeOutputs
  refine (keeps_writeWhole .document).bind fun _ => .bind ?_ fun _ => .bind ?_ fun _ =>
    .bind ?_ fun _ => (still_pure t).keeps
  · split
    · next mode => exact keeps_writeProject mode
    · exact skipped
  · split
    · next logs => exact keeps_writeLog logs
    · exact skipped
  · split
    · next lists =>
      split
      · next text made => exact keeps_writeBibliography lists made
      · exact skipped
    · exact skipped

/-! ### The whole conversion -/

section
variable {d after : Disk} {result : Except Failure Timed}

/-- A conversion fails and changes nothing, or it changes what writing its outputs may change. -/
theorem convertToFiles_changed
    (run : outcome ((storage cacheFolder).convertToFiles c article) d = (result, after)) :
    after = d ∨ ∃ t, outcome ((storage cacheFolder).convert c article) d = (.ok t, d) ∧
      Changed (Writes c article t) (leftBy result) d after := by
  rw [convertToFiles_eq] at run
  have still : (outcome ((storage cacheFolder).convert c article) d).2 = d :=
    still_convert c article d
  rcases found : outcome ((storage cacheFolder).convert c article) d with ⟨failure | t, d'⟩ <;>
    rw [found] at still <;> obtain rfl : d' = d := still
  · rw [outcome_bind_of_error found] at run
    exact .inl (Prod.mk.inj run).2.symm
  · rw [outcome_bind_of_ok found] at run
    have keeps : Keeps (Writes c article t) (writeOutputs (storage cacheFolder) c article t) :=
      keeps_writeOutputs c article t
    have change := keeps d'
    rw [run] at change
    exact .inr ⟨t, rfl, change⟩

/-- Files that are neither outputs nor drafts of them are as they were, whatever happens. -/
theorem convertToFiles_frame
    (run : outcome ((storage cacheFolder).convertToFiles c article) d = (result, after))
    {key : String} (other : ∀ output ∈ outputs c article,
      keyOf output ≠ key ∧ keyOf (draftOf output) ≠ key) (content : Content) :
    after.entries.find? key = some (.file content) ↔
      d.entries.find? key = some (.file content) := by
  rcases convertToFiles_changed run with rfl | ⟨t, -, changed⟩
  · exact .rfl
  · exact changed.file_iff (fun _ _ written => other _ written.mem_outputs) content

/-- Where no name of a draft is in use, a conversion takes away no file, and every file is what it
was or a whole new output, but for the draft of an output that could not be written. -/
theorem convertToFiles_whole
    (unused : ∀ output ∈ outputs c article, d.entries.find? (keyOf (draftOf output)) = none)
    (run : outcome ((storage cacheFolder).convertToFiles c article) d = (result, after)) :
    (∀ key content, d.entries.find? key = some (.file content) →
      ∃ content, after.entries.find? key = some (.file content)) ∧
    ∀ key content, after.entries.find? key = some (.file content) →
      d.entries.find? key = some (.file content) ∨
        (∃ t path s, outcome ((storage cacheFolder).convert c article) d = (.ok t, d) ∧
          Writes c article t path s ∧ keyOf path = key ∧ content = .text s) ∨
        ∃ path ∈ outputs c article, leftBy result path ∧ keyOf (draftOf path) = key := by
  rcases convertToFiles_changed run with rfl | ⟨t, converted, changed⟩
  · exact ⟨fun _ content there => ⟨content, there⟩, fun _ _ there => .inl there⟩
  · constructor
    · exact fun _ _ there => changed.lasts (fun _ _ written => unused _ written.mem_outputs) there
    · intro key content there
      rcases changed.whole there with old | ⟨path, s, written, here, same⟩ |
        ⟨path, s, written, still, here⟩
      · exact .inl old
      · exact .inr (.inl ⟨t, path, s, converted, written, here, same⟩)
      · exact .inr (.inr ⟨path, written.mem_outputs, still, here⟩)

end

end

end Manuscript.Disk
