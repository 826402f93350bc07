import Manuscript.Conversion.Basic
import Manuscript.Proofs.Reference.Identifiers
import Manuscript.Reference.Session

/-!
When a conversion fails, and what failing leaves behind. The only fault is an entry of the reference
list that lacks an identifier, and it is reported by the place of the first such entry; all else is
converted. A registry that is kept for a number of calls is not touched by one that fails.
-/

set_option autoImplicit false

namespace Manuscript

namespace Reference

/-! ### Entries -/

def isUnnamed (ref : Node) : Bool := (ref.attrText? "id").isNone

namespace Registry

variable {sources : Sources}

theorem add_of_isUnnamed (r : Registry) (index : Nat) {ref : Node} (isRef : ref.is "ref" = true)
    (unnamed : isUnnamed ref = true) : r.add sources index ref = .error (.withoutId index) := by
  have none : ref.attrText? "id" = none := by simpa [isUnnamed] using unnamed
  simp [add, isRef, none, throw, throwThe, MonadExceptOf.throw]

theorem add_of_not_isUnnamed (r : Registry) (index : Nat) {ref : Node}
    (isRef : ref.is "ref" = true) (named : isUnnamed ref = false) :
    ∃ after, r.add sources index ref = .ok after := by
  cases identifier : ref.attrText? "id" with
  | none => simp [isUnnamed, identifier] at named
  | some name =>
    obtain ⟨after, added, -⟩ := exists_add sources r index isRef identifier
    exact ⟨after, added⟩

/-- Entries are registered up to the first one without an identifier, which is reported by its
place. -/
theorem addAll_eq_error_iff {refs : List Node} (isRef : ∀ ref ∈ refs, ref.is "ref" = true)
    (r : Registry) (index : Nat) (fault : Fault) : addAll sources r index refs = .error fault ↔
      ∃ place, refs.findIdx? isUnnamed = some place ∧ fault = .withoutId (index + place) := by
  induction refs generalizing r index with
  | nil => simp [addAll, pure, Except.pure]
  | cons ref refs ih =>
    obtain ⟨here, others⟩ := List.forall_mem_cons.1 isRef
    rw [addAll, List.findIdx?_cons]
    cases unnamed : isUnnamed ref with
    | true =>
      -- The list ends here for the registry, whatever stands behind this entry.
      rw [add_of_isUnnamed r index here unnamed]
      simp [bind, Except.bind, eq_comm]
    | false =>
      obtain ⟨next, added⟩ := add_of_not_isUnnamed r index here unnamed
      rw [added]
      simp only [bind, Except.bind, ih others next (index + 1)]
      cases refs.findIdx? isUnnamed <;> simp [Nat.add_assoc, Nat.add_comm 1]

theorem ofReferences_eq_error_iff (sources : Sources) (refs : List Node) (fault : Fault) :
    ofReferences sources refs = .error fault ↔ addAll sources .empty 0 refs = .error fault := by
  unfold ofReferences
  cases addAll sources .empty 0 refs <;> simp [bind, Except.bind, pure, Except.pure]

end Registry

/-! ### Calls -/

namespace Registering

variable {sources : Sources} {index : Nat} {ref : Node}

/-- An action that goes through hands on its result and the registry as it left it. -/
theorem run_bind {α β : Type} {first : Registering α} {next : α → Registering β} {a : α}
    {r middle : Registry} (ran : first.run.run r = (.ok a, middle)) :
    (first >>= next).run.run r = (next a).run.run middle := by
  simp only [ExceptT.run_bind, StateT.run_bind, ran]
  rfl

theorem run_modify (f : Registry → Registry) (r : Registry) :
    (modify f : Registering Unit).run.run r = (.ok (), f r) := rfl

/-- Parts that are taken in one after the other, in place, leave what taking them in at once
does. -/
theorem run_addParts (owner : String) (parts : List Node) (r : Registry) :
    (addParts sources owner parts).run.run r =
      (.ok (r.addParts sources owner parts).1, (r.addParts sources owner parts).2) := by
  induction parts generalizing r with
  | nil => rfl
  | cons part parts ih =>
    have taken : (modifyGet (·.addPart sources owner part) : Registering _).run.run r =
        (.ok (r.addPart sources owner part).1, (r.addPart sources owner part).2) := rfl
    rw [addParts, run_bind taken, run_bind (ih _)]
    rfl

/-- Nothing is changed in place before the last thing that can fail, so that a failing action leaves
the registry as it was. -/
theorem run_addEntry (r : Registry) : (addEntry sources index ref).run.run r =
    match r.add sources index ref with
    | .ok after => (.ok (), after)
    | .error fault => (.error fault, r) := by
  unfold addEntry Registry.add
  cases isRef : ref.is "ref" with
  | false => rfl
  | true =>
    cases identifier : ref.attrText? "id" with
    | none => rfl
    | some name =>
      -- Both guards are passed; from here on every action goes through.
      simp only [if_true]
      rw [run_bind (run_modify _ r), run_bind (run_addParts ..)]
      rfl

end Registering

namespace Call

theorem run_eq (call : Call) (r : Registry) : call.run.run r =
    match r.add call.sources call.index call.ref with
    | .ok after => (.ok (), after)
    | .error fault => (.error fault, r) :=
  Registering.run_addEntry r

/-- Whether a step is that of a call: the entry is registered, or else the registry that was moved
out is back in its place. -/
structure Takes (call : Call) (step : Step) : Prop where
  done : step.outcome = .ok () → step.before.add call.sources call.index call.ref = .ok step.after
  failed : ∀ fault, step.outcome = .error fault →
    step.before.add call.sources call.index call.ref = .error fault ∧ step.after = step.before

theorem takes_run (call : Call) (r : Registry) :
    call.Takes ⟨r, (call.run.run r).1, (call.run.run r).2⟩ := by
  rw [run_eq]
  constructor <;> cases r.add call.sources call.index call.ref <;> simp

theorem exists_takes_of_mem_history {calls : List Call} {r : Registry} {step : Step}
    (mem : step ∈ history calls r) : ∃ call ∈ calls, call.Takes step := by
  induction calls generalizing r with
  | nil => cases mem
  | cons call calls ih =>
    rcases List.mem_cons.1 mem with rfl | later
    · exact ⟨call, List.mem_cons_self, takes_run call r⟩
    · obtain ⟨other, mem, takes⟩ := ih later
      exact ⟨other, List.mem_cons_of_mem call mem, takes⟩

end Call

end Reference

/-! ### Conversions -/

namespace Article

open Reference (isUnnamed)

variable {options : Conversion.Options} {a : Article}

theorem convert_eq_error_iff (fault : Reference.Fault) : a.convert options = .error fault ↔
    ∃ place, a.references.findIdx? isUnnamed = some place ∧ fault = .withoutId place := by
  have isRef : ∀ ref ∈ a.references, ref.is "ref" = true := by
    intro ref mem
    obtain ⟨-, -, -, isRef⟩ := mem_references_iff.1 mem
    exact isRef
  have entries : Reference.Registry.ofReferences options.sources a.references = .error fault ↔
      ∃ place, a.references.findIdx? isUnnamed = some place ∧ fault = .withoutId place := by
    rw [Reference.Registry.ofReferences_eq_error_iff,
      Reference.Registry.addAll_eq_error_iff isRef]
    simp only [Nat.zero_add]
  -- Behind the registry nothing can fail any more.
  rw [← entries]
  unfold convert
  cases Reference.Registry.ofReferences options.sources a.references <;>
    simp [bind, Except.bind, pure, Except.pure]

theorem exists_convert_error_iff : (∃ fault, a.convert options = .error fault) ↔
    ∃ ref ∈ a.references, ref.attrText? "id" = none := by
  have unnamed : (∃ ref ∈ a.references, ref.attrText? "id" = none) ↔
      (a.references.findIdx? isUnnamed).isSome = true := by
    simp [List.findIdx?_isSome, isUnnamed]
  rw [unnamed, Option.isSome_iff_exists]
  constructor
  · rintro ⟨fault, failed⟩
    obtain ⟨place, found, -⟩ := (convert_eq_error_iff fault).1 failed
    exact ⟨place, found⟩
  · rintro ⟨place, found⟩
    exact ⟨.withoutId place, (convert_eq_error_iff _).2 ⟨place, found, rfl⟩⟩

theorem convert_eq_withoutId {before after : List Node} {ref : Node}
    (split : a.references = before ++ ref :: after)
    (named : ∀ earlier ∈ before, (earlier.attrText? "id").isSome = true)
    (unnamed : ref.attrText? "id" = none) :
    a.convert options = .error (.withoutId before.length) := by
  have none : before.findIdx? isUnnamed = none := by
    simpa [List.findIdx?_eq_none_iff, isUnnamed] using named
  have here : isUnnamed ref = true := by simp [isUnnamed, unnamed]
  rw [convert_eq_error_iff, split]
  exact ⟨before.length, by simp [List.findIdx?_append, List.findIdx?_cons, none, here], rfl⟩

/-- A conversion fails exactly if an entry of the reference list has no identifier. It then names
the first such entry by its place and no other fault. Of calls on a registry that is kept, each one
that fails leaves the registry as it was, in whatever order the calls succeed and fail. -/
theorem convert_fails_only_unnamed_and_calls_are_atomic (options : Conversion.Options)
    (a : Article) (calls : List Reference.Call) (r : Reference.Registry) :
    ((∃ fault, a.convert options = .error fault) ↔
      ∃ ref ∈ a.references, ref.attrText? "id" = none) ∧
    (∀ before ref after, a.references = before ++ ref :: after →
      (∀ earlier ∈ before, (earlier.attrText? "id").isSome = true) → ref.attrText? "id" = none →
        a.convert options = .error (.withoutId before.length)) ∧
    (∀ kind, a.convert options ≠ .error (.notAReference kind)) ∧
    ∀ step ∈ Reference.Call.history calls r, ∀ fault, step.outcome = .error fault →
      step.after = step.before := by
  refine ⟨exists_convert_error_iff, fun _ _ _ => convert_eq_withoutId, ?_, ?_⟩
  · intro kind failed
    obtain ⟨place, -, other⟩ := (convert_eq_error_iff _).1 failed
    cases other
  · intro step mem fault failed
    obtain ⟨call, -, takes⟩ := Reference.Call.exists_takes_of_mem_history mem
    exact (takes.failed fault failed).2

end Article

/-- An entry with an identifier, in a reference list with one that has none. -/
def namedEntry : Node := (Node.branch "ref" []).setAttr "id" (.string "r1")

def gappedArticle : Article :=
  .ofTree (.branch "article" [.branch "back" [.branch "ref-list" [namedEntry, .branch "ref" []]]])

theorem gappedArticle_fails_at_one :
    gappedArticle.convert {} = .error (.withoutId 1) ∧
    ∀ step ∈ Reference.Call.history
        [⟨{}, 0, namedEntry⟩, ⟨{}, 1, .branch "ref" []⟩, ⟨{}, 2, .branch "note" []⟩] .empty,
      ∀ fault, step.outcome = .error fault → step.after = step.before := by
  obtain ⟨-, first, -, kept⟩ :=
    Article.convert_fails_only_unnamed_and_calls_are_atomic {} gappedArticle
      [⟨{}, 0, namedEntry⟩, ⟨{}, 1, .branch "ref" []⟩, ⟨{}, 2, .branch "note" []⟩] .empty
  have named : ∀ earlier ∈ [namedEntry], (earlier.attrText? "id").isSome = true := by
    decide +kernel
  exact ⟨first [namedEntry] (.branch "ref" []) [] rfl named rfl, kept⟩

example : (Reference.Call.history
    [⟨{}, 0, namedEntry⟩, ⟨{}, 1, .branch "ref" []⟩, ⟨{}, 2, .branch "note" []⟩] .empty).map
      (fun step => (step.outcome.toOption, step.after.lookup.entries)) =
    [(some (), [("r1", [])]), (none, [("r1", [])]), (none, [("r1", [])])] := by
  decide +kernel

end Manuscript
