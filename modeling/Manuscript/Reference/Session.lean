import Manuscript.Reference.Registry

/-!
Entries registered one at a time. A caller keeps one registry for a number of calls; each call moves
it out of its place, registers an entry in it and puts it back, whatever has come of the entry.
-/

set_option autoImplicit false

namespace Manuscript.Reference

/-- An action on a registry in its place. What it has changed stays changed if it fails later. -/
abbrev Registering := ExceptT Fault (StateM Registry)

namespace Registering

def addParts (sources : Sources) (owner : String) : List Node → Registering (List Resolution)
  | [] => pure []
  | part :: parts => do
    let first ← modifyGet (·.addPart sources owner part)
    let rest ← addParts sources owner parts
    pure (first ++ rest)

def addEntry (sources : Sources) (index : Nat) (ref : Node) : Registering Unit := do
  unless ref.is "ref" do throw (.notAReference ref.kind)
  match ref.attrText? "id" with
  | none => throw (.withoutId index)
  | some name =>
    modify fun r => { r with counts := { r.counts with total := r.counts.total + 1 } }
    let resolutions ← addParts sources name ref.kids
    modify (·.enter (some name) resolutions)

end Registering

/-- A call that has an entry registered, the one of the given index. -/
structure Call where
  sources : Sources
  index : Nat
  ref : Node

namespace Call

/-- Carries out a call on the registry that is kept. An empty one stands in its place meanwhile. -/
def run (call : Call) : StateM Registry (Except Fault Unit) := do
  let kept ← getModify fun _ => Registry.empty
  let (outcome, filled) := (Registering.addEntry call.sources call.index call.ref).run.run kept
  set filled
  pure outcome

structure Step where
  before : Registry
  outcome : Except Fault Unit
  after : Registry

/-- Carries out calls one after the other, the first of them on the given registry. -/
def history : List Call → Registry → List Step
  | [], _ => []
  | call :: calls, r =>
    let (outcome, after) := call.run.run r
    ⟨r, outcome, after⟩ :: history calls after

end Call

end Manuscript.Reference
