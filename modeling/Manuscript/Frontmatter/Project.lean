import Manuscript.Frontmatter.Json
import Manuscript.Yaml.Reader

/-!
The metadata of a document within the settings of a project: its fields replace those of the same
name under `project`, and everything else stays.
-/

set_option autoImplicit false

namespace Manuscript.Frontmatter

inductive MergeFault where
  | unreadable (cause : Yaml.Fault)
  | notAMapping
  /-- The merged settings have no document. -/
  | unwritable
  deriving DecidableEq

def MergeFault.message : MergeFault → String
  | .unreadable cause => cause.message
  | .notAMapping => "myst.yml is not a mapping"
  | .unwritable => "the settings cannot be written"

def freshProject : String := "version: 1\nproject: \x7b\x7d\nsite: \x7b\x7d\n"

def entries (f : Frontmatter) : List (Yaml × Yaml) := Yaml.ofFields f.fields

/-- The settings with the fields under `project`; what is there and no mapping is replaced. -/
def mergeEntries (f : Frontmatter) (settings : List (Yaml × Yaml)) : List (Yaml × Yaml) :=
  let project := match Yaml.lookup (.string "project") settings with
    | some (.mapping old) => Yaml.putAll old f.entries
    | _ => f.entries
  Yaml.put (.string "project") (.mapping project) settings

/-- The settings, which may stand under a tag, with the fields under `project`. -/
def mergeInto? (f : Frontmatter) : Yaml → Option Yaml
  | .mapping settings => some (.mapping (f.mergeEntries settings))
  | .tagged tag value => (f.mergeInto? value).map (.tagged tag)
  | _ => none

def mergeProject (existing : Option String) (f : Frontmatter) : Except MergeFault String :=
  match Yaml.read (existing.getD freshProject) with
  | .error cause => throw (.unreadable cause)
  | .ok settings =>
    match f.mergeInto? settings with
    | some merged =>
      match merged.print? with
      | some text => pure text
      | none => throw .unwritable
    | none => throw .notAMapping

end Manuscript.Frontmatter
