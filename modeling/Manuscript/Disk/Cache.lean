import Manuscript.Disk.Storage
import Manuscript.Pmid.Document

/-!
The file that keeps what is known of PubMed identifiers, below the folder of a project or in a
folder that the user has chosen.
-/

set_option autoImplicit false

namespace Manuscript.Disk.Cache

inductive Fault where
  | folder (path : Path) (cause : Cause)
  | file (path : Path) (cause : Cause)
  /-- The file holds no dictionary. -/
  | content (path : Path)
  deriving DecidableEq

def Fault.message : Fault → String
  | .folder path cause => "Cache directory error for '" ++ path ++ "': " ++ cause.message
  | .file path cause => "Cache file error for '" ++ path ++ "': " ++ cause.message
  | .content path =>
    "Cache file '" ++ path ++ "' is not valid JSON: expected an object of strings and nulls"

def fileName : String := "jats-pmid-doi.json"

/-- The folder of the cache of a project. A chosen folder counts unless it is blank. -/
def folder (chosen : Option String) (project : Path) : Path :=
  match chosen.filter (!Text.isBlankText ·) with
  | some path => path
  | none => Path.join (Path.join project "_build") "cache"

def file (chosen : Option String) (project : Path) : Path :=
  Path.join (folder chosen project) fileName

variable {m : Type → Type} [Monad m]

/-- Reads the cache of a project. Without a file it is empty. -/
def load (s : Storage m) (project : Path) : m (Except Fault Pmid.Cache) := do
  let path := file s.cacheFolder project
  if ← s.isPresent path then
    match ← s.read path with
    | .error cause => pure (throw (.file path cause))
    | .ok text =>
      match Pmid.Document.read? text with
      | some findings => pure (pure ⟨findings⟩)
      | none => pure (throw (.content path))
  else pure (pure .empty)

/-- Writes the cache of a project, and tells where. -/
def save (s : Storage m) (project : Path) (cache : Pmid.Cache) : m (Except Fault Path) := do
  let folder := folder s.cacheFolder project
  let path := file s.cacheFolder project
  match ← s.makeFolders folder with
  | .error cause => pure (throw (.folder folder cause))
  | .ok _ =>
    match ← s.write path (Pmid.Document.write cache.entries) with
    | .error cause => pure (throw (.file path cause))
    | .ok _ => pure (pure path)

end Manuscript.Disk.Cache
