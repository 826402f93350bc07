import Manuscript.Command.Basic

/-!
The command on the files of the system.
-/

set_option autoImplicit false

namespace Manuscript

open Manuscript.Disk

def causeOf : IO.Error → Cause
  | .noFileOrDirectory .. => .notFound
  | .inappropriateType .. => .notAFolder
  | .alreadyExists .. => .alreadyExists
  | .resourceBusy .. => .busy
  | .permissionDenied .. => .denied
  | .invalidArgument _ 36 _ => .tooLong
  | error => .other (toString error)

def attempted {α : Type} (action : IO α) : IO (Except Cause α) :=
  try pure (pure (← action)) catch error => pure (throw (causeOf error))

def located (path : Path) := (⟨path, ""⟩ : IO.FS.DirEntry).root

def readBytes (path : Path) : IO (Except Cause ByteArray) := do
  if ← (located path).isDir then pure (throw .isFolder) else attempted (IO.FS.readBinFile path)

def systemStorage (cacheFolder : Option String) : Storage IO where
  read path := do
    match ← readBytes path with
    | .error cause => pure (throw cause)
    | .ok bytes =>
      match String.fromUTF8? bytes with
      | some s => pure (pure s)
      | none => pure (throw .notText)
  write path s := do
    if ← (located path).isDir then pure (throw .isFolder) else attempted (IO.FS.writeFile path s)
  move old new := do
    if ← (located new).isDir then pure (throw .isFolder) else attempted (IO.FS.rename old new)
  makeFolders path := attempted (IO.FS.createDirAll path)
  isPresent path := (located path).pathExists
  isFolder path := (located path).isDir
  isFile path := do pure ((← (located path).pathExists) && !(← (located path).isDir))
  names path := do
    let found ← attempted do pure ((← (located path).readDir).toList.map (·.fileName))
    pure (found.toOption.getD [])
  clock := IO.monoMsNow
  cacheFolder := cacheFolder

end Manuscript

def main (arguments : List String) : IO UInt32 := do
  let names := Manuscript.Command.Parameter.all.filterMap (·.environmentName?)
  let settings ← names.filterMapM fun name => do
    pure ((← IO.getEnv name).map fun value => (name, value))
  let storage := Manuscript.systemStorage (← IO.getEnv "JATS_PMID_CACHE_DIR")
  let outcome ← Manuscript.Command.run storage (settings.lookup ·) arguments
  (← IO.getStdout).putStr outcome.output
  (← IO.getStderr).putStr outcome.messages
  pure outcome.exitCode.toUInt32
