import Manuscript.Data.Dict
import Manuscript.Disk.Storage

/-!
A disk as a value: folders and files under their paths from the working folder, with the operations
that a conversion needs. Nothing is above the working folder, and the root is a place of its own.
Everything on it may be read and written, so it never answers with `Cause.denied`.
-/

set_option autoImplicit false

namespace Manuscript

namespace Disk

inductive Content where
  | text (s : String)
  | bytes (bs : List UInt8)
  deriving DecidableEq

def Content.ofBytes (bs : List UInt8) : Content :=
  match String.fromUTF8? ⟨bs.toArray⟩ with
  | some s => .text s
  | none => .bytes bs

inductive Entry where
  | folder
  | file (content : Content)
  deriving DecidableEq

/-- The names on the way to a place. -/
abbrev Place := List String

def Place.key (p : Place) : String := String.intercalate "/" p

end Disk

structure Disk where
  entries : Dict Disk.Entry

namespace Disk

def empty : Disk := ⟨.empty⟩

/-- What is at a place; the places that all others are in are folders. -/
def at? (d : Disk) (p : Place) : Option Entry :=
  if p = [] ∨ p = [""] then some .folder else d.entries.find? p.key

def nameLimit : Nat := 255

def pathLimit : Nat := 4096

/-- Why a path leads nowhere, whatever is on the disk. -/
def refusal? (path : Path) : Option Cause :=
  if path.toList.contains '\x00' then some .notAPath
  else if pathLimit ≤ path.utf8ByteSize then some .tooLong
  else none

/-- Walks on from a place. Every step must start in a folder. -/
def walk (d : Disk) (p : Place) : List String → Except Cause Place
  | [] => pure p
  | step :: steps =>
    match d.at? p with
    | none => throw .notFound
    | some (.file _) => throw .notAFolder
    | some .folder =>
      if step = ".." then walk d (if p = [""] then p else p.dropLast) steps
      else if nameLimit < step.utf8ByteSize then throw .tooLong
      else walk d (p ++ [step]) steps

def origin (path : Path) : Place := if Path.isAbsolute path then [""] else []

def locate (d : Disk) (path : Path) : Except Cause Place :=
  match refusal? path with
  | some cause => throw cause
  | none => if path.isEmpty then throw .notFound else d.walk (origin path) (Path.steps path)

/-- What a path leads to. A path that ends like that of a folder leads to no file. -/
def look (d : Disk) (path : Path) : Except Cause Entry := do
  match d.at? (← d.locate path) with
  | none => throw .notFound
  | some .folder => pure .folder
  | some (.file content) =>
    if Path.endsAtFolder path then throw .notAFolder else pure (.file content)

def isPresent (d : Disk) (path : Path) : Bool := (d.look path).isOk

def isFolder (d : Disk) (path : Path) : Bool :=
  match d.look path with
  | .ok .folder => true
  | _ => false

def isFile (d : Disk) (path : Path) : Bool :=
  match d.look path with
  | .ok (.file _) => true
  | _ => false

def read (d : Disk) (path : Path) : Except Cause String := do
  match ← d.look path with
  | .folder => throw .isFolder
  | .file (.text s) => pure s
  | .file (.bytes _) => throw .notText

def put (d : Disk) (p : Place) (e : Entry) : Disk := ⟨d.entries.insert p.key e⟩

def remove (d : Disk) (p : Place) : Disk := ⟨d.entries.erase p.key⟩

/-- Whether a file may come to be at a place: its folder is there, and it is no folder itself. -/
def checkTarget (d : Disk) (p : Place) : Except Cause Unit :=
  match d.at? p.dropLast with
  | none => throw .notFound
  | some (.file _) => throw .notAFolder
  | some .folder => if d.at? p = some .folder then throw .isFolder else pure ()

def write (d : Disk) (path : Path) (s : String) : Except Cause Disk := do
  let place ← d.locate path
  d.checkTarget place
  if Path.endsAtFolder path then throw .isFolder else pure (d.put place (.file (.text s)))

def move (d : Disk) (old new : Path) : Except Cause Disk := do
  let source ← d.locate old
  match d.at? source with
  | none => throw .notFound
  | some .folder => throw .isFolder
  | some (.file content) =>
    let target ← d.locate new
    if Path.endsAtFolder new then
      match d.at? target with
      | none => if new.toList.getLast? = some '/' then throw .notAFolder else throw .notFound
      | some (.file _) => throw .notAFolder
      | some .folder => throw (if new.toList.getLast? = some '/' then .notAFolder else .busy)
    else
      d.checkTarget target
      pure ((d.remove source).put target (.file content))

/-- Walks on from a place and makes the folders that are missing; `made` tells whether one has been
made so far. Until then a file is in the way of what is to be below it, and afterwards, or if it is
the last on the way, in the way of the folder of its name. -/
def makeFrom (d : Disk) (made : Bool) (p : Place) : List String → Except Cause Unit × Disk
  | [] => (pure (), d)
  | step :: steps =>
    if step = ".." then makeFrom d made (if p = [""] then p else p.dropLast) steps
    else if nameLimit < step.utf8ByteSize then (throw .tooLong, d)
    else
      let next := p ++ [step]
      match d.at? next with
      | some .folder => makeFrom d made next steps
      | some (.file _) =>
        (throw (if made || steps.isEmpty then .alreadyExists else .notAFolder), d)
      | none => makeFrom (d.put next .folder) true next steps

def makeFolders (d : Disk) (path : Path) : Except Cause Unit × Disk :=
  match refusal? path with
  | some cause => (throw cause, d)
  | none => d.makeFrom false (origin path) (Path.steps path)

def names (d : Disk) (path : Path) : List String :=
  match d.locate path with
  | .error _ => []
  | .ok place =>
    d.entries.keys.filterMap fun key =>
      let names := (Text.splitWhere (· == '/') key.toList).map String.ofList
      if names.length = place.length + 1 ∧ names.take place.length = place then names.getLast?
      else none

/-- Puts something at a path, with the folders that it is in. -/
def place (d : Disk) (path : Path) (e : Entry) : Disk :=
  let d := ((Path.parent? path).map fun folder => (d.makeFolders folder).2).getD d
  d.put (Path.steps path) e

/-- The files of a disk that were not there before or had another content, and its empty folders
that were not there before. -/
def changes (before after : Disk) : Dict Entry :=
  let changed (key : String) (e : Entry) : Bool :=
    match e with
    | .file _ => before.entries.find? key != some e
    | .folder => (before.entries.find? key).isNone && (after.names key).isEmpty
  Dict.ofList (after.entries.entries.filter fun (key, e) => changed key e)

def attempt (change : Disk → Except Cause Disk) : StateM Disk (Except Cause Unit) := do
  match change (← get) with
  | .ok d =>
    set d
    pure (pure ())
  | .error cause => pure (throw cause)

/-- A disk as the place of files. Its clock stands still. -/
def storage (cacheFolder : Option String) : Storage (StateM Disk) where
  read path := do pure ((← get).read path)
  write path s := attempt (·.write path s)
  move old new := attempt (·.move old new)
  makeFolders path := do
    let (result, d) := (← get).makeFolders path
    set d
    pure result
  isPresent path := do pure ((← get).isPresent path)
  isFolder path := do pure ((← get).isFolder path)
  isFile path := do pure ((← get).isFile path)
  names path := do pure ((← get).names path)
  clock := pure 0
  cacheFolder := cacheFolder

end Disk

end Manuscript
