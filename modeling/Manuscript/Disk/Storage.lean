import Manuscript.Disk.Path

/-!
What a conversion between files needs of the place where the files are.
-/

set_option autoImplicit false

namespace Manuscript.Disk

inductive Cause where
  | notFound
  | isFolder
  | notAFolder
  | alreadyExists
  | busy
  | denied
  | notText
  /-- A name or a whole path has more bytes than one may have. -/
  | tooLong
  /-- A path holds the character that ends it. -/
  | notAPath
  | other (text : String)
  deriving DecidableEq

def Cause.message : Cause → String
  | .notFound => "No such file or directory (os error 2)"
  | .isFolder => "Is a directory (os error 21)"
  | .notAFolder => "Not a directory (os error 20)"
  | .alreadyExists => "File exists (os error 17)"
  | .busy => "Device or resource busy (os error 16)"
  | .denied => "Permission denied (os error 13)"
  | .notText => "stream did not contain valid UTF-8"
  | .tooLong => "File name too long (os error 36)"
  | .notAPath => "file name contained an unexpected NUL byte"
  | .other text => text

structure Storage (m : Type → Type) where
  read : Path → m (Except Cause String)
  /-- Gives a file a content; the folder must be there. -/
  write : Path → String → m (Except Cause Unit)
  /-- Gives a file another path, in place of a file that is there. -/
  move : Path → Path → m (Except Cause Unit)
  /-- Makes a folder and those that it is in, as far as they are missing. -/
  makeFolders : Path → m (Except Cause Unit)
  isPresent : Path → m Bool
  isFolder : Path → m Bool
  isFile : Path → m Bool
  names : Path → m (List String)
  clock : m Nat
  /-- The folder for caches that the user has chosen, if any. -/
  cacheFolder : Option String

end Manuscript.Disk
