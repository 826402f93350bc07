import Manuscript.Text.Search

/-!
Paths of files: their parts, the folder that a path is in, and the name behind it. Repeated slashes
and the step to the same folder count for nothing, except in front.
-/

set_option autoImplicit false

namespace Manuscript.Disk

abbrev Path := String

namespace Path

/-- What a path starts with, the root or the step to the same folder, and the rest. -/
def splitStart : List Char → List Char × List Char
  | '/' :: rest => (['/'], rest)
  | ['.'] => (['.'], [])
  | '.' :: '/' :: rest => (['.'], '/' :: rest)
  | cs => ([], cs)

def isStep (part : List Char) : Bool := !part.isEmpty && part != ['.']

def parts (cs : List Char) : List (List Char) := Text.splitWhere (· == '/') cs

def joinParts : List (List Char) → List Char
  | [] => []
  | [part] => part
  | part :: rest => part ++ '/' :: joinParts rest

def isAbsolute (p : Path) : Bool := p.toList.head? == some '/'

def steps (p : Path) : List String := ((parts p.toList).filter isStep).map String.ofList

/-- The parts in reverse order from the last one that leads anywhere. -/
def lastParts (rest : List Char) : List (List Char) := (parts rest).reverse.dropWhile (!isStep ·)

/-- The folder that a path is in; the root and the empty path are in none. -/
def parent? (p : Path) : Option Path :=
  let (start, rest) := splitStart p.toList
  match lastParts rest with
  | _ :: before =>
    some (String.ofList (start ++ joinParts (before.dropWhile (!isStep ·)).reverse))
  | [] => if start = ['.'] then some "" else none

def name? (p : Path) : Option String :=
  match lastParts (splitStart p.toList).2 with
  | [] => none
  | part :: _ => if part = ['.', '.'] then none else some (String.ofList part)

/-- The parts before and after the last full stop, unless nothing is before it. -/
def splitName? (name : List Char) : Option (List Char × List Char) :=
  match Text.cutAt '.' name.reverse with
  | some (after, before) => if before.isEmpty then none else some (before.reverse, after.reverse)
  | none => none

def stem? (p : Path) : Option String :=
  (name? p).map fun name =>
    ((splitName? name.toList).map fun parts => String.ofList parts.1).getD name

def extension? (p : Path) : Option String :=
  (name? p).bind fun name => (splitName? name.toList).map fun parts => String.ofList parts.2

/-- The path that leads on from a folder; an absolute one starts anew. -/
def join (folder p : Path) : Path :=
  if isAbsolute p || folder.isEmpty then p
  else if folder.toList.getLast? = some '/' then folder ++ p
  else folder ++ "/" ++ p

def withName (p : Path) (name : String) : Path :=
  match name? p with
  | some _ => join ((parent? p).getD "") name
  | none => join p name

/-- Whether a path ends so that it can lead to nothing but a folder. -/
def endsAtFolder (p : Path) : Bool :=
  match (parts p.toList).getLast? with
  | some part => !isStep part || part == ['.', '.']
  | none => false

end Path

end Manuscript.Disk
