import Manuscript.Text.Blank
import Manuscript.Text.Case
import Manuscript.Text.Letter
import Manuscript.Text.Search
import Manuscript.Tree.Search

/-!
Dates of articles. A date element gives its parts as one ISO date or as child elements; the month
may be a name. Missing parts count as one.
-/

set_option autoImplicit false

namespace Manuscript

structure Date where
  year : Int
  month : Nat
  day : Nat
  deriving DecidableEq

namespace Date

def monthNames : List (String × Nat) :=
  [("jan", 1), ("january", 1), ("feb", 2), ("february", 2), ("mar", 3), ("march", 3), ("apr", 4),
    ("april", 4), ("may", 5), ("jun", 6), ("june", 6), ("jul", 7), ("july", 7), ("aug", 8),
    ("august", 8), ("sep", 9), ("sept", 9), ("september", 9), ("oct", 10), ("october", 10),
    ("nov", 11), ("november", 11), ("dec", 12), ("december", 12)]

def month? (s : String) : Option Nat :=
  (Text.natural32? s).orElse fun _ => monthNames.lookup (Text.lower s)

def isoFields (cs : List Char) : List (List Char) :=
  match Text.cutAt '-' cs with
  | none => [cs]
  | some (year, cs) =>
    match Text.cutAt '-' cs with
    | none => [year, cs]
    | some (month, day) => [year, month, day]

/-- The day that starts a text: two characters, what follows them does not matter. -/
def isoDay? : List Char → Option Nat
  | a :: b :: _ => Text.natural32? (String.ofList [a, b])
  | _ => none

/-- A date written as year, month and day with hyphens between them. -/
def ofIso? (s : String) : Option Date := do
  let fields := isoFields (Text.trimWhile Text.isBlank s.toList)
  let year ← Text.integer32? (String.ofList (fields.getD 0 []))
  let month := (fields[1]?.bind fun m => Text.natural32? (String.ofList m)).getD 1
  let day := (fields[2]?.bind isoDay?).getD 1
  pure ⟨year, month, day⟩

/-- A date given by child elements. Without a month the day does not count either. -/
def ofElements? (n : Node) : Option Date := do
  let field? (kind : String) : Option String := (n.findKind? kind).map (Text.trim ·.toText)
  let year ← ((← field? "year") |> Text.integer32?).filter (· ≠ 0)
  match (field? "month").bind month? with
  | none => pure ⟨year, 1, 1⟩
  | some month =>
    pure ⟨year, month, (((field? "day").bind Text.natural32?).filter (· ≠ 0)).getD 1⟩

/-- The date of a date element. An ISO date counts before the child elements. -/
def ofNode? (n : Node) : Option Date :=
  match n.attrText? "iso-8601-date" with
  | some iso => ofIso? iso
  | none => ofElements? n

def yearText (year : Int) : List Char :=
  if year < 0 then '-' :: Text.padded 3 year.natAbs else Text.padded 4 year.natAbs

def format (d : Date) : String :=
  String.ofList (yearText d.year ++ '-' :: (Text.padded 2 d.month ++ '-' :: Text.padded 2 d.day))

end Date

end Manuscript
