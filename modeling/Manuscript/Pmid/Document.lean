import Manuscript.Json.Printer
import Manuscript.Pmid.Cache
import Manuscript.Text.Letter

/-!
The document that a cache of PubMed identifiers is kept in: a JSON object of strings and nulls. Of
a repeated name the last value counts.
-/

set_option autoImplicit false

namespace Manuscript.Pmid.Document

def write (findings : Findings) : String :=
  let value : Option String → Json
    | some doi => .string doi
    | none => .null
  (Json.object (findings.map value).entries).pretty

def isSpace (c : Char) : Bool := c == ' ' || c == '\t' || c == '\n' || c == '\r'

def skipSpace (cs : List Char) : List Char := cs.dropWhile isSpace

def hexValue? (c : Char) : Option Nat :=
  if Text.isDigit c then some (c.toNat - '0'.toNat)
  else if 'a' ≤ c ∧ c ≤ 'f' then some (c.toNat - 'a'.toNat + 10)
  else if 'A' ≤ c ∧ c ≤ 'F' then some (c.toNat - 'A'.toNat + 10)
  else none

/-- The number that four hexadecimal digits in front denote. -/
def unit? : List Char → Option (Nat × List Char)
  | a :: b :: c :: d :: cs => do
    let digits ← [a, b, c, d].mapM hexValue?
    pure (digits.foldl (fun n d => 16 * n + d) 0, cs)
  | _ => none

def isHighUnit (n : Nat) : Bool := 0xD800 ≤ n && n < 0xDC00

def isLowUnit (n : Nat) : Bool := 0xDC00 ≤ n && n < 0xE000

/-- The character that one unit of four digits denotes, or a pair of them. -/
def unitChar? (cs : List Char) : Option (Char × List Char) := do
  let (n, cs) ← unit? cs
  if isLowUnit n then none
  else if isHighUnit n then
    match cs with
    | '\\' :: 'u' :: cs =>
      let (low, cs) ← unit? cs
      if isLowUnit low then
        pure (Char.ofNat (0x10000 + (n - 0xD800) * 0x400 + (low - 0xDC00)), cs)
      else none
    | _ => none
  else pure (Char.ofNat n, cs)

def escapes : List (Char × Char) :=
  [('"', '"'), ('\\', '\\'), ('/', '/'), ('b', '\x08'), ('f', '\x0c'), ('n', '\n'), ('r', '\r'),
    ('t', '\t')]

/-- The characters of a string up to its closing quote, and what follows. `steps` bounds their
number. -/
def stringRest? : (steps : Nat) → List Char → Option (List Char × List Char)
  | 0, _ => none
  | _ + 1, [] => none
  | steps + 1, c :: cs =>
    if c = '"' then some ([], cs)
    else if c.toNat < 0x20 then none
    else do
      let (d, cs) ← if c ≠ '\\' then some (c, cs)
        else match cs with
          | 'u' :: cs => unitChar? cs
          | letter :: cs => (escapes.lookup letter).map fun d => (d, cs)
          | [] => none
      let (rest, cs) ← stringRest? steps cs
      pure (d :: rest, cs)

def string? : List Char → Option (String × List Char)
  | '"' :: cs => (stringRest? (cs.length + 1) cs).map fun (s, cs) => (String.ofList s, cs)
  | _ => none

def value? (cs : List Char) : Option (Option String × List Char) :=
  match Text.rest? "null".toList cs with
  | some cs => some (none, cs)
  | none => (string? cs).map fun (s, cs) => (some s, cs)

/-- The entries of an object from the first name to the closing brace, and what follows. `steps`
bounds their number. -/
def entries? : (steps : Nat) → List Char → Option (List (String × Option String) × List Char)
  | 0, _ => none
  | steps + 1, cs => do
    let (name, cs) ← string? (skipSpace cs)
    match skipSpace cs with
    | ':' :: cs =>
      let (value, cs) ← value? (skipSpace cs)
      match skipSpace cs with
      | ',' :: cs =>
        let (rest, cs) ← entries? steps cs
        pure ((name, value) :: rest, cs)
      | '\x7d' :: cs => pure ([(name, value)], cs)
      | _ => none
    | _ => none

def object? (cs : List Char) : Option (List (String × Option String) × List Char) :=
  match skipSpace cs with
  | '\x7b' :: cs =>
    match skipSpace cs with
    | '\x7d' :: cs => some ([], cs)
    | cs => entries? (cs.length + 1) cs
  | _ => none

def read? (s : String) : Option Findings := do
  let (entries, rest) ← object? s.toList
  if (skipSpace rest).isEmpty then pure (Dict.ofList entries) else none

end Manuscript.Pmid.Document
