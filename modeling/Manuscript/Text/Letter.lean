import Manuscript.Text.Case
import Manuscript.Text.LetterTable

/-!
Letters and digits of all scripts, and those of ASCII alone.
-/

set_option autoImplicit false

namespace Manuscript.Text

def isLetter (c : Char) : Bool := inRanges alphabeticRanges c

def isDecimal (c : Char) : Bool := inRanges decimalRanges c

def isDigit (c : Char) : Bool := '0' ≤ c && c ≤ '9'

def isLowerLatin (c : Char) : Bool := 'a' ≤ c && c ≤ 'z'

def isUpperLatin (c : Char) : Bool := 'A' ≤ c && c ≤ 'Z'

def isLatin (c : Char) : Bool := isLowerLatin c || isUpperLatin c

def numberOfDigits (cs : List Char) : Nat :=
  cs.foldl (fun n c => 10 * n + (c.toNat - '0'.toNat)) 0

/-- Reads a number of at most `limit`, written in the digits 0 to 9 with an optional plus sign. -/
def number? (limit : Nat) (s : String) : Option Nat :=
  let digits := match s.toList with
    | '+' :: cs => cs
    | cs => cs
  if digits.isEmpty || !digits.all isDigit then none
  else
    let n := numberOfDigits digits
    if n ≤ limit then some n else none

def integer32? (s : String) : Option Int :=
  match s.toList with
  | '-' :: digits =>
    if digits.head? = some '+' then none
    else (number? (1 <<< 31) (String.ofList digits)).map fun n => -(n : Int)
  | _ => (number? (1 <<< 31 - 1) s).map fun n => (n : Int)

def natural32? (s : String) : Option Nat := number? (1 <<< 32 - 1) s

def padded (width n : Nat) : List Char :=
  let digits := (toString n).toList
  List.replicate (width - digits.length) '0' ++ digits

end Manuscript.Text
