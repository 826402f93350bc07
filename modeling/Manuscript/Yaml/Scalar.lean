import Manuscript.Decimal.Layout
import Manuscript.Text.Blank
import Manuscript.Text.Case
import Manuscript.Text.Letter
import Manuscript.Text.Search

/-!
What a scalar without quotes stands for: nothing, a truth value, a number or a text.
-/

set_option autoImplicit false

namespace Manuscript.Yaml

inductive Scalar where
  | null
  | bool (b : Bool)
  | integer (n : Int)
  /-- A number with a point or an exponent, as it is written. -/
  | real (text : String)
  | text
  deriving DecidableEq

namespace Scalar

def isNull (s : String) : Bool := ["", "~", "null", "Null", "NULL"].contains s

def bool? (s : String) : Option Bool :=
  if ["true", "True", "TRUE"].contains s then some true
  else if ["false", "False", "FALSE"].contains s then some false
  else none

def digit? (base : Nat) (c : Char) : Option Nat :=
  let value? : Option Nat :=
    if Text.isDigit c then some (c.toNat - '0'.toNat)
    else if 'a' ≤ c ∧ c ≤ 'f' then some (c.toNat - 'a'.toNat + 10)
    else if 'A' ≤ c ∧ c ≤ 'F' then some (c.toNat - 'A'.toNat + 10)
    else none
  value?.filter (· < base)

def natural? (base : Nat) (cs : List Char) : Option Nat :=
  if cs.isEmpty then none
  else (cs.mapM (digit? base)).map (·.foldl (fun n d => base * n + d) 0)

def based? (cs : List Char) : Option (Nat × List Char) :=
  match cs with
  | '0' :: 'x' :: rest => some (16, rest)
  | '0' :: 'o' :: rest => some (8, rest)
  | '0' :: 'b' :: rest => some (2, rest)
  | _ => none

/-- Whether digits start with a zero that is not the whole number. A scalar of such digits is a
text. -/
def hasLeadingZero (cs : List Char) : Bool :=
  match cs with
  | '0' :: _ :: _ => cs.all Text.isDigit
  | _ => false

def splitSign : List Char → Bool × List Char
  | '-' :: cs => (true, cs)
  | '+' :: cs => (false, cs)
  | cs => (false, cs)

/-- The integers that are read as such: a sign and 127 binary digits, or 128 without a minus. -/
def inRange (negative : Bool) (n : Nat) : Bool := if negative then n ≤ 1 <<< 127 else n < 1 <<< 128

def integer? (cs : List Char) : Option Int :=
  let (negative, body) := splitSign cs
  let n? := match based? body with
    | some (base, digits) => natural? base digits
    | none => if hasLeadingZero body then none else natural? 10 body
  (n?.filter (inRange negative)).map fun n => if negative then -(n : Int) else n

/-- The exponent that ends a number; it may be missing. -/
def exponent? : List Char → Option Int
  | [] => some 0
  | c :: cs =>
    if c = 'e' ∨ c = 'E' then
      let (negative, digits) := splitSign cs
      (natural? 10 digits).map fun n => if negative then -(n : Int) else n
    else none

/-- A number with a point or an exponent: digits on one side of the point at least. -/
def decimal? (cs : List Char) : Option Decimal :=
  let whole := cs.takeWhile Text.isDigit
  let rest := cs.dropWhile Text.isDigit
  let (places, rest) := match rest with
    | '.' :: rest => (rest.takeWhile Text.isDigit, rest.dropWhile Text.isDigit)
    | rest => ([], rest)
  if whole.isEmpty && places.isEmpty then none
  else (exponent? rest).map fun exponent =>
    ⟨Text.numberOfDigits (whole ++ places), exponent - places.length⟩

/-- Numbers with a point are written without an exponent from one in a hundred thousand on and below
ten to the sixteenth power. -/
def layout : Decimal.Layout := ⟨-5, 16⟩

def realText? (negative : Bool) (d : Decimal) : Option String :=
  let size := d.exponent + (toString d.digits).length
  let sign := if negative then "-" else ""
  if d.digits = 0 ∨ size < -400 then some (sign ++ "0.0")
  else if 400 < size then none
  else (Decimal.Binary.nearest? d.toFraction).map fun b =>
    sign ++ if b.significand = 0 then "0.0" else layout.write b.shortest

def float? (s : String) : Option String :=
  let (negative, body) := splitSign s.toList
  if [".inf", ".Inf", ".INF"].contains (String.ofList body) then
    some (if negative then "-.inf" else ".inf")
  else if [".nan", ".NaN", ".NAN"].contains s then some ".nan"
  else (decimal? body).bind (realText? negative)

/-- The text of the binary number that a text denotes, unless it starts with a zero too many. -/
def real? (s : String) : Option String :=
  if hasLeadingZero (splitSign s.toList).2 then none else float? s

def ofPlain (s : String) : Scalar :=
  if isNull s then .null
  else match bool? s with
    | some b => .bool b
    | none =>
      match integer? s.toList with
      | some n => .integer n
      | none =>
        match real? s with
        | some written => .real written
        | none => .text

/-- Whether a text would be taken for something else, or for a number by some readers, if it stood
without quotes. -/
def isAmbiguous (s : String) : Bool :=
  ofPlain s != .text || hasLeadingZero (splitSign s.toList).2

end Scalar

end Manuscript.Yaml
