import Manuscript.Json.Value

/-!
The text of JSON values, on one line and indented. Strings are written as they are but for quotes,
backslashes and control characters, so the printer has one spelling for a value.
-/

set_option autoImplicit false

namespace Manuscript.Json

def hexDigit (n : Nat) : Char :=
  if n < 10 then Char.ofNat ('0'.toNat + n) else Char.ofNat ('a'.toNat + (n - 10))

def escapedChar (c : Char) : List Char :=
  if c = '"' then ['\\', '"']
  else if c = '\\' then ['\\', '\\']
  else if c = '\n' then ['\\', 'n']
  else if c = '\r' then ['\\', 'r']
  else if c = '\t' then ['\\', 't']
  else if c = '\x08' then ['\\', 'b']
  else if c = '\x0c' then ['\\', 'f']
  else if c.toNat < 0x20 then
    ['\\', 'u', '0', '0', hexDigit (c.toNat / 16), hexDigit (c.toNat % 16)]
  else [c]

def quoted (s : String) : String :=
  "\"" ++ String.ofList (s.toList.flatMap escapedChar) ++ "\""

def atom : Json → String
  | .bool true => "true"
  | .bool false => "false"
  | .number n => toString n
  | .string s => quoted s
  | _ => "null"

mutual
def compact : Json → String
  | .array items => "[" ++ compactItems items ++ "]"
  | .object fields => "\x7b" ++ compactFields fields ++ "\x7d"
  | value => atom value

def compactItems : List Json → String
  | [] => ""
  | [item] => compact item
  | item :: items => compact item ++ "," ++ compactItems items

def compactFields : List (String × Json) → String
  | [] => ""
  | [(name, value)] => quoted name ++ ":" ++ compact value
  | (name, value) :: fields => quoted name ++ ":" ++ compact value ++ "," ++ compactFields fields
end

/-- The start of a new line at a nesting depth, two blanks to a level. -/
def lineStart (depth : Nat) : String :=
  "\n" ++ String.ofList (List.replicate (2 * depth) ' ')

mutual
/-- The value over several lines, as it stands `depth` levels inside another. -/
def indented (depth : Nat) : Json → String
  | .array [] => "[]"
  | .array (item :: items) =>
    "[" ++ indentedItems (depth + 1) (item :: items) ++ lineStart depth ++ "]"
  | .object [] => "\x7b\x7d"
  | .object (field :: fields) =>
    "\x7b" ++ indentedFields (depth + 1) (field :: fields) ++ lineStart depth ++ "\x7d"
  | value => atom value

def indentedItems (depth : Nat) : List Json → String
  | [] => ""
  | [item] => lineStart depth ++ indented depth item
  | item :: items => lineStart depth ++ indented depth item ++ "," ++ indentedItems depth items

def indentedFields (depth : Nat) : List (String × Json) → String
  | [] => ""
  | [(name, value)] => lineStart depth ++ quoted name ++ ": " ++ indented depth value
  | (name, value) :: fields =>
    lineStart depth ++ quoted name ++ ": " ++ indented depth value ++ ","
      ++ indentedFields depth fields
end

/-- The value over several lines, each level indented by two blanks. -/
def pretty (value : Json) : String := indented 0 value

end Manuscript.Json
