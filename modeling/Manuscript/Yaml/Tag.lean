import Manuscript.Text.Letter
import Manuscript.Text.Search

/-!
Tags as bytes and by name. A tag that starts with an exclamation mark is the document's own, and its
name is what stands behind the mark. A name is written with percent escapes for all bytes but
letters, digits and some marks.
-/

set_option autoImplicit false

namespace Manuscript.Yaml

def isNameChar (c : Char) : Bool := Text.isLatin c || Text.isDigit c || c == '_' || c == '-'

def isTagMark (c : Char) : Bool := ";/?:@&=+$.~*'()".toList.contains c

def isListMark (c : Char) : Bool := c == ',' || c == '[' || c == ']'

def upperHexDigit (n : Nat) : Char :=
  if n < 10 then Char.ofNat ('0'.toNat + n) else Char.ofNat ('A'.toNat + (n - 10))

def hexPlaces : (places n : Nat) → List Char
  | 0, _ => []
  | places + 1, n => hexPlaces places (n / 16) ++ [upperHexDigit (n % 16)]

/-- A tag as its bytes, which need not be those of a text. -/
abbrev Tag := List UInt8

namespace Tag

def ofString (s : String) : Tag := s.toUTF8.toList

def mark : UInt8 := 0x21

/-- A tag without the mark in front, unless that is all of it. -/
def behindMark : Tag → Tag
  | b :: c :: rest => if b = mark then c :: rest else b :: c :: rest
  | tag => tag

def isLocal (tag : Tag) : Bool := tag.head? == some mark

/-- The name of a tag of the document's own; a mark before the name does not count, and the tag that
is only a mark is named by it. -/
def name? (tag : Tag) : Option String :=
  if tag.isLocal then String.fromUTF8? ⟨tag.behindMark.behindMark.toArray⟩ else none

def ofName (name : String) : Tag :=
  let bytes := ofString name
  if isLocal bytes then bytes else mark :: bytes

def escaped (b : UInt8) : List Char :=
  let c := Char.ofNat b.toNat
  if isNameChar c || isTagMark c || isListMark c then [c] else '%' :: hexPlaces 2 b.toNat

def write (name : String) : List Char :=
  match (ofName name).drop 1 with
  | [] => "!<%21>".toList
  | bytes => '!' :: bytes.flatMap escaped

end Tag

inductive StandardTag where
  | bool
  | int
  | float
  | null
  deriving DecidableEq

/-- What the names of standard tags start with. -/
def standardLead : String := "tag:yaml.org,2002:"

def StandardTag.name : StandardTag → String
  | .bool => "bool"
  | .int => "int"
  | .float => "float"
  | .null => "null"

def StandardTag.ofTag? (tag : Tag) : Option StandardTag :=
  [.bool, .int, .float, .null].find? fun standard =>
    tag == Tag.ofString (standardLead ++ standard.name)

end Manuscript.Yaml
