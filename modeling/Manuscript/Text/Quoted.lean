import Manuscript.Text.Case
import Manuscript.Text.VisibleTable

/-!
Text in double quotes for people to read: what could not be told from the page is escaped.
-/

set_option autoImplicit false

namespace Manuscript.Text

def hexDigits (n : Nat) : List Char := Nat.toDigits 16 n

/-- Whether a character is seen, and as one of its own. -/
def isVisible (c : Char) : Bool := !inRanges extendingRanges c && !inRanges invisibleRanges c

/-- A character between quotes; `marks` are the quotes that are escaped. -/
def quotedChar (marks : List Char) (c : Char) : List Char :=
  if marks.contains c || c = '\\' then ['\\', c]
  else if c = '\x00' then ['\\', '0']
  else if c = '\t' then ['\\', 't']
  else if c = '\r' then ['\\', 'r']
  else if c = '\n' then ['\\', 'n']
  else if isVisible c then [c]
  else ['\\', 'u', '\x7b'] ++ hexDigits c.toNat ++ ['\x7d']

def quotedWith (marks : List Char) (s : String) : String :=
  String.ofList ('"' :: s.toList.flatMap (quotedChar marks) ++ ['"'])

def quoted (s : String) : String := quotedWith ['"'] s

/-- A path in double quotes; quotes of both kinds are escaped inside it. -/
def quotedPath (s : String) : String := quotedWith ['"', '\''] s

end Manuscript.Text
