import Manuscript.Text.CaseTable

/-!
Lower case, by the full Unicode mapping: letter by letter, except that a capital sigma becomes the
final sigma where it ends a word. A text of ASCII characters keeps its length.
-/

set_option autoImplicit false

namespace Manuscript.Text

def inRanges (ranges : List (Nat × Nat)) (c : Char) : Bool :=
  ranges.any fun (first, last) => first ≤ c.toNat && c.toNat ≤ last

def isCased (c : Char) : Bool := inRanges casedRanges c

def isCaseIgnorable (c : Char) : Bool := inRanges caseIgnorableRanges c

def lowerLetter (c : Char) : Char :=
  let n := c.toNat
  match lowerRuns.find? fun (first, last, step, _) =>
      first ≤ n && n ≤ last && (n - first) % step == 0 with
  | some (_, _, _, distance) => Char.ofNat ((n : Int) + distance).toNat
  | none => c

/-- The lower-case form of a character: a dotted capital I keeps its dot as a character of its
own. -/
def lowerChar (c : Char) : List Char :=
  if c = 'İ' then ['i', '\u0307'] else [lowerLetter c]

/-- Whether the first character that letter case does not ignore is a cased one. -/
def meetsCased (cs : List Char) : Bool :=
  match cs.dropWhile isCaseIgnorable with
  | c :: _ => isCased c
  | [] => false

def lowerAfter (before : List Char) : List Char → List Char
  | [] => []
  | c :: cs =>
    (if c = 'Σ' then
      [if meetsCased before && !meetsCased cs then 'ς' else 'σ']
    else lowerChar c) ++ lowerAfter (c :: before) cs

def lower (s : String) : String :=
  String.ofList (lowerAfter [] s.toList)

/-- The upper-case form of a character if it consists of the letters A to Z, as that of a few
ligatures does; every other character stays. -/
def upperLatin (c : Char) : List Char :=
  if c = 'ı' then ['I']
  else if c = 'ſ' then ['S']
  else if c = 'ß' then ['S', 'S']
  else if c = 'ﬀ' then ['F', 'F']
  else if c = 'ﬁ' then ['F', 'I']
  else if c = 'ﬂ' then ['F', 'L']
  else if c = 'ﬃ' then ['F', 'F', 'I']
  else if c = 'ﬄ' then ['F', 'F', 'L']
  else if c = 'ﬅ' ∨ c = 'ﬆ' then ['S', 'T']
  else [c.toUpper]

/-- Whether the text in upper case is the given word of the letters A to Z. -/
def readsInUpper (word s : String) : Bool := s.toList.flatMap upperLatin == word.toList

def lowerAscii (s : String) : String :=
  String.ofList (s.toList.map Char.toLower)

def eqIgnoringAsciiCase (s t : String) : Bool :=
  s.toList.map Char.toLower == t.toList.map Char.toLower

end Manuscript.Text
