import Manuscript.Yaml.Scalar
import Manuscript.Yaml.Tag
import Manuscript.Yaml.Value

/-!
The text of YAML values in block style, two spaces for a level. Lists stand at the indentation of
their key. Texts are written without quotes where they can be.
-/

set_option autoImplicit false

namespace Manuscript.Yaml

def isBreak (c : Char) : Bool := ['\n', '\r', '\x85', '\u2028', '\u2029'].contains c

def isPrintable (c : Char) : Bool :=
  let n := c.toNat
  n == 0xA || (0x20 ≤ n && n ≤ 0x7E) || (0xA0 ≤ n && n ≤ 0xD7FF)
    || (0xE000 ≤ n && n ≤ 0xFFFD && n != 0xFEFF) || 0x10000 ≤ n

def atGap : List Char → Bool
  | [] => true
  | c :: _ => c == ' ' || c == '\t' || isBreak c

/-- Whether a text has a colon before a gap, or a hash behind one; `behindGap` tells whether it
stands behind one. -/
def hasInnerMark (behindGap : Bool) : List Char → Bool
  | [] => false
  | c :: cs =>
    (c == ':' && atGap cs) || (c == '#' && behindGap) || hasInnerMark (atGap [c]) cs

/-- The characters that start something other than a plain text. -/
def startMarks : List Char := "#,[]\x7b\x7d&*!|>'\"%@\x60".toList

def startsMarked (cs : List Char) : Bool :=
  (Text.rest? "---".toList cs).isSome || (Text.rest? "...".toList cs).isSome ||
    match cs with
    | [] => false
    | c :: rest => startMarks.contains c || (['?', ':', '-'].contains c && atGap rest)

def hasIndentedLine : List Char → Bool
  | [] => false
  | [_] => false
  | c :: d :: cs => (isBreak c && d == ' ') || hasIndentedLine (d :: cs)

def hasOpenLine : List Char → Bool
  | [] => false
  | [_] => false
  | c :: d :: cs => (c == ' ' && isBreak d) || hasOpenLine (d :: cs)

inductive Style where
  | plain
  | single
  | double
  | literal
  deriving DecidableEq

/-- Whether no style but that with escapes can hold a text. -/
def needsEscapes (cs : List Char) : Bool := hasOpenLine cs || cs.any (!isPrintable ·)

def allowsSingle (cs : List Char) : Bool := !needsEscapes cs && !hasIndentedLine cs

def allowsLiteral (cs : List Char) : Bool := !needsEscapes cs && cs.getLast? != some ' '

def allowsPlain (cs : List Char) : Bool :=
  allowsSingle cs && !cs.any isBreak && cs.head? != some ' ' && cs.getLast? != some ' '
    && !startsMarked cs && !hasInnerMark true cs

/-- The style of a text: its lines as they are if it has several, quotes if it could be taken for
something else, nothing around it otherwise, as far as the text allows. -/
def styleOf (s : String) : Style :=
  let cs := s.toList
  if cs.contains '\n' then if allowsLiteral cs then .literal else .double
  else if !Scalar.isAmbiguous s && allowsPlain cs then .plain
  else if allowsSingle cs then .single
  else .double

def namedEscapes : List (Char × Char) :=
  [('\x00', '0'), ('\x07', 'a'), ('\x08', 'b'), ('\t', 't'), ('\n', 'n'), ('\x0b', 'v'),
    ('\x0c', 'f'), ('\r', 'r'), ('\x1b', 'e'), ('"', '"'), ('\\', '\\'), ('\x85', 'N'),
    ('\xa0', '_'), ('\u2028', 'L'), ('\u2029', 'P')]

def escaped (c : Char) : List Char :=
  if isPrintable c && !isBreak c && c != '"' && c != '\\' then [c]
  else match namedEscapes.lookup c with
    | some letter => ['\\', letter]
    | none =>
      let n := c.toNat
      if n ≤ 0xFF then ['\\', 'x'] ++ hexPlaces 2 n
      else if n ≤ 0xFFFF then ['\\', 'u'] ++ hexPlaces 4 n
      else ['\\', 'U'] ++ hexPlaces 8 n

def spaces (n : Nat) : List Char := List.replicate n ' '

/-- Lines with every one of them indented that is not empty. `starting` tells that a line starts. -/
def indentLines (indent : Nat) (starting : Bool) : List Char → List Char
  | [] => []
  | c :: cs =>
    if isBreak c then c :: indentLines indent true cs
    else (if starting then spaces indent else []) ++ c :: indentLines indent false cs

def singleContent (indent : Nat) (cs : List Char) : List Char :=
  let doubled := cs.flatMap fun c => if c = '\'' then ['\'', '\''] else [c]
  let lines := indentLines indent false doubled
  if (cs.getLast?).any isBreak then lines ++ spaces indent else lines

def chomping (cs : List Char) : List Char :=
  match cs.reverse with
  | [] => ['-']
  | c :: rest =>
    if !isBreak c then ['-']
    else match rest with
      | [] => ['+']
      | d :: _ => if isBreak d then ['+'] else []

/-- The head of a literal text: its indentation too, if it starts with a gap. -/
def literalHead (cs : List Char) : List Char :=
  let gap := match cs with
    | c :: _ => c == ' ' || isBreak c
    | [] => false
  '|' :: (if gap then ['2'] else []) ++ chomping cs

def endLine (cs : List Char) : List Char :=
  if (cs.getLast?).any isBreak then cs else cs ++ ['\n']

def textLines (indent : Nat) (s : String) : List Char :=
  let cs := s.toList
  match styleOf s with
  | .plain => cs ++ ['\n']
  | .single => '\'' :: singleContent indent cs ++ ['\'', '\n']
  | .double => '"' :: cs.flatMap escaped ++ ['"', '\n']
  | .literal => literalHead cs ++ '\n' :: endLine (indentLines indent true cs)

def leafText : Yaml → String
  | .null => "null"
  | .bool b => if b then "true" else "false"
  | .number text => text
  | .sequence _ => "[]"
  | .mapping _ => "\x7b\x7d"
  | _ => ""

/-- A value that is neither a list nor a mapping with something in it, with the end of its line. -/
def leafLine (indent : Nat) : Yaml → List Char
  | .string s => textLines indent s
  | value => (leafText value).toList ++ ['\n']

/-- The number of bytes of a value that has no lines of its own, with its tag. Brackets and what is
added for quoting do not count. -/
def size? : Yaml → Option Nat
  | .string s => if s.toList.any isBreak then none else some s.utf8ByteSize
  | .sequence items => if items.isEmpty then some 0 else none
  | .mapping entries => if entries.isEmpty then some 0 else none
  | .tagged tag value => (size? value).map ((Tag.ofName tag).length + ·)
  | value => some (leafText value).utf8ByteSize

/-- Whether a value fits on the line of a key: it has no lines of its own and is not long. -/
def isShort (value : Yaml) : Bool := (size? value).any (· ≤ 128)

def stack (indent : Nat) : List (List Char) → List Char
  | [] => []
  | piece :: pieces => piece ++ pieces.flatMap (spaces indent ++ ·)

def shortKey (indent : Nat) : Yaml → List Char
  | .tagged tag value => Tag.write tag ++ ' ' :: shortKey indent value
  | value => (leafLine indent value).dropLast

mutual
/-- A list item or what belongs to a mark of a mapping, in a line that starts at `indent`. The items
of a list under a tag stand at `listIndent`. -/
def behindMark (indent listIndent : Nat) : Yaml → List Char
  | .sequence (item :: items) => ' ' :: stack (indent + 2) (itemPieces (indent + 2) (item :: items))
  | .mapping (entry :: entries) =>
    ' ' :: stack (indent + 2) (entryPieces (indent + 2) (entry :: entries))
  | .tagged tag value => ' ' :: Tag.write tag ++ behindTag (indent + 2) listIndent value
  | value => ' ' :: leafLine (indent + 2) value

def behindKey (indent : Nat) : Yaml → List Char
  | .sequence (item :: items) =>
    '\n' :: spaces indent ++ stack indent (itemPieces indent (item :: items))
  | .mapping (entry :: entries) =>
    '\n' :: spaces (indent + 2) ++ stack (indent + 2) (entryPieces (indent + 2) (entry :: entries))
  | .tagged tag value => ' ' :: Tag.write tag ++ behindTag (indent + 2) indent value
  | value => ' ' :: leafLine (indent + 2) value

/-- A value behind its tag: the entries of a mapping stand at `indent`, the items of a list at
`listIndent`. -/
def behindTag (indent listIndent : Nat) : Yaml → List Char
  | .sequence (item :: items) =>
    '\n' :: spaces listIndent ++ stack listIndent (itemPieces listIndent (item :: items))
  | .mapping (entry :: entries) =>
    '\n' :: spaces indent ++ stack indent (entryPieces indent (entry :: entries))
  | .tagged tag value => ' ' :: Tag.write tag ++ behindTag indent listIndent value
  | value => ' ' :: leafLine indent value

def itemPieces (indent : Nat) : List Yaml → List (List Char)
  | [] => []
  | item :: items => ('-' :: behindMark indent (indent + 2) item) :: itemPieces indent items

/-- The entries of a mapping whose keys stand at `indent`. A key with lines of its own has a mark
in front. -/
def entryPieces (indent : Nat) : List (Yaml × Yaml) → List (List Char)
  | [] => []
  | (key, value) :: entries =>
    (if isShort key then shortKey indent key ++ ':' :: behindKey indent value
      else '?' :: behindMark indent indent key ++ spaces indent
        ++ ':' :: behindMark indent indent value)
      :: entryPieces indent entries
end

def print : Yaml → String
  | .sequence (item :: items) => String.ofList (stack 0 (itemPieces 0 (item :: items)))
  | .mapping (entry :: entries) => String.ofList (stack 0 (entryPieces 0 (entry :: entries)))
  | .tagged tag value => String.ofList (Tag.write tag ++ behindTag 0 0 value)
  | value => String.ofList (leafLine 2 value)

/-! ### Values without a document -/

/-- Whether a key is a mapping of one entry, or under a tag. -/
def startsAsEntry : Yaml → Bool
  | .mapping [_] => true
  | .tagged _ _ => true
  | _ => false

mutual
/-- Whether a value has a document. A tag is not followed by another one. A mapping of one entry
starts with its key, unless a tag stands in front, so its key must not start in the same way. -/
def hasDocument (behindTag : Bool) : Yaml → Bool
  | .sequence items => allHaveDocuments items
  | .mapping entries =>
    (behindTag || match entries with
      | [(key, _)] => !startsAsEntry key
      | _ => true) && allEntriesHaveDocuments entries
  | .tagged _ value => !behindTag && hasDocument true value
  | _ => true

def allHaveDocuments : List Yaml → Bool
  | [] => true
  | item :: items => hasDocument false item && allHaveDocuments items

def allEntriesHaveDocuments : List (Yaml × Yaml) → Bool
  | [] => true
  | (key, value) :: entries =>
    hasDocument false key && hasDocument false value && allEntriesHaveDocuments entries
end

def print? (value : Yaml) : Option String :=
  if hasDocument false value then some value.print else none

end Manuscript.Yaml
