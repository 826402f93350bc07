import Manuscript.Yaml.Token

/-!
Scanning the scalars of a document: without quotes, in quotes of both kinds, and as a block of
lines.
-/

set_option autoImplicit false

namespace Manuscript.Yaml

/-! ### Without quotes -/

/-- The characters that end a plain scalar inside brackets. -/
def isBracketMark (c : Char) : Bool := [',', '[', ']', '\x7b', '\x7d'].contains c

def plainWord (inBrackets : Bool) : Scan (List Char)
  | [] => pure ([], [])
  | c :: cs =>
    if atGap [c] then pure ([], c :: cs)
    else if inBrackets && c == ':' && cs.head?.any fun d => isBracketMark d || d == '?' then
      throw .strayCharacter
    else if (c == ':' && atGap cs) || (inBrackets && isBracketMark c) then pure ([], c :: cs)
    else do
      let (word, rest) ← plainWord inBrackets cs
      pure (c :: word, rest)

/-- The words of a plain scalar with what the gaps between them stand for. Lines after the first
are at least at the column `indent`, unless inside brackets. `lead` is what the gap before stands
for; `steps` bounds the number of words. -/
def plainWords (inBrackets : Bool) (indent : Nat) : (steps column : Nat) → (lead : List Char) →
    Scan (List Char)
  | 0, _, _, cs => pure ([], cs)
  | steps + 1, column, lead, cs => do
    if (column == 0 && atDocumentMark cs) || cs.head? == some '#' then pure ([], cs)
    else
      let (word, rest) ← plainWord inBrackets cs
      let text := if word.isEmpty then [] else lead ++ word
      if !atGap rest || rest.isEmpty then pure (text, rest)
      else
        let (gap, after) := takeGap rest
        let between := taken rest after
        let column := columnAfter (column + word.length) between
        if hasEarlyTab indent none between then throw .misplacedTab
        else if !inBrackets && column < indent && !gap.breaks.isEmpty then pure (text, after)
        else
          let (more, left) ← plainWords inBrackets indent steps column gap.text after
          pure (text ++ more, left)

/-! ### In quotes -/

def takeHex (count : Nat) (cs : List Char) : Option (Nat × List Char) :=
  let digits := cs.take count
  if digits.length < count then none
  else (Scalar.natural? 16 digits).map fun n => (n, cs.drop count)

def takeEscape : Scan Char
  | [] => throw .badEscape
  | c :: cs =>
    let number (count : Nat) : Except Fault (Char × List Char) :=
      match takeHex count cs with
      | some (n, rest) => if n.isValidChar then pure (Char.ofNat n, rest) else throw .badEscape
      | none => throw .badEscape
    if c == 'x' then number 2
    else if c == 'u' then number 4
    else if c == 'U' then number 8
    else if c == ' ' || c == '/' then pure (c, cs)
    else if c == '\t' then pure ('\t', cs)
    else match namedEscapes.find? fun (_, letter) => letter == c with
      | some (d, _) => pure (d, cs)
      | none => throw .badEscape

inductive Stop where
  | gap
  | quote
  /-- A backslash at the end of the line, which is taken. -/
  | joined
  deriving DecidableEq

def singleWord : List Char → List Char × Stop × List Char
  | '\'' :: '\'' :: cs =>
    let (word, stop, rest) := singleWord cs
    ('\'' :: word, stop, rest)
  | [] => ([], .gap, [])
  | c :: cs =>
    if c == '\'' then ([], .quote, cs)
    else if atGap [c] then ([], .gap, c :: cs)
    else
      let (word, stop, rest) := singleWord cs
      (c :: word, stop, rest)

/-- The characters in double quotes up to the next gap or the closing quote; `steps` bounds their
number. -/
def doubleWord : (steps : Nat) → List Char → Except Fault (List Char × Stop × List Char)
  | 0, cs => pure ([], .gap, cs)
  | _ + 1, [] => pure ([], .gap, [])
  | steps + 1, c :: cs =>
    if c == '"' then pure ([], .quote, cs)
    else if atGap [c] then pure ([], .gap, c :: cs)
    else if c == '\\' then
      match takeBreak? cs with
      | some (_, rest) => pure ([], .joined, rest)
      | none => do
        let (d, rest) ← takeEscape cs
        let (word, stop, rest) ← doubleWord steps rest
        pure (d :: word, stop, rest)
    else do
      let (word, stop, rest) ← doubleWord steps cs
      pure (c :: word, stop, rest)

/-- The text up to the closing quote. `steps` bounds the number of words. -/
def quotedWords (word : List Char → Except Fault (List Char × Stop × List Char)) :
    (steps column : Nat) → Scan (List Char)
  | 0, _, _ => throw .unclosedQuote
  | steps + 1, column, cs => do
    if column == 0 && atDocumentMark cs then throw .unexpectedPiece
    else
      let (text, stop, rest) ← word cs
      if stop = .quote then pure (text, rest)
      else if rest.isEmpty then throw .unclosedQuote
      else
        let (gap, after) := takeGap rest
        let between := if stop = .joined then gap.breaks else gap.text
        let (more, left) ← quotedWords word steps (columnAfter column (taken cs after)) after
        pure (text ++ between ++ more, left)

def quotedText (single : Bool) (column : Nat) : Scan (List Char) := fun cs =>
  let word (cs : List Char) : Except Fault (List Char × Stop × List Char) :=
    if single then pure (singleWord cs) else doubleWord cs.length cs
  quotedWords word (cs.length + 1) (column + 1) cs

/-! ### As a block of lines -/

inductive Chomping where
  | strip
  | clip
  | keep
  deriving DecidableEq

structure BlockHead where
  chomping : Chomping
  indent : Option Nat

def chomping? : List Char → Option (Chomping × List Char)
  | '+' :: cs => some (.keep, cs)
  | '-' :: cs => some (.strip, cs)
  | _ => none

def indentDigit? : List Char → Option (Nat × List Char)
  | c :: cs => if Text.isDigit c then some (c.toNat - '0'.toNat, cs) else none
  | [] => none

def blockHead : Scan BlockHead := fun cs => do
  let (chomping, cs) := (chomping? cs).getD (.clip, cs)
  let (indent, cs) := match indentDigit? cs with
    | some (n, cs) => (some n, cs)
    | none => (none, cs)
  let (chomping, cs) :=
    if chomping = .clip ∧ indent.isSome then (chomping? cs).getD (chomping, cs) else (chomping, cs)
  let cs := cs.dropWhile isBlank
  let cs := if cs.head? == some '#' then cs.dropWhile (!isBreak ·) else cs
  if indent == some 0 then throw .badBlockHeader
  else match takeBreak? cs with
    | some (_, rest) => pure (⟨chomping, indent⟩, rest)
    | none => if cs.isEmpty then pure (⟨chomping, indent⟩, []) else throw .badBlockHeader

structure EmptyLines where
  breaks : List Char
  deepest : Nat
  column : Nat

/-- Takes empty lines, and the indentation of the line behind them up to `indent` if that is known.
`steps` bounds the number of lines. -/
def emptyLines (indent : Option Nat) : (steps : Nat) → Scan EmptyLines
  | 0, cs => pure (⟨[], 0, 0⟩, cs)
  | steps + 1, cs =>
    let blanks := cs.takeWhile (· == ' ')
    let depth := match indent with
      | some n => min n blanks.length
      | none => blanks.length
    let cs := cs.drop depth
    if cs.head? == some '\t' && indent.all (depth < ·) then throw .misplacedTab
    else match takeBreak? cs with
      | none => pure (⟨[], depth, depth⟩, cs)
      | some (b, rest) => do
        let (lines, left) ← emptyLines indent steps rest
        pure (⟨b :: lines.breaks, max depth lines.deepest, lines.column⟩, left)

/-- What a folded block has between two lines: a space for a lone line feed, unless one of the
lines starts with a blank. -/
def foldedBreak (between : List Char) (breaks : List Char) (blankLines : Bool) : List Char :=
  if between == ['\n'] && !blankLines then if breaks.isEmpty then [' '] else breaks
  else between ++ breaks

/-- The lines of a block at a known indentation. `between` is the line break before the line to
come, `breaks` those of empty lines, and `afterBlank` tells whether the line before started with a
blank. The two lists at the end are what is left of them. -/
def blockLines (literal : Bool) (indent : Nat) : (steps : Nat) → (column : Nat) →
    (between breaks : List Char) → (afterBlank : Bool) →
    Scan (List Char × List Char × List Char)
  | 0, _, between, breaks, _, cs => pure (([], between, breaks), cs)
  | steps + 1, column, between, breaks, afterBlank, cs => do
    if column != indent || cs.isEmpty then pure (([], between, breaks), cs)
    else
      let startsBlank := cs.head?.any isBlank
      let lead := if literal then between ++ breaks
        else foldedBreak between breaks (afterBlank || startsBlank)
      let line := cs.takeWhile (!isBreak ·)
      let (between, rest) := match takeBreak? (cs.dropWhile (!isBreak ·)) with
        | some (b, rest) => ([b], rest)
        | none => ([], [])
      let (lines, left) ← emptyLines (some indent) (rest.length + 1) rest
      let ((text, ends), left) ←
        blockLines literal indent steps lines.column between lines.breaks startsBlank left
      pure ((lead ++ line ++ text, ends), left)

/-- A block of lines, from behind its mark. `outer` is the indentation around it. -/
def blockText (literal : Bool) (outer : Int) : Scan (List Char) := fun cs => do
  let (head, cs) ← blockHead cs
  let known := head.indent.map fun n => if 0 ≤ outer then outer.toNat + n else n
  let (lines, cs) ← emptyLines known (cs.length + 1) cs
  let indent := known.getD (max lines.deepest (max (outer + 1).toNat 1))
  let ((text, between, breaks), rest) ←
    blockLines literal indent (cs.length + 1) lines.column [] lines.breaks false cs
  let ending := match head.chomping with
    | .strip => []
    | .clip => between
    | .keep => between ++ breaks
  pure (text ++ ending, rest)

end Manuscript.Yaml
