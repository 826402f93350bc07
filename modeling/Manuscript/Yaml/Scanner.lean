import Manuscript.Yaml.Text

/-!
A document as a list of tokens. Indentation opens and closes lists and mappings, and a key is known
as one only at the colon behind it; its mark is then put in front of what was read.
-/

set_option autoImplicit false

namespace Manuscript.Yaml

structure Spot where
  /-- The number of tokens before it. -/
  number : Nat
  line : Nat
  index : Nat
  column : Nat
  /-- Whether nothing but a key can stand there. -/
  required : Bool

structure Scanner where
  rest : List Char
  index : Nat
  line : Nat
  column : Nat
  /-- The indentation of the innermost list or mapping; it is negative outside of all. -/
  indent : Int
  /-- The indentations around it, innermost first. -/
  outer : List Int
  /-- The place for a key outside brackets and inside each pair of them, innermost first. -/
  spots : List (Option Spot)
  keyAllowed : Bool
  /-- The tokens, last first. -/
  tokens : List Token

namespace Scanner

def start (cs : List Char) : Scanner :=
  { rest := cs, index := 0, line := 0, column := 0, indent := -1, outer := [], spots := [none]
    keyAllowed := true, tokens := [] }

def inBrackets (s : Scanner) : Bool := 1 < s.spots.length

def emit (s : Scanner) (t : Token) : Scanner := { s with tokens := t :: s.tokens }

def advance (s : Scanner) : List Char → Scanner
  | [] => s
  | '\r' :: '\n' :: cs =>
    advance { s with index := s.index + 2, line := s.line + 1, column := 0 } cs
  | c :: cs =>
    if isBreak c then advance { s with index := s.index + 1, line := s.line + 1, column := 0 } cs
    else advance { s with index := s.index + 1, column := s.column + 1 } cs

def moveTo (s : Scanner) (rest : List Char) : Scanner :=
  { s.advance (taken s.rest rest) with rest }

def skip (s : Scanner) (count : Nat) : Scanner := s.moveTo (s.rest.drop count)

/-- Puts a token behind the first `number` tokens. -/
def emitAt (s : Scanner) (number : Nat) (t : Token) : Scanner :=
  let later := s.tokens.length - number
  { s with tokens := s.tokens.take later ++ t :: s.tokens.drop later }

/-! ### Indentation -/

def unrollFrom (column : Int) (indent : Int) (tokens : List Token) :
    List Int → Int × List Int × List Token
  | [] => (indent, [], tokens)
  | next :: outer =>
    if column < indent then unrollFrom column next (.blockEnd :: tokens) outer
    else (indent, next :: outer, tokens)

/-- Ends the lists and mappings that are deeper than a column. -/
def unroll (s : Scanner) (column : Int) : Scanner :=
  if s.inBrackets then s
  else
    let (indent, outer, tokens) := unrollFrom column s.indent s.tokens s.outer
    { s with indent, outer, tokens }

def roll (s : Scanner) (column number : Nat) (t : Token) : Scanner :=
  if s.inBrackets || (column : Int) ≤ s.indent then s
  else { s.emitAt number t with indent := column, outer := s.indent :: s.outer }

def rollHere (s : Scanner) (t : Token) : Scanner := s.roll s.column s.tokens.length t

/-! ### Places for keys -/

def dropSpot (s : Scanner) : Except Fault Scanner :=
  match s.spots with
  | [] => pure s
  | spot :: spots =>
    if spot.any (·.required) then throw .keyWithoutValue
    else pure { s with spots := none :: spots }

def saveSpot (s : Scanner) : Except Fault Scanner :=
  if s.keyAllowed then do
    let s ← s.dropSpot
    let spot : Spot :=
      { number := s.tokens.length, line := s.line, index := s.index, column := s.column
        required := !s.inBrackets && s.indent == s.column }
    pure { s with spots := some spot :: s.spots.drop 1 }
  else pure s

/-- Whether a place is too far back: a key is on one line and has no more than 1024 characters. -/
def isStale (s : Scanner) (spot : Spot) : Bool :=
  spot.line < s.line || spot.index + 1024 < s.index

def dropStale (s : Scanner) : Except Fault Scanner := do
  let spots ← s.spots.mapM fun spot =>
    match spot with
    | some p =>
      if s.isStale p then if p.required then throw Fault.keyWithoutValue else pure none
      else pure (some p)
    | none => pure none
  pure { s with spots }

/-! ### Tokens -/

/-- Skips a mark at the start of a line that tells the order of bytes. -/
def skipByteOrderMark (s : Scanner) : Scanner :=
  if s.column == 0 && s.rest.head? == some '\ufeff' then s.skip 1 else s

/-- Skips blanks, comments and line breaks; `steps` bounds the number of lines. Tabs are no
indentation. -/
def skipGap (s : Scanner) : (steps : Nat) → Scanner
  | 0 => s
  | steps + 1 =>
    let s := s.skipByteOrderMark
    let tabs := s.inBrackets || !s.keyAllowed
    let s := s.moveTo (s.rest.dropWhile fun c => c == ' ' || (tabs && c == '\t'))
    let s := if s.rest.head? == some '#' then s.moveTo (s.rest.dropWhile (!isBreak ·)) else s
    match takeBreak? s.rest with
    | some (_, rest) =>
      let s := s.moveTo rest
      skipGap (if s.inBrackets then s else { s with keyAllowed := true }) steps
    | none => s

def openBracket (s : Scanner) (t : Token) : Except Fault Scanner := do
  let s ← s.saveSpot
  pure (({ s with spots := none :: s.spots, keyAllowed := true }.emit t).skip 1)

def closeBracket (s : Scanner) (t : Token) : Except Fault Scanner := do
  let s ← s.dropSpot
  let spots := match s.spots with
    | _ :: spot :: spots => spot :: spots
    | spots => spots
  pure (({ s with spots, keyAllowed := false }.emit t).skip 1)

def comma (s : Scanner) : Except Fault Scanner := do
  let s ← s.dropSpot
  pure (({ s with keyAllowed := true }.emit .comma).skip 1)

def item (s : Scanner) : Except Fault Scanner := do
  if !s.inBrackets && !s.keyAllowed then throw .misplacedEntry
  else
    let s ← (s.rollHere .blockList).dropSpot
    pure (({ s with keyAllowed := true }.emit .item).skip 1)

def key (s : Scanner) : Except Fault Scanner := do
  if !s.inBrackets && !s.keyAllowed then throw .misplacedKey
  else
    let s ← (s.rollHere .blockMapping).dropSpot
    pure (({ s with keyAllowed := !s.inBrackets }.emit .key).skip 1)

def value (s : Scanner) : Except Fault Scanner :=
  match s.spots with
  | some spot :: spots =>
    let s := (s.emitAt spot.number .key).roll spot.column spot.number .blockMapping
    pure (({ s with spots := none :: spots, keyAllowed := false }.emit .value).skip 1)
  | _ =>
    if !s.inBrackets && !s.keyAllowed then throw .misplacedKey
    else
      let s := s.rollHere .blockMapping
      pure (({ s with keyAllowed := !s.inBrackets }.emit .value).skip 1)

/-- A scalar, anchor, alias or tag, which may be the start of a key. -/
def node (s : Scanner) (scan : Scan Token) : Except Fault Scanner := do
  let s ← s.saveSpot
  let (t, rest) ← scan s.rest
  pure (({ s with keyAllowed := false }.emit t).moveTo rest)

/-- A scalar without quotes. If the line has ended behind it, a key may start. -/
def plain (s : Scanner) : Except Fault Scanner := do
  let scan : Scan Token := fun cs => do
    let (text, rest) ←
      plainWords s.inBrackets (s.indent + 1).toNat (cs.length + 1) s.column [] cs
    pure (.scalar (String.ofList text) true, rest)
  let next ← s.node scan
  let gap := (taken s.rest next.rest).reverse.takeWhile fun c => atGap [c]
  pure { next with keyAllowed := gap.any isBreak }

def quoted (s : Scanner) (single : Bool) : Except Fault Scanner :=
  s.node fun cs => do
    let (text, rest) ← quotedText single s.column (cs.drop 1)
    pure (.scalar (String.ofList text) false, rest)

def block (s : Scanner) (literal : Bool) : Except Fault Scanner := do
  let s ← s.dropSpot
  let (text, rest) ← blockText literal s.indent (s.rest.drop 1)
  pure (({ s with keyAllowed := true }.emit (.scalar (String.ofList text) false)).moveTo rest)

def name (make : String → Token) : Scan Token := fun cs =>
  let found := (cs.drop 1).takeWhile isNameChar
  let rest := (cs.drop 1).dropWhile isNameChar
  if found.isEmpty then throw .badName
  else if atGap rest || rest.head?.any ['?', ':', ',', ']', '\x7d', '%', '@', '\x60'].contains then
    pure (make (String.ofList found), rest)
  else throw .badName

/-! ### Tags and directives -/

/-- Whether a character may stand in a tag; commas and brackets may in some tags only. -/
def isTagChar (wide : Bool) (c : Char) : Bool :=
  isNameChar c || isTagMark c || c == '%' || c == '!' || (wide && isListMark c)

def byteCount? (first : Nat) : Option Nat :=
  if first < 0x80 then some 1
  else if first < 0xC0 then none
  else if first < 0xE0 then some 2
  else if first < 0xF0 then some 3
  else if first < 0xF8 then some 4
  else none

/-- The bytes of a character after the first, each of them an escape. -/
def laterBytes : (count : Nat) → Scan Tag
  | 0, cs => pure ([], cs)
  | count + 1, '%' :: cs => do
    match takeHex 2 cs with
    | some (n, rest) =>
      if 0x80 ≤ n ∧ n < 0xC0 then
        let (bytes, rest) ← laterBytes count rest
        pure (UInt8.ofNat n :: bytes, rest)
      else throw .badTag
    | none => throw .badTag
  | _ + 1, _ => throw .badTag

/-- The bytes of a text that has them escaped for characters beyond those of tags; `steps` bounds
its length. -/
def unescape : (steps : Nat) → List Char → Except Fault Tag
  | 0, _ => pure []
  | _, [] => pure []
  | steps + 1, '%' :: cs => do
    match takeHex 2 cs with
    | some (n, rest) =>
      match byteCount? n with
      | some count =>
        let (bytes, rest) ← laterBytes (count - 1) rest
        pure (UInt8.ofNat n :: bytes ++ (← unescape steps rest))
      | none => throw .badTag
    | none => throw .badTag
  | steps + 1, c :: cs => do pure (UInt8.ofNat c.toNat :: (← unescape steps cs))

/-- A part of a tag, which must not be empty. It ends at the first byte that is zero. -/
def tagPart (cs : List Char) : Except Fault Tag := do
  let bytes ← unescape cs.length cs
  if bytes.isEmpty then throw .badTag else pure (bytes.takeWhile (· ≠ 0))

/-- The handle in front of a tag: it ends with an exclamation mark, unless it is only one. -/
def tagHandle (cs : List Char) : List Char × List Char :=
  let letters := (cs.drop 1).takeWhile isNameChar
  match (cs.drop 1).dropWhile isNameChar with
  | '!' :: rest => ('!' :: letters ++ ['!'], rest)
  | rest => ('!' :: letters, rest)

/-- A tag: a whole name in angle brackets, or a handle and the rest of the name. -/
def tagToken : Scan Token := fun cs => do
  match cs with
  | '!' :: '<' :: cs =>
    match cs.dropWhile (isTagChar true) with
    | '>' :: rest => pure (.tag "" (← tagPart (cs.takeWhile (isTagChar true))), rest)
    | _ => throw .badTag
  | cs =>
    let (handle, after) := tagHandle cs
    let content := after.takeWhile (isTagChar false)
    let rest := after.dropWhile (isTagChar false)
    if 1 < handle.length && handle.getLast? == some '!' then
      pure (.tag (String.ofList handle) (← tagPart content), rest)
    else if handle.length == 1 && content.isEmpty then pure (.tag "" [Tag.mark], rest)
    else
      let suffix ← tagPart (handle.drop 1 ++ content)
      if suffix.isEmpty then pure (.tag "" [Tag.mark], rest) else pure (.tag "!" suffix, rest)

def tag (s : Scanner) : Except Fault Scanner := do
  let next ← s.node tagToken
  if atGap next.rest || (s.inBrackets && next.rest.head? == some ',') then pure next
  else throw .badTag

def versionPart (cs : List Char) : Except Fault (Nat × List Char) :=
  let digits := cs.takeWhile Text.isDigit
  if digits.isEmpty || 9 < digits.length then throw .badDirective
  else pure (Text.numberOfDigits digits, cs.dropWhile Text.isDigit)

def directiveToken : Scan Token := fun cs => do
  let kind := cs.takeWhile isNameChar
  let cs := cs.dropWhile isNameChar
  let next := cs.dropWhile isBlank
  if !atGap cs then throw .badDirective
  else if kind = "YAML".toList then
    let (major, cs) ← versionPart next
    match cs with
    | '.' :: cs =>
      let (minor, rest) ← versionPart cs
      pure (.version major minor, rest)
    | _ => throw .badDirective
  else if kind = "TAG".toList then
    let (handle, rest) := tagHandle next
    if next.head? != some '!' || handle.getLast? != some '!' || !rest.head?.any isBlank then
      throw .badDirective
    else
      let rest := rest.dropWhile isBlank
      let lead ← tagPart (rest.takeWhile (isTagChar true))
      let rest := rest.dropWhile (isTagChar true)
      if !atGap rest then throw .badDirective
      else pure (.handle (String.ofList handle) lead, rest)
  else throw .badDirective

def lineEnd (cs : List Char) : Except Fault (List Char) :=
  let cs := cs.dropWhile isBlank
  let cs := if cs.head? == some '#' then cs.dropWhile (!isBreak ·) else cs
  match takeBreak? cs with
  | some (_, rest) => pure rest
  | none => if cs.isEmpty then pure [] else throw .badDirective

def directive (s : Scanner) : Except Fault Scanner := do
  let s ← (s.unroll (-1)).dropSpot
  let (t, rest) ← directiveToken (s.rest.drop 1)
  pure (({ s with keyAllowed := false }.emit t).moveTo (← lineEnd rest))

def documentMark (s : Scanner) (t : Token) : Except Fault Scanner := do
  let s ← (s.unroll (-1)).dropSpot
  pure (({ s with keyAllowed := false }.emit t).skip 3)

/-! ### All tokens -/

def startsPlain (inBrackets : Bool) : List Char → Bool
  | [] => false
  | c :: cs =>
    !(atGap [c] || startMarks.contains c || ['-', '?', ':'].contains c)
      || (c == '-' && !cs.head?.any isBlank)
      || (!inBrackets && (c == '?' || c == ':') && !atGap cs)

def token (s : Scanner) : Except Fault Scanner :=
  match s.rest with
  | [] => pure s
  | c :: cs =>
    let marks (mark : Char) : Bool := c == mark && (s.inBrackets || atGap cs)
    if s.column == 0 && c == '%' then s.directive
    else if s.column == 0 && atDocumentMark s.rest then
      s.documentMark (if c == '-' then .documentStart else .documentEnd)
    else if c == '[' then s.openBracket .openList
    else if c == '\x7b' then s.openBracket .openMapping
    else if c == ']' then s.closeBracket .closeList
    else if c == '\x7d' then s.closeBracket .closeMapping
    else if c == ',' then s.comma
    else if c == '-' && atGap cs then s.item
    else if marks '?' then s.key
    else if marks ':' then s.value
    else if c == '*' then s.node (name .alias)
    else if c == '&' then s.node (name .anchor)
    else if c == '!' then s.tag
    else if c == '|' && !s.inBrackets then s.block true
    else if c == '>' && !s.inBrackets then s.block false
    else if c == '\'' then s.quoted true
    else if c == '"' then s.quoted false
    else if startsPlain s.inBrackets s.rest then s.plain
    else throw .strayCharacter

def finish (s : Scanner) : Except Fault (List Token) := do
  let s ← (s.unroll (-1)).dropSpot
  pure s.tokens.reverse

/-- The tokens from here on; `steps` bounds their number. -/
def run : (steps : Nat) → Scanner → Except Fault (List Token)
  | 0, s => s.finish
  | steps + 1, s => do
    let s ← (s.skipGap (s.rest.length + 1)).dropStale
    let s := s.unroll s.column
    if s.rest.isEmpty then s.finish else run steps (← s.token)

end Scanner

def isAllowed (c : Char) : Bool :=
  isPrintable c || c == '\t' || c == '\r' || c == '\x85' || c == '\ufeff'

def tokens (s : String) : Except Fault (List Token) :=
  let cs := s.toList
  if cs.all isAllowed then (Scanner.start cs).run (cs.length + 1)
  else throw .forbiddenCharacter

end Manuscript.Yaml
