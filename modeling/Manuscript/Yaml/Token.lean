import Manuscript.Yaml.Printer

/-!
The pieces that a YAML document is read as, and what can be wrong with one.
-/

set_option autoImplicit false

namespace Manuscript.Yaml

inductive Fault where
  | forbiddenCharacter
  | misplacedTab
  | misplacedEntry
  | misplacedKey
  | keyWithoutValue
  | strayCharacter
  | badDirective
  | badName
  | badTag
  | badEscape
  | badBlockHeader
  | unclosedQuote
  | unexpectedPiece
  | unknownAlias
  | repeatedKey
  | badTaggedScalar
  | largeInteger
  | tooDeep
  | tooManyAliases
  | severalDocuments
  deriving DecidableEq

def Fault.message : Fault → String
  | .forbiddenCharacter => "control characters are not allowed"
  | .misplacedTab => "found a tab character where indentation is expected"
  | .misplacedEntry => "a list item is not allowed here"
  | .misplacedKey => "a mapping key is not allowed here"
  | .keyWithoutValue => "a key has no colon"
  | .strayCharacter => "found a character that cannot start anything"
  | .badDirective => "found an unknown directive"
  | .badName => "an anchor or alias has no proper name"
  | .badTag => "found an improper tag"
  | .badEscape => "found an unknown escape"
  | .badBlockHeader => "a block text has an improper header"
  | .unclosedQuote => "a quoted text does not end"
  | .unexpectedPiece => "found something unexpected"
  | .unknownAlias => "an alias names no anchor"
  | .repeatedKey => "a mapping has a key twice"
  | .badTaggedScalar => "a scalar does not fit its tag"
  | .largeInteger => "an integer is too large"
  | .tooDeep => "lists and mappings are nested too deeply"
  | .tooManyAliases => "there are too many aliases"
  | .severalDocuments => "there is more than one document"

inductive Token where
  /-- The start of a list or a mapping that is shown by indentation. -/
  | blockList
  | blockMapping
  | blockEnd
  /-- The start and end of a list or a mapping in brackets. -/
  | openList
  | closeList
  | openMapping
  | closeMapping
  | comma
  | item
  | key
  | value
  /-- A scalar; one without quotes is plain. -/
  | scalar (text : String) (plain : Bool)
  | anchor (name : String)
  | alias (name : String)
  | tag (handle : String) (suffix : Tag)
  | version (major minor : Nat)
  /-- What the handle of tags stands for. -/
  | handle (name : String) (lead : Tag)
  | documentStart
  | documentEnd
  deriving DecidableEq

abbrev Scan (α : Type) := List Char → Except Fault (α × List Char)

/-! ### Gaps -/

/-- Blanks and line breaks between words: the blanks before the first break, and the breaks. -/
structure Gap where
  blanks : List Char
  breaks : List Char

def isBlank (c : Char) : Bool := c == ' ' || c == '\t'

/-- The first line break, all kinds but two of them as a line feed, and what follows. -/
def takeBreak? : List Char → Option (Char × List Char)
  | '\r' :: '\n' :: cs => some ('\n', cs)
  | c :: cs =>
    if c == '\u2028' || c == '\u2029' then some (c, cs)
    else if isBreak c then some ('\n', cs)
    else none
  | [] => none

def takeGap : List Char → Gap × List Char
  | '\r' :: '\n' :: cs =>
    let (gap, rest) := takeGap cs
    (⟨[], '\n' :: gap.breaks⟩, rest)
  | c :: cs =>
    if isBlank c then
      let (gap, rest) := takeGap cs
      (⟨c :: gap.blanks, gap.breaks⟩, rest)
    else match takeBreak? [c] with
      | some (b, _) =>
        let (gap, rest) := takeGap cs
        (⟨[], b :: gap.breaks⟩, rest)
      | none => (⟨[], []⟩, c :: cs)
  | [] => (⟨[], []⟩, [])

/-- The text that a gap between words stands for: its blanks within a line; one line feed is a
space, of several the first counts for nothing. -/
def Gap.text (g : Gap) : List Char :=
  match g.breaks with
  | [] => g.blanks
  | ['\n'] => [' ']
  | '\n' :: more => more
  | breaks => breaks

/-- Whether a tab stands in a line after the first before the given column. -/
def hasEarlyTab (indent : Nat) : (column : Option Nat) → List Char → Bool
  | _, [] => false
  | column, c :: cs =>
    if isBreak c then hasEarlyTab indent (some 0) cs
    else match column with
      | none => hasEarlyTab indent none cs
      | some n => (c == '\t' && n < indent) || hasEarlyTab indent (some (n + 1)) cs

/-- Whether the characters are three of a kind that end or start a document, before a gap. -/
def atDocumentMark (cs : List Char) : Bool :=
  match (Text.rest? "---".toList cs).orElse fun _ => Text.rest? "...".toList cs with
  | some rest => atGap rest
  | none => false

def columnAfter (column : Nat) : List Char → Nat
  | [] => column
  | c :: cs => columnAfter (if isBreak c then 0 else column + 1) cs

def taken (cs rest : List Char) : List Char := cs.take (cs.length - rest.length)

end Manuscript.Yaml
