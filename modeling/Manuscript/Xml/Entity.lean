import Manuscript.Text.Letter

/-!
References to characters, by name or by number, and the escaping of the five characters that
markup needs. Main statement: decoding the escaped form of a text gives the text.
-/

set_option autoImplicit false

namespace Manuscript.Xml

def predefined (name : List Char) : Option Char :=
  if name = ['a', 'm', 'p'] then some '&'
  else if name = ['l', 't'] then some '<'
  else if name = ['g', 't'] then some '>'
  else if name = ['q', 'u', 'o', 't'] then some '"'
  else if name = ['a', 'p', 'o', 's'] then some '\''
  else none

/-- The names known in running text: the predefined ones and those of a few spaces and dashes. -/
def textEntity (name : List Char) : Option Char :=
  match predefined name with
  | some c => some c
  | none =>
    if name = "nbsp".toList then some '\u00a0'
    else if name = "thinsp".toList then some '\u2009'
    else if name = "ndash".toList then some '–'
    else if name = "mdash".toList then some '—'
    else if name = "hellip".toList then some '…'
    else none

def digitValue? (base : Nat) (c : Char) : Option Nat :=
  let value? :=
    if Text.isDigit c then some (c.toNat - '0'.toNat)
    else if Text.isLatin c then some (10 + (c.toLower.toNat - 'a'.toNat))
    else none
  value?.bind fun value => if value < base then some value else none

def numeral? (base : Nat) (cs : List Char) : Option Nat :=
  if cs.isEmpty then none
  else cs.foldl (fun n? c => do return base * (← n?) + (← digitValue? base c)) (some 0)

def character? (n : Nat) : Option Char :=
  if h : n ≠ 0 ∧ n.isValidChar then some (Char.ofNatAux n h.2) else none

/-- The character that a reference names. Numbers are decimal, or hexadecimal after an `x`. -/
def reference? (named : List Char → Option Char) : List Char → Option Char
  | '#' :: 'x' :: digits => (numeral? 16 digits).bind character?
  | '#' :: digits => (numeral? 10 digits).bind character?
  | name => named name

/-- Decodes the text after an ampersand with `name` read since, or plain text if there is none.
The next semicolon must come before the next ampersand. -/
def decodeFrom (named : List Char → Option Char) :
    Option (List Char) → List Char → Option (List Char)
  | none, [] => some []
  | some _, [] => none
  | none, c :: cs =>
    if c = '&' then decodeFrom named (some []) cs else (decodeFrom named none cs).map (c :: ·)
  | some name, c :: cs =>
    if c = ';' then
      match reference? named name with
      | some d => (decodeFrom named none cs).map (d :: ·)
      | none => none
    else if c = '&' then none
    else decodeFrom named (some (name ++ [c])) cs

/-- The text with its references decoded; with one bad reference the whole text stays as it is. -/
def decode (named : List Char → Option Char) (cs : List Char) : List Char :=
  (decodeFrom named none cs).getD cs

def escapedChar (c : Char) : List Char :=
  if c = '<' then ['&', 'l', 't', ';']
  else if c = '>' then ['&', 'g', 't', ';']
  else if c = '&' then ['&', 'a', 'm', 'p', ';']
  else if c = '\'' then ['&', 'a', 'p', 'o', 's', ';']
  else if c = '"' then ['&', 'q', 'u', 'o', 't', ';']
  else [c]

def escape (cs : List Char) : List Char := cs.flatMap escapedChar

theorem textEntity_of_predefined {name : List Char} {c : Char} (h : predefined name = some c) :
    textEntity name = some c := by
  simp [textEntity, h]

theorem decodeFrom_escapedChar {named : List Char → Option Char}
    (knows : ∀ name c, predefined name = some c → named name = some c) (c : Char)
    (cs : List Char) :
    decodeFrom named none (escapedChar c ++ cs) = (decodeFrom named none cs).map (c :: ·) := by
  have lt := knows _ _ (show predefined ['l', 't'] = some '<' by decide)
  have gt := knows _ _ (show predefined ['g', 't'] = some '>' by decide)
  have amp := knows _ _ (show predefined ['a', 'm', 'p'] = some '&' by decide)
  have apos := knows _ _ (show predefined ['a', 'p', 'o', 's'] = some '\'' by decide)
  have quot := knows _ _ (show predefined ['q', 'u', 'o', 't'] = some '"' by decide)
  unfold escapedChar
  split
  · next h => simp [decodeFrom, reference?, lt, h]
  · split
    · next h => simp [decodeFrom, reference?, gt, h]
    · split
      · next h => simp [decodeFrom, reference?, amp, h]
      · split
        · next h => simp [decodeFrom, reference?, apos, h]
        · split
          · next h => simp [decodeFrom, reference?, quot, h]
          · next h _ _ => simp [decodeFrom, h]

theorem decode_escape {named : List Char → Option Char}
    (knows : ∀ name c, predefined name = some c → named name = some c) (cs : List Char) :
    decodeFrom named none (escape cs) = some cs := by
  induction cs with
  | nil => rfl
  | cons c cs ih =>
    rw [escape, List.flatMap_cons, decodeFrom_escapedChar knows, ← escape, ih]
    rfl

end Manuscript.Xml
