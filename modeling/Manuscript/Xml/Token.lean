import Manuscript.Xml.Attribute
import Manuscript.Xml.Error

/-!
XML text as a list of tokens. Each token knows the byte position where it starts; the list ends
before the first place that is no token, or with a token for the fault found there.
-/

set_option autoImplicit false

namespace Manuscript.Xml

inductive Token where
  /-- A start tag; an empty-element tag is `closed`. -/
  | start (name : String) (attributes : List (String × String)) (closed : Bool)
  | finish (name : String)
  | text (raw : List Char)
  | cdata (content : List Char)
  | comment (content : List Char)
  | doctype (content : List Char)
  | instruction
  | fault (cause : Fault)

structure Placed where
  position : Nat
  token : Token

def byteLength : List Char → Nat
  | [] => 0
  | c :: cs => c.utf8Size + byteLength cs

/-- The parts of a start or end tag and behind it: it ends at the first closing bracket outside
quotes. -/
def cutTag : Option Char → List Char → Option (List Char × List Char)
  | _, [] => none
  | quote, c :: cs =>
    let keep (quote : Option Char) :=
      (cutTag quote cs).map fun (before, after) => (c :: before, after)
    match quote with
    | some q => keep (if c = q then none else some q)
    | none =>
      if c = '>' then some ([], cs)
      else if c = '"' ∨ c = '\'' then keep (some c)
      else keep none

/-- The parts of a document type declaration and behind it: it ends at the closing bracket that
balances those inside, of which `depth` are open. -/
def cutBalanced : Nat → List Char → Option (List Char × List Char)
  | _, [] => none
  | depth, c :: cs =>
    let keep (depth : Nat) :=
      (cutBalanced depth cs).map fun (before, after) => (c :: before, after)
    if c = '<' then keep (depth + 1)
    else if c = '>' then
      match depth with
      | 0 => some ([], cs)
      | depth + 1 => keep depth
    else keep depth

def startTag (content : List Char) : Token :=
  let closed := content.getLast? == some '/'
  let content := if closed then content.dropLast else content
  .start (String.ofList (content.takeWhile (!isSpace ·)))
    (attributes (content.dropWhile (!isSpace ·))) closed

/-- The end tag with the given text behind its slash. Blanks after the name do not count. -/
def endTag (content : List Char) : Token :=
  let name := Text.dropEndWhile isSpace content
  .finish (String.ofList (if name.isEmpty then content else name))

/-- The part behind the keyword of a document type declaration, in any case. -/
def afterDoctype? (content : List Char) : Option (List Char) :=
  if (content.take 7).map Char.toUpper == "DOCTYPE".toList then some (content.drop 7) else none

/-- A piece of a text: a token, the number of bytes that it takes, and what follows. -/
structure Piece where
  placed : Placed
  width : Nat
  rest : List Char

def Piece.ofFault (position : Nat) (cause : Fault) : Piece := ⟨⟨position, .fault cause⟩, 0, []⟩

def Piece.ofCut (position marks : Nat) (token : List Char → Token) (otherwise : Fault)
    (cut : Option (List Char × List Char)) : Piece :=
  match cut with
  | some (content, rest) => ⟨⟨position, token content⟩, marks + byteLength content, rest⟩
  | none => .ofFault position otherwise

def markup (position : Nat) (cs : List Char) : Piece :=
  let piece := Piece.ofCut position
  match cs with
  | '/' :: cs => piece 3 endTag .tagNotClosed (cutTag none cs)
  | '?' :: '>' :: _ => .ofFault position .instructionNotClosed
  | '?' :: cs =>
    piece 4 (fun _ => .instruction) .instructionNotClosed (Text.cutAtText ['?', '>'] cs)
  | '!' :: '-' :: cs =>
    piece 7 .comment .commentNotClosed
      ((Text.rest? ['-'] cs).bind (Text.cutAtText ['-', '-', '>']))
  | '!' :: '[' :: cs =>
    piece 12 .cdata .cdataNotClosed
      ((Text.rest? "CDATA[".toList cs).bind (Text.cutAtText [']', ']', '>']))
  | '!' :: c :: cs =>
    if c = 'D' ∨ c = 'd' then
      match cutBalanced 0 (c :: cs) with
      | none => .ofFault position .doctypeNotClosed
      | some (content, rest) =>
        match afterDoctype? content with
        | none => .ofFault position .doctypeNotClosed
        | some declaration =>
          let width := 3 + byteLength content
          if declaration.all isSpace then
            .ofFault (position + width - 1) .doctypeWithoutName
          else ⟨⟨position, .doctype (Text.trimWhile Text.isBlank declaration)⟩, width, rest⟩
    else .ofFault position .unknownMarkup
  | ['!'] => .ofFault position .unknownMarkup
  | cs => piece 2 startTag .tagNotClosed (cutTag none cs)

theorem length_le_of_cutTag {quote : Option Char} {cs before after : List Char}
    (h : cutTag quote cs = some (before, after)) : after.length ≤ cs.length := by
  induction cs generalizing quote before after with
  | nil => simp [cutTag] at h
  | cons c cs ih =>
    have step : ∀ quote, (cutTag quote cs).map (fun (before, after) => (c :: before, after))
        = some (before, after) → after.length ≤ (c :: cs).length := by
      intro quote h
      obtain ⟨⟨b, a⟩, hcut, heq⟩ := Option.map_eq_some_iff.1 h
      simp only [Prod.mk.injEq] at heq
      have := ih hcut
      obtain ⟨-, rfl⟩ := heq
      simp only [List.length_cons]; omega
    simp only [cutTag] at h
    split at h
    · exact step _ h
    · split at h
      · simp only [Option.some.injEq, Prod.mk.injEq] at h
        obtain ⟨-, rfl⟩ := h
        simp
      · split at h <;> exact step _ h

theorem length_le_of_cutBalanced {depth : Nat} {cs before after : List Char}
    (h : cutBalanced depth cs = some (before, after)) : after.length ≤ cs.length := by
  induction cs generalizing depth before after with
  | nil => simp [cutBalanced] at h
  | cons c cs ih =>
    have step : ∀ depth, (cutBalanced depth cs).map (fun (before, after) => (c :: before, after))
        = some (before, after) → after.length ≤ (c :: cs).length := by
      intro depth h
      obtain ⟨⟨b, a⟩, hcut, heq⟩ := Option.map_eq_some_iff.1 h
      simp only [Prod.mk.injEq] at heq
      have := ih hcut
      obtain ⟨-, rfl⟩ := heq
      simp only [List.length_cons]; omega
    simp only [cutBalanced] at h
    split at h
    · exact step _ h
    · split at h
      · split at h
        · simp only [Option.some.injEq, Prod.mk.injEq] at h
          obtain ⟨-, rfl⟩ := h
          simp
        · exact step _ h
      · exact step _ h

theorem Piece.length_ofCut_le {position marks : Nat} {token : List Char → Token} {otherwise : Fault}
    {cut : Option (List Char × List Char)} {bound : Nat}
    (h : ∀ content rest, cut = some (content, rest) → rest.length ≤ bound) :
    (Piece.ofCut position marks token otherwise cut).rest.length ≤ bound := by
  cases cut with
  | none => simp [Piece.ofCut, Piece.ofFault]
  | some parts => exact h parts.1 parts.2 rfl

theorem length_markup_le (position : Nat) (cs : List Char) :
    (markup position cs).rest.length ≤ cs.length := by
  have behind : ∀ {mark stop cs content rest : List Char},
      (Text.rest? mark cs).bind (Text.cutAtText stop) = some (content, rest) →
        rest.length ≤ cs.length := by
    intro mark stop cs content rest h
    obtain ⟨tail, htail, hcut⟩ := Option.bind_eq_some_iff.1 h
    have := Text.length_le_of_rest? htail
    have := Text.length_le_of_cutAtText hcut
    omega
  unfold markup
  split
  · refine Piece.length_ofCut_le fun content rest h => ?_
    have := length_le_of_cutTag h
    simp only [List.length_cons]; omega
  · simp [Piece.ofFault]
  · refine Piece.length_ofCut_le fun content rest h => ?_
    have := Text.length_le_of_cutAtText h
    simp only [List.length_cons]; omega
  · refine Piece.length_ofCut_le fun content rest h => ?_
    have := behind h
    simp only [List.length_cons]; omega
  · refine Piece.length_ofCut_le fun content rest h => ?_
    have := behind h
    simp only [List.length_cons]; omega
  · next c tail _ _ =>
    split
    · split
      · simp [Piece.ofFault]
      · next content rest h =>
        have := length_le_of_cutBalanced h
        simp only [List.length_cons] at this
        split
        · simp [Piece.ofFault]
        · split
          · simp [Piece.ofFault]
          · simp only [List.length_cons]; omega
    · simp [Piece.ofFault]
  · simp [Piece.ofFault]
  · exact Piece.length_ofCut_le fun content rest h => length_le_of_cutTag h

def tokensFrom (position : Nat) : List Char → List Placed
  | [] => []
  | c :: cs =>
    if c = '<' then
      let piece := markup position cs
      piece.placed :: tokensFrom (position + piece.width) piece.rest
    else
      let raw := cs.takeWhile (· ≠ '<')
      ⟨position, .text (c :: raw)⟩
        :: tokensFrom (position + byteLength (c :: raw)) (cs.dropWhile (· ≠ '<'))
termination_by cs => cs.length
decreasing_by
  · have := length_markup_le position cs
    simp only [List.length_cons]; omega
  · have := Text.length_dropWhile_le (· ≠ '<') cs
    simp only [List.length_cons]; omega

/-- The tokens of a text. A byte order mark in front is not part of it. -/
def tokens (s : String) : List Placed :=
  match s.toList with
  | '\ufeff' :: cs => tokensFrom 0 cs
  | cs => tokensFrom 0 cs

end Manuscript.Xml
