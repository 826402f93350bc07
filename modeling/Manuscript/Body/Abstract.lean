import Manuscript.Body.Section
import Manuscript.Text.Blank
import Manuscript.Text.Letter

/-!
The abstract of an article: as paragraphs without sections, and its first two sentences as a
description.
-/

set_option autoImplicit false

namespace Manuscript.Body

def isAbstractTitle (title : Node) : Bool := Text.readsInUpper "ABSTRACT" (Text.trim title.toText)

/-- The children with a title in front dropped, put at the start of the paragraph that follows, or
made a paragraph. -/
def mergeTitle : List Node → List Node
  | [] => []
  | title :: rest =>
    if !title.is "title" then title :: rest
    else if isAbstractTitle title then rest
    else match rest with
      | p :: rest' =>
        if p.is "p" then p.withKids (title.kids ++ .text " " :: p.kids) :: rest'
        else { title with kind := "p" } :: rest
      | [] => [{ title with kind := "p" }]

def unwrapOnlySection (n : Node) : Node :=
  match n.kids with
  | [only] => if only.is "sec" then { n with children := only.children } else n
  | _ => n

/-- The abstract with the titles of its sections in bold and nothing but its paragraphs left. -/
def simplifyAbstract (n : Node) : Node :=
  let n := (flattenSections .strong (unwrapOnlySection n)).liftWhere (·.is "block")
  n.withKids (mergeTitle n.kids)

/-- Whether a capitalised word stands in front, followed by a blank or a comma and a blank. -/
def startsCapitalised : List Char → Bool
  | [] => false
  | c :: cs =>
    Text.isUpperLatin c &&
      match cs.dropWhile Text.isLatin with
      | ',' :: d :: _ => Text.isBlank d
      | d :: _ => Text.isBlank d
      | [] => false

/-- The end of a sentence in front: a blank, a word of small letters and a full stop, with the
start of another sentence behind it. Gives that end and the other sentence. -/
def sentenceEnd? : List Char → Option (List Char × List Char)
  | ' ' :: cs =>
    let word := cs.takeWhile Text.isLowerLatin
    match cs.dropWhile Text.isLowerLatin with
    | '.' :: ' ' :: next =>
      if !word.isEmpty && startsCapitalised next then some (' ' :: word ++ ['.'], next) else none
    | _ => none
  | _ => none

/-- The first sentence and what follows it, if a sentence ends and another starts. -/
def splitSentence? : List Char → Option (List Char × List Char)
  | [] => none
  | c :: cs =>
    match sentenceEnd? (c :: cs) with
    | some found => some found
    | none => (splitSentence? cs).map fun (sentence, next) => (c :: sentence, next)

/-- The first two sentences of a text with single spaces, or all of it. -/
def describe (s : String) : String :=
  let cs := (Text.collapse s).toList
  match splitSentence? cs with
  | none => String.ofList cs
  | some (first, next) =>
    let second := match splitSentence? next with
      | some (second, _) => second
      | none => next
    String.ofList (first ++ ' ' :: second)

end Manuscript.Body
