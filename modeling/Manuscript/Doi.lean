import Manuscript.Text.Blank
import Manuscript.Text.Letter
import Manuscript.Text.Search

/-!
Digital object identifiers: `10.`, a registrant of four to nine digits, a slash and a name without
blanks.
-/

set_option autoImplicit false

namespace Manuscript.Doi

def isName (cs : List Char) : Bool := !cs.isEmpty && cs.all (!Text.isBlank ·)

def hasForm (cs : List Char) : Bool :=
  match Text.rest? ['1', '0', '.'] cs with
  | none => false
  | some rest =>
    let registrant := rest.takeWhile Text.isDecimal
    4 ≤ registrant.length && registrant.length ≤ 9 &&
      match rest.dropWhile Text.isDecimal with
      | '/' :: name => isName name
      | _ => false

def validate (s : String) : Bool := hasForm (Text.trimWhile Text.isBlank s.toList)

/-- The spellings that may stand before an identifier, in the order in which they are tried. -/
def resolvers : List String :=
  ["https://doi.org/", "http://doi.org/", "https://dx.doi.org/", "http://dx.doi.org/", "doi.org/",
    "doi:", "DOI:"]

def withoutResolver (s : String) : String :=
  (resolvers.findSome? fun resolver => Text.after? resolver s).getD s

def normalize (s : String) : Option String :=
  let bare := Text.trim (withoutResolver (Text.trim s))
  if validate bare then some bare else none

def url (doi : String) : String := "https://doi.org/" ++ doi

def toUrl (s : String) : Option String := (normalize s).map url

/-- Whether characters start with an identifier form of ASCII digits, as far as the slash and one
character of a name. -/
def startsForm (cs : List Char) : Bool :=
  match Text.rest? ['1', '0', '.'] cs with
  | none => false
  | some rest =>
    let registrant := rest.takeWhile Text.isDigit
    4 ≤ registrant.length && registrant.length ≤ 9 &&
      match rest.dropWhile Text.isDigit with
      | '/' :: c :: _ => !Text.isBlank c
      | _ => false

/-- The first place in running text that has the form of an identifier, up to the next blank and
without the punctuation at its end. -/
def inText? : List Char → Option String
  | [] => none
  | c :: cs =>
    if startsForm (c :: cs) then
      some (String.ofList (Text.dropEndWhile (['.', ',', ';', ')'].contains ·)
        ((c :: cs).takeWhile (!Text.isBlank ·))))
    else inText? cs

end Manuscript.Doi
