import Manuscript.Xml.Entity
import Manuscript.Text.Blank
import Manuscript.Text.Search

/-!
The attributes of a start tag. Reading never fails: what is no attribute is skipped, and so is a
name that was given before.
-/

set_option autoImplicit false

namespace Manuscript.Xml

/-- The four characters that separate the parts of a tag. -/
def isSpace (c : Char) : Bool := c == ' ' || c == '\t' || c == '\r' || c == '\n'

def endsName (c : Char) : Bool := c == '=' || isSpace c

/-- The names and undecoded values after the name of a tag, without those whose name is among
`seen`. A missing equals sign or an unquoted value costs the attribute alone; a missing value or
closing quote ends the list. -/
def attributesFrom (seen : List (List Char)) (cs : List Char) : List (List Char × List Char) :=
  match _h : cs.dropWhile isSpace with
  | [] => []
  | c :: rest =>
    let name := c :: rest.takeWhile (!endsName ·)
    match _h' : (rest.dropWhile (!endsName ·)).dropWhile isSpace with
    | [] => []
    | d :: after =>
      if d = '=' then
        if seen.contains name then attributesFrom seen ((d :: after).dropWhile (!isSpace ·))
        else
          match _h'' : after.dropWhile isSpace with
          | [] => []
          | q :: body =>
            if q = '"' ∨ q = '\'' then
              match _cut : Text.cutAt q body with
              | some (value, behind) => (name, value) :: attributesFrom (name :: seen) behind
              | none => []
            else attributesFrom (name :: seen) ((q :: body).dropWhile (!isSpace ·))
      else attributesFrom seen (d :: after)
termination_by cs.length
decreasing_by
  all_goals
    have h₁ := Text.length_dropWhile_le isSpace cs
    have h₂ := Text.length_dropWhile_le (!endsName ·) rest
    have h₃ := Text.length_dropWhile_le isSpace (rest.dropWhile (!endsName ·))
    rw [_h, List.length_cons] at h₁
    rw [_h', List.length_cons] at h₃
  · have := Text.length_dropWhile_le (!isSpace ·) (d :: after)
    simp only [List.length_cons] at this
    omega
  · have h₄ := Text.length_dropWhile_le isSpace after
    rw [_h'', List.length_cons] at h₄
    have := Text.length_lt_of_cutAt _cut
    omega
  · have h₄ := Text.length_dropWhile_le isSpace after
    rw [_h'', List.length_cons] at h₄
    have := Text.length_dropWhile_le (!isSpace ·) (q :: body)
    simp only [List.length_cons] at this
    omega
  · simp only [List.length_cons]; omega

def attributes (cs : List Char) : List (String × String) :=
  (attributesFrom [] cs).map fun (name, value) =>
    (String.ofList name, String.ofList (decode predefined value))

end Manuscript.Xml
