import Manuscript.Json.Printer
import Manuscript.Tree.Node
import Manuscript.Xml.Entity

/-!
Writing a tree as XML text.
-/

set_option autoImplicit false

namespace Manuscript.Xml

def escapeText (s : String) : String := String.ofList (escape s.toList)

/-- An attribute as it stands in a start tag. A value that is no string is written as JSON. -/
def attributeText (name : String) (value : Json) : String :=
  let name := if name = "_type" then "type" else name
  let value := match value with
    | .string s => s
    | other => other.compact
  " " ++ name ++ "=\"" ++ escapeText value ++ "\""

def element (name : String) (attrs : Attrs) (content : Option String) : String :=
  let start := "<" ++ name ++ String.join (attrs.entries.map fun (k, v) => attributeText k v)
  match content with
  | none => start ++ "/>"
  | some inner => start ++ ">" ++ inner ++ "</" ++ name ++ ">"

mutual
def render : Node → String
  | ⟨k, none, v, a⟩ => nodeText k v a none
  | ⟨k, some [], v, a⟩ => nodeText k v a none
  | ⟨k, some (c :: cs), v, a⟩ => nodeText k v a (some (render c ++ renderAll cs))

def renderAll : List Node → String
  | [] => ""
  | n :: ns => render n ++ renderAll ns

/-- The text of a node, given that of its children if it has any. -/
def nodeText (kind : String) (value : Option String) (attrs : Attrs) (inner : Option String) :
    String :=
  if kind = "text" then escapeText (value.getD "")
  else if kind = "cdata" then "<![CDATA[" ++ value.getD "" ++ "]]>"
  else if kind = "comment" then "<!--" ++ value.getD "" ++ "-->"
  else
    element kind attrs <|
      match value, inner with
      | none, inner => inner
      | some v, inner => some (escapeText v ++ inner.getD "")
end

end Manuscript.Xml
