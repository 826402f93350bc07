import Manuscript.Formula.Symbol
import Manuscript.Text.Letter
import Manuscript.Tree.Search
import Manuscript.Xml.Reader

/-!
Presentation MathML as LaTeX.
-/

set_option autoImplicit false

namespace Manuscript.Formula

def localName (name : String) : String :=
  String.ofList (name.toList.reverse.takeWhile (· ≠ ':')).reverse

def braced (s : String) : String := "\x7b" ++ s ++ "\x7d"

/-- An identifier: the name of a function, a word of several letters set upright, or symbols. -/
def identifier (s : String) : String :=
  if functions.contains s then "\\" ++ s
  else if 1 < s.length && s.toList.all Text.isLetter then "\\mathrm" ++ braced s
  else symbol s

def words (s : String) : String :=
  if Text.isBlankText s then "\\ " else "\\text" ++ braced s

def matrix (rows : List (List String)) : String :=
  "\\begin\x7bmatrix\x7d" ++ String.intercalate " \\\\ " (rows.map (String.intercalate " & "))
    ++ "\\end\x7bmatrix\x7d"

/-- An element other than a table, given its children in LaTeX. A missing argument is empty. -/
def element (n : Node) (parts : List String) : String :=
  let arg (i : Nat) : String := braced (parts.getD i "")
  match localName n.kind with
  | "text" | "cdata" => (n.value.map symbol).getD ""
  | "mi" => identifier (Text.trim n.toText)
  | "mn" | "mo" => symbol (Text.trim n.toText)
  | "mtext" => words n.toText
  | "mspace" => "\\ "
  | "msup" => arg 0 ++ "^" ++ arg 1
  | "msub" => arg 0 ++ "_" ++ arg 1
  | "msubsup" | "munderover" => arg 0 ++ "_" ++ arg 1 ++ "^" ++ arg 2
  | "mfrac" => "\\frac" ++ arg 0 ++ arg 1
  | "msqrt" => "\\sqrt" ++ braced (String.join parts)
  | "mroot" => "\\sqrt[" ++ parts.getD 1 "" ++ "]" ++ arg 0
  | "mover" =>
    match accents.lookup (Text.trim ((n.kids[1]?.map Node.toText).getD "")) with
    | some command => command ++ arg 0
    | none => "\\overset" ++ arg 1 ++ arg 0
  | "munder" => "\\underset" ++ arg 1 ++ arg 0
  | "mfenced" =>
    "\\left" ++ fence ((n.attrText? "open").getD "(")
      ++ String.intercalate ((n.attrText? "separators").getD ",") parts
      ++ "\\right" ++ fence ((n.attrText? "close").getD ")")
  | "semantics" => parts.getD 0 ""
  | "annotation" | "annotation-xml" | "comment" => ""
  | _ => String.join parts

mutual
def latex : Node → String
  | ⟨k, none, v, a⟩ =>
    if localName k = "mtable" then matrix [] else element ⟨k, none, v, a⟩ []
  | ⟨k, some cs, v, a⟩ =>
    if localName k = "mtable" then matrix (latexRows cs)
    else element ⟨k, some cs, v, a⟩ (latexAll cs)

def latexAll : List Node → List String
  | [] => []
  | n :: ns => latex n :: latexAll ns

def latexRows : List Node → List (List String)
  | [] => []
  | ⟨_, none, _, _⟩ :: ns => [] :: latexRows ns
  | ⟨_, some cs, _, _⟩ :: ns => latexAll cs :: latexRows ns
end

/-- Something that turns the text of a formula into LaTeX, if it can. -/
abbrev Converter := String → Option String

def ofMathml : Converter := fun xml => do
  let document ← (Xml.parse xml).toOption
  let root ← document.elements.head?
  let isMath (n : Node) : Bool := localName n.kind = "math"
  let math ← if isMath root then some root else root.find? isMath
  let tex := Text.trim (String.join (latexAll math.kids))
  if tex.isEmpty then none else some tex

end Manuscript.Formula
