import Manuscript.Text.Case
import Manuscript.Text.Search
import Manuscript.Tree.Rewrite

/-!
Sections as a flat list of blocks. A section's title becomes a heading that tells its depth, or a
bold paragraph; sections inside sections give way to their content; what stands between blocks is
put into blocks.
-/

set_option autoImplicit false

namespace Manuscript.Body

inductive TitleStyle where
  | heading
  | strong
  deriving DecidableEq

def isSectionKind (kind : String) : Bool := kind == "sec" || kind == "ack" || kind == "app"

def isSection (n : Node) : Bool := isSectionKind n.kind

def styledTitle (style : TitleStyle) (id : Option String) (depth : Nat) (title : Node) : Node :=
  match style with
  | .strong => { title with kind := "p", children := some [.branch "bold" title.kids] }
  | .heading =>
    { title with
      kind := "heading"
      attrs := (title.attrs.insert? "id" (id.map Json.string)).insert "depth" (.number depth) }

def dropLabel : List Node → List Node
  | [] => []
  | c :: cs => if c.is "label" then cs else c :: cs

def isThanksTitle (title : Node) : Bool := Text.startsWith "ack" (Text.lower title.toText)

/-- The children of a section with a title in front shown in its style. The usual title of
acknowledgments is dropped. -/
def styleFirst (kind : String) (style : TitleStyle) (id : Option String) (depth : Nat) :
    List Node → List Node
  | [] => []
  | c :: cs =>
    if c.is "title" then
      if kind = "ack" && isThanksTitle c then cs else styledTitle style id depth c :: cs
    else c :: cs

/-- The part of the document that a section is, where its kind tells. -/
def partOf? (kind : String) : Option Json :=
  if kind = "ack" then some (.string "acknowledgments")
  else if kind = "app" then some (.string "appendix")
  else none

mutual
/-- A section at a depth with its title shown, and so with the sections directly inside it. -/
def labelSection (style : TitleStyle) (depth : Nat) : Node → Node
  | ⟨k, none, v, a⟩ =>
    if isSectionKind k then ⟨k, some [], v, a.insert? "part" (partOf? k)⟩ else ⟨k, none, v, a⟩
  | ⟨k, some cs, v, a⟩ =>
    if isSectionKind k then
      let id := (a.find? "id").bind Json.asString?
      ⟨k, some (styleFirst k style id depth (dropLabel (labelSections style (depth + 1) cs))), v,
        a.insert? "part" (partOf? k)⟩
    else ⟨k, some cs, v, a⟩

def labelSections (style : TitleStyle) (depth : Nat) : List Node → List Node
  | [] => []
  | n :: ns => labelSection style depth n :: labelSections style depth ns
end

def sectionAsBlock (n : Node) : Node := if isSection n then { n with kind := "block" } else n

/-- The nodes with those between blocks in blocks of their own; `loose` are those since the last
block. -/
def nestLoose (loose : List Node) : List Node → List Node
  | [] => if loose.isEmpty then [] else [.branch "block" loose]
  | n :: ns =>
    if n.is "block" then
      (if loose.isEmpty then [] else [.branch "block" loose]) ++ n :: nestLoose [] ns
    else nestLoose (loose ++ [n]) ns

/-- The tree with blocks as its only children. Without any block there is one, even if it is
empty. -/
def nestBlocks (tree : Node) : Node :=
  if tree.kids.any (·.is "block") then tree.withKids (nestLoose [] tree.kids)
  else tree.withKids [.branch "block" tree.kids]

def flattenSections (style : TitleStyle) (tree : Node) : Node :=
  let tree := tree.liftWhere (·.is "app-group")
  let tree := tree.withKids ((labelSections style 1 tree.kids).map sectionAsBlock)
  nestBlocks (tree.liftWhere isSection)

end Manuscript.Body
