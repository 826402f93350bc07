import Manuscript.Tree.Rewrite

/-!
Titles out of captions: those of figures and tables come to stand first in them, those of boxes
become titles of admonitions.
-/

set_option autoImplicit false

namespace Manuscript.Body

/-- The children of a figure or table with the title of the first caption in front of all. -/
def hoistTitle (cs : List Node) : List Node :=
  match cs.dropWhile (!·.is "caption") with
  | [] => cs
  | caption :: after =>
    let before := cs.takeWhile (!·.is "caption")
    (caption.kids.find? (·.is "title")).toList
      ++ before ++ caption.withKids (caption.kids.eraseP (·.is "title")) :: after

def hoistTitles (tree : Node) : Node :=
  tree.mapUp fun n => if n.isOneOf ["fig", "table-wrap"] then n.withKids (hoistTitle n.kids) else n

def asAdmonitionTitle (title : Node) : Node := { title with kind := "admonitionTitle" }

/-- The nodes with a title in front, or one at the start of a caption in front, made the title of
an admonition. The caption gives way to its content. -/
def entitle : List Node → List Node
  | [] => []
  | first :: rest =>
    if first.is "title" then asAdmonitionTitle first :: rest
    else if first.is "caption" then
      match first.kids with
      | title :: inner =>
        if title.is "title" then asAdmonitionTitle title :: inner ++ rest else first :: rest
      | [] => first :: rest
    else first :: rest

/-- The children of a box with its title, which a label may precede, made that of an
admonition. -/
def entitleBox : List Node → List Node
  | [] => []
  | first :: rest => if first.is "label" then first :: entitle rest else entitle (first :: rest)

def entitleBoxes (tree : Node) : Node :=
  tree.mapUp fun n => if n.is "boxed-text" then n.withKids (entitleBox n.kids) else n

end Manuscript.Body
