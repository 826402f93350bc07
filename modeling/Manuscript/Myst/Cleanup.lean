import Manuscript.Myst.Emission
import Manuscript.Tree.Rewrite

/-!
Cleaning a document: table footnotes that nothing refers to become plain text of the legend, empty
text goes, and text that meets text becomes one node.
-/

set_option autoImplicit false

namespace Manuscript.Myst

/-- The identifiers of the footnotes that references below point to, as the keys. -/
def referencedFootnotes (tree : Node) : Dict Unit :=
  Dict.ofList ((tree.findKinds "footnoteReference").filterMap fun n =>
    (n.attrText? "identifier").map fun id => (id, ()))

def isOrphan (referenced : Dict Unit) (n : Node) : Bool :=
  n.is "footnoteDefinition" && !((n.attrText? "identifier").any referenced.contains)

/-- A footnote that nothing refers to as a paragraph: the one that is all it holds, or one around
its content. -/
def demoted (referenced : Dict Unit) (n : Node) : Node :=
  if isOrphan referenced n then
    match n.kids with
    | [only] => if only.is "paragraph" then only else .branch "paragraph" n.kids
    | cs => .branch "paragraph" cs
  else n

/-- The tree with the footnotes of legends that nothing refers to as paragraphs, and how many of
them there are. -/
def demoteOrphans (tree : Node) : Node × Nat :=
  let referenced := referencedFootnotes tree
  tree.mapUpSum fun n =>
    if n.is "legend" then
      (n.withKids (n.kids.map (demoted referenced)), n.kids.countP (isOrphan referenced))
    else (n, 0)

def demoteFootnotes (tree : Node) : Node := (demoteOrphans tree).1

def isEmptyText (n : Node) : Bool := n.isText && (n.value.getD "").isEmpty

def mergeTexts : List Node → List Node
  | [] => []
  | n :: ns =>
    match mergeTexts ns with
    | m :: ms =>
      if n.isText && m.isText then extendText n (m.value.getD "") :: ms else n :: m :: ms
    | [] => [n]

def joinTexts (tree : Node) : Node := tree.mapUp (Node.mapChildren mergeTexts)

/-- The tree cleaned of what earlier steps leave behind. -/
def clean (tree : Node) : Node := joinTexts ((demoteFootnotes tree).removeWhere isEmptyText)

end Manuscript.Myst
