import Manuscript.Text.Blank
import Manuscript.Text.Case
import Manuscript.Tree.Rewrite

/-!
Small repairs of markup: empty formatting, line breaks in titles, titles that repeat the kind of
their section, and an old spelling of citations.
-/

set_option autoImplicit false

namespace Manuscript.Body

def isInlineFormat (n : Node) : Bool :=
  n.isOneOf ["bold", "italic", "underline", "monospace", "sc", "sub", "sup", "strike"]

/-- Whether an element formats no text and holds nothing else. -/
def isEmptyFormat (n : Node) : Bool :=
  isInlineFormat n && n.toText.isEmpty && n.kids.all Node.isText

def isTitleKind (kind : String) : Bool :=
  kind == "title" || kind == "article-title" || kind == "heading"

mutual
/-- The tree with a space for every line break that is inside a title. -/
def spaceBreaks (inTitle : Bool) : Node → Node
  | ⟨k, none, v, a⟩ => if inTitle && k == "break" then .text " " else ⟨k, none, v, a⟩
  | ⟨k, some cs, v, a⟩ =>
    if inTitle && k == "break" then .text " "
    else ⟨k, some (spaceBreaksAll (inTitle || isTitleKind k) cs), v, a⟩

def spaceBreaksAll (inTitle : Bool) : List Node → List Node
  | [] => []
  | n :: ns => spaceBreaks inTitle n :: spaceBreaksAll inTitle ns
end

def typography (tree : Node) : Node := spaceBreaks false (tree.removeWhere isEmptyFormat)

def isDataAvailability (n : Node) : Bool :=
  n.is "sec" && n.attrText? "sec-type" == some "data-availability"

def isDataAvailabilityTitle (n : Node) : Bool :=
  n.is "title" && Text.lower (Text.trim n.toText) == "data availability"

/-- A section on the availability of data without the titles that say so. -/
def dropDataTitle (n : Node) : Node :=
  if isDataAvailability n then n.removeWhere isDataAvailabilityTitle else n

theorem size_dropDataTitle_le (n : Node) : (dropDataTitle n).size ≤ n.size := by
  unfold dropDataTitle
  split
  · exact Node.size_removeWhere_le ..
  · exact Nat.le_refl _

def dropDataTitles (tree : Node) : Node := tree.mapDown dropDataTitle size_dropDataTitle_le

/-- The tree with the old spelling of mixed citations replaced. -/
def renameCitations (tree : Node) : Node :=
  tree.mapUp fun n => if n.is "citation" then { n with kind := "mixed-citation" } else n

end Manuscript.Body
