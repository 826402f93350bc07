import Manuscript.Article.Basic
import Manuscript.Tree.Rewrite

/-!
Where the graphics of bioRxiv articles are: the site serves a large image of each figure and table,
at an address made of the date of acceptance and the article's identifier.
-/

set_option autoImplicit false

namespace Manuscript.Body

/-- The address below which the site serves the article's images. -/
def imageBase? (a : Article) : Option String := do
  let journal ← a.journalId? "hwp"
  if Text.trim journal = "biorxiv" then pure ()
  else none
  let accepted ← a.historyDate? "accepted"
  let date ← Date.ofNode? accepted
  let name := (a.doi?.map fun doi =>
    String.ofList ((doi.toList.dropWhile (· ≠ '/')).drop 1)).getD ""
  pure ("https://www.biorxiv.org/content/biorxiv/early/" ++ toString date.year ++ "/"
    ++ String.ofList (Text.padded 2 date.month) ++ "/" ++ String.ofList (Text.padded 2 date.day)
    ++ "/" ++ name)

def hostGraphic (base : String) (n : Node) : Node :=
  match n.attrText? "hwp:id" with
  | some id =>
    if n.isOneOf ["fig", "table-wrap"] then
      n.updateFirst (·.is "graphic") fun graphic =>
        graphic.setAttr "xlink:href" (.string (base ++ "/" ++ id ++ ".large.jpg"))
    else n
  | none => n

theorem size_hostGraphic_le (base : String) (n : Node) : (hostGraphic base n).size ≤ n.size := by
  have same (m : Node) (value : Json) : (m.setAttr "xlink:href" value).size ≤ m.size := by
    rw [Node.size_eq, Node.size_eq m]
    exact Nat.le_refl _
  unfold hostGraphic
  split
  · split
    · exact Node.size_updateFirst_le _ (fun m => same m _) n
    · exact Nat.le_refl _
  · exact Nat.le_refl _

/-- The tree with the graphics of figures and tables at the site, where the article has images
there. -/
def hostGraphics (a : Article) (tree : Node) : Node :=
  match imageBase? a with
  | some base => tree.mapDown (hostGraphic base) (size_hostGraphic_le base)
  | none => tree

end Manuscript.Body
