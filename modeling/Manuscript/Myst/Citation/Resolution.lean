import Manuscript.Label
import Manuscript.Myst.Citation.Separator
import Manuscript.Reference.Registry
import Manuscript.Tree.Rewrite

/-!
Resolving the citations of a document: a citation that the registry knows gives way to what it
stands for, references to footnotes and a group of citations.
-/

set_option autoImplicit false

namespace Manuscript.Myst.Citation

open Manuscript.Reference

/-- What a citation stands for. Its label counts before its identifier. -/
def resolutions? (lookup : Lookup) (n : Node) : Option (List Resolution) :=
  if n.is "cite" then
    ((n.attrText? "label").bind lookup.find?).orElse fun _ =>
      (n.attrText? "identifier").bind lookup.find?
  else none

def pointer (kind label : String) : Node :=
  match Label.ofText? label with
  | some l =>
    ((Node.leaf kind).setAttr "label" (.string l.label)).setAttr "identifier" (.string l.identifier)
  | none => .leaf kind

def footnoteReference? : Resolution → Option Node
  | .footnote number => some (pointer "footnoteReference" number)
  | .cite _ => none

/-- The nodes for what a citation stands for: the footnotes, then the citations as a group. -/
def expansion (resolutions : List Resolution) : List Node :=
  let cites := (resolutions.filterMap Resolution.cite?).map (pointer "cite")
  resolutions.filterMap footnoteReference?
    ++ if cites.isEmpty then [] else [parenthetical (.branch "citeGroup" cites)]

mutual
/-- The tree with every known citation below replaced, and how many these were. What comes in for
one is not looked at again. -/
def resolve (lookup : Lookup) : Node → Node × Nat
  | ⟨k, none, v, a⟩ => (⟨k, none, v, a⟩, 0)
  | ⟨k, some cs, v, a⟩ =>
    let (forest, replaced) := resolveAll lookup cs
    (⟨k, some forest, v, a⟩, replaced)

def resolveAll (lookup : Lookup) : List Node → List Node × Nat
  | [] => ([], 0)
  | n :: ns =>
    let (front, here) := match resolutions? lookup n with
      | some resolutions => (expansion resolutions, 1)
      | none =>
        let (kept, below) := resolve lookup n
        ([kept], below)
    let (back, behind) := resolveAll lookup ns
    (front ++ back, here + behind)
end

def resolveBelow (lookup : Lookup) (n : Node) : Node := (resolve lookup n).1

def resolveForest (lookup : Lookup) (ns : List Node) : List Node := (resolveAll lookup ns).1

end Manuscript.Myst.Citation
