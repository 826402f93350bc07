import Manuscript.Myst.Citation.Separator

/-!
Grouping the citations of a document. The nine rules run in turn, and again until none of them
changes the tree or the passes are used up.
-/

set_option autoImplicit false

namespace Manuscript.Myst.Citation

def rules (order : List String) : List Edit :=
  [bareCites, groupCites, flattenGroups, joinGroups, dropSeparators, expandRanges order,
    dropBrackets, lowerGroups, spaceGroups]

/-- Runs rules in turn; also tells whether any of them did anything. -/
def runRules : List Edit → Node → Node × Bool
  | [], tree => (tree, false)
  | rule :: rules, tree =>
    let (after, here) := rule.run tree
    let (result, later) := runRules rules after
    (result, here || later)

def pass (order : List String) (tree : Node) : Node × Bool := runRules (rules order) tree

/-- Runs passes until one changes nothing, at most as many as given. -/
def settle (order : List String) : Nat → Node → Node × Bool
  | 0, tree => (tree, false)
  | passes + 1, tree =>
    let (after, changed) := pass order tree
    if changed then ((settle order passes after).1, true) else (after, false)

def passLimit : Nat := 64

/-- The tree with its citations grouped, and whether that changed it. The order is that of the
bibliography. -/
def groupCitations (order : List String) (tree : Node) : Node × Bool := settle order passLimit tree

end Manuscript.Myst.Citation
