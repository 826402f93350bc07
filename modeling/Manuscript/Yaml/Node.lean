import Manuscript.Yaml.Tag

/-!
A document as it is written: scalars, lists and mappings under their anchors and tags, and aliases
in place of what an anchor names. Anchors are numbers here, and an alias knows that of its anchor.
-/

set_option autoImplicit false

namespace Manuscript.Yaml

structure Properties where
  anchor : Option Nat := none
  tag : Option Tag := none

inductive Node where
  | alias (number : Nat)
  /-- A scalar; one without quotes is plain. -/
  | scalar (properties : Properties) (text : String) (plain : Bool)
  | sequence (properties : Properties) (items : List Node)
  | mapping (properties : Properties) (entries : List (Node × Node))

namespace Node

instance : Inhabited Node := ⟨.alias 0⟩

/-- The scalar that nothing stands for. -/
def empty (properties : Properties) : Node := .scalar properties "" true

def own (properties : Properties) (node : Node) : List (Nat × Node) :=
  properties.anchor.toList.map (·, node)

mutual
/-- All anchors in a node with what they stand for, in the order of the document. -/
def anchored : Node → List (Nat × Node)
  | .alias _ => []
  | .scalar properties text plain => own properties (.scalar properties text plain)
  | .sequence properties items =>
    own properties (.sequence properties items) ++ anchoredItems items
  | .mapping properties entries =>
    own properties (.mapping properties entries) ++ anchoredEntries entries

def anchoredItems : List Node → List (Nat × Node)
  | [] => []
  | item :: items => anchored item ++ anchoredItems items

def anchoredEntries : List (Node × Node) → List (Nat × Node)
  | [] => []
  | (key, value) :: entries => anchored key ++ anchored value ++ anchoredEntries entries
end

mutual
/-- The number of scalars and aliases in a node, and of starts and ends of lists and mappings. -/
def size : Node → Nat
  | .alias _ | .scalar .. => 1
  | .sequence _ items => 2 + sizeItems items
  | .mapping _ entries => 2 + sizeEntries entries

def sizeItems : List Node → Nat
  | [] => 0
  | item :: items => size item + sizeItems items

def sizeEntries : List (Node × Node) → Nat
  | [] => 0
  | (key, value) :: entries => size key + size value + sizeEntries entries
end

end Node

end Manuscript.Yaml
