import Manuscript.Myst.Script

/-!
Building a document step by step. The nodes that are still open form a stack above the root, which
never closes before the end. An element is rendered by doing what its script says.
-/

set_option autoImplicit false

namespace Manuscript.Myst

structure Frame where
  kind : String
  attrs : Attrs
  /-- Whether the node gets a child list only with its first child. -/
  isLeaf : Bool
  /-- The children, the last one first. -/
  newest : List Node

namespace Frame

def kids (f : Frame) : List Node := f.newest.reverse

def node (f : Frame) : Node :=
  if f.isLeaf && f.newest.isEmpty then .leaf f.kind f.attrs else .branch f.kind f.kids f.attrs

def add (f : Frame) (n : Node) : Frame := { f with newest := n :: f.newest }

/-- Adds a run of text, which becomes part of a text that stands last. -/
def addText (f : Frame) (s : String) : Frame :=
  match f.newest with
  | last :: older =>
    if last.isText then { f with newest := extendText last s :: older } else f.add (.text s)
  | [] => f.add (.text s)

end Frame

structure Emitter where
  root : Frame
  /-- The open nodes, innermost first. -/
  frames : List Frame
  /-- Whether a figure or a table is being rendered. -/
  inContainer : Bool
  report : Report

namespace Emitter

def start : Emitter := ⟨⟨"root", .empty, false, []⟩, [], false, .empty⟩

def depth (e : Emitter) : Nat := 1 + e.frames.length

def updateTop (e : Emitter) (f : Frame → Frame) : Emitter :=
  match e.frames with
  | [] => { e with root := f e.root }
  | top :: outer => { e with frames := f top :: outer }

/-- Opens a node; `isLeaf` means that it gets a child list only with its first child. -/
def openNode (e : Emitter) (kind : String) (attrs : Attrs) (isLeaf : Bool) : Emitter :=
  { e with frames := ⟨kind, attrs, isLeaf, []⟩ :: e.frames }

def append (e : Emitter) (n : Node) : Emitter := e.updateTop fun top => top.add n

/-- Closes the innermost open node; the root stays open. -/
def closeNode (e : Emitter) : Emitter :=
  match e.frames with
  | [] => e
  | top :: outer => { e with frames := outer }.append top.node

def leaf (e : Emitter) (kind : String) (attrs : Attrs) : Emitter :=
  (e.openNode kind attrs true).closeNode

/-- Adds a run of text; an empty one does not even give a leaf a child list. -/
def text (e : Emitter) (s : String) : Emitter :=
  if s.isEmpty then e else e.updateTop fun top => top.addText s

def act (e : Emitter) : Action → Emitter
  | .openNode kind attrs isLeaf => e.openNode kind attrs isLeaf
  | .closeNode => e.closeNode
  | .scalar kind value attrs => e.append (.scalar kind value attrs)
  | .text s => e.text s
  | .separator => if e.inContainer then e else e.leaf "thematicBreak" .empty
  | .setContainer inContainer => { e with inContainer }
  | .report r => { e with report := e.report.append r }

def run (e : Emitter) (actions : List Action) : Emitter := actions.foldl act e

/-- Renders an element into the innermost open node. -/
def render (e : Emitter) (formulas : Formula.Converter) (n : Node) : Emitter :=
  e.run (script ⟨formulas, e.inContainer⟩ n)

def renderChildren (e : Emitter) (formulas : Formula.Converter) (n : Node) : Emitter :=
  e.run (scriptAll ⟨formulas, e.inContainer⟩ n.kids)

/-- The root with a finished node put into the open nodes around it, one after the other. -/
def closeInto (root : Frame) (n : Node) : List Frame → Node
  | [] => (root.add n).node
  | top :: outer => closeInto root (top.add n).node outer

def finish (e : Emitter) : Node :=
  match e.frames with
  | [] => e.root.node
  | top :: outer => closeInto e.root top.node outer

end Emitter

/-- The document that the children of a tree are rendered as. -/
def emit (formulas : Formula.Converter) (tree : Node) : Node × Report :=
  let e := Emitter.start.renderChildren formulas tree
  (e.finish, e.report)

end Manuscript.Myst
