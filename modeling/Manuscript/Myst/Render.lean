import Manuscript.Formula.Latex
import Manuscript.Myst.Rule
import Manuscript.Tree.Rewrite
import Manuscript.Xml.Printer

/-!
Rendering elements of an article as nodes of a document, each by its rule. What a figure or a
table shows in its caption is found anywhere below it; a table shows the rest of its content
without those parts.
-/

set_option autoImplicit false

namespace Manuscript.Myst

/-- Where an element is rendered: how formulas are converted, and whether a container is open. -/
structure Setting where
  formulas : Formula.Converter
  inContainer : Bool

def Setting.inside (s : Setting) : Setting := { s with inContainer := true }

def bareFormulaKind (kind : String) : String := (Text.after? "mml:" kind).getD kind

/-- The LaTeX of a formula element: the LaTeX that it holds, or else that of its MathML. -/
def formulaTex? (formulas : Formula.Converter) (n : Node) : Option String :=
  match n.findKind? "tex-math" with
  | some tex =>
    Text.nonEmpty? (Text.trim (((tex.firstChild?.bind (·.value))).getD tex.toText))
  | none =>
    let bare := n.mapUp fun m => { m with kind := bareFormulaKind m.kind }
    (bare.findKind? "math").bind fun math => formulas (Xml.render (.branch "root" [math]))

def figureImage (n : Node) : Emission :=
  match (n.findKind? "graphic").bind fun graphic => graphic.attrText? "xlink:href" with
  | some address => .ofNode (.leaf "image" (attrsOf [("url", some (.string address))]))
  | none => .empty

def tabAttrs (n : Node) : Attrs :=
  let name := (n.findKind? "label").map fun label => Json.string (Text.trim label.toText)
  attrsOf [("title", name), ("sync", name)]

/-- The parts that a caption takes out of a table. -/
def withoutCaptionParts (n : Node) : Node :=
  ((n.removeNearest "title").removeNearest "caption").removeNearest "label"

theorem size_withoutCaptionParts_le (n : Node) : (withoutCaptionParts n).size ≤ n.size :=
  Nat.le_trans (Node.size_removeNearest_le ..)
    (Nat.le_trans (Node.size_removeNearest_le ..) (Node.size_removeNearest_le ..))

def boldParagraph (inner : Emission) : Emission :=
  .wrap "paragraph" .empty (.wrap "strong" .empty inner)

def captionOf (parts : List (Option Emission)) : Emission :=
  if parts.all Option.isNone then .empty
  else .wrap "caption" .empty ((parts.filterMap id).foldr Emission.join .empty)

mutual
/-- The content of an element: its children, or the text of a leaf. -/
def content (s : Setting) (n : Node) : Emission :=
  match n.children with
  | some _ => renderAll s n.kids
  | none => .ofText (n.value.getD "")
termination_by 3 * n.size
decreasing_by have := Node.size_eq n; omega

def render (s : Setting) (n : Node) : Emission :=
  match ruleOf n with
  | .children => renderAll s n.kids
  | .text => .ofText (n.value.getD "")
  | .wrap kind attrs report => Emission.join (.ofReport report) (.wrap kind attrs (content s n))
  | .leaf kind attrs => .ofNode (.leaf kind attrs)
  | .separator => if s.inContainer then .empty else .ofNode (.leaf "thematicBreak")
  | .title => boldParagraph (content s n)
  | .formula kind =>
    match formulaTex? s.formulas n with
    | some tex => .ofNode (.scalar kind tex (targetAttrs n))
    | none => renderAll s n.kids
  | .tabs => .wrap "tabSet" .empty (renderTabs s n.kids)
  | .figure =>
    let title := match _h : n.findKind? "title" with
      | some title => some (boldParagraph (content s.inside title))
      | none => none
    let caption := match _h : n.findKind? "caption" with
      | some caption => some (renderAll s.inside caption.kids)
      | none => none
    .wrap "container" (containerAttrs "figure" n)
      ((figureImage n).join (captionOf [title, caption]))
  | .table =>
    let title := match _h : n.findKind? "title" with
      | some title => some (boldParagraph (content s.inside title))
      | none => none
    let caption := match _h : n.findKind? "caption" with
      | some caption => some (renderAll s.inside caption.kids)
      | none =>
        match _h : n.findKind? "label" with
        | some label => some (.wrap "paragraph" .empty (content s.inside label))
        | none => none
    .wrap "container" (containerAttrs "table" n)
      ((captionOf [title, caption]).join (renderAll s.inside (withoutCaptionParts n).kids))
  | .code =>
    .ofNode (.scalar "code" n.toText (attrsOf [("lang", textEntry n "language")]))
  | .nothing => .empty
  | .unknown => .ofReport (Report.empty.addUnhandled n.kind)
termination_by 3 * n.size + 1
decreasing_by
  all_goals have := Node.size_eq n
  · omega
  · omega
  · omega
  · omega
  · omega
  · have := Node.size_lt_of_find? (by assumption); omega
  · have := Node.size_lt_of_find? (by assumption); have := Node.size_eq caption; omega
  · have := Node.size_lt_of_find? (by assumption); omega
  · have := Node.size_lt_of_find? (by assumption); have := Node.size_eq caption; omega
  · have := Node.size_lt_of_find? (by assumption); omega
  · have := size_withoutCaptionParts_le n; have := Node.size_eq (withoutCaptionParts n); omega

def renderAll (s : Setting) : List Node → Emission
  | [] => .empty
  | n :: ns => (render s n).join (renderAll s ns)
termination_by ns => 3 * Node.forestSize ns + 2
decreasing_by
  all_goals simp only [Node.forestSize]
  · omega
  · have := Node.size_pos n; omega

def renderTabs (s : Setting) : List Node → Emission
  | [] => .empty
  | n :: ns => (Emission.wrap "tabItem" (tabAttrs n) (render s n)).join (renderTabs s ns)
termination_by ns => 3 * Node.forestSize ns + 2
decreasing_by
  all_goals simp only [Node.forestSize]
  · omega
  · have := Node.size_pos n; omega
end

end Manuscript.Myst
