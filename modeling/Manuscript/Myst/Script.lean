import Manuscript.Myst.Render

/-!
Rendering as work of an emitter: what the rule of an element asks for, action by action. A figure
or a table notes that a container is open, and puts the note back as it was.
-/

set_option autoImplicit false

namespace Manuscript.Myst

inductive Action where
  /-- Opens a node; `isLeaf` means that it gets a child list only with its first child. -/
  | openNode (kind : String) (attrs : Attrs) (isLeaf : Bool)
  | closeNode
  /-- Adds a finished leaf with a text of its own. -/
  | scalar (kind value : String) (attrs : Attrs)
  | text (s : String)
  /-- Adds a thematic break, unless a container is open. -/
  | separator
  | setContainer (inContainer : Bool)
  | report (r : Report)

def enclosed (kind : String) (attrs : Attrs) (inner : List Action) : List Action :=
  .openNode kind attrs false :: (inner ++ [.closeNode])

def leafScript (kind : String) (attrs : Attrs) : List Action :=
  [.openNode kind attrs true, .closeNode]

/-- What is done while a container is open. -/
def Setting.contained (s : Setting) (inner : List Action) : List Action :=
  .setContainer true :: (inner ++ [.setContainer s.inContainer])

def boldScript (inner : List Action) : List Action :=
  enclosed "paragraph" .empty (enclosed "strong" .empty inner)

def imageScript (n : Node) : List Action :=
  match (n.findKind? "graphic").bind fun graphic => graphic.attrText? "xlink:href" with
  | some address => leafScript "image" (attrsOf [("url", some (.string address))])
  | none => []

def captionScript (parts : List (Option (List Action))) : List Action :=
  if parts.all Option.isNone then []
  else enclosed "caption" .empty (parts.filterMap id).flatten

mutual
def contentScript (s : Setting) (n : Node) : List Action :=
  match n.children with
  | some _ => scriptAll s n.kids
  | none => [.text (n.value.getD "")]
termination_by 3 * n.size
decreasing_by have := Node.size_eq n; omega

def script (s : Setting) (n : Node) : List Action :=
  match ruleOf n with
  | .children => scriptAll s n.kids
  | .text => [.text (n.value.getD "")]
  | .wrap kind attrs report => .report report :: enclosed kind attrs (contentScript s n)
  | .leaf kind attrs => leafScript kind attrs
  | .separator => [.separator]
  | .title => boldScript (contentScript s n)
  | .formula kind =>
    match formulaTex? s.formulas n with
    | some tex => [.scalar kind tex (targetAttrs n)]
    | none => scriptAll s n.kids
  | .tabs => enclosed "tabSet" .empty (tabScript s n.kids)
  | .figure =>
    let title := match _h : n.findKind? "title" with
      | some title => some (boldScript (contentScript s.inside title))
      | none => none
    let caption := match _h : n.findKind? "caption" with
      | some caption => some (scriptAll s.inside caption.kids)
      | none => none
    s.contained <| enclosed "container" (containerAttrs "figure" n)
      (imageScript n ++ captionScript [title, caption])
  | .table =>
    let title := match _h : n.findKind? "title" with
      | some title => some (boldScript (contentScript s.inside title))
      | none => none
    let caption := match _h : n.findKind? "caption" with
      | some caption => some (scriptAll s.inside caption.kids)
      | none =>
        match _h : n.findKind? "label" with
        | some label => some (enclosed "paragraph" .empty (contentScript s.inside label))
        | none => none
    s.contained <| enclosed "container" (containerAttrs "table" n)
      (captionScript [title, caption] ++ scriptAll s.inside (withoutCaptionParts n).kids)
  | .code => [.scalar "code" n.toText (attrsOf [("lang", textEntry n "language")])]
  | .nothing => []
  | .unknown => [.report (Report.empty.addUnhandled n.kind)]
termination_by 3 * n.size + 1
decreasing_by
  all_goals have := Node.size_eq n
  · omega
  · omega
  · omega
  · omega
  · omega
  · have := Node.size_lt_of_find? (by assumption); omega
  · have := Node.size_lt_of_find? (by assumption); have := Node.size_eq caption; omega
  · have := Node.size_lt_of_find? (by assumption); omega
  · have := Node.size_lt_of_find? (by assumption); have := Node.size_eq caption; omega
  · have := Node.size_lt_of_find? (by assumption); omega
  · have := size_withoutCaptionParts_le n; have := Node.size_eq (withoutCaptionParts n); omega

def scriptAll (s : Setting) : List Node → List Action
  | [] => []
  | n :: ns => script s n ++ scriptAll s ns
termination_by ns => 3 * Node.forestSize ns + 2
decreasing_by
  all_goals simp only [Node.forestSize]
  · omega
  · have := Node.size_pos n; omega

def tabScript (s : Setting) : List Node → List Action
  | [] => []
  | n :: ns => enclosed "tabItem" (tabAttrs n) (script s n) ++ tabScript s ns
termination_by ns => 3 * Node.forestSize ns + 2
decreasing_by
  all_goals simp only [Node.forestSize]
  · omega
  · have := Node.size_pos n; omega
end

end Manuscript.Myst
