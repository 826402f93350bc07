import Manuscript.Label
import Manuscript.Myst.Emission
import Manuscript.Text.Letter

/-!
What each kind of element becomes in a document. The rule of an element depends on its kind and
its attributes alone.
-/

set_option autoImplicit false

namespace Manuscript.Myst

inductive Rule where
  | children
  | text
  /-- The content is put into one node, with a report about the element. -/
  | wrap (kind : String) (attrs : Attrs) (report : Report)
  | leaf (kind : String) (attrs : Attrs)
  /-- A thematic break, unless the element is part of a container. -/
  | separator
  | title
  | formula (kind : String)
  | tabs
  | figure
  | table
  | code
  | nothing
  | unknown

def attrsOf (entries : List (String × Option Json)) : Attrs :=
  entries.foldl (fun attrs (name, value) => attrs.insert? name value) .empty

/-- The label and the identifier that an identifying text gives. -/
def labelEntries (id : Option String) : List (String × Option Json) :=
  let label := id.bind Label.ofText?
  [("label", label.map fun l => .string l.label),
    ("identifier", label.map fun l => .string l.identifier)]

def textEntry (n : Node) (name : String) : Option Json := (n.attrText? name).map Json.string

/-- The attribute, if it is the text of a number of 64 bits. -/
def numberEntry (n : Node) (name : String) : Option Json :=
  ((n.attrText? name).bind fun s => Text.number? (1 <<< 64 - 1) (Text.trim s)).map
    fun k => .number k

def targetAttrs (n : Node) : Attrs := attrsOf (labelEntries (n.attrText? "id"))

def headingAttrs (n : Node) : Attrs :=
  attrsOf (("enumerated", some (.bool true)) :: ("depth", n.attr? "depth")
    :: labelEntries (n.attrText? "id"))

def blockAttrs (n : Node) : Attrs :=
  let part := (n.attr? "part").orElse fun _ => n.attr? "sec-type"
  attrsOf [("data", part.map fun p => .object [("part", p)])]

def cellAttrs (n : Node) : Attrs :=
  attrsOf [("header", if n.is "th" then some (.bool true) else none),
    ("align", textEntry n "align"), ("colspan", numberEntry n "colspan"),
    ("rowspan", numberEntry n "rowspan")]

def containerAttrs (kind : String) (n : Node) : Attrs :=
  (targetAttrs n).insert "kind" (.string kind)

/-- What a reference to another place becomes. An unknown kind of reference is reported and keeps
its target as it is written. -/
def referenceRule (n : Node) : Rule :=
  let target := n.attrText? "rid"
  let attrs (kind : String) : Attrs :=
    attrsOf (("kind", some (.string kind)) :: labelEntries target)
  match (n.attrText? "ref-type").getD "" with
  | "bibr" | "ref" => .wrap "cite" (attrs "narrative") .empty
  | "sec" => .wrap "crossReference" (attrs "heading") .empty
  | "fig" => .wrap "crossReference" (attrs "figure") .empty
  | "disp-formula" => .wrap "crossReference" (attrs "equation") .empty
  | "table" => .wrap "crossReference" (attrs "table") .empty
  | "fn" | "table-fn" => .leaf "footnoteReference" (attrsOf (labelEntries target))
  | other =>
    .wrap "crossReference" (attrsOf [("identifier", target.map Json.string)])
      (Report.empty.add .warning ("Unknown ref-type of " ++ other) (some "xref") (some "xref"))

def plain (kind : String) : Rule := .wrap kind .empty .empty

def ruleOf (n : Node) : Rule :=
  match n.kind with
  | "body" | "thead" | "tbody" | "tfoot" | "named-content" | "fn-group"
  | "supplementary-material" | "caption" => .children
  | "text" => .text
  | "p" => plain "paragraph"
  | "heading" => .wrap "heading" (headingAttrs n) .empty
  | "block" => .wrap "block" (blockAttrs n) .empty
  | "title" => .title
  | "disp-quote" => .wrap "blockquote" (attrsOf [("kind", textEntry n "content-type")]) .empty
  | "list" =>
    .wrap "list"
      (attrsOf [("ordered", some (.bool (n.attrText? "list-type" == some "ordered")))]) .empty
  | "list-item" => plain "listItem"
  | "hr" => .separator
  | "inline-formula" => .formula "inlineMath"
  | "disp-formula" => .formula "math"
  | "bold" => plain "strong"
  | "italic" => plain "emphasis"
  | "underline" => plain "underline"
  | "monospace" => plain "inlineCode"
  | "sub" => plain "subscript"
  | "sup" => plain "superscript"
  | "strike" => plain "delete"
  | "sc" => plain "smallcaps"
  | "ext-link" | "uri" | "media" =>
    .wrap "link" (attrsOf [("url", textEntry n "xlink:href")]) .empty
  | "boxed-text" => .wrap "admonition" (attrsOf [("kind", some (.string "info"))]) .empty
  | "admonitionTitle" => plain "admonitionTitle"
  | "fig-group" => .tabs
  | "graphic" | "inline-graphic" => .leaf "image" (attrsOf [("url", textEntry n "xlink:href")])
  | "fig" => .figure
  | "table-wrap" => .table
  | "table" => plain "table"
  | "tr" => plain "tableRow"
  | "th" | "td" => .wrap "tableCell" (cellAttrs n) .empty
  | "table-wrap-foot" => plain "legend"
  | "break" => .leaf "break" .empty
  | "fn" => .wrap "footnoteDefinition" (targetAttrs n) .empty
  | "label" | "comment" | "object-id" => .nothing
  | "xref" => referenceRule n
  | "code" | "preformat" => .code
  | _ => .unknown

end Manuscript.Myst
