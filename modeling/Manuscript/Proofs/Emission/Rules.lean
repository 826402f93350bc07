import Manuscript.Myst.Rule

/-!
The rules of elements. An element of a known kind has a known rule, and the nodes that rules make
are of a few kinds.
-/

set_option autoImplicit false

namespace Manuscript.Myst

theorem ruleOf_of_kind {n : Node} {kind : String} {rule : Rule} (same : n.kind = kind)
    (here : ruleOf { n with kind } = rule) : ruleOf n = rule := by
  subst same
  exact here

/-- The kinds of the nodes that rules make around the content of an element or instead of it. -/
def ruleKinds : List String :=
  ["paragraph", "heading", "block", "blockquote", "list", "listItem", "inlineMath", "math",
    "strong", "emphasis", "underline", "inlineCode", "subscript", "superscript", "delete",
    "smallcaps", "link", "admonition", "admonitionTitle", "image", "table", "tableRow",
    "tableCell", "legend", "break", "footnoteDefinition", "footnoteReference", "crossReference",
    "cite"]

/-- Whether the kind of the node that a rule makes, if it makes one, has a property. -/
def Rule.MakesKind (K : String → Prop) : Rule → Prop
  | .wrap kind _ _ | .leaf kind _ | .formula kind => K kind
  | _ => True

theorem makesKind_ruleOf {K : String → Prop} (all : ∀ kind ∈ ruleKinds, K kind) (n : Node) :
    (ruleOf n).MakesKind K := by
  have known (kind : String) (listed : ruleKinds.contains kind = true) : K kind :=
    all kind (List.contains_iff_mem.1 listed)
  have reference : (referenceRule n).MakesKind K := by
    unfold referenceRule
    simp only
    split <;> exact known _ rfl
  unfold ruleOf
  split
  all_goals first
    | exact trivial
    | exact reference
    | exact known _ rfl

end Manuscript.Myst
