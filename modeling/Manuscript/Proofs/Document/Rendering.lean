import Manuscript.Proofs.Document.Outline
import Manuscript.Proofs.Emission.Contribution
import Manuscript.Proofs.Emission.Machine

/-!
The kinds of nodes that elements are rendered as. Whatever an element holds, its contribution has
no other kinds, and it has a block only if the element is or holds one.
-/

set_option autoImplicit false

namespace Manuscript.Myst

open Manuscript.Node Manuscript.Body

def renderedKinds : List String :=
  ["text", "paragraph", "heading", "block", "strong", "blockquote", "list", "listItem",
    "thematicBreak", "inlineMath", "math", "emphasis", "underline", "inlineCode", "subscript",
    "superscript", "delete", "smallcaps", "link", "admonition", "admonitionTitle", "tabSet",
    "tabItem", "image", "container", "caption", "table", "tableRow", "tableCell", "legend", "break",
    "footnoteDefinition", "footnoteReference", "code", "crossReference", "cite"]

/-- Whether rendered nodes may be of a kind, where blocks are there only if they are allowed. -/
abbrev Rendered (allowed : Prop) (kind : String) : Prop :=
  kind ∈ renderedKinds ∧ BlocksIf allowed kind

section
variable {allowed : Prop}

theorem rendered_of_ne (kind : String) (known : kind ∈ renderedKinds) (other : kind ≠ "block") :
    Rendered allowed kind :=
  ⟨known, blocksIf_of_ne kind other⟩

def Rule.Fits (allowed : Prop) : Rule → Prop
  | .wrap kind _ _ | .leaf kind _ | .formula kind => Rendered allowed kind
  | _ => True

theorem fits_referenceRule (n : Node) : (referenceRule n).Fits allowed := by
  have cite : Rendered allowed "cite" := rendered_of_ne "cite" (by decide) (by decide)
  have cross : Rendered allowed "crossReference" :=
    rendered_of_ne "crossReference" (by decide) (by decide)
  have note : Rendered allowed "footnoteReference" :=
    rendered_of_ne "footnoteReference" (by decide) (by decide)
  unfold referenceRule
  simp only
  split
  · exact cite
  · exact cite
  · exact cross
  · exact cross
  · exact cross
  · exact cross
  · exact note
  · exact note
  · exact cross

theorem fits_ruleOf {n : Node} (plain : BlocksIf allowed n.kind) : (ruleOf n).Fits allowed := by
  have known (kind : String) (h : (renderedKinds.contains kind && kind != "block") = true) :
      Rendered allowed kind := by
    simp only [Bool.and_eq_true, List.contains_iff_mem, bne_iff_ne] at h
    exact rendered_of_ne kind h.1 h.2
  unfold ruleOf
  -- Only an element that is a block is rendered as one.
  split
  all_goals first
    | exact trivial
    | exact fits_referenceRule n
    | exact known _ rfl
    | next same => exact ⟨by decide, fun _ => plain same⟩

end

/-! ### Contributions -/

/-- The kinds of nodes that are made by other means than the rule of an element. -/
def frameKinds : List String :=
  ["text", "paragraph", "strong", "caption", "image", "thematicBreak", "tabSet", "tabItem",
    "container", "code"]

/-- Whether the node that a rule makes of an element satisfies `q`, whatever is below it. -/
def Rule.Makes (q : Node → Prop) (n : Node) : Rule → Prop
  | .wrap kind attrs _ => ∀ cs, q (.branch kind cs attrs)
  | .leaf kind attrs => q (.leaf kind attrs)
  | .formula kind => ∀ tex, q (.scalar kind tex (targetAttrs n))
  | _ => True

/-- Whether elements with `p` have rules that make nodes with `q`, as all other means do. -/
structure Renders (p q : Node → Prop) : Prop where
  rule : ∀ {n : Node}, p n → (ruleOf n).Makes q n
  frame : ∀ {n : Node}, n.kind ∈ frameKinds → q n
  free : KidsFree p

def Emission.All (q : Node → Prop) (e : Emission) : Prop := ∀ n ∈ e.forest, Everywhere q n

section
variable {p q : Node → Prop}

theorem all_empty : Emission.empty.All q := List.forall_mem_nil _

theorem all_ofReport (r : Report) : (Emission.ofReport r).All q := List.forall_mem_nil _

theorem all_ofNode {n : Node} (here : q n) (leaf : n.kids = []) : (Emission.ofNode n).All q := by
  intro m mem
  rw [List.mem_singleton.1 mem, everywhere_iff, leaf]
  exact ⟨here, List.forall_mem_nil _⟩

theorem all_wrap {kind : String} {attrs : Attrs} {inner : Emission}
    (here : ∀ cs, q (.branch kind cs attrs)) (all : inner.All q) :
    (Emission.wrap kind attrs inner).All q := by
  intro m mem
  rw [List.mem_singleton.1 mem]
  exact everywhere_iff.2 ⟨here _, all⟩

namespace Renders

variable (renders : Renders p q)
include renders

theorem framed (kind : String) (known : kind ∈ frameKinds) (cs : List Node) (attrs : Attrs) :
    q (.branch kind cs attrs) :=
  renders.frame known

theorem all_join {a b : Emission} (left : a.All q) (right : b.All q) : (a.join b).All q := by
  intro m mem
  rcases mem_joinForests mem with place | place | ⟨x, place, s, text, rfl⟩
  · exact left m place
  · exact right m place
  · refine everywhere_iff.2 ⟨renders.frame ?_, (left x place).below⟩
    exact beq_iff_eq.1 text ▸ List.mem_cons_self

theorem gives {n : Node} (here : p n) : (ruleOf n).Gives (Emission.All q) n := by
  have makes := renders.rule here
  cases same : ruleOf n with
  | wrap kind attrs report => rw [same] at makes; exact fun _ => all_wrap makes
  | leaf kind attrs => rw [same] at makes; exact all_ofNode makes rfl
  | formula kind => rw [same] at makes; exact fun tex => all_ofNode (makes tex) rfl
  | _ => trivial

theorem contributes : Contributes p (Emission.All q) where
  free := renders.free
  empty := all_empty
  ofReport := all_ofReport
  ofText s := by
    unfold Emission.ofText
    split
    · exact all_empty
    · exact all_ofNode (renders.frame (by simp [text, scalar, frameKinds])) rfl
  join := renders.all_join
  rule := renders.gives
  bare {kind} _ known := all_wrap fun cs => by
    have both : ∀ kind ∈ bareKinds, kind ∈ frameKinds := by decide
    exact renders.framed kind (both kind known) cs _
  tab n _ := all_wrap fun cs => renders.framed "tabItem" (by decide) cs _
  container kind n _ := all_wrap fun cs => renders.framed "container" (by decide) cs _
  thematicBreak := all_ofNode (renders.frame (by decide)) rfl
  image _ := all_ofNode (renders.frame (by simp [leaf, frameKinds])) rfl
  code _ := all_ofNode (renders.frame (by simp [scalar, frameKinds])) rfl

/-- What is below an element has its say in all nodes of its content. -/
theorem all_content {s : Setting} {n : Node} (below : ∀ c ∈ n.kids, Everywhere p c) :
    (content s n).All q :=
  renders.contributes.content below

theorem all_render {s : Setting} {n : Node} (all : Everywhere p n) : (render s n).All q :=
  renders.contributes.render all

theorem all_renderAll {s : Setting} {ns : List Node} (all : ∀ n ∈ ns, Everywhere p n) :
    (renderAll s ns).All q :=
  renders.contributes.renderAll all

end Renders

end

/-! ### Kinds of contributions -/

section
variable {allowed : Prop}

def Emission.Fits (allowed : Prop) (e : Emission) : Prop :=
  ∀ n ∈ e.forest, OfKinds (Rendered allowed) n

theorem renders_blocksIf (allowed : Prop) :
    Renders (fun n => BlocksIf allowed n.kind) fun n => Rendered allowed n.kind := by
  constructor
  case rule =>
    intro n plain
    have fits := fits_ruleOf plain
    cases same : ruleOf n with
    | wrap kind attrs report => rw [same] at fits; exact fun _ => fits
    | leaf kind attrs => rw [same] at fits; exact fits
    | formula kind => rw [same] at fits; exact fun _ => fits
    | _ => trivial
  case frame =>
    intro n known
    have both : ∀ kind ∈ frameKinds, kind ∈ renderedKinds ∧ kind ≠ "block" := by decide
    exact rendered_of_ne n.kind (both n.kind known).1 (both n.kind known).2
  case free => exact fun _ here => here

theorem fits_content {s : Setting} {n : Node}
    (below : ∀ c ∈ n.kids, OfKinds (BlocksIf allowed) c) : (content s n).Fits allowed :=
  (renders_blocksIf allowed).all_content below

/-! ### The document -/

theorem forest_render_of_wrap {s : Setting} {n : Node} {kind : String} {attrs : Attrs}
    (rule : ruleOf n = .wrap kind attrs .empty) :
    (render s n).forest = [.branch kind (content s n).forest attrs] := by
  rw [render, rule]
  rfl

theorem render_block {s : Setting} {n : Node} (block : n.kind = "block") :
    (render s n).forest = [.branch "block" (content s n).forest (blockAttrs n)] :=
  forest_render_of_wrap (ruleOf_of_kind block rfl)

theorem content_of_kids {s : Setting} {n : Node} (some : n.kids ≠ []) :
    content s n = renderAll s n.kids := by
  rw [content]
  split
  · rfl
  · next leaf => exact absurd (by rw [kids, leaf]; rfl) some

/-- Each block of an outline becomes a block of the document, and nothing else stands there. -/
theorem renderAll_blocks {s : Setting} {ns : List Node} (blocks : ∀ n ∈ ns, n.kind = "block") :
    (renderAll s ns).forest =
      ns.map fun n => .branch "block" (content s n).forest (blockAttrs n) := by
  induction ns with
  | nil => rw [renderAll]; rfl
  | cons n ns ih =>
    obtain ⟨first, rest⟩ := List.forall_mem_cons.1 blocks
    rw [renderAll, Emission.join, render_block first, ih rest, List.map_cons]
    exact joinForests_before (n := .branch "block" (content s n).forest (blockAttrs n)) rfl [] [] _

theorem emit_fst (formulas : Formula.Converter) (tree : Node) :
    (emit formulas tree).1 = .branch "root" (renderAll ⟨formulas, false⟩ tree.kids).forest := by
  rw [emit_eq]

end

end Manuscript.Myst
