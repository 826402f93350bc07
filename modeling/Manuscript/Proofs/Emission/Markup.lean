import Manuscript.Proofs.Document.Neat
import Manuscript.Proofs.Emission.Texts

/-!
Markup keeps its text. An element that is rendered as its content, in a node or without one, has the
text of its content, and the texts that meet on the way become one text.
-/

set_option autoImplicit false

namespace Manuscript.Myst

open Manuscript.Node

/-! ### Texts of contributions -/

def Emission.text (e : Emission) : String := forestText e.forest

section
variable {s : Setting} {n : Node}

theorem text_empty : Emission.empty.text = "" := rfl

theorem text_join {a b : Emission} (left : a.Plain) (right : b.Plain) :
    (a.join b).text = a.text ++ b.text :=
  forestText_joinForests left right

theorem text_ofReport_join (r : Report) (e : Emission) :
    ((Emission.ofReport r).join e).text = e.text :=
  congrArg forestText (joinForests_nil_left e.forest)

theorem text_ofText (s : String) : (Emission.ofText s).text = s := by
  unfold Emission.ofText
  split
  · next empty => exact (String.isEmpty_iff.1 empty).symm
  · simp [Emission.text, Emission.ofNode, forestText, text, scalar, toText]

theorem text_wrap (kind : String) (attrs : Attrs) (e : Emission) :
    (Emission.wrap kind attrs e).text = e.text := by
  simp [Emission.text, Emission.wrap, forestText, branch, toText]

theorem text_boldParagraph (e : Emission) : (boldParagraph e).text = e.text := by
  rw [boldParagraph, text_wrap, text_wrap]

theorem text_renderAll_cons (s : Setting) (n : Node) (ns : List Node) :
    (renderAll s (n :: ns)).text = (render s n).text ++ (renderAll s ns).text := by
  rw [renderAll, text_join plain_render plain_renderAll]

theorem text_renderTabs (s : Setting) (ns : List Node) :
    (renderTabs s ns).text = (renderAll s ns).text := by
  induction ns with
  | nil => rw [renderTabs, renderAll]
  | cons n ns ih =>
    rw [renderTabs, text_join (.wrap (by decide) _ _) (plain_renderTabs s ns), text_wrap, ih,
      text_renderAll_cons]

theorem unhandled_renderTabs (s : Setting) (ns : List Node) :
    (renderTabs s ns).report = (renderAll s ns).report := by
  induction ns with
  | nil => rw [renderTabs, renderAll]
  | cons n ns ih =>
    rw [renderTabs, renderAll, Emission.join, ih]
    rfl

theorem text_content (bare : n.children = none → n.value = none) :
    (content s n).text = (renderAll s n.kids).text := by
  rw [content]
  cases children : n.children with
  | some cs => rfl
  | none =>
    have none : n.kids = [] := by rw [kids, children]; rfl
    rw [none, bare children, renderAll]
    rfl

theorem report_content (s : Setting) (n : Node) :
    (content s n).report = (renderAll s n.kids).report := by
  rw [content]
  cases children : n.children with
  | some cs => rfl
  | none =>
    have none : n.kids = [] := by rw [kids, children]; rfl
    rw [none, renderAll, Emission.ofText]
    show (if _ then Emission.empty else Emission.ofNode _).report = _
    split <;> rfl

/-! ### Elements that are rendered as their content -/

/-- Whether a rule renders an element as its content, maybe with nodes around it. -/
def Rule.isOpen : Rule → Bool
  | .children | .wrap _ _ _ | .title | .tabs => true
  | _ => false

theorem text_render_of_isOpen (isOpen : (ruleOf n).isOpen = true)
    (bare : n.children = none → n.value = none) :
    (render s n).text = (renderAll s n.kids).text := by
  rw [render]
  cases rule : ruleOf n <;> rw [rule] at isOpen
  case wrap kind attrs report =>
    exact (text_ofReport_join ..).trans ((text_wrap ..).trans (text_content bare))
  case title => exact (text_boldParagraph _).trans (text_content bare)
  case tabs => exact (text_wrap ..).trans (text_renderTabs ..)
  all_goals cases isOpen

/-- The report that comes with a rule is about no kind that has no rule. -/
def Rule.Handles : Rule → Prop
  | .wrap _ _ report => report.unhandled = .empty
  | _ => True

theorem handles_ruleOf (n : Node) : (ruleOf n).Handles := by
  have reference : (referenceRule n).Handles := by
    unfold referenceRule
    simp only
    split <;> first
      | exact trivial
      | exact rfl
  unfold ruleOf
  split
  all_goals first
    | exact trivial
    | exact reference
    | exact rfl

theorem unhandled_render_of_isOpen (isOpen : (ruleOf n).isOpen = true) :
    (render s n).report.unhandled = (renderAll s n.kids).report.unhandled := by
  have handles := handles_ruleOf n
  rw [render]
  cases rule : ruleOf n <;> rw [rule] at isOpen handles
  case wrap kind attrs report =>
    show report.unhandled.insertAll (content s n).report.unhandled = _
    rw [handles, report_content]
    simp
  case title => exact congrArg Report.unhandled (report_content s n)
  case tabs => exact congrArg Report.unhandled (unhandled_renderTabs s n.kids)
  all_goals cases isOpen

end

/-! ### Markup -/

def markupKinds : List String :=
  ["body", "p", "heading", "block", "title", "disp-quote", "list", "list-item", "bold", "italic",
    "underline", "monospace", "sub", "sup", "strike", "sc", "ext-link", "uri", "media",
    "boxed-text", "admonitionTitle", "table", "thead", "tbody", "tfoot", "tr", "th", "td",
    "table-wrap-foot", "named-content", "fn-group", "supplementary-material", "caption", "fn",
    "code", "preformat"]

/-- Whether a node is a text, or marks up text and has none of its own. References to notes do not
count, as the mark of the note takes the place of the text. -/
def IsMarkup (n : Node) : Prop :=
  (n.kind = "text" ∧ n.kids = []) ∨
    (n.value = none ∧ (n.kind ∈ markupKinds ∨
      (n.kind = "xref" ∧ n.attrText? "ref-type" ≠ some "fn" ∧
        n.attrText? "ref-type" ≠ some "table-fn")))

instance : DecidablePred IsMarkup := fun _ => inferInstanceAs (Decidable (_ ∨ _))

/-- Whether a rule keeps the text of an element as it is. -/
def Rule.Keeps : Rule → Prop
  | .code => True
  | rule => rule.isOpen = true

theorem keeps_ruleOf {n : Node} (known : n.kind ∈ markupKinds) : (ruleOf n).Keeps := by
  unfold ruleOf
  split
  all_goals first
    | exact trivial
    | exact rfl
    | next same => rw [same] at known; exact absurd known (by decide)
    | simp_all [markupKinds]

theorem keeps_reference {n : Node} (kind : n.kind = "xref")
    (other : n.attrText? "ref-type" ≠ some "fn" ∧ n.attrText? "ref-type" ≠ some "table-fn") :
    (ruleOf n).Keeps := by
  have rule : ruleOf n = referenceRule n := ruleOf_of_kind kind rfl
  rw [rule]
  unfold referenceRule
  simp only
  split
  case h_7 | h_8 =>
    rename_i type
    cases found : n.attrText? "ref-type" <;> simp_all
  all_goals exact rfl

theorem says_renderAll_of {s : Setting} {ns : List Node}
    (each : ∀ n ∈ ns, (render s n).text = n.toText ∧ (render s n).report.unhandled = .empty) :
    (renderAll s ns).text = forestText ns ∧ (renderAll s ns).report.unhandled = .empty := by
  induction ns with
  | nil => rw [renderAll]; exact ⟨rfl, rfl⟩
  | cons n ns ih =>
    obtain ⟨⟨text, none⟩, rest⟩ := List.forall_mem_cons.1 each
    obtain ⟨texts, nones⟩ := ih rest
    rw [text_renderAll_cons, text, texts, forestText, renderAll]
    refine ⟨rfl, ?_⟩
    show (render s n).report.unhandled.insertAll (renderAll s ns).report.unhandled = _
    rw [none, nones]
    rfl

/-- Markup is rendered with the text that it has, and nothing of it lacks a rule. -/
theorem says_render (s : Setting) {n : Node} (markup : Everywhere IsMarkup n) :
    (render s n).text = n.toText ∧ (render s n).report.unhandled = .empty := by
  induction n using induction_on_kids with
  | node n ih =>
    have below := says_renderAll_of fun c child => ih c child (markup.below c child)
    rcases markup.here with ⟨kind, leaf⟩ | ⟨bare, known⟩
    · have rule : ruleOf n = .text := ruleOf_of_kind kind rfl
      rw [render, rule, toText_eq, leaf]
      refine ⟨(text_ofText _).trans (by simp [forestText]), ?_⟩
      show (Emission.ofText (n.value.getD "")).report.unhandled = _
      unfold Emission.ofText
      split <;> rfl
    · have keeps : (ruleOf n).Keeps := known.elim keeps_ruleOf fun xref =>
        keeps_reference xref.1 xref.2
      have own : n.toText = forestText n.kids := by rw [toText_eq, bare]; exact String.empty_append
      cases isOpen : (ruleOf n).isOpen with
      | true =>
        rw [text_render_of_isOpen isOpen fun _ => bare, unhandled_render_of_isOpen isOpen, own]
        exact below
      | false =>
        have rule : ruleOf n = .code := by
          cases rule : ruleOf n <;> rw [rule] at keeps isOpen <;> simp_all [Rule.Keeps]
        rw [render, rule]
        refine ⟨?_, rfl⟩
        simp [Emission.text, Emission.ofNode, forestText, scalar, toText]

/-- The document of markup has the text of the markup, and no element of it lacks a rule. In the
document of any tree, texts are neither empty nor next to each other. -/
theorem emission_of_markup (formulas : Formula.Converter) :
    (∀ tree : Node, tree.value = none → (∀ n ∈ tree.descendants, IsMarkup n) →
      (emit formulas tree).1.toText = tree.toText ∧ (emit formulas tree).2.unhandled = .empty) ∧
    ∀ tree : Node, ∀ n ∈ (emit formulas tree).1.nodes,
      (∀ c ∈ n.kids, isEmptyText c = false) ∧ TextsApart n.kids := by
  constructor
  · intro tree bare markup
    have below : ∀ c ∈ tree.kids, Everywhere IsMarkup c := forall_mem_descendants_iff.1 markup
    have same := says_renderAll_of fun c child => says_render ⟨formulas, false⟩ (below c child)
    rw [toText_emit, toText_eq, bare, emit_eq]
    exact ⟨same.1.trans String.empty_append.symm, same.2⟩
  · intro tree n mem
    have neat := neatTree_emit formulas tree n mem
    exact ⟨neat.filled, neat.apart⟩

/-- A list with a word in italics, a code and a reference in its items. -/
def annotatedList : Node :=
  .branch "body" [.branch "list"
    [.branch "list-item" [.text "a ", .branch "italic" [.text "b"], .branch "body" [.text " c"]],
      .branch "list-item" [.branch "code" [.text "d", .branch "bold" [.text "e"]],
        .branch "xref" [.text "1"] (attrsOf [("ref-type", some (.string "bibr"))])]]]

theorem emission_of_annotatedList :
    (annotatedList.value = none ∧ ∀ n ∈ annotatedList.descendants, IsMarkup n) ∧
      (emit (fun _ => none) annotatedList).1.toText = "a b cde1" ∧
        (emit (fun _ => none) annotatedList).2.unhandled = .empty := by
  have markup : ∀ n ∈ annotatedList.descendants, IsMarkup n := by decide
  have same := (emission_of_markup fun _ => none).1 annotatedList rfl markup
  exact ⟨⟨rfl, markup⟩, same.1.trans (by decide), same.2⟩

end Manuscript.Myst
