import Manuscript.Proofs.Document.Rendering
import Manuscript.Proofs.Tree.Overlooks

/-!
Rendering does not see remarks. They are rendered as nothing, and no part that a figure or a table
looks for is one.
-/

set_option autoImplicit false

namespace Manuscript.Myst

open Manuscript.Node

/-- What a rule asks of a node that may have remarks in it: formulas and code are read as a whole,
and every child of a group of figures gets a tab. -/
def Rule.Careful (n : Node) : Rule → Prop
  | .formula _ | .code => n.kind ∈ wholeKinds
  | .tabs => n.kind ∉ runningKinds
  | _ => True

theorem careful_ruleOf (n : Node) : (ruleOf n).Careful n := by
  have reference : (referenceRule n).Careful n := by
    unfold referenceRule
    simp only
    split <;> exact trivial
  unfold ruleOf
  split
  all_goals first
    | exact trivial
    | exact reference
    | next same => rw [Rule.Careful, same]; decide

theorem ruleOf_withoutRemarks (n : Node) : ruleOf n.withoutRemarks = ruleOf n := by
  rw [withoutRemarks_eq]
  rfl

theorem render_of_isRemark (s : Setting) {n : Node} (remark : isRemark n = true) :
    render s n = .empty := by
  have rule : ruleOf n = .nothing := by
    rw [ruleOf, kind_of_isRemark remark]
    rfl
  rw [render, rule]

theorem findKind?_withoutRemarks {kind : String} (other : kind ≠ "comment") (n : Node) :
    n.withoutRemarks.findKind? kind = (n.findKind? kind).map withoutRemarks :=
  (overlooks_is other).find? n

theorem figureImage_withoutRemarks (n : Node) : figureImage n.withoutRemarks = figureImage n := by
  unfold figureImage
  rw [findKind?_withoutRemarks (by decide)]
  cases n.findKind? "graphic" with
  | none => rfl
  | some graphic =>
    rw [Option.map_some, Option.bind_some, Option.bind_some, attrText?, attr?, attrs_withoutRemarks]
    rfl

theorem kind_of_findKind? {kind : String} {n m : Node} (found : n.findKind? kind = some m) :
    m.kind = kind := by
  have first : n.descendants.find? (·.is kind) = some m := found
  have isOne := List.find?_some first
  exact beq_iff_eq.1 isOne

/-- A label is read as a whole, so that it is the same without remarks. -/
theorem tabAttrs_withoutRemarks {n : Node} (quiet : Everywhere Quiet n) :
    tabAttrs n.withoutRemarks = tabAttrs n := by
  unfold tabAttrs
  rw [findKind?_withoutRemarks (by decide)]
  cases found : n.findKind? "label" with
  | none => rfl
  | some label =>
    have whole := (quiet.of_find? found).here.whole (by rw [kind_of_findKind? found]; decide)
    rw [Option.map_some, whole]

theorem withoutCaptionParts_withoutRemarks {n : Node} (quiet : Everywhere Quiet n) :
    Blind withoutCaptionParts n := by
  have title : Blind (removeNearest "title") n := blind_removeNearest (by decide) quiet
  have caption := title.trans (g := removeNearest "caption")
    (blind_removeNearest (by decide) title.quiet)
  exact caption.trans (blind_removeNearest (by decide) caption.quiet)

theorem containerAttrs_withoutRemarks (kind : String) (n : Node) :
    containerAttrs kind n.withoutRemarks = containerAttrs kind n := by
  rw [containerAttrs, containerAttrs, targetAttrs, targetAttrs, attrText?, attrText?, attr?, attr?,
    attrs_withoutRemarks]

/-! ### Rendering -/

mutual
theorem content_withoutRemarks (s : Setting) {n : Node} (quiet : Everywhere Quiet n) :
    content s n.withoutRemarks = content s n := by
  rw [content, content, children_withoutRemarks, kids_withoutRemarks, value_withoutRemarks]
  cases n.children with
  | none => rfl
  | some cs => exact renderAll_dropRemarks s quiet.below
termination_by 3 * n.size
decreasing_by have := size_eq n; omega

theorem titlePart_withoutRemarks (s : Setting) {n : Node} (quiet : Everywhere Quiet n) :
    titlePart s n.withoutRemarks = titlePart s n := by
  unfold titlePart
  rw [findKind?_withoutRemarks (by decide), Option.map_map]
  cases found : n.findKind? "title" with
  | none => rfl
  | some title =>
    have inside := content_withoutRemarks s.inside (quiet.of_find? found)
    exact congrArg (fun e => some (boldParagraph e)) inside
termination_by 3 * n.size
decreasing_by have := size_lt_of_find? found; omega

theorem captionPart_withoutRemarks (s : Setting) {n : Node} (quiet : Everywhere Quiet n) :
    captionPart s n.withoutRemarks = captionPart s n := by
  unfold captionPart
  rw [findKind?_withoutRemarks (by decide), Option.map_map]
  cases found : n.findKind? "caption" with
  | none => rfl
  | some caption =>
    have inside := renderAll_dropRemarks s.inside (quiet.of_find? found).below
    rw [← kids_withoutRemarks] at inside
    exact congrArg some inside
termination_by 3 * n.size
decreasing_by have := forestSize_kids_lt_of_find? found; have := size_eq n; omega

theorem labelPart_withoutRemarks (s : Setting) {n : Node} (quiet : Everywhere Quiet n) :
    labelPart s n.withoutRemarks = labelPart s n := by
  unfold labelPart
  rw [findKind?_withoutRemarks (by decide), Option.map_map]
  cases found : n.findKind? "label" with
  | none => rfl
  | some label =>
    have inside := content_withoutRemarks s.inside (quiet.of_find? found)
    exact congrArg (fun e => some (Emission.wrap "paragraph" .empty e)) inside
termination_by 3 * n.size
decreasing_by have := size_lt_of_find? found; omega

theorem render_withoutRemarks (s : Setting) {n : Node} (quiet : Everywhere Quiet n) :
    render s n.withoutRemarks = render s n := by
  have careful := careful_ruleOf n
  -- Figures and tables look for parts of theirs; all other rules go through the children in order.
  cases rule : ruleOf n
  case figure =>
    rw [render_figure s rule, render_figure s ((ruleOf_withoutRemarks n).trans rule),
      titlePart_withoutRemarks s quiet, captionPart_withoutRemarks s quiet,
      containerAttrs_withoutRemarks, figureImage_withoutRemarks]
  case table =>
    have parts := withoutCaptionParts_withoutRemarks quiet
    rw [render_table s rule, render_table s ((ruleOf_withoutRemarks n).trans rule),
      titlePart_withoutRemarks s quiet, captionPart_withoutRemarks s quiet,
      labelPart_withoutRemarks s quiet, containerAttrs_withoutRemarks, parts.commutes,
      kids_withoutRemarks, renderAll_dropRemarks s.inside parts.quiet.below]
  all_goals rw [render, render, ruleOf_withoutRemarks, rule]
  all_goals simp only
  case children => rw [kids_withoutRemarks, renderAll_dropRemarks s quiet.below]
  case text => rw [value_withoutRemarks]
  case wrap => rw [content_withoutRemarks s quiet]
  case title => rw [content_withoutRemarks s quiet]
  case formula =>
    rw [rule] at careful
    rw [quiet.here.whole careful]
  case tabs =>
    rw [rule] at careful
    rw [kids_withoutRemarks, renderTabs_dropRemarks s quiet.below (quiet.here.outside careful)]
  case code =>
    rw [rule] at careful
    rw [quiet.here.whole careful]
  case unknown => rw [kind_withoutRemarks]
termination_by 3 * n.size + 1
decreasing_by
  all_goals have := size_eq n
  all_goals first
    | omega
    | have := size_withoutCaptionParts_le n
      have := size_eq (withoutCaptionParts n)
      omega

theorem renderAll_dropRemarks (s : Setting) : {ns : List Node} → (∀ n ∈ ns, Everywhere Quiet n) →
    renderAll s (dropRemarks ns) = renderAll s ns
  | [], _ => rfl
  | n :: ns, quiet => by
    obtain ⟨first, rest⟩ := List.forall_mem_cons.1 quiet
    have behind := renderAll_dropRemarks s rest
    cases remark : isRemark n with
    | true =>
      rw [dropRemarks_cons_of_true remark, behind, renderAll.eq_2, render_of_isRemark s remark,
        Emission.empty_join]
    | false =>
      rw [dropRemarks_cons_of_false remark, renderAll.eq_2, renderAll.eq_2, behind,
        render_withoutRemarks s first]
termination_by ns => 3 * forestSize ns + 2
decreasing_by
  all_goals simp only [forestSize]
  · have := size_pos n; omega
  · omega

theorem renderTabs_dropRemarks (s : Setting) : {ns : List Node} →
    (∀ n ∈ ns, Everywhere Quiet n) → (∀ n ∈ ns, isRemark n = false) →
    renderTabs s (dropRemarks ns) = renderTabs s ns
  | [], _, _ => rfl
  | n :: ns, quiet, plain => by
    obtain ⟨first, rest⟩ := List.forall_mem_cons.1 quiet
    obtain ⟨kept, others⟩ := List.forall_mem_cons.1 plain
    rw [dropRemarks_cons_of_false kept, renderTabs.eq_2, renderTabs.eq_2,
      tabAttrs_withoutRemarks first, render_withoutRemarks s first,
      renderTabs_dropRemarks s rest others]
termination_by ns => 3 * forestSize ns + 2
decreasing_by
  all_goals simp only [forestSize]
  · omega
  · have := size_pos n; omega
end

/-- A quiet tree is rendered as it is without its remarks. -/
theorem emit_withoutRemarks (formulas : Formula.Converter) {tree : Node}
    (quiet : Everywhere Quiet tree) : emit formulas tree.withoutRemarks = emit formulas tree := by
  rw [emit_eq, emit_eq, kids_withoutRemarks, renderAll_dropRemarks _ quiet.below]

end Manuscript.Myst
