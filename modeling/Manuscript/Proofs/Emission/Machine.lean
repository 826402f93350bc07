import Manuscript.Myst.Emitter
import Manuscript.Proofs.Emission.Rules

/-!
What an emitter makes of a script. Whatever is open, the script of an element adds the contribution
that the element is rendered as to the innermost open node, and nothing else changes. So the
document of a tree has the contribution of the tree's children below its root.
-/

set_option autoImplicit false

namespace Manuscript.Myst

/-! ### Contributions behind the children of an open node -/

namespace Frame

def extend (f : Frame) (forest : List Node) : Frame :=
  { f with newest := (joinForests f.kids forest).reverse }

@[simp] theorem kids_extend (f : Frame) (ns : List Node) :
    (f.extend ns).kids = joinForests f.kids ns := by
  simp [extend, kids]

@[simp] theorem extend_nil (f : Frame) : f.extend [] = f := by
  simp [extend, kids]

theorem extend_extend (f : Frame) (ms ns : List Node) :
    (f.extend ms).extend ns = f.extend (joinForests ms ns) := by
  rw [extend, kids_extend, joinForests_assoc]
  rfl

theorem add_eq_extend {n : Node} (other : n.isText = false) (f : Frame) :
    f.add n = f.extend [n] := by
  have seam : joinForests f.kids [n] = f.kids ++ [n] := by
    simpa using joinForests_behind other [] [] f.kids
  rw [extend, seam]
  simp [add, kids]

theorem addText_eq_extend (f : Frame) (s : String) : f.addText s = f.extend [.text s] := by
  have text : (Node.text s).isText = true := rfl
  obtain ⟨kind, attrs, isLeaf, newest⟩ := f
  cases newest with
  | nil => rfl
  | cons last older =>
    simp only [addText, extend, kids, List.reverse_cons, joinForests_concat, text, Bool.and_true]
    split <;> simp [add, Node.text, Node.scalar]

theorem node_extend (kind : String) (attrs : Attrs) (ns : List Node) :
    (Frame.extend ⟨kind, attrs, false, []⟩ ns).node = .branch kind ns attrs := by
  simp [extend, node, kids]

end Frame

/-! ### Contributions to an emitter -/

namespace Emitter

def add (e : Emitter) (c : Emission) : Emitter :=
  { e.updateTop (·.extend c.forest) with report := e.report.append c.report }

section
variable (e : Emitter)

@[simp] theorem inContainer_updateTop (f : Frame → Frame) :
    (e.updateTop f).inContainer = e.inContainer := by
  unfold updateTop
  split <;> rfl

@[simp] theorem inContainer_add (c : Emission) : (e.add c).inContainer = e.inContainer :=
  inContainer_updateTop ..

theorem add_empty : e.add .empty = e := by
  obtain ⟨root, frames, inContainer, report⟩ := e
  cases frames <;> simp [add, updateTop, Emission.empty]

theorem add_add (a b : Emission) : (e.add a).add b = e.add (a.join b) := by
  obtain ⟨root, frames, inContainer, report⟩ := e
  cases frames <;>
    simp [add, updateTop, Emission.join, Frame.extend_extend, Report.append_assoc]

theorem text_eq_add (s : String) : e.text s = e.add (.ofText s) := by
  unfold text Emission.ofText
  split
  · exact (add_empty e).symm
  · obtain ⟨root, frames, inContainer, report⟩ := e
    cases frames <;> simp [add, updateTop, Emission.ofNode, Frame.addText_eq_extend]

theorem append_eq_add {n : Node} (other : n.isText = false) : e.append n = e.add (.ofNode n) := by
  obtain ⟨root, frames, inContainer, report⟩ := e
  cases frames <;> simp [append, add, updateTop, Emission.ofNode, Frame.add_eq_extend other]

theorem leaf_eq_add {kind : String} (other : kind ≠ "text") (attrs : Attrs) :
    e.leaf kind attrs = e.add (.ofNode (.leaf kind attrs)) :=
  append_eq_add e (n := .leaf kind attrs) (beq_false_of_ne other)

theorem closeNode_add_openNode {kind : String} (other : kind ≠ "text") (attrs : Attrs)
    (c : Emission) :
    ((e.openNode kind attrs false).add c).closeNode = e.add (.wrap kind attrs c) := by
  have node : (Frame.extend ⟨kind, attrs, false, []⟩ c.forest).node = .branch kind c.forest attrs :=
    Frame.node_extend ..
  have text : (Node.branch kind c.forest attrs).isText = false := beq_false_of_ne other
  -- The closed node goes to the root or to the node that was open around it.
  obtain ⟨root, frames, inContainer, report⟩ := e
  cases frames <;>
    simp [openNode, closeNode, append, add, updateTop, Emission.wrap, node,
      Frame.add_eq_extend text]

@[simp] theorem run_nil : e.run [] = e := rfl

@[simp] theorem run_cons (a : Action) (as : List Action) : e.run (a :: as) = (e.act a).run as := rfl

theorem run_append (as bs : List Action) : e.run (as ++ bs) = (e.run as).run bs :=
  List.foldl_append

end

end Emitter

/-! ### Kinds of the nodes that rules make -/

/-- Whether the nodes that a rule makes are no texts. -/
def Rule.Textless : Rule → Prop
  | .wrap kind _ _ | .leaf kind _ | .formula kind => kind ≠ "text"
  | _ => True

theorem textless_ruleOf (n : Node) : (ruleOf n).Textless := by
  have other : ∀ kind ∈ ruleKinds, kind ≠ "text" := by decide
  exact makesKind_ruleOf other n

/-! ### What scripts contribute -/

/-- Whether doing what a script says contributes `c`, as long as the emitter is where the setting
says that it is. -/
def Yields (s : Setting) (as : List Action) (c : Emission) : Prop :=
  ∀ e : Emitter, e.inContainer = s.inContainer → e.run as = e.add c

namespace Yields

variable {s : Setting} {as bs : List Action} {a b c : Emission}

theorem nil : Yields s [] .empty := fun e _ => (e.add_empty).symm

theorem append (left : Yields s as a) (right : Yields s bs b) : Yields s (as ++ bs) (a.join b) := by
  intro e here
  -- What the first script does leaves the note of a container alone, so the second may start.
  rw [e.run_append, left e here, right (e.add a) ((e.inContainer_add a).trans here), e.add_add]

theorem text (t : String) : Yields s [.text t] (.ofText t) := fun e _ => e.text_eq_add t

theorem report (r : Report) : Yields s [.report r] (.ofReport r) := by
  rintro ⟨root, frames, inContainer, before⟩ -
  cases frames <;> simp [Emitter.act, Emitter.add, Emitter.updateTop, Emission.ofReport]

theorem scalar {kind : String} (other : kind ≠ "text") (value : String) (attrs : Attrs) :
    Yields s [.scalar kind value attrs] (.ofNode (.scalar kind value attrs)) :=
  fun e _ => e.append_eq_add (beq_false_of_ne other)

theorem leaf {kind : String} (other : kind ≠ "text") (attrs : Attrs) :
    Yields s (leafScript kind attrs) (.ofNode (.leaf kind attrs)) :=
  fun e _ => e.leaf_eq_add other attrs

theorem separator :
    Yields s [.separator] (if s.inContainer then .empty else .ofNode (.leaf "thematicBreak")) := by
  intro e here
  rw [e.run_cons, Emitter.run_nil, Emitter.act, here]
  split
  · exact (e.add_empty).symm
  · exact e.leaf_eq_add (by decide) .empty

theorem enclosed {kind : String} (other : kind ≠ "text") (attrs : Attrs) (inner : Yields s as c) :
    Yields s (enclosed kind attrs as) (.wrap kind attrs c) := by
  intro e here
  have opened := inner (e.openNode kind attrs false) here
  rw [Myst.enclosed, e.run_cons, Emitter.run_append, Emitter.act, opened]
  exact e.closeNode_add_openNode other attrs c

theorem bold (inner : Yields s as c) : Yields s (boldScript as) (boldParagraph c) :=
  (inner.enclosed (by decide) .empty).enclosed (by decide) .empty

theorem contained (inner : Yields s.inside as c) : Yields s (s.contained as) c := by
  rintro ⟨root, frames, inContainer, before⟩ here
  have during := inner ⟨root, frames, true, before⟩ rfl
  rw [Setting.contained, Emitter.run_cons, Emitter.run_append, Emitter.act, during,
    Emitter.run_cons, Emitter.run_nil, Emitter.act, ← here]
  cases frames <;> rfl

theorem image (n : Node) : Yields s (imageScript n) (figureImage n) := by
  unfold imageScript figureImage
  cases (n.findKind? "graphic").bind fun graphic => graphic.attrText? "xlink:href" with
  | some address => exact leaf (by decide) _
  | none => exact nil

theorem caption {title caption : Option (List Action)} {title' caption' : Option Emission}
    (titled : Option.Rel (Yields s) title title')
    (captioned : Option.Rel (Yields s) caption caption') :
    Yields s (captionScript [title, caption]) (captionOf [title', caption']) := by
  cases titled with
  | none =>
    cases captioned with
    | none => exact nil
    | some part => exact (part.append nil).enclosed (by decide) .empty
  | some first =>
    cases captioned with
    | none => exact (first.append nil).enclosed (by decide) .empty
    | some part => exact (first.append (part.append nil)).enclosed (by decide) .empty

end Yields

mutual
theorem yields_content {s : Setting} {n : Node} : Yields s (contentScript s n) (content s n) := by
  rw [contentScript, content]
  cases n.children with
  | some cs => exact yields_renderAll
  | none => exact .text _
termination_by 3 * n.size
decreasing_by have := Node.size_eq n; omega

theorem yields_render {s : Setting} {n : Node} : Yields s (script s n) (render s n) := by
  have kinds := textless_ruleOf n
  rw [script, render]
  cases rule : ruleOf n with
  | children => exact yields_renderAll
  | text => exact .text _
  | wrap kind attrs report =>
    rw [rule] at kinds
    exact (Yields.report report).append (yields_content.enclosed kinds attrs)
  | leaf kind attrs =>
    rw [rule] at kinds
    exact .leaf kinds attrs
  | separator => exact .separator
  | title => exact yields_content.bold
  | formula kind =>
    rw [rule] at kinds
    cases formulaTex? s.formulas n with
    | some tex => exact .scalar kinds tex _
    | none => exact yields_renderAll
  | tabs => exact yields_renderTabs.enclosed (by decide) .empty
  | figure =>
    -- The title and the caption are found anywhere below, so the recursion is on sizes.
    refine (((Yields.image n).append (Yields.caption ?_ ?_)).enclosed (by decide) _).contained
    · cases found : n.findKind? "title" with
      | none => exact .none
      | some title => exact .some yields_content.bold
    · cases found : n.findKind? "caption" with
      | none => exact .none
      | some caption => exact .some yields_renderAll
  | table =>
    refine (((Yields.caption ?_ ?_).append yields_renderAll).enclosed (by decide) _).contained
    · cases found : n.findKind? "title" with
      | none => exact .none
      | some title => exact .some yields_content.bold
    · cases found : n.findKind? "caption" with
      | none =>
        cases found : n.findKind? "label" with
        | none => exact .none
        | some label => exact .some (yields_content.enclosed (by decide) .empty)
      | some caption => exact .some yields_renderAll
  | code => exact .scalar (by decide) _ _
  | nothing => exact .nil
  | unknown => exact .report _
termination_by 3 * n.size + 1
decreasing_by
  all_goals have := Node.size_eq n
  · omega
  · omega
  · omega
  · omega
  · omega
  · have := Node.size_lt_of_find? (by assumption); omega
  · have := Node.size_lt_of_find? (by assumption); have := Node.size_eq caption; omega
  · have := Node.size_lt_of_find? (by assumption); omega
  · have := Node.size_lt_of_find? (by assumption); omega
  · have := Node.size_lt_of_find? (by assumption); have := Node.size_eq caption; omega
  · have := size_withoutCaptionParts_le n; have := Node.size_eq (withoutCaptionParts n); omega

theorem yields_renderAll {s : Setting} :
    {ns : List Node} → Yields s (scriptAll s ns) (renderAll s ns)
  | [] => by
    rw [scriptAll, renderAll]
    exact .nil
  | n :: ns => by
    rw [scriptAll, renderAll]
    exact yields_render.append yields_renderAll
termination_by ns => 3 * Node.forestSize ns + 2
decreasing_by
  all_goals simp only [Node.forestSize]
  · omega
  · have := Node.size_pos n; omega

theorem yields_renderTabs {s : Setting} : {ns : List Node} →
    Yields s (tabScript s ns) (renderTabs s ns)
  | [] => by
    rw [tabScript, renderTabs]
    exact .nil
  | n :: ns => by
    rw [tabScript, renderTabs]
    exact (yields_render.enclosed (by decide) _).append yields_renderTabs
termination_by ns => 3 * Node.forestSize ns + 2
decreasing_by
  all_goals simp only [Node.forestSize]
  · omega
  · have := Node.size_pos n; omega
end

/-- Rendering an element contributes to the innermost open node, whatever is open. -/
theorem render_eq_add (e : Emitter) (formulas : Formula.Converter) (n : Node) :
    e.render formulas n = e.add (Myst.render ⟨formulas, e.inContainer⟩ n) :=
  yields_render e rfl

theorem renderChildren_eq_add (e : Emitter) (formulas : Formula.Converter) (n : Node) :
    e.renderChildren formulas n = e.add (renderAll ⟨formulas, e.inContainer⟩ n.kids) :=
  yields_renderAll e rfl

theorem emit_eq (formulas : Formula.Converter) (tree : Node) :
    emit formulas tree =
      (.branch "root" (renderAll ⟨formulas, false⟩ tree.kids).forest,
        (renderAll ⟨formulas, false⟩ tree.kids).report) := by
  unfold emit
  rw [renderChildren_eq_add]
  exact Prod.ext (Frame.node_extend ..) (Report.empty_append _)

end Manuscript.Myst
