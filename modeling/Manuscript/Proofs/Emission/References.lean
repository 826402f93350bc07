import Manuscript.Proofs.Emission.Origins

/-!
References and the places that they point to. Both are found by the identifier that their text
gives, so a reference of a known type has the identifier of its target, whatever spaces and cases
the text is written with. A reference of an unknown type has the text itself.
-/

set_option autoImplicit false

namespace Manuscript.Myst

open Manuscript.Node

/-! ### Identifiers -/

/-- The label and the identifier that are found under an identifying text. -/
def labelOf (id : Option String) : Option Json :=
  (id.bind Label.ofText?).map fun label => .string label.label

def identifierOf (id : Option String) : Option Json :=
  (id.bind Label.ofText?).map fun label => .string label.identifier

/-- Whether attributes have the label and the identifier of a text, and none if it gives none. -/
structure Labelled (id : Option String) (attrs : Attrs) : Prop where
  label : attrs.find? "label" = labelOf id
  identifier : attrs.find? "identifier" = identifierOf id

theorem labelled_labelEntries (id : Option String) : Labelled id (attrsOf (labelEntries id)) := by
  constructor <;> simp [attrsOf, labelEntries, Dict.find?_insert?, labelOf, identifierOf]

theorem labelled_targetAttrs (n : Node) : Labelled (n.attrText? "id") (targetAttrs n) :=
  labelled_labelEntries _

theorem labelled_headingAttrs (n : Node) : Labelled (n.attrText? "id") (headingAttrs n) := by
  constructor <;>
    simp [headingAttrs, attrsOf, labelEntries, Dict.find?_insert?, labelOf, identifierOf]

theorem labelled_containerAttrs (kind : String) (n : Node) :
    Labelled (n.attrText? "id") (containerAttrs kind n) := by
  have target := labelled_targetAttrs n
  constructor
  · simpa [containerAttrs, Dict.find?_insert] using target.label
  · simpa [containerAttrs, Dict.find?_insert] using target.identifier

/-! ### Targets -/

def targetKinds : List String :=
  ["heading", "container", "math", "inlineMath", "footnoteDefinition"]

/-- Whether a rule labels the targets that it makes by the identifier of the element. -/
def Rule.Labels (n : Node) : Rule → Prop
  | .wrap kind attrs _ | .leaf kind attrs =>
    kind ∈ targetKinds → Labelled (n.attrText? "id") attrs
  | _ => True

theorem labels_ruleOf (n : Node) : (ruleOf n).Labels n := by
  have other (kind : String) (attrs : Attrs) (ne : targetKinds.contains kind = false) :
      kind ∈ targetKinds → Labelled (n.attrText? "id") attrs := by
    intro target
    rw [List.contains_iff_mem.2 target] at ne
    cases ne
  have reference : (referenceRule n).Labels n := by
    unfold referenceRule
    simp only
    split <;> exact other _ _ rfl
  unfold ruleOf
  split
  all_goals first
    | exact trivial
    | exact reference
    | exact fun _ => labelled_headingAttrs n
    | exact fun _ => labelled_targetAttrs n
    | exact other _ _ rfl

theorem exists_own_of_figure {s : Setting} {n : Node} (figure : ruleOf n = .figure) :
    ∃ cs, own? s n = some (.branch "container" cs (containerAttrs "figure" n)) := by
  unfold own?
  rw [render_figure s figure, figure]
  exact ⟨_, rfl⟩

theorem labelled_of_own {s : Setting} {e m : Node} (own : own? s e = some m)
    (target : m.kind ∈ targetKinds) : Labelled (e.attrText? "id") m.attrs := by
  have labels := labels_ruleOf e
  cases rule : ruleOf e with
  | wrap kind attrs report =>
    rw [rule] at labels
    rw [own?, render, rule] at own
    cases own
    exact labels target
  | leaf kind attrs =>
    rw [rule] at labels
    rw [own?, render, rule] at own
    cases own
    exact labels target
  | separator =>
    rw [own?, render, rule] at own
    simp only at own
    split at own
    · cases own
    · cases own
      exact absurd target (by decide)
  -- No reference points to a frame.
  | title | tabs | code =>
    have frames : ∀ kind ∈ ["paragraph", "tabSet", "code"], kind ∉ targetKinds := by decide
    rw [own?, render, rule] at own
    cases own
    exact absurd target (frames _ (by simp [branch, scalar]))
  | formula kind =>
    rw [own?, render, rule] at own
    cases tex : formulaTex? s.formulas e with
    | none =>
      rw [tex] at own
      cases own
    | some tex' =>
      rw [tex] at own
      cases own
      exact labelled_targetAttrs e
  | figure =>
    obtain ⟨cs, container⟩ := exists_own_of_figure (s := s) rule
    cases own.symm.trans container
    exact labelled_containerAttrs "figure" e
  | table =>
    rw [own?, render_table s rule, rule] at own
    cases own
    exact labelled_containerAttrs "table" e
  | children | text | nothing | unknown =>
    rw [own?, rule] at own
    cases own

/-! ### References -/

def referenceType (x : Node) : String := (x.attrText? "ref-type").getD ""

/-- The types of references to the reference list, which become citations. -/
def citingTypes : List String := ["bibr", "ref"]

/-- The types of references to other places that are known. -/
def pointingTypes : List String := ["sec", "fig", "disp-formula", "table", "fn", "table-fn"]

/-- The kinds of nodes that references to other places become. -/
def pointerKinds : List String := ["crossReference", "footnoteReference"]

/-- Whether the attributes of a reference name its target as far as its type is known. -/
structure Points (x : Node) (attrs : Attrs) : Prop where
  known : referenceType x ∈ pointingTypes → Labelled (x.attrText? "rid") attrs
  unknown : referenceType x ∉ pointingTypes →
    attrs.find? "identifier" = (x.attrText? "rid").map Json.string

theorem labelled_kind (kind : String) (id : Option String) :
    Labelled id (attrsOf (("kind", some (.string kind)) :: labelEntries id)) := by
  constructor <;> simp [attrsOf, labelEntries, Dict.find?_insert?, labelOf, identifierOf]

/-- Whether a rule makes a pointer to the target of a reference. -/
def Rule.PointsFor (x : Node) : Rule → Prop
  | .wrap kind attrs _ | .leaf kind attrs => kind ∈ pointerKinds ∧ Points x attrs
  | _ => False

theorem pointsFor_referenceRule {x : Node} (other : referenceType x ∉ citingTypes) :
    (referenceRule x).PointsFor x := by
  have citing {type : String} (same : referenceType x = type) (isCiting : type ∈ citingTypes) :
      False := other (same ▸ isCiting)
  have known {attrs : Attrs} {type : String} (same : referenceType x = type)
      (isKnown : type ∈ pointingTypes) (labelled : Labelled (x.attrText? "rid") attrs) :
      Points x attrs :=
    ⟨fun _ => labelled, fun unknown => absurd (same ▸ isKnown) unknown⟩
  have cross : "crossReference" ∈ pointerKinds := by decide
  have note : "footnoteReference" ∈ pointerKinds := by decide
  unfold referenceRule
  simp only
  split
  · next type => exact (citing type (by decide)).elim
  · next type => exact (citing type (by decide)).elim
  · next type => exact ⟨cross, known type (by decide) (labelled_kind _ _)⟩
  · next type => exact ⟨cross, known type (by decide) (labelled_kind _ _)⟩
  · next type => exact ⟨cross, known type (by decide) (labelled_kind _ _)⟩
  · next type => exact ⟨cross, known type (by decide) (labelled_kind _ _)⟩
  · next type => exact ⟨note, known type (by decide) (labelled_labelEntries _)⟩
  · next type => exact ⟨note, known type (by decide) (labelled_labelEntries _)⟩
  · refine ⟨cross, fun isKnown => ?_, fun _ => ?_⟩
    · simp_all [referenceType, pointingTypes]
    · simp [attrsOf, Dict.find?_insert?]

theorem exists_own_of_xref {s : Setting} {x : Node} (reference : x.kind = "xref")
    (other : referenceType x ∉ citingTypes) :
    ∃ y, own? s x = some y ∧ y.kind ∈ pointerKinds ∧ Points x y.attrs := by
  have rule : ruleOf x = referenceRule x := ruleOf_of_kind reference rfl
  have points := pointsFor_referenceRule other
  unfold own?
  rw [render, rule]
  cases same : referenceRule x <;> rw [same] at points
  case wrap | leaf => exact ⟨_, rfl, points⟩
  all_goals exact points.elim

/-- A reference by the identifying text of a target becomes a pointer. If its type is known, it has
the label and the identifier of the target, or neither has any. If not, its identifier is the text
as it is written, which is that of the target only where the text is its own identifier. -/
theorem references_share_identifiers (formulas : Formula.Converter) (tree : Node) {e m x : Node}
    {t : Setting} {s : String} (target : EmittedAs formulas tree e m) (kind : m.kind ∈ targetKinds)
    (id : e.attrText? "id" = some s) (reached : Reached formulas tree t x)
    (reference : x.kind = "xref") (other : referenceType x ∉ citingTypes)
    (rid : x.attrText? "rid" = some s) :
    ∃ y, own? t x = some y ∧ y.kind ∈ pointerKinds ∧
      m ∈ (emit formulas tree).1.descendants ∧ y ∈ (emit formulas tree).1.descendants ∧
      (referenceType x ∈ pointingTypes →
        y.attr? "label" = m.attr? "label" ∧ y.attr? "identifier" = m.attr? "identifier") ∧
      (referenceType x ∉ pointingTypes → y.attr? "identifier" = some (.string s) ∧
        (y.attr? "identifier" = m.attr? "identifier" ↔
          ∃ l, Label.ofText? s = some l ∧ l.identifier = s)) := by
  obtain ⟨y, own, pointer, points⟩ := exists_own_of_xref (s := t) reference other
  have labelled : Labelled (some s) m.attrs := by
    obtain ⟨u, -, made⟩ := target
    exact id ▸ labelled_of_own made kind
  have solid : ∀ kind ∈ targetKinds ++ pointerKinds, kind ∉ scaffoldKinds := by decide
  refine ⟨y, own, pointer, ?_, ?_, fun known => ?_, fun unknown => ?_⟩
  · exact (mem_descendants_emit_iff (solid _ (List.mem_append_left _ kind))).2 ⟨e, target⟩
  · exact (mem_descendants_emit_iff (solid _ (List.mem_append_right _ pointer))).2
      ⟨x, t, reached, own⟩
  · have same := points.known known
    rw [rid] at same
    exact ⟨same.label.trans labelled.label.symm, same.identifier.trans labelled.identifier.symm⟩
  · have written : y.attr? "identifier" = some (.string s) := by
      rw [attr?, points.unknown unknown, rid]
      rfl
    refine ⟨written, ?_⟩
    rw [written, attr?, labelled.identifier, identifierOf, Option.bind_some, eq_comm,
      Option.map_eq_some_iff]
    simp

/-- A reference to a figure, with spaces around the name of the figure, and one of another type. -/
theorem references_share_identifiers_figure :
    let figure := (branch "fig" []).setAttr "id" (.string "F 1")
    let reference (type : String) := ((branch "xref" [.text "1"]).setAttr "ref-type"
      (.string type)).setAttr "rid" (.string "F 1")
    let tree := branch "body" [figure, branch "p" [reference "fig", reference "app"]]
    let document := (emit (fun _ => none) tree).1
    ∃ m y z, EmittedAs (fun _ => none) tree figure m ∧
      y ∈ document.descendants ∧ z ∈ document.descendants ∧
      m.attr? "identifier" = some (.string "f 1") ∧ y.attr? "identifier" = m.attr? "identifier" ∧
      z.attr? "identifier" = some (.string "F 1") := by
  intro figure reference tree document
  let setting : Setting := ⟨fun _ => none, false⟩
  obtain ⟨cs, container⟩ := exists_own_of_figure (s := setting) (n := figure) rfl
  have target : EmittedAs setting.formulas tree figure _ :=
    ⟨setting, ⟨figure, List.mem_cons_self, .here ..⟩, container⟩
  have isTarget : "container" ∈ targetKinds := by decide
  have paragraph : branch "p" [reference "fig", reference "app"] ∈ tree.kids := by decide +kernel
  have reached (type : String) (mem : reference type ∈ [reference "fig", reference "app"]) :
      Reached setting.formulas tree setting (reference type) :=
    ⟨_, paragraph, .part (mem_below_iff.2 ⟨rfl, _, List.mem_cons_self, mem⟩) (.here ..)⟩
  obtain ⟨y, -, -, -, place, same, -⟩ := references_share_identifiers setting.formulas tree
    target isTarget (s := "F 1") rfl (reached "fig" (by decide +kernel)) rfl (by decide) rfl
  obtain ⟨z, -, -, -, other, -, apart⟩ := references_share_identifiers setting.formulas tree
    target isTarget (s := "F 1") rfl (reached "app" (by decide +kernel)) rfl (by decide) rfl
  exact ⟨_, y, z, target, place, other, rfl, (same (by decide)).2, (apart (by decide)).1⟩

/-- A reference of an unknown type has another identifier than its target, and one in a label is
not emitted at all. -/
theorem references_of_unknown_type :
    let figure := (branch "fig" []).setAttr "id" (.string "F1")
    let reference (type : String) := ((branch "xref" [.text "1"]).setAttr "ref-type"
      (.string type)).setAttr "rid" (.string "F1")
    let tree := branch "body" [figure, reference "app", branch "label" [reference "fig"]]
    (∃ m y, EmittedAs (fun _ => none) tree figure m ∧ m.kind = "container" ∧
      EmittedAs (fun _ => none) tree (reference "app") y ∧
      m.attr? "identifier" = some (.string "f1") ∧ y.attr? "identifier" = some (.string "F1")) ∧
    ((emit (fun _ => none) tree).1.findKinds "crossReference").length = 1 := by
  intro figure reference tree
  let setting : Setting := ⟨fun _ => none, false⟩
  obtain ⟨y, own, -, points⟩ :=
    exists_own_of_xref (s := setting) (x := reference "app") rfl (by decide)
  obtain ⟨cs, container⟩ := exists_own_of_figure (s := setting) (n := figure) rfl
  have target : EmittedAs setting.formulas tree figure _ :=
    ⟨setting, ⟨figure, List.mem_cons_self, .here ..⟩, container⟩
  have emitted : EmittedAs setting.formulas tree (reference "app") y :=
    ⟨setting, ⟨_, List.mem_cons_of_mem _ List.mem_cons_self, .here ..⟩, own⟩
  refine ⟨⟨_, y, target, rfl, emitted, rfl, points.unknown (by decide)⟩, ?_⟩
  decide +kernel

end Manuscript.Myst
