import Manuscript.Proofs.Document.Landmarks
import Manuscript.Proofs.Document.Preparation
import Manuscript.Proofs.Document.Provenance
import Manuscript.Proofs.Document.Rendering
import Manuscript.Proofs.Reference.Identifiers

/-!
The footnotes of the reference list in a document. They are numbered, and a number is their
identifier; where the article has no footnote of its own with that identifier, a reference to the
number has one footnote to point to.
-/

set_option autoImplicit false

namespace Manuscript

open Node Myst Myst.Citation Reference Conversion

/-- Whether an element is a footnote that references find by an identifier. -/
def isNote (identifier : String) (n : Node) : Bool :=
  n.is "fn" && ((n.attrText? "id").bind Label.ofText?).any (·.identifier == identifier)

/-- Whether a node of a document is a footnote with an identifier. -/
def isDefinition (identifier : String) (n : Node) : Bool :=
  n.is "footnoteDefinition" && n.attrText? "identifier" == some identifier

/-- Whether a node of a document points to a footnote with an identifier. -/
def PointsTo (identifier : String) (n : Node) : Prop :=
  n.kind = "footnoteReference" ∧ n.attrText? "identifier" = some identifier

/-- Whether a tree has a reference to a footnote with an identifier. -/
def Refers (identifier : String) (tree : Node) : Prop := ∃ n ∈ tree.nodes, PointsTo identifier n

section
variable {identifier : String}

theorem notes_isNote (identifier : String) : Notes (isNote identifier) := by
  constructor
  · intro n isOne
    simp only [isNote, Bool.and_eq_true] at isOne
    exact beq_iff_eq.1 isOne.1
  · intro m n kind id
    simp only [isNote, is, attrText?, kind, id]

theorem landmarks_isDefinition (identifier : String) : Landmarks (isDefinition identifier) := by
  constructor
  · intro n isOne
    simp only [isDefinition, Bool.and_eq_true] at isOne
    rw [beq_iff_eq.1 isOne.1]
    decide
  · intro m n kind id
    simp only [isDefinition, is, attrText?, kind, id]

/-! ### Rendering -/

theorem attrText?_targetAttrs (kind : String) (cs : List Node) (n : Node) :
    (branch kind cs (targetAttrs n)).attrText? "identifier" =
      ((n.attrText? "id").bind Label.ofText?).map (·.identifier) := by
  unfold targetAttrs labelEntries
  cases (n.attrText? "id").bind Label.ofText? <;>
    simp [attrsOf, attrText?, attr?, branch, Dict.insert?, Dict.find?_insert, Json.asString?]

theorem isDefinition_branch (cs : List Node) {n : Node} (note : n.kind = "fn") :
    isDefinition identifier (.branch "footnoteDefinition" cs (targetAttrs n)) =
      isNote identifier n := by
  have kind : (branch "footnoteDefinition" cs (targetAttrs n)).is "footnoteDefinition" = true := rfl
  rw [isDefinition, attrText?_targetAttrs, isNote, kind, is, note]
  cases (n.attrText? "id").bind Label.ofText? <;> rfl

theorem renders_isNote (identifier : String) :
    Renders (fun n => isNote identifier n = false) fun n => isDefinition identifier n = false := by
  apply (landmarks_isDefinition identifier).renders (notes_isNote identifier).inherent
  · exact fun _ _ _ => rfl
  · exact fun none note cs => (isDefinition_branch cs note).trans none

theorem forest_render_note {s : Setting} {n : Node} (note : n.kind = "fn") :
    (render s n).forest = [.branch "footnoteDefinition" (content s n).forest (targetAttrs n)] :=
  forest_render_of_wrap (ruleOf_of_kind note rfl)

theorem render_group {s : Setting} {n : Node} (group : n.kind = "fn-group") :
    render s n = renderAll s n.kids := by
  have rule : ruleOf n = .children := ruleOf_of_kind group rfl
  rw [render, rule]

end

section
variable {p : Node → Prop} {wanted : Node → Bool}
  (renders : Renders p fun n => wanted n = false)
include renders

theorem clear_joinForests {xs ys : List Node} (front : Clear wanted xs) (back : Clear wanted ys) :
    Clear wanted (joinForests xs ys) :=
  renders.all_join (a := ⟨xs, .empty⟩) (b := ⟨ys, .empty⟩) front back

/-- The only wanted node of the contribution of an element is the only one of the whole. -/
theorem lone_renderAll {s : Setting} {n : Node} {before after : List Node}
    (lone : Lone wanted [] (render s n).forest) (front : ∀ m ∈ before, Everywhere p m)
    (back : ∀ m ∈ after, Everywhere p m) :
    Lone wanted [] (renderAll s (before ++ n :: after)).forest := by
  have other {m : Node} (isOne : wanted m = true) : m.isText = false := by
    rw [← Bool.not_eq_true]
    intro text
    have none : wanted m = false := renders.frame (by rw [beq_iff_eq.1 text]; decide)
    rw [none] at isOne
    cases isOne
  induction before with
  | nil =>
    have rest : Clear wanted (renderAll s after).forest := renders.all_renderAll back
    rw [List.nil_append, renderAll]
    show Lone wanted [] (joinForests _ _)
    obtain ⟨xs, m, ys, parts, isOne, inside, start, behind⟩ := lone.exists_top
    rw [parts, joinForests_before (other isOne)]
    exact .top isOne inside start (clear_joinForests renders behind rest)
  | cons m before ih =>
    obtain ⟨first, others⟩ := List.forall_mem_cons.1 front
    have start : Clear wanted (render s m).forest := renders.all_render first
    rw [List.cons_append, renderAll]
    show Lone wanted [] (joinForests _ _)
    obtain ⟨xs, k, ys, parts, isOne, inside, early, behind⟩ := (ih others).exists_top
    rw [parts, joinForests_behind (other isOne)]
    exact .top isOne inside (clear_joinForests renders start early) behind

end

section
variable {identifier : String}

/-- The only footnote with an identifier becomes the only definition with it, in its block. -/
theorem lone_emit (formulas : Formula.Converter) {tree : Node}
    (blocks : ∀ n ∈ tree.kids, n.kind = "block")
    (lone : Lone (isNote identifier) ["block", "fn-group"] tree.kids) :
    Lone (isDefinition identifier) ["block"] (emit formulas tree).1.kids := by
  have renders := renders_isNote identifier
  have clear {s : Setting} {n : Node} (all : Everywhere (fun n => isNote identifier n = false) n) :
      Everywhere (fun n => isDefinition identifier n = false)
        (.branch "block" (content s n).forest (blockAttrs n)) :=
    everywhere_iff.2 ⟨rfl, renders.all_content all.below⟩
  obtain ⟨before, block, after, parts, kind, -, within, front, back⟩ := lone.exists_under
  obtain ⟨early, group, late, inside, isGroup, -, notes, start, stop⟩ := within.exists_under
  obtain ⟨first, note, last, members, isOne, below, ahead, behind⟩ := notes.exists_top
  rw [emit_fst]
  show Lone _ _ (renderAll _ tree.kids).forest
  rw [renderAll_blocks blocks, parts, List.map_append, List.map_cons]
  refine .under (n := .branch "block" (content ⟨formulas, false⟩ block).forest (blockAttrs block))
    rfl ?_ (List.forall_mem_map.2 fun n mem => clear (front n mem))
    (List.forall_mem_map.2 fun n mem => clear (back n mem))
  -- The group gives way to the footnotes in it, and each of these is rendered as a definition.
  show Lone _ [] (content _ block).forest
  rw [content_of_kids (by rw [inside]; simp), inside]
  apply lone_renderAll renders _ start stop
  rw [render_group isGroup, members]
  apply lone_renderAll renders _ ahead behind
  have fn : note.kind = "fn" := (notes_isNote identifier).own isOne
  rw [forest_render_note fn]
  have definition := (isDefinition_branch (content ⟨formulas, false⟩ note).forest fn).trans isOne
  exact .top definition (renders.all_content below) (List.forall_mem_nil _) (List.forall_mem_nil _)

/-! ### Lists of abbreviations -/

/-- Where neither the definition nor the block around it is removed, it stays the only one. -/
theorem lone_removeFrom {removed : Node → Bool} {ns : List Node}
    (kept : ∀ n, isDefinition identifier n = true → removed n = false)
    (sheltered : ∀ n, n.kind = "block" → (∃ m ∈ n.kids, isDefinition identifier m = true) →
      removed n = false)
    (lone : Lone (isDefinition identifier) ["block"] ns) :
    Lone (isDefinition identifier) ["block"] (removeFrom removed ns) := by
  have inherent := (landmarks_isDefinition identifier).inherent
  have clear {ns : List Node} (none : Clear (isDefinition identifier) ns) :=
    inherent.clear_removeFrom removed none
  have same (n : Node) :
      isDefinition identifier (removeWhere removed n) = isDefinition identifier n := by
    rw [removeWhere_eq, inherent.mapChildren]
  obtain ⟨before, block, after, rfl, kind, other, within, front, back⟩ := lone.exists_under
  obtain ⟨early, n, late, parts, isOne, inside, start, stop⟩ := within.exists_top
  have stays : removed block = false := by
    apply sheltered block kind
    exact ⟨n, by rw [parts]; simp, isOne⟩
  have below {m : Node} : (removeWhere removed m).kids = removeFrom removed m.kids := by
    rw [kids_removeWhere, removeFrom_eq_map]
  rw [removeFrom_around stays, ← kind, ← kind_removeWhere removed block]
  apply Lone.under ((same block).trans other) _ (clear front) (clear back)
  rw [below, parts, removeFrom_around (kept n isOne)]
  refine .top ((same n).trans isOne) ?_ (clear start) (clear stop)
  rw [below]
  exact clear inside

theorem kind_of_isDefinition {n : Node} (isOne : isDefinition identifier n = true) :
    n.kind = "footnoteDefinition" := by
  simp only [isDefinition, Bool.and_eq_true] at isOne
  exact beq_iff_eq.1 isOne.1

theorem lone_extractSections {tree : Node} (f : Frontmatter)
    (lone : Lone (isDefinition identifier) ["block"] tree.kids) :
    Lone (isDefinition identifier) ["block"] (extractSections tree f).tree.kids := by
  rw [extractSections, kids_extract]
  refine lone_removeFrom (fun n isOne => ?_) (fun n _ within => ?_) lone
  · rw [sectionAbbreviations?_of_ne (by rw [kind_of_isDefinition isOne]; decide)]
    rfl
  · rw [← Bool.not_eq_true]
    intro list
    obtain ⟨m, child, isOne⟩ := within
    obtain ⟨-, heading, paragraph, parts, first, second⟩ := exists_kids_of_isSome list
    -- A list of abbreviations has a heading and a paragraph, and no definition beside them.
    rw [parts] at child
    have kind := kind_of_isDefinition isOne
    rcases List.mem_cons.1 child with rfl | rest
    · exact absurd (first.symm.trans kind) (by decide)
    · rw [List.mem_singleton.1 rest] at kind
      exact absurd (second.symm.trans kind) (by decide)

theorem lone_extractFootnotes {tree : Node} (f : Frontmatter)
    (referenced : (referencedFootnotes tree).contains identifier = true)
    (lone : Lone (isDefinition identifier) ["block"] tree.kids) :
    Lone (isDefinition identifier) ["block"] (extractFootnotes tree f).tree.kids := by
  rw [extractFootnotes, kids_extract]
  refine lone_removeFrom (fun n isOne => ?_) (fun n block _ => ?_) lone
  · rw [footnoteAbbreviations?_of_not_isOrphan]
    · rfl
    · simp only [isDefinition, Bool.and_eq_true, beq_iff_eq] at isOne
      simp [isOrphan, isOne.2, referenced]
  · rw [footnoteAbbreviations?_of_not_isOrphan (isOrphan_of_ne (by rw [block]; decide))]
    rfl

/-! ### Documents -/

/-- No reference is made where none is among the nodes that are kept, new paragraphs and texts. -/
theorem refers_of_everywhere {tree after : Node}
    (keeps : ∀ p : Node → Prop, KidsFree p → (∀ cs, p (.branch "paragraph" cs)) →
      (∀ n, n.kind = "text" → p n) → Everywhere p tree → Everywhere p after)
    (refers : Refers identifier after) : Refers identifier tree := by
  obtain ⟨n, mem, points⟩ := refers
  refine Classical.byContradiction fun none => ?_
  have all : Everywhere (fun m => ¬PointsTo identifier m) tree :=
    fun m inside here => none ⟨m, inside, here⟩
  have other (kind : String) (ne : kind ≠ "footnoteReference") {m : Node} (same : m.kind = kind) :
      ¬PointsTo identifier m := fun here => ne (same.symm.trans here.1)
  exact keeps _ (fun _ here => here) (fun cs => other "paragraph" (by decide) rfl)
    (fun m => other "text" (by decide)) all n mem points

theorem refers_of_refers_clean {tree : Node} (refers : Refers identifier (clean tree)) :
    Refers identifier tree :=
  refers_of_everywhere (fun _ free paragraph text => everywhere_clean free paragraph
    fun n s isText _ => text (extendText n s) isText) refers

theorem refers_of_refers_removeWhere {removed : Node → Bool} {tree : Node}
    (refers : Refers identifier (removeWhere removed tree)) : Refers identifier tree := by
  refine refers_of_everywhere (fun _ free _ _ all => everywhere_removeWhere (fun m all => ?_) all)
    refers
  rw [removeWhere_eq]
  exact free.mapChildren _ all.here

theorem contains_referencedFootnotes_of_refers {tree : Node} (root : tree.kind = "root")
    (refers : Refers identifier tree) :
    (referencedFootnotes tree).contains identifier = true := by
  obtain ⟨n, mem, kind, same⟩ := refers
  rcases List.mem_cons.1 mem with rfl | below
  · exact absurd (root.symm.trans kind) (by decide)
  · exact contains_referencedFootnotes below kind same

theorem contains_of_mem_clean {tree n : Node} (root : tree.kind = "root") {f : Frontmatter}
    (mem : n ∈ (clean (extractFootnotes tree f).tree).nodes) (points : PointsTo identifier n) :
    (referencedFootnotes tree).contains identifier = true :=
  contains_referencedFootnotes_of_refers root
    (refers_of_refers_removeWhere (refers_of_refers_clean ⟨n, mem, points⟩))

theorem lone_of_skips {on : String → Prop} {f : Node → Node}
    (skips : Skips (isDefinition identifier) on f)
    (known : ∀ kind ∈ ["root", "block", "footnoteDefinition"], on kind) {tree : Node}
    (root : tree.kind = "root") (lone : Lone (isDefinition identifier) ["block"] tree.kids) :
    Lone (isDefinition identifier) ["block"] (f tree).kids := by
  rw [skips.kids (by rw [root]; exact known _ (by decide))]
  refine skips.passage.lone (landmarks_isDefinition identifier).inherent (fun n isOne => ?_)
    (fun kind mem => ?_) lone
  · rw [kind_of_isDefinition isOne]
    exact known _ (by decide)
  · rw [List.mem_singleton.1 mem]
    exact known _ (by decide)

theorem lone_concluded {tree n : Node} (root : tree.kind = "root") (f : Frontmatter)
    (lone : Lone (isDefinition identifier) ["block"] tree.kids)
    (mem : n ∈ (concluded f tree).nodes) (points : PointsTo identifier n) :
    Lone (isDefinition identifier) ["block"] (concluded f tree).kids := by
  have top : (extractSections tree f).tree.kind = "root" := (kind_removeWhere _ _).trans root
  have referenced := contains_of_mem_clean top mem points
  have cleaning := (landmarks_isDefinition identifier).skips_cleanBy (referencedFootnotes
    (extractFootnotes (extractSections tree f).tree (extractSections tree f).frontmatter).tree)
  rw [concluded, clean_eq]
  exact lone_of_skips cleaning (by decide) ((kind_removeWhere _ _).trans top)
    (lone_extractFootnotes _ referenced (lone_extractSections f lone))

theorem lone_convert {a : Article} {options : Options} {c : Conversion} {registry : Registry}
    (registered : Registry.ofReferences options.sources a.references = .ok registry)
    (converted : a.convert options = .ok c)
    (lone : Lone (isNote identifier) ["fn-group"] (assemble a registry.footnoteGroup?).kids)
    {n : Node} (mem : n ∈ c.tree.nodes) (points : PointsTo identifier n) :
    c.tree.kind = "root" ∧ Lone (isDefinition identifier) ["block"] c.tree.kids := by
  have emitted := lone_emit options.formulas (blocks_prepare a registry.footnoteGroup?)
    (lone_prepare (notes_isNote identifier) lone)
  have root : (emit options.formulas (prepare a registry.footnoteGroup?)).1.kind = "root" := by
    rw [emit_fst]
    rfl
  have citing := (landmarks_isDefinition identifier).skips_cite registry
    (registry.order a.references)
  rw [tree_of_convert registered converted] at mem ⊢
  have top := (kind_cite_document registry (registry.order a.references) _).trans root
  exact ⟨(kind_concluded _ _).trans top,
    lone_concluded top a.frontmatter (lone_of_skips citing (by decide) root emitted) mem points⟩

/-! ### The reference list -/

theorem isNote_footnoteOf (k i : Nat) (note : Node) :
    isNote (toString k) (Registry.footnoteOf i note) = (i == k) := by
  have id : (Registry.footnoteOf i note).attrText? "id" = some (toString i) := by
    simp [Registry.footnoteOf, attrText?, attr?, setAttr, Dict.find?_insert, Json.asString?]
  have kind : (Registry.footnoteOf i note).is "fn" = true := rfl
  rw [isNote, kind, id, Option.bind_some, Label.ofText?_toString, Option.any_some, Bool.true_and]
  by_cases same : i = k
  · simp [same]
  · rw [beq_eq_false_iff_ne.2 same, beq_eq_false_iff_ne]
    exact fun number => same (Label.toString_injective number)

theorem lone_footnotesFrom {parts : List Node} {k : Nat}
    (counted : k < (Registry.footnotesFrom 0 parts).length)
    (own : ∀ n ∈ parts, Everywhere (fun n => isNote (toString (k + 1)) n = false) n) :
    Lone (isNote (toString (k + 1))) [] (Registry.footnotesFrom 0 parts) := by
  have each (i : Nat) (small : i < (Registry.footnotesFrom 0 parts).length) :
      isNote (toString (k + 1)) (Registry.footnotesFrom 0 parts)[i] = (i + 1 == k + 1) ∧
        Clear (isNote (toString (k + 1))) (Registry.footnotesFrom 0 parts)[i].kids := by
    simp only [Registry.footnotesFrom, List.length_mapIdx] at small
    have note := (List.mem_filter.1 (List.getElem_mem small)).1
    simp only [Registry.footnotesFrom, List.getElem_mapIdx, Nat.zero_add]
    exact ⟨isNote_footnoteOf (k + 1) (i + 1) _, (own _ note).below⟩
  have other (i : Nat) (small : i < (Registry.footnotesFrom 0 parts).length) (ne : i ≠ k) :
      Everywhere (fun n => isNote (toString (k + 1)) n = false)
        (Registry.footnotesFrom 0 parts)[i] := by
    refine everywhere_iff.2 ⟨?_, (each i small).2⟩
    rw [(each i small).1, beq_eq_false_iff_ne]
    exact fun same => ne (Nat.succ.inj same)
  generalize Registry.footnotesFrom 0 parts = notes at counted each other
  rw [← List.take_append_drop k notes, List.drop_eq_getElem_cons counted]
  refine .top ((each k counted).1.trans (by simp)) (each k counted).2 (fun n mem => ?_)
    fun n mem => ?_
  · obtain ⟨i, small, rfl⟩ := List.mem_take_iff_getElem.1 mem
    exact other i (by omega) (by omega)
  · obtain ⟨i, small, rfl⟩ := List.mem_drop_iff_getElem.1 mem
    exact other _ (by omega) (by omega)

/-- If no footnote of the article itself has the number of a note of the reference list for its
identifier, then a reference to that number has one footnote to point to. -/
theorem exists_only_definition {a : Article} {options : Options} {c : Conversion}
    {registry : Registry} {k : Nat}
    (registered : Registry.ofReferences options.sources a.references = .ok registry)
    (converted : a.convert options = .ok c) (counted : k < registry.footnotes.length)
    (own : ∀ n ∈ a.tree.nodes, isNote (toString (k + 1)) n = false) {n : Node}
    (mem : n ∈ c.tree.nodes) (points : PointsTo (toString (k + 1)) n) :
    ∃ d, c.tree.nodes.filter (isDefinition (toString (k + 1))) = [d] := by
  have footnotes : registry.footnotes =
      Registry.footnotesFrom 0 (a.references.flatMap Node.kids) := by
    obtain ⟨-, next, rfl, -, grown⟩ := Registry.exists_grown_of_registered registered
    exact grown.footnotes
  have parts : ∀ n ∈ a.references.flatMap Node.kids,
      Everywhere (fun n => isNote (toString (k + 1)) n = false) n := by
    intro n mem
    obtain ⟨ref, place, child⟩ := List.mem_flatMap.1 mem
    exact (everywhere_references own ref place).below n child
  have group : registry.footnoteGroup? = some (.branch "fn-group" registry.footnotes) := by
    have some : registry.footnotes.isEmpty = false := by
      rw [List.isEmpty_eq_false_iff]
      intro none
      rw [none] at counted
      exact Nat.not_lt_zero _ counted
    rw [Registry.footnoteGroup?, some, if_neg Bool.false_ne_true]
  -- The article has no note with this number of its own, and the reference list has one.
  have lone : Lone (isNote (toString (k + 1))) [] registry.footnotes := by
    rw [footnotes] at counted ⊢
    exact lone_footnotesFrom counted parts
  have assembled := lone_assemble (notes_isNote (toString (k + 1))) own lone
  rw [← group] at assembled
  obtain ⟨root, only⟩ := lone_convert registered converted assembled mem points
  obtain ⟨d, -, same⟩ := only.exists_filter
  have other : isDefinition (toString (k + 1)) c.tree = false := by
    rw [isDefinition, is, root]
    rfl
  refine ⟨d, ?_⟩
  rw [Node.nodes, List.filter_cons, other, if_neg Bool.false_ne_true, descendants_eq, same]

/-- A footnote of the article with the number of a note is a second one to point to. -/
example :
    let xref : Node := ((branch "xref" [.text "1"]).setAttr "ref-type" (.string "bibr")).setAttr
      "rid" (.string "r1")
    let own : Node := (branch "fn" [branch "p" [.text "Own"]]).setAttr "id" (.string "1")
    let ref : Node := (branch "ref" [branch "note" [.text "N"]]).setAttr "id" (.string "r1")
    let a := Article.ofTree (branch "article" [branch "body" [branch "p" [xref]],
      branch "back" [branch "fn-group" [own], branch "ref-list" [ref]]])
    (a.convert {}).toOption.map (·.tree.count (isDefinition "1")) = some 2 := by
  decide +kernel

end

end Manuscript
