import Manuscript.Proofs.Document.Footnotes

/-!
References in the text of an article. Where a body consists of texts and of paragraphs of texts and
references to the reference list, every reference to one identifier that the registry knows is there
in the document as what the identifier stands for, whatever else the article holds.
-/

set_option autoImplicit false

namespace Manuscript

open Node Myst Myst.Citation Reference Conversion

/-! ### Bodies of citing paragraphs -/

def IsRun (n : Node) : Prop := n.kind = "text" ∧ n.kids = []

/-- Whether an element is a reference to the reference list with nothing but texts in it. -/
structure IsReference (n : Node) : Prop where
  kind : n.kind = "xref"
  type : n.attrText? "ref-type" = some "bibr"
  texts : ∀ c ∈ n.kids, IsRun c

/-- Whether an element is a paragraph of texts and references. -/
structure IsCiting (n : Node) : Prop where
  kind : n.kind = "p"
  parts : ∀ c ∈ n.kids, IsRun c ∨ IsReference c

/-- Whether a body consists of texts and citing paragraphs. -/
def CitesOnly (body : Node) : Prop := ∀ n ∈ body.kids, IsRun n ∨ IsCiting n

theorem IsRun.passed {n : Node} (run : IsRun n) : OfKinds (· ∈ passedKinds) n := by
  rw [ofKinds_iff, run.1, run.2]
  exact ⟨by decide, List.forall_mem_nil _⟩

theorem IsReference.passed {n : Node} (reference : IsReference n) :
    OfKinds (· ∈ passedKinds) n := by
  rw [ofKinds_iff, reference.kind]
  exact ⟨by decide, fun c child => (reference.texts c child).passed⟩

theorem IsCiting.passed {n : Node} (citing : IsCiting n) : OfKinds (· ∈ passedKinds) n := by
  rw [ofKinds_iff, citing.kind]
  refine ⟨by decide, fun c child => ?_⟩
  rcases citing.parts c child with run | reference
  · exact run.passed
  · exact reference.passed

theorem CitesOnly.passed {body : Node} (citesOnly : CitesOnly body) :
    ∀ n ∈ body.kids, OfKinds (· ∈ passedKinds) n ∧ n.kind ≠ "block" ∧ n.kind ≠ "heading" := by
  intro n child
  rcases citesOnly n child with run | citing
  · exact ⟨run.passed, by rw [run.1]; decide⟩
  · exact ⟨citing.passed, by rw [citing.kind]; decide⟩

/-! ### Headings -/

theorem landmarks_heading : Landmarks (·.is "heading") := by
  constructor
  · intro n isOne
    rw [beq_iff_eq.1 isOne]
    decide
  · intro m n kind _
    simp only [is, kind]

theorem renders_heading :
    Renders (fun n => n.is "heading" = false) fun n => n.is "heading" = false := by
  apply landmarks_heading.renders landmarks_heading.inherent
  · intro n none heading
    rw [is, heading] at none
    cases none
  · exact fun _ _ _ => rfl

/-! ### Paragraphs in blocks -/

/-- Whether a node stands in a block at the top of a forest, with no heading before it there. -/
def Stands (p : Node) (ns : List Node) : Prop :=
  ∃ block ∈ ns, block.kind = "block" ∧ ∃ front back, block.kids = front ++ p :: back ∧
    Clear (·.is "heading") front

section
variable {p : Node} {ns : List Node}

theorem Stands.of_skips {on : String → Prop} {f : Node → Node} {tree : Node}
    (stands : Stands p tree.kids) (skips : Skips (·.is "heading") on f) (kind : on p.kind)
    (root : on tree.kind) (block : on "block") : Stands (f p) (f tree).kids := by
  have passage := skips.passage
  obtain ⟨b, mem, isBlock, front, back, parts, clear⟩ := stands
  rw [skips.kids root, skips.here p kind]
  refine ⟨b.mapChildren (onForest f), passage.mem (by rw [isBlock]; exact block) mem, isBlock,
    onForest f front, onForest f back, ?_, passage.clear clear⟩
  rw [kids_mapChildren passage.nil, parts, passage.seam _ _ kind]

theorem Stands.of_removeFrom {removed : Node → Bool} (stands : Stands p ns)
    (kept : ∀ b : Node, b.kind = "block" → ∀ front back, b.kids = front ++ p :: back →
      Clear (·.is "heading") front → removed b = false)
    (here : removed p = false) : Stands (removeWhere removed p) (removeFrom removed ns) := by
  obtain ⟨b, mem, isBlock, front, back, parts, clear⟩ := stands
  have stays := kept b isBlock front back parts clear
  refine ⟨removeWhere removed b, ?_, (kind_removeWhere removed b).trans isBlock,
    removeFrom removed front, removeFrom removed back, ?_,
    landmarks_heading.inherent.clear_removeFrom removed clear⟩
  · rw [removeFrom_eq_map]
    exact List.mem_map_of_mem (List.mem_filter.2 ⟨mem, by rw [stays]; rfl⟩)
  · rw [kids_removeWhere, ← removeFrom_eq_map, parts, removeFrom_around here]

/-! ### Rendered paragraphs -/

/-- What is rendered of an element as one node keeps what is rendered before it from the rest. -/
theorem renderAll_around {s : Setting} {n m : Node} (one : (render s n).forest = [m])
    (other : m.isText = false) (before after : List Node) :
    (renderAll s (before ++ n :: after)).forest =
      (renderAll s before).forest ++ m :: (renderAll s after).forest := by
  induction before with
  | nil =>
    rw [List.nil_append, renderAll, renderAll, Emission.join, one]
    exact joinForests_before other [] [] _
  | cons k before ih =>
    rw [List.cons_append, renderAll, renderAll, Emission.join, Emission.join, ih]
    exact joinForests_behind other _ _ _

theorem render_paragraph {s : Setting} {n : Node} (kind : n.kind = "p") :
    (render s n).forest = [.branch "paragraph" (content s n).forest] :=
  forest_render_of_wrap (ruleOf_of_kind kind rfl)

def citeAttrs (target : Option String) : Attrs :=
  attrsOf (("kind", some (.string "narrative")) :: labelEntries target)

theorem render_reference {s : Setting} {n : Node} (reference : IsReference n) :
    (render s n).forest =
      [.branch "cite" (content s n).forest (citeAttrs (n.attrText? "rid"))] := by
  apply forest_render_of_wrap
  unfold ruleOf
  rw [reference.kind]
  show referenceRule n = _
  unfold referenceRule
  rw [reference.type]
  rfl

theorem render_run {s : Setting} {n : Node} (run : IsRun n) :
    render s n = .ofText (n.value.getD "") := by
  have rule : ruleOf n = .text := ruleOf_of_kind run.1 rfl
  rw [render, rule]

theorem forall_mem_renderAll {q : Node → Prop} {s : Setting} {ns : List Node}
    (each : ∀ n ∈ ns, ∀ m ∈ (render s n).forest, q m)
    (extended : ∀ m t, m.isText = true → q m → q (extendText m t)) :
    ∀ m ∈ (renderAll s ns).forest, q m := by
  induction ns with
  | nil =>
    rw [renderAll]
    exact List.forall_mem_nil _
  | cons n ns ih =>
    obtain ⟨first, rest⟩ := List.forall_mem_cons.1 each
    rw [renderAll]
    intro m mem
    rcases mem_joinForests mem with place | place | ⟨k, place, t, text, rfl⟩
    · exact first m place
    · exact ih rest m place
    · exact extended k t text (first k place)

theorem runs_ofText (t : String) : ∀ m ∈ (Emission.ofText t).forest, IsRun m := by
  unfold Emission.ofText
  split
  · exact List.forall_mem_nil _
  · exact List.forall_mem_singleton.2 ⟨rfl, rfl⟩

theorem runs_content {s : Setting} {n : Node} (texts : ∀ c ∈ n.kids, IsRun c) :
    ∀ m ∈ (content s n).forest, IsRun m := by
  rw [content]
  split
  · refine forall_mem_renderAll (fun c child => ?_) fun m t _ run => run
    rw [render_run (texts c child)]
    exact runs_ofText _
  · exact runs_ofText _

/-- A citation with a normal label, if any, and nothing but texts in it. -/
structure IsCitation (m : Node) : Prop where
  kind : m.kind = "cite"
  value : m.value = none
  label : ∀ label ∈ m.attrText? "label", Label.IsNormal label
  texts : ∀ c ∈ m.kids, IsRun c

theorem attrText?_citeAttrs (cs : List Node) (target : Option String) :
    (branch "cite" cs (citeAttrs target)).attrText? "label" =
      (target.bind Label.ofText?).map (·.label) := by
  unfold citeAttrs labelEntries
  cases target.bind Label.ofText? <;>
    simp [attrsOf, attrText?, attr?, branch, Dict.insert?, Dict.find?_insert, Json.asString?]

theorem isCitation_of_render {s : Setting} {n : Node} (reference : IsReference n) :
    IsCitation (.branch "cite" (content s n).forest (citeAttrs (n.attrText? "rid"))) := by
  refine ⟨rfl, rfl, fun label found => ?_, runs_content reference.texts⟩
  rw [attrText?_citeAttrs] at found
  obtain ⟨l, read, rfl⟩ := Option.map_eq_some_iff.1 found
  obtain ⟨rid, -, read⟩ := Option.bind_eq_some_iff.1 read
  exact Label.isNormal_of_ofText? read

theorem parts_content {s : Setting} {n : Node} (citing : IsCiting n) :
    ∀ m ∈ (content s n).forest, IsRun m ∨ IsCitation m := by
  rw [content]
  split
  · refine forall_mem_renderAll (fun c child => ?_) fun m t text part => ?_
    · rcases citing.parts c child with run | reference
      · rw [render_run run]
        exact fun m mem => .inl (runs_ofText _ m mem)
      · rw [render_reference reference]
        exact List.forall_mem_singleton.2 (.inr (isCitation_of_render reference))
    · rcases part with run | cite
      · exact .inl run
      · have kind : m.kind = "text" := beq_iff_eq.1 text
        exact absurd (kind.symm.trans cite.kind) (by decide)
  · exact fun m mem => .inl (runs_ofText _ m mem)

/-! ### Resolved paragraphs -/

/-- The kinds of the nodes of a citing paragraph in a document. -/
def phraseKinds : List String := ["paragraph", "text", "cite", "citeGroup", "footnoteReference"]

/-- A node of a citing paragraph in a document. -/
structure IsPhrase (n : Node) : Prop extends Emitted n where
  known : n.kind ∈ phraseKinds

theorem isPhrase_of_ne {n : Node} (known : n.kind ∈ phraseKinds) (other : n.kind ≠ "cite")
    (text : n.kind = "text" → n.kids = []) (group : n.kind = "citeGroup" → n.value = none) :
    IsPhrase n := by
  have none : isCite n = false := beq_eq_false_iff_ne.2 other
  refine ⟨⟨⟨text, fun blank => ?_, fun cite => ?_⟩, fun cite => ?_⟩, known⟩
  · simp only [List.mem_cons, List.not_mem_nil, or_false] at blank
    rcases blank with cite | isOne | raised
    · exact absurd cite other
    · exact group isOne
    · rw [raised] at known
      exact absurd known (by decide)
  · exact absurd (none.symm.trans cite) Bool.false_ne_true
  · exact absurd (none.symm.trans cite) Bool.false_ne_true

theorem isPhrase_of_kind {n : Node} (known : n.kind ∈ ["paragraph", "footnoteReference"]) :
    IsPhrase n := by
  have all : ∀ kind ∈ ["paragraph", "footnoteReference"], kind ∈ phraseKinds ∧ kind ≠ "cite" ∧
      kind ≠ "text" ∧ kind ≠ "citeGroup" := by decide
  obtain ⟨phrase, cite, text, group⟩ := all n.kind known
  exact isPhrase_of_ne phrase cite (fun same => absurd same text) fun same => absurd same group

theorem isPhrase_of_run {n : Node} (run : IsRun n) : Everywhere IsPhrase n := by
  rw [everywhere_iff, run.2]
  refine ⟨?_, List.forall_mem_nil _⟩
  apply isPhrase_of_ne
  · rw [run.1]
    decide
  · rw [run.1]
    decide
  · exact fun _ => run.2
  · rw [run.1]
    exact fun group => absurd group (by decide)

theorem isPhrase_of_citation {n : Node} (cite : IsCitation n) : Everywhere IsPhrase n := by
  refine everywhere_iff.2 ⟨⟨⟨⟨fun text => ?_, fun _ => cite.value, fun _ => cite.label⟩,
    fun _ m mem => ?_⟩, ?_⟩, fun c child => isPhrase_of_run (cite.texts c child)⟩
  · exact absurd (cite.kind.symm.trans text) (by decide)
  · rw [descendants_eq, mem_forestNodes_iff] at mem
    obtain ⟨c, child, mem⟩ := mem
    obtain ⟨kind, leaf⟩ := cite.texts c child
    rcases mem_nodes_iff.1 mem with rfl | ⟨d, below, -⟩
    · rw [isCite, is, kind]
      rfl
    · rw [leaf] at below
      cases below
  · rw [cite.kind]
    decide

theorem isPhrase_expansion (resolutions : List Resolution) :
    ∀ m ∈ expansion resolutions, Everywhere IsPhrase m := by
  refine everywhere_expansion (fun number _ => ?_) (fun labels => ?_) fun s _ => ?_
  · apply isPhrase_of_kind
    rw [kind_pointer]
    decide
  · have kind : (citing labels).kind = "citeGroup" := rfl
    apply isPhrase_of_ne <;> rw [kind]
    · decide
    · decide
    · exact fun text => absurd text (by decide)
    · exact fun _ => rfl
  · have citation : IsCitation ((pointer "cite" s).setAttr "kind" (.string "parenthetical")) := by
      refine ⟨kind_pointer "cite" s, ?_, fun label found => ?_, ?_⟩
      · show (pointer "cite" s).value = none
        unfold pointer
        split <;> rfl
      · rw [attrText?_setKind, attrText?_pointer] at found
        obtain ⟨l, read, rfl⟩ := Option.map_eq_some_iff.1 found
        exact Label.isNormal_of_ofText? read
      · show ∀ c ∈ (pointer "cite" s).kids, _
        rw [kids, children_pointer]
        exact List.forall_mem_nil _
    exact (isPhrase_of_citation citation).here

section
variable {lookup : Lookup}

theorem resolveForest_runs {ns : List Node} (runs : ∀ n ∈ ns, IsRun n) :
    resolveForest lookup ns = ns := by
  have other : ∀ n : Node, IsRun n → resolutions? lookup n = none := by
    intro n run
    rw [resolutions?, is, run.1]
    rfl
  induction ns with
  | nil => rfl
  | cons n ns ih =>
    obtain ⟨first, rest⟩ := List.forall_mem_cons.1 runs
    have same : resolveBelow lookup n = n := by
      rw [resolveBelow_eq]
      apply mapChildren_of_eq_self
      rw [first.2]
      rfl
    rw [resolveForest_eq, List.flatMap_cons, ← resolveForest_eq, ih rest, other n first]
    exact congrArg (· :: ns) same

theorem isPhrase_resolveForest {ns : List Node} (parts : ∀ n ∈ ns, IsRun n ∨ IsCitation n) :
    ∀ m ∈ resolveForest lookup ns, Everywhere IsPhrase m := by
  rw [resolveForest_eq]
  intro m mem
  obtain ⟨n, place, mem⟩ := List.mem_flatMap.1 mem
  split at mem
  · exact isPhrase_expansion _ m mem
  · rw [List.mem_singleton.1 mem, resolveBelow_eq]
    rcases parts n place with run | cite
    · rw [mapChildren_of_eq_self (by rw [run.2]; rfl)]
      exact isPhrase_of_run run
    · -- An unknown citation has nothing to resolve in it either.
      rw [mapChildren_of_eq_self (resolveForest_runs cite.texts)]
      exact isPhrase_of_citation cite

/-- A citing paragraph has no other nodes than those of a phrase when it is resolved. -/
theorem isPhrase_resolveBelow {s : Setting} {n : Node} (citing : IsCiting n) :
    Everywhere IsPhrase (resolveBelow lookup (.branch "paragraph" (content s n).forest)) := by
  rw [resolveBelow_eq, everywhere_iff, kids_mapChildren rfl]
  exact ⟨isPhrase_of_kind List.mem_cons_self, isPhrase_resolveForest (parts_content citing)⟩

end

/-! ### From citing to the end -/

theorem lasting_phraseKinds (order : List String) :
    Lasting order fun n => n.kind ∈ phraseKinds := by
  constructor
  case children => exact fun _ here => here
  case stripped => exact fun here => here
  case retexted => exact fun _ _ _ here => here
  case marked => exact fun _ here => here
  case grouped =>
    intro kind cites
    show "citeGroup" ∈ phraseKinds
    decide
  case regrouped => exact fun _ kind _ _ here => kind ▸ here
  case listed =>
    intro kind _ _ _ _ s _ _ _ _ _ _ _
    rw [beq_iff_eq.1 (isCite_citeOf kind s).1]
    decide

theorem isPhrase_groupCitations {q : Node} (phrase : Everywhere IsPhrase q) (order : List String) :
    Everywhere IsPhrase (groupCitations order q).1 := by
  obtain ⟨-, emitted⟩ := conserves_groupCitations order (phrase.imp fun m => IsPhrase.toEmitted)
  have known := (lasting_phraseKinds order).everywhere_groupCitations
    (phrase.imp fun m => IsPhrase.known)
  exact fun m mem => ⟨emitted m mem, known m mem⟩

theorem Stands.of_cite {tree : Node} (root : tree.kind = "root") (stands : Stands p tree.kids)
    (kind : p.kind = "paragraph") (registry : Registry) (order : List String) :
    Stands (cite registry order p) (cite registry order tree).kids := by
  apply stands.of_skips (landmarks_heading.skips_cite registry order)
  · rw [kind]
    decide
  · rw [root]
    decide
  · decide

theorem Stands.of_extractSections {tree : Node} (stands : Stands p tree.kids)
    (kind : p.kind = "paragraph") (phrase : OfKinds (· ∈ phraseKinds) p) (f : Frontmatter) :
    Stands p (extractSections tree f).tree.kids := by
  have other {n : Node} (known : n.kind ∈ phraseKinds) :
      (sectionAbbreviations? n).isSome = false := by
    rw [sectionAbbreviations?_of_ne (fun block => by rw [block] at known; revert known; decide)]
    rfl
  rw [extractSections, kids_extract, ← removeWhere_eq_self (phrase.imp fun m => other)]
  refine stands.of_removeFrom (fun b _ front back parts clear => ?_) (other phrase.here)
  rw [← Bool.not_eq_true]
  intro list
  obtain ⟨-, heading, paragraph, members, first, -⟩ := exists_kids_of_isSome list
  have same : front ++ p :: back = [heading, paragraph] := parts.symm.trans members
  -- In such a list the paragraph would be the second of two, behind a heading.
  cases front with
  | nil =>
    cases same
    exact absurd (kind.symm.trans first) (by decide)
  | cons n front =>
    obtain ⟨rfl, -⟩ := List.cons.inj same
    have none : n.is "heading" = false := (clear n List.mem_cons_self).here
    rw [is, first] at none
    cases none

theorem Stands.of_extractFootnotes {tree : Node} (stands : Stands p tree.kids)
    (phrase : OfKinds (· ∈ phraseKinds) p) (f : Frontmatter) :
    Stands p (extractFootnotes tree f).tree.kids := by
  have other {n : Node} (ne : n.kind ≠ "footnoteDefinition") :
      (footnoteAbbreviations? (referencedFootnotes tree) n).isSome = false := by
    rw [footnoteAbbreviations?_of_not_isOrphan (isOrphan_of_ne ne)]
    rfl
  have spared {n : Node} (known : n.kind ∈ phraseKinds) : n.kind ≠ "footnoteDefinition" := by
    intro definition
    rw [definition] at known
    exact absurd known (by decide)
  rw [extractFootnotes, kids_extract, ← removeWhere_eq_self (phrase.imp fun m => other ∘ spared)]
  refine stands.of_removeFrom (fun b block _ _ _ _ => other ?_) (other (spared phrase.here))
  rw [block]
  decide

/-- A citing paragraph without a heading before it is still there in the end. -/
theorem Stands.of_concluded {tree : Node} (root : tree.kind = "root") (stands : Stands p tree.kids)
    (kind : p.kind = "paragraph") (phrase : OfKinds (· ∈ phraseKinds) p) (f : Frontmatter) :
    ∃ referenced, Stands (cleanBy referenced p) (concluded f tree).kids := by
  have kept := (stands.of_extractSections kind phrase f).of_extractFootnotes phrase
    (extractSections tree f).frontmatter
  have top : (extractFootnotes (extractSections tree f).tree
      (extractSections tree f).frontmatter).tree.kind = "root" :=
    ((kind_removeWhere _ _).trans (kind_removeWhere _ _)).trans root
  rw [concluded, clean_eq]
  refine ⟨_, kept.of_skips (landmarks_heading.skips_cleanBy (referencedFootnotes _)) ?_ ?_ ?_⟩
  · rw [kind]
    decide
  · rw [top]
    decide
  · decide

end

/-! ### From the body to the document -/

section
variable {a : Article} {options : Options} {body paragraph ref : Node} {registry : Registry}

/-- A citing paragraph of the body is rendered in a block, and behind no heading there. -/
theorem stands_emit (found : a.body? = some body) (citesOnly : CitesOnly body)
    (mem : paragraph ∈ body.kids) (citing : IsCiting paragraph) (footnotes : Option Node)
    (formulas : Formula.Converter) :
    Stands (.branch "paragraph" (content ⟨formulas, false⟩ paragraph).forest)
      (emit formulas (prepare a footnotes)).1.kids := by
  have passed := citesOnly.passed
  obtain ⟨front, back, assembled, blocks⟩ :=
    exists_kids_assemble found (fun n child => (passed n child).1) footnotes
  obtain ⟨before, more, after, prepared⟩ := exists_kids_prepare assembled
    (List.ne_nil_of_mem mem) blocks (fun n child => (passed n child).1)
    fun n child => (passed n child).2.1
  obtain ⟨early, late, parts⟩ := List.append_of_mem mem
  have inside : (branch "block" (body.kids ++ more)).kids =
      early ++ paragraph :: (late ++ more) := by
    show body.kids ++ more = _
    rw [parts, List.append_assoc, List.cons_append]
  have rendered := renderAll_around (render_paragraph (s := ⟨formulas, false⟩) citing.kind) rfl
    early (late ++ more)
  rw [← inside, ← content_of_kids (by rw [inside]; simp)] at rendered
  rw [emit_fst]
  show Stands _ (renderAll _ _).forest
  rw [renderAll_blocks (blocks_prepare a footnotes)]
  refine ⟨_, List.mem_map_of_mem (by rw [prepared]; simp), rfl, _, _, rendered, ?_⟩
  refine renders_heading.all_renderAll fun n child => ?_
  have known := (passed n (by rw [parts]; exact List.mem_append_left _ child)).1
  refine known.imp fun m kind => beq_eq_false_iff_ne.2 fun heading => ?_
  rw [heading] at kind
  exact absurd kind (by decide)

/-! ### Realised references -/

/-- Whether a document holds what a resolution calls for: a citation with its label, or a reference
to the footnote with its number. -/
def Realises (tree : Node) : Resolution → Prop
  | .cite s => ∀ label, ReadAs s label →
    ∃ n ∈ tree.nodes, isCite n = true ∧ n.attrText? "label" = some label
  | .footnote number => ∀ l, Label.ofText? number = some l →
    ∃ n ∈ tree.nodes, PointsTo l.identifier n

/-- Nodes that a change keeps with their kind and attributes realise what they did. -/
theorem Realises.of_kept {tree after : Node} {resolution : Resolution}
    (realised : Realises tree resolution)
    (kept : ∀ n ∈ tree.nodes, n.kind ∈ ["cite", "footnoteReference"] →
      ∃ m ∈ after.nodes, m.kind = n.kind ∧ m.attrs = n.attrs) : Realises after resolution := by
  cases resolution with
  | cite s =>
    intro label read
    obtain ⟨n, mem, cite, same⟩ := realised label read
    obtain ⟨m, stays, kind, attrs⟩ := kept n mem (by rw [beq_iff_eq.1 cite]; decide)
    refine ⟨m, stays, (isCite_congr kind).trans cite, ?_⟩
    rw [attrText?, attr?, attrs]
    exact same
  | footnote number =>
    intro l read
    obtain ⟨n, mem, points, same⟩ := realised l read
    obtain ⟨m, stays, kind, attrs⟩ := kept n mem (by rw [points]; decide)
    refine ⟨m, stays, kind.trans points, ?_⟩
    rw [attrText?, attr?, attrs]
    exact same

/-- A reference that is read as a known name gives way to all that the name stands for. -/
theorem expansion_subset {s : Setting} {lookup : Lookup} {rid name : String}
    {resolutions : List Resolution} (child : ref ∈ paragraph.kids) (reference : IsReference ref)
    (target : ref.attrText? "rid" = some rid) (read : ReadAs rid name)
    (known : lookup.find? name = some resolutions) : expansion resolutions ⊆
      (resolveBelow lookup (.branch "paragraph" (content s paragraph).forest)).kids := by
  obtain ⟨before, after, parts⟩ := List.append_of_mem child
  have rendered := renderAll_around (s := s) (render_reference reference) rfl before after
  rw [← parts, ← content_of_kids (List.ne_nil_of_mem child), target] at rendered
  have resolved (cs : List Node) :
      resolutions? lookup (.branch "cite" cs (citeAttrs (some rid))) = some resolutions :=
    resolutions?_of_label rfl ((attrText?_citeAttrs cs (some rid)).trans read) known
  intro m mem
  rw [resolveBelow_eq, kids_mapChildren rfl, resolveForest_eq]
  refine List.mem_flatMap.2 ⟨_, ?_, by rw [resolved (content s ref).forest]; exact mem⟩
  show _ ∈ (content s paragraph).forest
  rw [rendered]
  exact List.mem_append_right _ List.mem_cons_self

/-- Grouping a paragraph with all that some resolutions call for leaves that in it. -/
theorem realises_groupCitations {order : List String} {resolutions : List Resolution} {q : Node}
    (kind : q.kind = "paragraph") (phrase : Everywhere IsPhrase q)
    (all : expansion resolutions ⊆ q.kids) {resolution : Resolution}
    (mem : resolution ∈ resolutions) : Realises (groupCitations order q).1 resolution := by
  cases resolution with
  | cite s =>
    intro label read
    -- Grouping loses no label of an emitted tree, wherever it puts the citation.
    obtain ⟨conserved, -⟩ := conserves_groupCitations order (phrase.imp fun m => IsPhrase.toEmitted)
    have cited := conserved.cited
    rw [List.flatMap_singleton, List.flatMap_singleton] at cited
    refine mem_citedLabels_iff.1 (cited.subset (mem_citedLabels_iff.2 ?_))
    have listed : s ∈ resolutions.filterMap Resolution.cite? := mem_filterMap_cite?_iff.2 mem
    have group := all (mem_expansion_iff.2 (.inr ⟨List.ne_nil_of_mem listed, rfl⟩))
    refine ⟨(pointer "cite" s).setAttr "kind" (.string "parenthetical"), ?_,
      beq_iff_eq.2 (kind_pointer "cite" s), ?_⟩
    · refine mem_nodes_iff.2 (.inr ⟨_, group, mem_nodes_iff.2 (.inr ⟨_, ?_, List.mem_cons_self⟩)⟩)
      rw [kids_citing]
      exact List.mem_map_of_mem listed
    · rw [attrText?_setKind, attrText?_pointer]
      exact read
  | footnote number =>
    intro l read
    -- No rule deals with references to footnotes, which stay where they are.
    have skips := skips_groupCitations (landmarks_heading.lasting order) fun _ => rfl
    have point := all (mem_expansion_iff.2 (.inl ⟨number, mem, rfl⟩))
    have reference := kind_pointer "footnoteReference" number
    have known : Uninvolved q.kind ∧ Uninvolved (pointer "footnoteReference" number).kind := by
      rw [kind, reference]
      decide
    have leaf : (pointer "footnoteReference" number).kids = [] := by
      rw [kids, children_pointer]
      rfl
    refine ⟨pointer "footnoteReference" number, ?_, reference, ?_⟩
    · refine mem_nodes_iff.2 (.inr ⟨_, ?_, List.mem_cons_self⟩)
      have stays := skips.passage.mem known.2 point
      rw [mapChildren_of_eq_self (by rw [leaf, skips.passage.nil]), ← skips.kids known.1] at stays
      exact stays
    · unfold pointer
      rw [read]
      simp [attrText?, attr?, setAttr, Dict.find?_insert, Json.asString?]

theorem Realises.of_cleanBy {q : Node} {resolution : Resolution} (phrase : Everywhere IsPhrase q)
    (kind : q.kind = "paragraph") (referenced : Dict Unit) (realised : Realises q resolution) :
    Realises (cleanBy referenced q) resolution := by
  have skips := landmarks_heading.skips_cleanBy referenced
  -- Only texts are joined, and these have nothing below that could get lost.
  have passed : Everywhere (fun k => Undisturbed k.kind ∨ k.kids = []) q := by
    refine phrase.imp fun m here => ?_
    by_cases text : m.kind = "text"
    · exact .inr (here.text text)
    · refine .inl ⟨text, fun legend => ?_⟩
      have known := here.known
      rw [legend] at known
      exact absurd known (by decide)
  have own : Undisturbed q.kind := by
    rw [kind]
    decide
  refine realised.of_kept fun n mem sought => ?_
  refine ⟨n.mapChildren (onForest (cleanBy referenced)), ?_, rfl, rfl⟩
  rw [skips.here q own]
  refine skips.passage.mem_nodes passed mem ⟨fun text => ?_, fun legend => ?_⟩
  · rw [text] at sought
    exact absurd sought (by decide)
  · rw [legend] at sought
    exact absurd sought (by decide)

/-- In an article whose body consists of texts and citing paragraphs, every reference that is read
as a known name is realised with all that the name stands for. -/
theorem realises_of_convert {c : Conversion} {rid name : String} {resolutions : List Resolution}
    (registered : Registry.ofReferences options.sources a.references = .ok registry)
    (converted : a.convert options = .ok c) (found : a.body? = some body)
    (citesOnly : CitesOnly body) (mem : paragraph ∈ body.kids) (citing : IsCiting paragraph)
    (child : ref ∈ paragraph.kids) (reference : IsReference ref)
    (target : ref.attrText? "rid" = some rid) (read : ReadAs rid name)
    (known : registry.lookup.find? name = some resolutions) :
    ∀ resolution ∈ resolutions, Realises c.tree resolution := by
  intro resolution member
  have resolved : Everywhere IsPhrase (resolveBelow registry.lookup
      (.branch "paragraph" (content ⟨options.formulas, false⟩ paragraph).forest)) :=
    isPhrase_resolveBelow citing
  have phrase := isPhrase_groupCitations resolved (registry.order a.references)
  have grouped : Realises (groupCitations (registry.order a.references) _).1 resolution :=
    realises_groupCitations (by rw [resolveBelow_eq]; rfl) resolved
      (expansion_subset child reference target read known) member
  have root : (emit options.formulas (prepare a registry.footnoteGroup?)).1.kind = "root" := by
    rw [emit_fst]
    rfl
  -- The paragraph stands in its block throughout, so that what it has is in the document.
  have cited := (stands_emit found citesOnly mem citing registry.footnoteGroup?
    options.formulas).of_cite root rfl registry (registry.order a.references)
  have kind := kind_cite_document registry (registry.order a.references)
    (.branch "paragraph" (content ⟨options.formulas, false⟩ paragraph).forest)
  obtain ⟨referenced, block, place, -, front, back, parts, -⟩ := cited.of_concluded
    ((kind_cite_document _ _ _).trans root) kind (phrase.imp fun m => IsPhrase.known) a.frontmatter
  rw [← tree_of_convert registered converted] at place
  refine (grouped.of_cleanBy phrase kind referenced).of_kept fun n inside _ => ⟨n, ?_, rfl, rfl⟩
  refine mem_nodes_iff.2 (.inr ⟨block, place, mem_nodes_iff.2 (.inr ⟨_, ?_, inside⟩)⟩)
  rw [parts]
  exact List.mem_append_right _ List.mem_cons_self

/-! ### The summary -/

theorem readAs_of_words {s w : String} (only : Text.words s = [w]) : ReadAs s w := by
  have word : String.intercalate " " (Text.words s) = w := by
    rw [only]
    rfl
  have some : w.isEmpty = false := by
    have mem : w.toList ∈ Text.wordsFrom [] s.toList := by
      have listed : w ∈ Text.words s := by rw [only]; exact List.mem_singleton_self w
      obtain ⟨cs, mem, rfl⟩ := List.mem_map.1 listed
      rwa [String.toList_ofList]
    simpa using (Text.isWord_of_mem_wordsFrom (List.forall_mem_nil _) mem).1
  rw [ReadAs, Label.ofText?, word, some, if_neg Bool.false_ne_true]
  rfl

theorem CitesOnly.exists_reference (citesOnly : CitesOnly body) {n : Node}
    (mem : n ∈ body.descendants) (kind : n.kind = "xref") :
    ∃ paragraph ∈ body.kids, IsCiting paragraph ∧ n ∈ paragraph.kids ∧ IsReference n := by
  have run {k : Node} (isOne : IsRun k) (mem : n ∈ k.nodes) : False := by
    rcases mem_nodes_iff.1 mem with rfl | ⟨d, below, -⟩
    · exact absurd (isOne.1.symm.trans kind) (by decide)
    · rw [isOne.2] at below
      cases below
  rw [descendants_eq, mem_forestNodes_iff] at mem
  obtain ⟨paragraph, child, mem⟩ := mem
  rcases citesOnly paragraph child with text | citing
  · exact (run text mem).elim
  · refine ⟨paragraph, child, citing, ?_⟩
    rcases mem_nodes_iff.1 mem with rfl | ⟨c, part, mem⟩
    · exact absurd (citing.kind.symm.trans kind) (by decide)
    · rcases citing.parts c part with text | reference
      · exact (run text mem).elim
      · rcases mem_nodes_iff.1 mem with rfl | ⟨d, below, mem⟩
        · exact ⟨part, reference⟩
        · exact (run (reference.texts d below) mem).elim

/-- In an article whose body consists of texts and citing paragraphs, and where no reference names
several identifiers, all that the summary lists as cited is realised. -/
theorem realises_of_listed {c : Conversion} {name : String} {resolutions : List Resolution}
    (registered : Registry.ofReferences options.sources a.references = .ok registry)
    (converted : a.convert options = .ok c) (found : a.body? = some body)
    (citesOnly : CitesOnly body) (single : ∀ n ∈ body.descendants, (Summary.cited n).length ≤ 1)
    (listed : name ∈ c.references.order) (known : registry.lookup.find? name = some resolutions) :
    ∀ resolution ∈ resolutions, Realises c.tree resolution := by
  have summary : c.references = .ofArticle a := by
    unfold Article.convert at converted
    rw [registered] at converted
    cases converted
    rfl
  rw [summary] at listed
  obtain ⟨n, mem, cited⟩ := List.mem_flatMap.1 (Registry.mem_of_mem_firstOccurrences listed)
  rw [found] at mem
  have mem : n ∈ body.descendants := mem
  -- The reference names one identifier, so that its text is read as that.
  have only : Summary.cited n = [name] := by
    have short := single n mem
    cases cites : Summary.cited n with
    | nil =>
      rw [cites] at cited
      cases cited
    | cons word words =>
      rw [cites] at cited short
      have none : words = [] := List.eq_nil_of_length_eq_zero (by simpa using short)
      rw [none] at cited ⊢
      rw [List.mem_singleton.1 cited]
  unfold Summary.cited at only
  split at only
  · next reference =>
    simp only [Bool.and_eq_true] at reference
    obtain ⟨paragraph, child, citing, part, reference⟩ :=
      citesOnly.exists_reference mem (beq_iff_eq.1 reference.1)
    cases target : n.attrText? "rid" with
    | none =>
      rw [target] at only
      cases only
    | some rid =>
      rw [target, Option.getD_some] at only
      exact realises_of_convert registered converted found citesOnly child citing part reference
        target (readAs_of_words only) known
  · cases only

/-- Two identifiers in one reference are listed as cited, but read as one name that is not known. -/
example :
    let xref : Node := ((branch "xref" [.text "1"]).setAttr "ref-type" (.string "bibr")).setAttr
      "rid" (.string "r1 r2")
    let ref (id : String) : Node := (branch "ref" [branch "note" [.text "N"]]).setAttr "id"
      (.string id)
    let a := Article.ofTree (branch "article" [branch "body" [branch "p" [xref]],
      branch "back" [branch "ref-list" [ref "r1", ref "r2"]]])
    (a.convert {}).toOption.map (fun c => (c.references.order, citedLabels c.tree)) =
      some (["r1", "r2"], ["r1 r2"]) := by
  decide +kernel

end

end Manuscript
