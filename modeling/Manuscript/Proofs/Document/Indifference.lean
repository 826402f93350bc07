import Manuscript.Proofs.Document.Remarks
import Manuscript.Proofs.Reference.Identifiers

/-!
A conversion does not see remarks in running text. What is looked up in an article is read as a
whole or is no remark, so that an article and the same without its remarks are assembled to trees
that differ in remarks alone, and rendering does not show these.
-/

set_option autoImplicit false

namespace Manuscript

open Node Body

def Article.withoutRemarks (a : Article) : Article := { a with tree := a.tree.withoutRemarks }

namespace Conversion

/-! ### Searches -/

section
variable {n : Node} {p : Node → Bool}

theorem overlooks_marked {kind attr : String} {value : Option String} (other : kind ≠ "comment") :
    Overlooks fun n => n.is kind && n.attrText? attr == value := by
  constructor
  · intro n
    rw [is_withoutRemarks, attrText?_withoutRemarks]
  · intro n remark
    rw [(overlooks_is other).other n remark, Bool.false_and]

theorem find?_whole (overlooks : Overlooks p) (kinds : ∀ n, p n = true → n.kind ∈ wholeKinds)
    (quiet : Everywhere Quiet n) : n.withoutRemarks.find? p = n.find? p := by
  rw [overlooks.find?]
  cases found : n.find? p with
  | none => rfl
  | some m =>
    have isOne := List.find?_some found
    rw [Option.map_some, (quiet.of_find? found).here.whole (kinds m isOne)]

theorem findKind?_whole {kind : String} (known : kind ∈ wholeKinds) (quiet : Everywhere Quiet n) :
    n.withoutRemarks.findKind? kind = n.findKind? kind := by
  have all : ∀ kind ∈ wholeKinds, kind ≠ "comment" := by decide
  exact find?_whole (overlooks_is (all kind known)) (fun _ isOne => mem_of_is isOne known) quiet

theorem count_withoutRemarks {kind : String} (other : kind ≠ "comment") (n : Node) :
    n.withoutRemarks.count (·.is kind) = n.count (·.is kind) := by
  rw [count, count, (overlooks_is other).findAll, List.length_map]

end

/-! ### Lookups -/

section
variable {a : Article}

theorem body?_withoutRemarks (a : Article) :
    a.withoutRemarks.body? = a.body?.map withoutRemarks :=
  Myst.findKind?_withoutRemarks (by decide) a.tree

theorem back?_withoutRemarks (a : Article) :
    a.withoutRemarks.back? = a.back?.map withoutRemarks :=
  Myst.findKind?_withoutRemarks (by decide) a.tree

theorem floatsGroups_withoutRemarks (a : Article) :
    a.withoutRemarks.floatsGroups = a.floatsGroups.map withoutRemarks :=
  (overlooks_is (by decide)).findAll a.tree

theorem refList?_withoutRemarks (a : Article) :
    a.withoutRemarks.refList? = a.refList?.map withoutRemarks := by
  rw [Article.refList?, Article.refList?, back?_withoutRemarks]
  cases a.back? with
  | none => rfl
  | some back => exact Myst.findKind?_withoutRemarks (by decide) back

section
variable (quiet : Everywhere Quiet a.tree)
include quiet

theorem front?_withoutRemarks : a.withoutRemarks.front? = a.front? :=
  findKind?_whole (by decide) quiet

/-- The entries of a reference list have no remarks; there may be some around them. -/
theorem whole_references : Whole a.references := by
  intro ref mem
  have isRef : ref.kind = "ref" := by
    unfold Article.references at mem
    split at mem
    · exact beq_iff_eq.1 (List.mem_filter.1 mem).2
    · cases mem
  have whole := (everywhere_references quiet ref mem).here.whole (by rw [isRef]; decide)
  exact ⟨isRemark_of_kind (by rw [isRef]; decide), whole⟩

theorem references_withoutRemarks : a.withoutRemarks.references = a.references := by
  have whole := whole_references quiet
  unfold Article.references at whole ⊢
  rw [refList?_withoutRemarks]
  cases found : a.refList? with
  | none => rfl
  | some list =>
    rw [found] at whole
    have entries : list.withoutRemarks.findKinds "ref" =
        (list.findKinds "ref").map withoutRemarks := (overlooks_is (by decide)).findAll list
    have same : dropRemarks (list.findKinds "ref") = list.findKinds "ref" := whole.dropRemarks
    rw [dropRemarks_of_none fun n mem => (whole n mem).1] at same
    exact entries.trans same

theorem doi?_withoutRemarks : a.withoutRemarks.doi? = a.doi? := by
  rw [Article.doi?, Article.doi?, front?_withoutRemarks quiet]

theorem imageBase?_withoutRemarks : imageBase? a.withoutRemarks = imageBase? a := by
  have journal (type : String) : a.withoutRemarks.journalId? type = a.journalId? type :=
    congrArg (·.map toText) (find?_whole (overlooks_marked (by decide))
      (fun n isOne => mem_of_is (Bool.and_eq_true_iff.1 isOne).1 (by decide)) quiet)
  have date (type : String) : a.withoutRemarks.historyDate? type = a.historyDate? type :=
    find?_whole (overlooks_marked (by decide))
      (fun n isOne => mem_of_is (Bool.and_eq_true_iff.1 isOne).1 (by decide)) quiet
  rw [imageBase?, imageBase?, journal, date, doi?_withoutRemarks quiet]

theorem frontmatter_withoutRemarks : a.withoutRemarks.frontmatter = a.frontmatter := by
  have front := front?_withoutRemarks quiet
  have date : a.withoutRemarks.publicationDate? = a.publicationDate? := by
    rw [Article.publicationDate?, Article.publicationDate?, front]
  rw [Article.frontmatter, Article.frontmatter, front, date, doi?_withoutRemarks quiet]

theorem metadata_withoutRemarks : Metadata.ofArticle a.withoutRemarks = .ofArticle a := by
  have stated {kind : String} (known : kind ∈ wholeKinds) :
      a.withoutRemarks.tree.findKind? kind = a.tree.findKind? kind := findKind?_whole known quiet
  have license : a.withoutRemarks.license? = a.license? := by
    rw [Article.license?, Article.license?, stated (by decide)]
  have publisher := stated (show "publisher-name" ∈ wholeKinds by decide)
  have journal := stated (show "journal-title" ∈ wholeKinds by decide)
  simp only [Metadata.ofArticle, Article.publisher?, Article.journalTitle?, Article.pmid?,
    Article.pmc?, Article.publicationYear?, Article.publicationDate?, license,
    doi?_withoutRemarks quiet, front?_withoutRemarks quiet, publisher, journal]

theorem summary_withoutRemarks :
    Reference.Summary.ofArticle a.withoutRemarks = .ofArticle a := by
  have cited (ns : List Node) :
      ((ns.filter (!isRemark ·)).map withoutRemarks).flatMap Reference.Summary.cited =
        ns.flatMap Reference.Summary.cited := by
    induction ns with
    | nil => rfl
    | cons n ns ih =>
      have same : Reference.Summary.cited n.withoutRemarks = Reference.Summary.cited n := by
        simp only [Reference.Summary.cited, is_withoutRemarks, attrText?_withoutRemarks]
      cases remark : isRemark n with
      | true =>
        -- A remark is no cross-reference, so that it cites nothing.
        have none : Reference.Summary.cited n = [] := by
          rw [Reference.Summary.cited, (overlooks_is (by decide)).other n remark]
          rfl
        simp [remark, none, ih]
      | false => simp [remark, same, ih]
  simp only [Reference.Summary.ofArticle, references_withoutRemarks quiet, body?_withoutRemarks]
  cases a.body? with
  | none => rfl
  | some body =>
    simp only [Option.map_some, Option.getD_some, descendants_withoutRemarks, cited]

theorem stats_withoutRemarks (pmids : Pmid.Findings) (registry : Reference.Registry)
    (report : Report) (tree : Node) :
    statsOf a.withoutRemarks pmids registry report tree = statsOf a pmids registry report tree := by
  have tally {kind : String} (other : kind ≠ "comment") (became : Node → Bool) :
      Tally.of a.withoutRemarks tree kind became = .of a tree kind became := by
    rw [Tally.of, Tally.of, body?_withoutRemarks, back?_withoutRemarks]
    simp only [Option.map_map, Function.comp_def, count_withoutRemarks other]
  simp only [statsOf, metadata_withoutRemarks quiet, references_withoutRemarks quiet]
  rw [tally (by decide), tally (by decide), tally (by decide), tally (by decide),
    tally (by decide)]

end

end

/-! ### Assembly -/

section
variable {n : Node} {added : List Node}

theorem mergeTitle_whole {cs : List Node} (whole : Whole cs) : Whole (mergeTitle cs) := by
  cases cs with
  | nil => exact whole
  | cons title rest =>
    obtain ⟨first, others⟩ := List.forall_mem_cons.1 whole
    let paragraph : Node := { title with kind := "p" }
    have plain : isRemark paragraph = false ∧ paragraph.withoutRemarks = paragraph :=
      ⟨isRemark_of_kind (by simp [paragraph]), withoutRemarks_of_children (n := title) rfl first.2⟩
    rw [mergeTitle.eq_def]
    simp only
    split
    · exact whole
    · split
      · exact others
      · cases rest with
        | nil => exact List.forall_mem_singleton.2 plain
        | cons p rest =>
          obtain ⟨second, rest'⟩ := List.forall_mem_cons.1 others
          have inside : Whole (title.kids ++ .text " " :: p.kids) := List.forall_mem_append.2
            ⟨whole_kids first.2, List.forall_mem_cons.2 ⟨⟨rfl, rfl⟩, whole_kids second.2⟩⟩
          simp only
          split
          · exact List.forall_mem_cons.2
              ⟨⟨isRemark_withKids _ _, withoutRemarks_of_whole_kids inside⟩, rest'⟩
          · exact List.forall_mem_cons.2 ⟨plain, others⟩

theorem unwrapOnlySection_whole (whole : n.withoutRemarks = n) :
    (unwrapOnlySection n).withoutRemarks = unwrapOnlySection n := by
  unfold unwrapOnlySection
  split
  · next only same =>
    split
    · have inside := whole_kids whole
      rw [same] at inside
      exact withoutRemarks_of_children (n := only) rfl (List.forall_mem_singleton.1 inside).2
    · exact whole
  · exact whole

theorem kind_unwrapOnlySection (n : Node) : (unwrapOnlySection n).kind = n.kind := by
  unfold unwrapOnlySection
  split
  · split <;> rfl
  · rfl

theorem abstractBlock_whole (kind : n.kind = "abstract") (whole : n.withoutRemarks = n) :
    (abstractBlock n).withoutRemarks = abstractBlock n := by
  have unwrapped := unwrapOnlySection_whole whole
  have outside : (unwrapOnlySection n).kind ∉ runningKinds := by
    rw [kind_unwrapOnlySection, kind]
    decide
  have flat := blind_flattenSections .strong (quiet_of_whole unwrapped) outside
  have block : Overlooks (·.is "block") := overlooks_is (by decide)
  have lifted := blind_liftWhere block (fun m isOne => notMem_of_is isOne (by decide)) flat.quiet
  exact withoutRemarks_of_whole_kids
    (mergeTitle_whole (whole_kids (lifted.whole (flat.whole unwrapped))))

theorem blind_appendBehindSeparator (quiet : Everywhere Quiet n) (body : n.kind = "body")
    (plain : Plain added) : Everywhere Quiet (appendBehindSeparator n added) ∧
      appendBehindSeparator n.withoutRemarks (added.map withoutRemarks) =
        (appendBehindSeparator n added).withoutRemarks := by
  have kids := plain_kids quiet (by rw [body]; decide)
  unfold appendBehindSeparator
  rw [List.isEmpty_map]
  split
  · exact ⟨quiet, rfl⟩
  · have separated : Plain (separator :: added) :=
      List.forall_mem_cons.2 ⟨⟨rfl, quiet_of_whole rfl⟩, plain⟩
    have whole : Plain (n.kids ++ separator :: added) := List.forall_mem_append.2 ⟨kids, separated⟩
    refine ⟨quiet_of_plain (by rw [kind_withKids, body]; decide) whole, ?_⟩
    rw [withoutRemarks_withKids, withKids_withoutRemarks, whole.dropRemarks, kids_withoutRemarks,
      kids.dropRemarks, List.map_append]
    rfl

theorem kind_appendBehindSeparator (n : Node) (added : List Node) :
    (appendBehindSeparator n added).kind = n.kind := by
  unfold appendBehindSeparator
  split <;> rfl

theorem floats_withoutRemarks (n : Node) :
    floats n.withoutRemarks = (floats n).map withoutRemarks := by
  have erased (m : Node) : m.withoutRemarks.eraseAttr "position" =
      (m.eraseAttr "position").withoutRemarks := by
    simp only [withoutRemarks_eq]
    rfl
  have overlooks : Overlooks isFloat := overlooks_marked (by decide)
  simp only [floats, overlooks.findAll, List.map_map, Function.comp_def, erased]

theorem plain_floats (quiet : Everywhere Quiet n) : Plain (floats n) := by
  refine List.forall_mem_map.2 fun m mem => ?_
  obtain ⟨inside, isOne⟩ := List.mem_filter.1 mem
  have supplement := (Bool.and_eq_true_iff.1 isOne).1
  have erased := blind_attrs (g := fun attrs => attrs.erase "position")
    (quiet.of_mem_descendants inside)
  exact ⟨isRemark_of_is (n := m.eraseAttr "position") supplement (by decide), erased.quiet⟩

theorem blind_moveFloats (quiet : Everywhere Quiet n) (body : n.kind = "body") :
    Blind moveFloats n := by
  have overlooks : Overlooks isFloat := overlooks_marked (by decide)
  have removed : Blind (removeWhere isFloat) n :=
    blind_removeWhere (fun m _ => overlooks.sees m) quiet
  obtain ⟨moved, same⟩ := blind_appendBehindSeparator removed.quiet
    ((kind_removeWhere isFloat n).trans body) (plain_floats quiet)
  constructor
  · unfold moveFloats
    split
    · exact quiet
    · exact moved
  · unfold moveFloats
    rw [floats_withoutRemarks, List.isEmpty_map, removed.commutes]
    split
    · rfl
    · exact same

end

/-- The body of an article, or one without anything in it. -/
def bodyOf (a : Article) : Node := a.body?.getD (.branch "body" [])

/-- A body with the footnotes of the reference list at its end. -/
def withNotes (footnotes : Option Node) (body : Node) : Node :=
  match footnotes with
  | some group => body.withKids (body.kids ++ [group])
  | none => body

theorem assembleBody_eq (a : Article) (footnotes : Option Node) : assembleBody a footnotes =
    moveFloats (appendBehindSeparator (withNotes footnotes (bodyOf a))
      (relocatedParts a.back?)) := rfl

theorem kind_withNotes (footnotes : Option Node) (n : Node) :
    (withNotes footnotes n).kind = n.kind := by
  cases footnotes <;> rfl

theorem kind_moveFloats (n : Node) : (moveFloats n).kind = n.kind := by
  unfold moveFloats
  split
  · rfl
  · rw [kind_appendBehindSeparator, kind_removeWhere]

theorem blind_withNotes {n : Node} {footnotes : Option Node} (quiet : Everywhere Quiet n)
    (body : n.kind = "body") (notes : Whole footnotes.toList) : Blind (withNotes footnotes) n := by
  cases footnotes with
  | none => exact blind_self quiet
  | some group =>
    have outside : n.kind ∉ runningKinds := by rw [body]; decide
    have whole : Whole [group] := notes
    have added : BlindList (· ++ [group]) n.kids := by
      refine ⟨List.forall_mem_append.2 ⟨plain_kids quiet outside, whole.plain⟩, ?_⟩
      rw [List.map_append, ← whole.plain.dropRemarks, whole.dropRemarks]
    exact added.withKids quiet outside

section
variable {a : Article} {footnotes : Option Node} (quiet : Everywhere Quiet a.tree)
  (notes : Whole footnotes.toList)
include quiet notes

omit notes in
theorem blind_relocatedParts : Plain (relocatedParts a.back?) ∧
    relocatedParts a.withoutRemarks.back? = (relocatedParts a.back?).map withoutRemarks := by
  rw [back?_withoutRemarks]
  cases found : a.back? with
  | none => exact ⟨List.forall_mem_nil _, rfl⟩
  | some back =>
    have kind : back.kind = "back" := Myst.kind_of_findKind? found
    have plain : Plain (relocatedParts (some back)) := fun n mem =>
      plain_kids (quiet.of_find? found) (by rw [kind]; decide) n (List.mem_filter.1 mem).1
    refine ⟨plain, ?_⟩
    rw [← plain.dropRemarks]
    simp only [relocatedParts, Option.map_some, kids_withoutRemarks]
    exact filter_dropRemarks fun c _ => by rw [isOneOf, isOneOf, kind_withoutRemarks]

omit notes in
theorem blind_bodyOf : (bodyOf a).kind = "body" ∧ Everywhere Quiet (bodyOf a) ∧
    bodyOf a.withoutRemarks = (bodyOf a).withoutRemarks := by
  unfold bodyOf
  rw [body?_withoutRemarks]
  cases found : a.body? with
  | none => exact ⟨rfl, quiet_of_whole rfl, rfl⟩
  | some body => exact ⟨Myst.kind_of_findKind? found, quiet.of_find? found, rfl⟩

theorem blind_assembleBody : (assembleBody a footnotes).kind = "body" ∧
    Everywhere Quiet (assembleBody a footnotes) ∧
    assembleBody a.withoutRemarks footnotes = (assembleBody a footnotes).withoutRemarks := by
  obtain ⟨plain, parts⟩ := blind_relocatedParts quiet
  obtain ⟨kind, body, same⟩ := blind_bodyOf quiet
  have noted := blind_withNotes body kind notes
  have stays := (kind_withNotes footnotes (bodyOf a)).trans kind
  obtain ⟨behind, separated⟩ := blind_appendBehindSeparator noted.quiet stays plain
  have still := (kind_appendBehindSeparator _ (relocatedParts a.back?)).trans stays
  have moved := blind_moveFloats behind still
  refine ⟨(kind_moveFloats _).trans still, moved.quiet, ?_⟩
  rw [assembleBody_eq, assembleBody_eq, ← moved.commutes, ← separated, ← noted.commutes, parts,
    same]

theorem blind_assemble : Everywhere Quiet (assemble a footnotes) ∧
    assemble a.withoutRemarks footnotes = (assemble a footnotes).withoutRemarks := by
  obtain ⟨kind, body, same⟩ := blind_assembleBody quiet notes
  -- A body or a floating group has no remarks directly in it, and an abstract none at all.
  have inside := plain_kids body (by rw [kind]; decide)
  have front : a.withoutRemarks.abstract? = a.abstract? := by
    rw [Article.abstract?, Article.abstract?, front?_withoutRemarks quiet]
  have abstract : Whole (a.abstract?.map abstractBlock).toList := by
    cases found : a.abstract? with
    | none => exact List.forall_mem_nil _
    | some abstract =>
      obtain ⟨front, first, inside⟩ := Option.bind_eq_some_iff.1 found
      have frontKind : front.kind = "front" := Myst.kind_of_findKind? first
      have whole := (quiet.of_find? first).here.whole (by rw [frontKind]; decide)
      have own := (everywhere_whole whole).of_find? inside
      exact List.forall_mem_singleton.2 ⟨isRemark_of_kind (by simp [abstractBlock, branch]),
        abstractBlock_whole (Myst.kind_of_findKind? inside) own.here⟩
  have floats : Plain (a.floatsGroups.flatMap Node.kids) := by
    intro n mem
    obtain ⟨group, found, child⟩ := List.mem_flatMap.1 mem
    obtain ⟨place, isOne⟩ := List.mem_filter.1 found
    exact plain_kids (quiet.of_mem_descendants place) (notMem_of_is isOne (by decide)) n child
  have all : Plain ((a.abstract?.map abstractBlock).toList ++ (assembleBody a footnotes).kids
      ++ a.floatsGroups.flatMap Node.kids) :=
    List.forall_mem_append.2 ⟨List.forall_mem_append.2 ⟨abstract.plain, inside⟩, floats⟩
  have known : (assemble a footnotes).kind ∉ wholeKinds := by simp [assemble, branch, wholeKinds]
  refine ⟨quiet_of_plain known all, ?_⟩
  have root : (assemble a footnotes).withoutRemarks = .branch "root" (dropRemarks
      ((a.abstract?.map abstractBlock).toList ++ (assembleBody a footnotes).kids
        ++ a.floatsGroups.flatMap Node.kids)) := withoutRemarks_eq _
  rw [root, dropRemarks_append, dropRemarks_append, abstract.dropRemarks, dropRemarks_flatMap,
    ← kids_withoutRemarks, ← same, assemble, front, floatsGroups_withoutRemarks]
  simp only [List.flatMap_map, kids_withoutRemarks]

/-- An article and the same without its remarks are rendered to the same document. -/
theorem emit_prepare_withoutRemarks (formulas : Formula.Converter) :
    Myst.emit formulas (prepare a.withoutRemarks footnotes) =
      Myst.emit formulas (prepare a footnotes) := by
  obtain ⟨assembled, same⟩ := blind_assemble quiet notes
  have root : (assemble a footnotes).kind = "root" := rfl
  have finished := blind_finish a assembled (by rw [root]; decide)
  -- The address of the images is read off the article, not off the tree that is prepared.
  have hosts : hostGraphics a.withoutRemarks = hostGraphics a := by
    funext tree
    rw [hostGraphics, hostGraphics, imageBase?_withoutRemarks quiet]
  have prepared : prepare a.withoutRemarks footnotes = (prepare a footnotes).withoutRemarks := by
    rw [prepare, same, hosts]
    exact finished.commutes
  rw [prepared]
  exact Myst.emit_withoutRemarks formulas finished.quiet

end

theorem whole_footnoteGroup {a : Article} (quiet : Everywhere Quiet a.tree)
    {sources : Reference.Sources} {registry : Reference.Registry}
    (registered : Reference.Registry.ofReferences sources a.references = .ok registry) :
    Whole registry.footnoteGroup?.toList := by
  have footnotes : registry.footnotes =
      Reference.Registry.footnotesFrom 0 (a.references.flatMap Node.kids) := by
    obtain ⟨-, next, rfl, -, grown⟩ := Reference.Registry.exists_grown_of_registered registered
    exact grown.footnotes
  have parts : Whole (a.references.flatMap Node.kids) := by
    intro n mem
    obtain ⟨ref, place, child⟩ := List.mem_flatMap.1 mem
    exact whole_kids (whole_references quiet ref place).2 n child
  have notes : Whole registry.footnotes := by
    rw [footnotes]
    intro n mem
    obtain ⟨i, small, rfl⟩ := List.mem_mapIdx.1 mem
    have note := parts _ (List.mem_filter.1 (List.getElem_mem small)).1
    exact ⟨isRemark_of_kind (by simp [Reference.Registry.footnoteOf, setAttr]),
      withoutRemarks_of_children (n := (List.filter _ _)[i]) rfl note.2⟩
  have inside : Whole (branch "fn-group" registry.footnotes).kids := notes
  unfold Reference.Registry.footnoteGroup?
  split
  · exact List.forall_mem_nil _
  · exact List.forall_mem_singleton.2
      ⟨isRemark_of_kind (by simp [branch]), withoutRemarks_of_whole_kids inside⟩

/-! ### Conversion -/

/-- What a conversion makes of a rendered article. -/
def conclude (options : Options) (registry : Reference.Registry) (a : Article)
    (rendered : Node × Report) : Conversion :=
  let cited := cite registry (registry.order a.references) rendered.1
  let sections := Myst.extractSections cited a.frontmatter
  let footnotes := Myst.extractFootnotes sections.tree sections.frontmatter
  let tree := Myst.clean footnotes.tree
  { tree
    frontmatter := describe tree footnotes.frontmatter
    references := .ofArticle a
    bibliography := registry.bibliography?
    report := rendered.2
    stats := statsOf a options.sources.pmids registry rendered.2 tree }

theorem convert_eq_conclude {options : Options} {a : Article} {registry : Reference.Registry}
    (registered : Reference.Registry.ofReferences options.sources a.references = .ok registry) :
    a.convert options = .ok (conclude options registry a
      (Myst.emit options.formulas (prepare a registry.footnoteGroup?))) := by
  unfold Article.convert
  rw [registered]
  rfl

theorem convert_eq_error {options : Options} {a : Article} {fault : Reference.Fault}
    (failed : Reference.Registry.ofReferences options.sources a.references = .error fault) :
    a.convert options = .error fault := by
  unfold Article.convert
  rw [failed]
  rfl

theorem conclude_withoutRemarks (options : Options) (registry : Reference.Registry) {a : Article}
    (quiet : Everywhere Quiet a.tree) (rendered : Node × Report) :
    conclude options registry a.withoutRemarks rendered =
      conclude options registry a rendered := by
  simp only [conclude, references_withoutRemarks quiet, frontmatter_withoutRemarks quiet,
    summary_withoutRemarks quiet, stats_withoutRemarks quiet]

end Conversion

open Conversion

theorem Article.convert_withoutRemarks (options : Options) {a : Article}
    (quiet : Everywhere Quiet a.tree) :
    a.withoutRemarks.convert options = a.convert options := by
  have references := references_withoutRemarks quiet
  cases registered : Reference.Registry.ofReferences options.sources a.references with
  | error fault =>
    rw [convert_eq_error registered, convert_eq_error (references ▸ registered)]
  | ok registry =>
    rw [convert_eq_conclude registered, convert_eq_conclude (references ▸ registered),
      emit_prepare_withoutRemarks quiet (whole_footnoteGroup quiet registered),
      conclude_withoutRemarks options registry quiet]

/-- Articles that differ in remarks alone, all in running text, are converted alike. -/
theorem Article.convert_eq_of_withoutRemarks_eq (options : Options) {a b : Article}
    (left : Everywhere Quiet a.tree) (right : Everywhere Quiet b.tree)
    (same : a.withoutRemarks = b.withoutRemarks) : a.convert options = b.convert options := by
  rw [← a.convert_withoutRemarks options left, same, b.convert_withoutRemarks options right]

/-- In a title, which is read as a whole, a remark is part of the text. -/
example :
    let article (title : List Node) := Article.ofTree (branch "article"
      [branch "front" [branch "title-group" [branch "article-title" title]], branch "body" []])
    let remark := scalar "comment" " draft "
    ((article [.text "A", remark, .text " title"]).convert {}).toOption.map
      (·.frontmatter.title) = some (some "A draft  title") := by
  decide +kernel

end Manuscript
