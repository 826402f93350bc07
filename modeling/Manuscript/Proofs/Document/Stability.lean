import Manuscript.Proofs.Citation.FixedPoint
import Manuscript.Proofs.Document.Joining
import Manuscript.Proofs.Document.Landmarks
import Manuscript.Proofs.Document.Provenance
import Manuscript.Proofs.Tree.Removal

/-!
Grouping has nothing left to do in a converted document. What a rule looks at is made of groups and
the texts next to them, or is a superscript around a group; the steps behind grouping find nothing
to change there, unless a list of abbreviations goes from beside a group or two texts that are
joined come to be a separator or a dash.
-/

set_option autoImplicit false

namespace Manuscript.Myst.Citation

open Manuscript.Node

section
variable {order : List String} {allowed : Prop} {removed : Node → Bool}

/-! ### Lists taken out -/

theorem removeWhere_of_leaf {c : Node} (leaf : c.children = none) : removeWhere removed c = c := by
  obtain ⟨k, children, v, a⟩ := c
  obtain rfl : children = none := leaf
  rfl

theorem filter_eq_self_of_isGroup (spares : ∀ c, isCite c = true → removed c = false) {g : Node}
    (tidy : Everywhere (Tidy allowed) g) (isOne : isGroup g = true) :
    g.kids.filter (!removed ·) = g.kids := by
  refine List.filter_eq_self.2 fun c child => ?_
  rw [spares c ((tidy.here.group isOne).2 c child)]
  rfl

theorem resembles_removeWhere (spares : ∀ c, isCite c = true → removed c = false) {d : Node}
    (tidy : Everywhere (Tidy allowed) d) (keeps : KeepsGroups removed d) :
    Resembles d (removeWhere removed d) := by
  refine ⟨kind_removeWhere removed d, value_removeWhere removed d, fun isOne => ?_, ?_⟩
  · rw [kids_removeWhere, filter_eq_self_of_isGroup spares tidy isOne]
    exact kids_eq_of_isGroup tidy isOne fun c _ => removeWhere_of_leaf
  · intro raised g only isOne
    rw [kids_removeWhere] at only
    obtain ⟨h, single, rfl⟩ := List.map_eq_singleton_iff.1 only
    rw [isGroup_congr (kind_removeWhere removed h)] at isOne
    -- The group was among the children, of which there was one.
    have one : d.kids.length = 1 := keeps.raised raised (by rw [single]; rfl)
      (by rw [single]; exact List.forall_mem_singleton.2 isOne)
    obtain ⟨k, same⟩ := List.length_eq_one_iff.1 one
    have child : h ∈ d.kids.filter (!removed ·) := by
      rw [single]
      exact List.mem_singleton_self h
    rw [same] at child ⊢
    exact ⟨h, by rw [List.mem_singleton.1 (List.mem_filter.1 child).1], isOne⟩

theorem settled_removeWhere (spares : ∀ c, isCite c = true → removed c = false) {n : Node}
    (tidy : Everywhere (Tidy allowed) n) (keeps : Everywhere (KeepsGroups removed) n)
    (settled : Everywhere (Settled order) n) :
    Everywhere (Settled order) (removeWhere removed n) := by
  induction n using induction_on_kids with
  | node n ih =>
    have kids := kids_removeWhere removed n
    refine everywhere_iff.2 ⟨?_, ?_⟩
    · refine settled.here.of_echoes (kind_removeWhere removed n) (fun cite => ?_) ?_
      · rw [isCite_congr (kind_removeWhere removed n)] at cite
        rw [removeWhere_of_leaf (settled.here.bare cite)]
        exact settled.here.bare cite
      · rw [kids]
        refine (echoes_filter keeps.here.beside).trans (echoes_map fun d mem _ => ?_)
        have child := (List.mem_filter.1 mem).1
        exact resembles_removeWhere spares (tidy.below d child) (keeps.below d child).here
    · rw [kids]
      refine List.forall_mem_map.2 fun c mem => ?_
      have child := (List.mem_filter.1 mem).1
      exact ih c child (tidy.below c child) (keeps.below c child) (settled.below c child)

/-! ### Demoted footnotes -/

/-- A footnote that nothing refers to makes way for a paragraph, which is its only child or has its
children. -/
theorem demoted_cases (referenced : Dict Unit) (n : Node) :
    (isOrphan referenced n = false ∧ demoted referenced n = n) ∨ n.kind = "footnoteDefinition" ∧
      (demoted referenced n = .branch "paragraph" n.kids ∨
        ∃ only, n.kids = [only] ∧ only.kind = "paragraph" ∧ demoted referenced n = only) := by
  unfold demoted
  split
  · next orphan =>
    have note : n.kind = "footnoteDefinition" := by
      simp only [isOrphan, Bool.and_eq_true] at orphan
      exact beq_iff_eq.1 orphan.1
    refine .inr ⟨note, ?_⟩
    split
    · next only same =>
      split
      · next paragraph => exact .inr ⟨only, same, beq_iff_eq.1 paragraph, rfl⟩
      · exact .inl rfl
    · exact .inl rfl
  · next other => exact .inl ⟨Bool.not_eq_true _ ▸ other, rfl⟩

theorem demoted_eq_of_isMarked {referenced : Dict Unit} {n : Node}
    (marked : isMarked (demoted referenced n) = true) : demoted referenced n = n := by
  have paragraph {m : Node} (kind : m.kind = "paragraph") : isMarked m = false := by
    rw [isMarked, isOneOf, kind]; rfl
  rcases demoted_cases referenced n with ⟨-, same⟩ | ⟨_, same | ⟨only, _, kind, same⟩⟩
  · exact same
  · rw [same, paragraph rfl] at marked; cases marked
  · rw [same, paragraph kind] at marked; cases marked

theorem settled_demoted {referenced : Dict Unit} {n : Node}
    (settled : Everywhere (Settled order) n) :
    Everywhere (Settled order) (demoted referenced n) := by
  rcases demoted_cases referenced n with ⟨-, same⟩ | ⟨note, same | ⟨only, single, _, same⟩⟩
  · rwa [same]
  · have outside : isGroup n = false := by rw [isGroup, is, note]; rfl
    rw [same]
    refine everywhere_iff.2 ⟨{ settled.here with bare := nofun, grouped := ?_, flat := nofun }, ?_⟩
    · exact fun _ => settled.here.grouped outside
    · exact settled.below
  · rw [same]
    exact settled.below only (by rw [single]; exact List.mem_singleton_self only)

section
variable {referenced : Dict Unit}

def demotedKid (referenced : Dict Unit) (n c : Node) : Node :=
  if n.is "legend" then demoted referenced (c.mapUp (demoteIn referenced))
  else c.mapUp (demoteIn referenced)

theorem mapUp_demoteIn_of_legend {n : Node} (legend : n.is "legend" = true) :
    n.mapUp (demoteIn referenced) = n.withKids (n.kids.map (demotedKid referenced n)) := by
  have kid : demotedKid referenced n = demoted referenced ∘ mapUp (demoteIn referenced) :=
    funext fun c => if_pos legend
  have above : demoteIn referenced (n.mapChildren (List.map (mapUp (demoteIn referenced)))) = _ :=
    if_pos legend
  rw [mapUp_eq, above, kids_mapChildren_map, List.map_map, kid]
  rfl

theorem mapUp_demoteIn_of_ne {n : Node} (other : n.is "legend" = false) :
    n.mapUp (demoteIn referenced) = n.mapChildren (List.map (demotedKid referenced n)) := by
  have single : ¬n.is "legend" = true := Bool.not_eq_true _ ▸ other
  have kid : demotedKid referenced n = mapUp (demoteIn referenced) := funext fun c => if_neg single
  rw [mapUp_eq, kid]
  exact if_neg single

theorem kind_mapUp_demoteIn (n : Node) : (n.mapUp (demoteIn referenced)).kind = n.kind := by
  rw [mapUp_eq]
  unfold demoteIn
  split <;> rfl

theorem value_mapUp_demoteIn (n : Node) : (n.mapUp (demoteIn referenced)).value = n.value := by
  rw [mapUp_eq]
  unfold demoteIn
  split <;> rfl

theorem kids_mapUp_demoteIn (n : Node) :
    (n.mapUp (demoteIn referenced)).kids = n.kids.map (demotedKid referenced n) := by
  cases legend : n.is "legend" with
  | true => rw [mapUp_demoteIn_of_legend legend, kids_withKids]
  | false => rw [mapUp_demoteIn_of_ne legend, kids_mapChildren_map]

theorem mapUp_demoteIn_of_leaf {c : Node} (cite : isCite c = true) (leaf : c.children = none) :
    c.mapUp (demoteIn referenced) = c := by
  have other : c.is "legend" = false := by
    rw [is, beq_iff_eq.1 cite]
    rfl
  obtain ⟨k, children, v, a⟩ := c
  obtain rfl : children = none := leaf
  rw [mapUp_demoteIn_of_ne other]
  rfl

/-- Only footnotes make way for others: what a rule looks at is in its place. -/
theorem demotedKid_of_isMarked {n c : Node} (marked : isMarked (demotedKid referenced n c) = true) :
    demotedKid referenced n c = c.mapUp (demoteIn referenced) := by
  unfold demotedKid at marked ⊢
  split
  · next legend =>
    rw [if_pos legend] at marked
    exact demoted_eq_of_isMarked marked
  · rfl

theorem resembles_mapUp_demoteIn {d : Node} (tidy : Everywhere (Tidy allowed) d) :
    Resembles d (d.mapUp (demoteIn referenced)) := by
  refine ⟨kind_mapUp_demoteIn d, value_mapUp_demoteIn d, fun isOne => ?_, ?_⟩
  · have other : d.is "legend" = false := by
      rw [is, kind_of_isGroup isOne]
      rfl
    rw [mapUp_demoteIn_of_ne other, kids_mapChildren_map]
    refine kids_eq_of_isGroup tidy isOne fun c cite leaf => ?_
    rw [demotedKid, other]
    exact mapUp_demoteIn_of_leaf cite leaf
  · intro raised g only isOne
    rw [kids_mapUp_demoteIn] at only
    obtain ⟨h, single, rfl⟩ := List.map_eq_singleton_iff.1 only
    have inner := demotedKid_of_isMarked (isMarked_of_isRunning (isRunning_of_isGroup isOne))
    rw [inner, isGroup_congr (kind_mapUp_demoteIn h)] at isOne
    exact ⟨h, single, isOne⟩

theorem settled_mapUp_demoteIn {n : Node} (tidy : Everywhere (Tidy allowed) n)
    (settled : Everywhere (Settled order) n) :
    Everywhere (Settled order) (n.mapUp (demoteIn referenced)) := by
  induction n using induction_on_kids with
  | node n ih =>
    have kids : (n.mapUp (demoteIn referenced)).kids = n.kids.map (demotedKid referenced n) :=
      kids_mapUp_demoteIn n
    refine everywhere_iff.2 ⟨?_, ?_⟩
    · refine settled.here.of_echoes (kind_mapUp_demoteIn n) (fun cite => ?_) ?_
      · rw [isCite_congr (kind_mapUp_demoteIn n)] at cite
        rw [mapUp_demoteIn_of_leaf cite (settled.here.bare cite)]
        exact settled.here.bare cite
      · rw [kids]
        refine echoes_map fun d child marked => ?_
        rw [demotedKid_of_isMarked marked]
        exact resembles_mapUp_demoteIn (tidy.below d child)
    · rw [kids]
      refine List.forall_mem_map.2 fun c child => ?_
      have below := ih c child (tidy.below c child) (settled.below c child)
      unfold demotedKid
      split
      · exact settled_demoted below
      · exact below

end

end

end Manuscript.Myst.Citation

namespace Manuscript.Conversion

open Node Myst Myst.Citation Body

/-! ### Texts that are not empty -/

theorem lasting_filled (order : List String) : Lasting order Filled := by
  constructor
  case children => exact fun _ here => here
  case stripped => exact fun here => here
  case retexted =>
    intro n s some _ _
    simp [Filled, isEmptyText, some]
  case marked => exact fun _ here => here
  case grouped => exact fun _ _ => rfl
  case regrouped =>
    intro g h isOne kind _ _ _
    exact isEmptyText_of_not_isText (isText_of_isGroup ((isGroup_congr kind).trans isOne))
  case listed =>
    intro kind _ _ _ _ s _ _ _ _ _ _ _
    exact isEmptyText_of_not_isText (isText_of_isCite (isCite_citeOf kind s).1)

theorem kidsFree_filled : KidsFree Filled := fun _ here => here

theorem filled_emit (formulas : Formula.Converter) (tree : Node) :
    Everywhere Filled (emit formulas tree).1 := by
  have neat := neatTree_emit formulas tree
  refine everywhere_iff.2 ⟨?_, forall_mem_descendants_iff.1 fun m mem => ?_⟩
  · rw [emit_fst]
    rfl
  · obtain ⟨p, above, child⟩ := exists_parent mem
    exact (neat p above).filled m child

/-- Emission makes no empty text, and no rule leaves one. -/
theorem filled_grouped (options : Options) (a : Article) (registry : Reference.Registry) :
    Everywhere Filled (grouped options a registry) := by
  have emitted := filled_emit options.formulas (prepare a registry.footnoteGroup?)
  refine (lasting_filled _).everywhere_groupCitations ?_
  refine everywhere_resolveBelow (p := Filled) kidsFree_filled (fun _ _ _ => ?_)
    (emitted.imp fun _ here _ => here) (by rw [emit_fst]; rfl)
  apply everywhere_expansion
  · intro number _
    exact isEmptyText_of_not_isText (by rw [isText, kind_pointer]; rfl)
  · exact fun _ => rfl
  · intro label _
    exact isEmptyText_of_not_isText (beq_eq_false_iff_ne.2 (by rw [setAttr, kind_pointer]; decide))

theorem filled_removeWhere (removed : Node → Bool) {n : Node}
    (filled : Everywhere Filled n) :
    Everywhere Filled (removeWhere removed n) := by
  refine everywhere_removeWhere (fun m all => ?_) filled
  rw [removeWhere_eq]
  exact kidsFree_filled.mapChildren _ all.here

theorem filled_demoteFootnotes {tree : Node}
    (filled : Everywhere Filled tree) :
    Everywhere Filled (demoteFootnotes tree) := by
  have paragraph (cs : List Node) : Filled (.branch "paragraph" cs) := rfl
  rw [demoteFootnotes_eq]
  exact everywhere_mapUp (fun _ here => kidsFree_filled.mapChildren _ here)
    (fun n => everywhere_demoteIn (p := Filled) kidsFree_filled paragraph) filled

/-! ### Converted documents -/

/-- Whether a node is a list of abbreviations that is a section. -/
def isSectionList (n : Node) : Bool := (sectionAbbreviations? n).isSome

/-- Whether a node is a list of abbreviations that is a footnote of a document. -/
def isFootnoteList (tree n : Node) : Bool :=
  (footnoteAbbreviations? (referencedFootnotes tree) n).isSome

/-- A document without the sections that are lists of abbreviations. -/
def withoutSectionLists (tree : Node) : Node := tree.removeWhere isSectionList

def withoutLists (tree : Node) : Node :=
  (withoutSectionLists tree).removeWhere (isFootnoteList (withoutSectionLists tree))

theorem concluded_eq (f : Frontmatter) (tree : Node) :
    concluded f tree = clean (withoutLists tree) := rfl

/-- Whether the steps around grouping are no trouble to it: it comes to an end within its passes, no
list of abbreviations leaves a group next to a text or a group, and texts that are joined are no
separator or dash between two groups. -/
structure Steady (options : Options) (a : Article) (registry : Reference.Registry) : Prop where
  settles : ∃ n ≤ passLimit,
    (pass (registry.order a.references)
      (passes (registry.order a.references) n (resolved options a registry))).2 = false
  sections : (∃ n ∈ a.tree.nodes, n.kind = "block") →
    Everywhere (KeepsGroups isSectionList) (grouped options a registry)
  footnotes : Everywhere
    (KeepsGroups (isFootnoteList (withoutSectionLists (grouped options a registry))))
    (withoutSectionLists (grouped options a registry))
  joined : Everywhere (JoinsNothing (registry.order a.references))
    (demoteFootnotes (withoutLists (grouped options a registry)))

theorem isSectionList_of_isCite (c : Node) (cite : isCite c = true) : isSectionList c = false := by
  rw [isSectionList, sectionAbbreviations?_of_ne (by rw [beq_iff_eq.1 cite]; decide)]
  rfl

theorem isFootnoteList_of_isCite (tree c : Node) (cite : isCite c = true) :
    isFootnoteList tree c = false := by
  have other : c.kind ≠ "footnoteDefinition" := by rw [beq_iff_eq.1 cite]; decide
  rw [isFootnoteList, footnoteAbbreviations?_of_not_isOrphan (isOrphan_of_ne other)]
  rfl

/-- Sections are blocks, which stand among blocks if the article has none of its own. -/
theorem keepsGroups_sections {allowed : Prop} (none : ¬allowed) {tree : Node}
    (tidy : Everywhere (Tidy allowed) tree) : Everywhere (KeepsGroups isSectionList) tree := by
  intro n mem
  have here := (tidy n mem).toShaped
  by_cases root : n.kind = "root"
  · refine ⟨fun s mem _ link => ?_, fun raised => ?_⟩
    · have block := here.top root s.first ((of_mem_spans mem).1.subset List.mem_cons_self)
      have running := (isLinked_iff.1 link).1
      rw [isRunning, isText, isGroup, is, block] at running
      cases running
    · exact absurd (root.symm.trans raised) (by decide)
  · have spared : ∀ c ∈ n.kids, isSectionList c = false := by
      intro c child
      have other : c.kind ≠ "block" := fun block => none (here.inner root c child block)
      rw [isSectionList, sectionAbbreviations?_of_ne other]
      rfl
    have same : n.kids.filter (!isSectionList ·) = n.kids :=
      List.filter_eq_self.2 fun c child => by rw [spared c child]; rfl
    refine ⟨fun s mem _ _ => ?_, fun _ one _ => same ▸ one⟩
    obtain ⟨inside, between⟩ := of_mem_spans mem
    refine List.eq_nil_iff_forall_not_mem.2 fun c place => ?_
    have child : c ∈ n.kids := inside.subset (by simp [Span.nodes, place])
    exact absurd ((spared c child).symm.trans (between c place)) (by decide)

/-- What is settled stays so when the lists of abbreviations go and the rest is cleaned. -/
theorem settled_concluded {allowed : Prop} {order : List String} {tree : Node} (f : Frontmatter)
    (tidy : Everywhere (Tidy allowed) tree)
    (filled : Everywhere Filled tree)
    (sections : Everywhere (KeepsGroups isSectionList) tree)
    (footnotes : Everywhere (KeepsGroups (isFootnoteList (withoutSectionLists tree)))
      (withoutSectionLists tree))
    (joined : Everywhere (JoinsNothing order) (demoteFootnotes (withoutLists tree)))
    (settled : Everywhere (Settled order) tree) :
    Everywhere (Settled order) (concluded f tree) := by
  have unlisted : Everywhere (Tidy allowed) (withoutSectionLists tree) :=
    tidy_removeWhere isSectionList_of_isCite tidy
  have spares := isFootnoteList_of_isCite (withoutSectionLists tree)
  have tidy' : Everywhere (Tidy allowed) (withoutLists tree) := tidy_removeWhere spares unlisted
  have settled' : Everywhere (Settled order) (withoutLists tree) := by
    apply settled_removeWhere spares unlisted footnotes
    exact settled_removeWhere isSectionList_of_isCite tidy sections settled
  have filled' := filled_demoteFootnotes (filled_removeWhere
    (isFootnoteList (withoutSectionLists tree)) (filled_removeWhere isSectionList filled))
  have full : (demoteFootnotes (withoutLists tree)).removeWhere isEmptyText =
      demoteFootnotes (withoutLists tree) :=
    removeWhere_eq_self_of_descendants fun m mem => filled' m (List.mem_cons_of_mem _ mem)
  rw [concluded_eq, clean, full]
  refine settled_joinTexts (tidy_demoteFootnotes tidy') filled' joined ?_
  rw [demoteFootnotes_eq]
  exact settled_mapUp_demoteIn tidy' settled'

/-- Grouping has nothing left to do in a converted document if the steps around it were no trouble
to it. -/
theorem grouping_idle_of_convert {a : Article} {options : Options} {c : Conversion}
    {registry : Reference.Registry}
    (registered : Reference.Registry.ofReferences options.sources a.references = .ok registry)
    (converted : a.convert options = .ok c) (steady : Steady options a registry) :
    groupCitations (registry.order a.references) c.tree = (c.tree, false) := by
  have article : OfKinds (BlocksIf (∃ n ∈ a.tree.nodes, n.kind = "block")) a.tree :=
    fun n mem block => ⟨n, mem, block⟩
  have notes := Reference.Registry.ofKinds_footnoteGroup (everywhere_references article) registered
  have shaped := shaped_emit options.formulas (outlined_prepare article notes)
  have tidy : Everywhere (Tidy _) (grouped options a registry) :=
    tidy_cite_document registry (registry.order a.references) shaped
  have sections : Everywhere (KeepsGroups isSectionList) (grouped options a registry) := by
    by_cases own : ∃ n ∈ a.tree.nodes, n.kind = "block"
    · exact steady.sections own
    · exact keepsGroups_sections own tidy
  have settled : Everywhere (Settled (registry.order a.references))
      (grouped options a registry) := by
    apply (pass_changes_nothing_iff _ _).1
    rw [grouped, groupCitations, settle_fst, idle_passes_iff]
    exact steady.settles
  rw [groupCitations, settle_eq_idle_iff (by decide), pass_changes_nothing_iff,
    tree_of_convert registered converted]
  exact settled_concluded a.frontmatter tidy (filled_grouped options a registry) sections
    steady.footnotes steady.joined settled

def abbreviationNote : Node :=
  branch "fn" [branch "p" [.text "Abbreviations: BMI, body mass index"]]

/-- A section that is a list of abbreviations, in the form that sections have when they are
prepared. -/
def abbreviationBlock : Node :=
  branch "block" [branch "heading" [.text "Abbreviations"],
    branch "p" [.text "BHT, butylated hydroxytoluene"]]

/-- An article with a section of one paragraph and one of abbreviations, and with three entries, the
second of which stands for nothing. -/
def citing (paragraph : List Node) : Article :=
  .ofTree (branch "article" [
    branch "body" [
      branch "sec" [branch "title" [.text "Results"], branch "p" paragraph],
      branch "sec" [branch "title" [.text "Abbreviations"],
        branch "p" [.text "BHT, butylated hydroxytoluene"]]],
    branch "back" [
      branch "ref-list" [
        identified "ref" "r1" [branch "mixed-citation" [.text "A"]],
        identified "ref" "r2" [],
        identified "ref" "r3" [branch "mixed-citation" [.text "B"]]]]])

/-- An article in which a footnote that lists abbreviations and a citation that stands for nothing
are each in the midst of the text between two citations. -/
def abbreviated : Article :=
  citing [.text "See", citationOf "r1" "1", .text " on BMI", abbreviationNote, .text " and",
    citationOf "r2" "2", .text " age", citationOf "r3" "3", .text "."]

theorem grouping_idle_of_convert_abbreviated : ∃ registry c,
    Reference.Registry.ofReferences {} abbreviated.references = .ok registry ∧
    abbreviated.convert {} = .ok c ∧ Steady {} abbreviated registry ∧
    groupCitations (registry.order abbreviated.references) c.tree = (c.tree, false) := by
  obtain ⟨registry, registered⟩ : ∃ registry,
      Reference.Registry.ofReferences {} abbreviated.references = .ok registry := ⟨_, rfl⟩
  obtain ⟨c, converted⟩ : ∃ c, abbreviated.convert {} = .ok c := ⟨_, rfl⟩
  have steady : Steady {} abbreviated registry := by
    cases registered
    constructor
    case settles => exact ⟨2, by decide, by decide +kernel⟩
    case sections => exact fun own => absurd own (by decide +kernel)
    case footnotes => decide +kernel
    case joined => decide +kernel
  exact ⟨registry, c, registered, converted, steady,
    grouping_idle_of_convert registered converted steady⟩

/-- An article with a citation in more brackets than there are passes. -/
def enclosed : Article :=
  .ofTree (branch "article" [
    branch "body" [branch "p" [brackets '(' (passLimit + 2),
      (branch "xref" [.text "1"]).setAttr "ref-type" (.string "bibr"),
      brackets ')' (passLimit + 2)]]])

theorem passes_around (order : List String) (limit : Nat) {kind : String} {m : Node}
    (outer : Uninvolved kind) (inner : Uninvolved m.kind) :
    passes order limit (.branch kind [m]) = .branch kind [passes order limit m] := by
  have lasting : Lasting order fun _ => false = false := by
    constructor <;> intros <;> rfl
  have skips := skips_passes lasting (fun _ => rfl) limit
  have single := skips.passage.cons inner []
  rw [skips.passage.nil] at single
  rw [skips.here _ outer, skips.here m inner]
  exact congrArg (fun ns => Node.branch kind ns) single

/-- All passes take brackets away, the first one when it has made a group. -/
theorem grouped_enclosed :
    grouped {} enclosed .empty = .branch "root" [.branch "block" [bracketed 2]] := by
  have first : passes [] 1 (resolved {} enclosed .empty) =
      .branch "root" [.branch "block" [bracketed (passLimit - 1 + 1 + 1)]] :=
    eq_of_beq (by decide +kernel)
  have order : Reference.Registry.order .empty enclosed.references = [] := by decide +kernel
  rw [grouped, groupCitations, settle_fst, order]
  show passes [] (1 + (passLimit - 1)) _ = _
  rw [passes_add, first, passes_around _ _ (by decide) (by decide),
    passes_around _ _ (by decide) (by decide), passes_bracketed]

/-- Articles with a list of abbreviations next to a citation: between two of them, behind a text,
inside brackets, in a superscript, or as a block of its own. -/
def interrupted : List Article := [
  citing [citationOf "r1" "1", abbreviationNote, citationOf "r3" "3"],
  citing [.text "See", abbreviationNote, citationOf "r1" "1"],
  citing [.text "(", citationOf "r1" "1", abbreviationNote, .text ")"],
  citing [branch "sup" [citationOf "r1" "1", abbreviationNote]],
  citing [citationOf "r1" "1", abbreviationBlock, citationOf "r3" "3"]]

/-- Articles in which a citation that stands for nothing is in the midst of a separator or a
dash. -/
def split : List Article := [
  citing [citationOf "r1" "1", .text ",", citationOf "r2" "2", .text " ", citationOf "r3" "3"],
  citing [citationOf "r1" "1", .text "-", citationOf "r2" "2", .text " ", citationOf "r3" "3"]]

/-- Whether grouping has something left to do in the document of an article. -/
def GoesOn (a : Article) : Prop :=
  ∃ registry c, Reference.Registry.ofReferences {} a.references = .ok registry ∧
    a.convert {} = .ok c ∧ (groupCitations (registry.order a.references) c.tree).2 = true

theorem goesOn_enclosed : GoesOn enclosed := by
  have registered : Reference.Registry.ofReferences {} enclosed.references = .ok .empty := rfl
  obtain ⟨c, converted⟩ : ∃ c, enclosed.convert {} = .ok c := ⟨_, rfl⟩
  refine ⟨_, c, registered, converted, ?_⟩
  have tree : c.tree = concluded enclosed.frontmatter (grouped {} enclosed .empty) :=
    tree_of_convert registered converted
  rw [tree, grouped_enclosed]
  decide +kernel

/-- Too few passes, lists of abbreviations that go and texts that are joined may each give grouping
more to do. -/
theorem grouping_goes_on :
    GoesOn enclosed ∧ (∀ a ∈ interrupted, GoesOn a) ∧ ∀ a ∈ split, GoesOn a := by
  simp only [interrupted, split, List.forall_mem_cons, List.not_mem_nil, false_implies,
    implies_true, and_true]
  refine ⟨goesOn_enclosed, ⟨?_, ?_, ?_, ?_, ?_⟩, ?_, ?_⟩
  all_goals
    refine ⟨_, _, rfl, rfl, ?_⟩
    decide +kernel

end Manuscript.Conversion
