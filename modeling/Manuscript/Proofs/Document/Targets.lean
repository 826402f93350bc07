import Manuscript.Proofs.Document.Footnotes
import Manuscript.Proofs.Tree.Removal

/-!
The targets of footnote references in the last steps of a conversion. No step makes a reference, and
a definition is lost in one way only: with a list of abbreviations that has it inside.
-/

set_option autoImplicit false

namespace Manuscript

open Node Myst Conversion

/-! ### Wanted nodes that stay -/

/-- Whether a node or one below it is wanted. -/
def Contains (wanted : Node → Bool) (n : Node) : Prop := ∃ m ∈ n.nodes, wanted m = true

section
variable {wanted : Node → Bool}

theorem contains_iff {n : Node} :
    Contains wanted n ↔ wanted n = true ∨ ∃ c ∈ n.kids, Contains wanted c := by
  constructor
  · rintro ⟨m, mem, isOne⟩
    rcases mem_nodes_iff.1 mem with rfl | ⟨c, child, mem⟩
    · exact .inl isOne
    · exact .inr ⟨c, child, m, mem, isOne⟩
  · rintro (isOne | ⟨c, child, m, mem, isOne⟩)
    · exact ⟨n, mem_nodes_iff.2 (.inl rfl), isOne⟩
    · exact ⟨m, mem_nodes_iff.2 (.inr ⟨c, child, mem⟩), isOne⟩

/-- What removal takes away is in one of the trees that it takes out. -/
theorem contains_removeWhere (inherent : Inherent wanted) (removed : Node → Bool) {n : Node}
    (holds : Contains wanted n) : Contains wanted (removeWhere removed n) ∨
      ∃ m ∈ n.outermost removed, Contains wanted m := by
  have same (m : Node) : wanted (removeWhere removed m) = wanted m := by
    rw [removeWhere_eq, inherent.mapChildren]
  obtain ⟨m, mem, isOne⟩ := holds
  rcases List.mem_cons.1 mem with rfl | below
  · exact .inl ⟨_, List.mem_cons_self, by rwa [same]⟩
  · rw [(perm_descendants removed n).mem_iff, List.mem_append] at below
    rcases below with stays | gone
    · refine .inl ⟨removeWhere removed m, List.mem_cons_of_mem _ ?_, by rwa [same]⟩
      rw [descendants_removeWhere]
      exact List.mem_map_of_mem stays
    · obtain ⟨outer, out, inside⟩ := List.mem_flatMap.1 gone
      exact .inr ⟨outer, out, m, inside, isOne⟩

theorem contains_mapUp (inherent : Inherent wanted) {f : Node → Node}
    (step : ∀ n, Contains wanted n → Contains wanted (f n)) {n : Node}
    (holds : Contains wanted n) : Contains wanted (mapUp f n) := by
  induction n using induction_on_kids with
  | node n ih =>
    rw [mapUp_eq]
    apply step
    rw [contains_iff, kids_mapChildren_map, inherent.mapChildren]
    rcases contains_iff.1 holds with isOne | ⟨c, child, inside⟩
    · exact .inl isOne
    · exact .inr ⟨_, List.mem_map_of_mem child, ih c child inside⟩

end

/-! ### Cleaning -/

/-- Whether texts have no children, everywhere in a tree. -/
def PlainTexts (n : Node) : Prop := Everywhere (fun m => m.isText = true → m.kids = []) n

section
variable {identifier : String}

theorem isDefinition_of_text {n : Node} (text : n.isText = true) :
    isDefinition identifier n = false := by
  rw [isDefinition, is, beq_iff_eq.1 text]
  rfl

theorem isText_eq_false_of_contains {n : Node} (plain : PlainTexts n)
    (holds : Contains (isDefinition identifier) n) : n.isText = false := by
  rw [← Bool.not_eq_true]
  intro text
  rcases contains_iff.1 holds with isOne | ⟨c, child, -⟩
  · exact absurd (isOne.symm.trans (isDefinition_of_text text)) (by decide)
  · rw [plain.here text] at child
    exact absurd child List.not_mem_nil

/-- A footnote that is referred to is not demoted, nor is any lost that is inside another one. -/
theorem contains_demoted {referenced : Dict Unit} (known : referenced.contains identifier = true)
    {n : Node} (holds : Contains (isDefinition identifier) n) :
    Contains (isDefinition identifier) (demoted referenced n) := by
  unfold demoted
  split
  · next orphan =>
    -- The footnote itself has another identifier, so that the definition is further down.
    obtain ⟨c, child, inside⟩ : ∃ c ∈ n.kids, Contains (isDefinition identifier) c := by
      refine (contains_iff.1 holds).resolve_left fun isOne => ?_
      simp only [isDefinition, Bool.and_eq_true, beq_iff_eq] at isOne
      simp [isOrphan, isOne.2, known] at orphan
    have around : Contains (isDefinition identifier) (.branch "paragraph" n.kids) :=
      contains_iff.2 (.inr ⟨c, child, inside⟩)
    split
    · next only same =>
      split
      · rw [same] at child
        rwa [← List.mem_singleton.1 child]
      · exact around
    · exact around
  · exact holds

theorem contains_demoteFootnotes {tree : Node}
    (known : (referencedFootnotes tree).contains identifier = true)
    (holds : Contains (isDefinition identifier) tree) :
    Contains (isDefinition identifier) (demoteFootnotes tree) := by
  have inherent := (landmarks_isDefinition identifier).inherent
  rw [demoteFootnotes_eq]
  refine contains_mapUp inherent (fun n holds => ?_) holds
  unfold demoteIn
  split
  · rw [contains_iff, inherent, kids_withKids]
    rcases contains_iff.1 holds with isOne | ⟨c, child, inside⟩
    · exact .inl isOne
    · exact .inr ⟨_, List.mem_map_of_mem child, contains_demoted known inside⟩
  · exact holds

theorem plainTexts_demoteFootnotes {tree : Node} (plain : PlainTexts tree) :
    PlainTexts (demoteFootnotes tree) := by
  have paragraph {cs : List Node} (below : ∀ c ∈ cs, PlainTexts c) :
      PlainTexts (.branch "paragraph" cs) := everywhere_iff.2 ⟨nofun, below⟩
  have demotes (referenced : Dict Unit) {n : Node} (plain : PlainTexts n) :
      PlainTexts (demoted referenced n) := by
    unfold demoted
    split
    · split
      · next only same =>
        split
        · exact plain.below only (by rw [same]; exact List.mem_singleton_self only)
        · exact paragraph plain.below
      · exact paragraph plain.below
    · exact plain
  rw [demoteFootnotes_eq]
  refine everywhere_mapUp (fun n leaf text => ?_) (fun n plain => ?_) plain
  · rw [kids_mapChildren_map, leaf text, List.map_nil]
  · unfold demoteIn
    split
    · next legend =>
      have other (cs : List Node) : (n.withKids cs).isText = false := by
        rw [isText, kind_withKids, beq_iff_eq.1 legend]
        rfl
      refine everywhere_iff.2 ⟨fun text => absurd ((other _).symm.trans text) (by decide), ?_⟩
      rw [kids_withKids, List.forall_mem_map]
      exact fun c child => demotes _ (plain.below c child)
    · exact plain

theorem mem_mergeTexts_of_mem {ns : List Node} {n : Node} (mem : n ∈ ns)
    (other : n.isText = false) : n ∈ mergeTexts ns := by
  obtain ⟨before, after, rfl⟩ := List.append_of_mem mem
  rw [mergeTexts_around other]
  simp

theorem contains_joinTexts {n : Node} (plain : PlainTexts n)
    (holds : Contains (isDefinition identifier) n) :
    Contains (isDefinition identifier) (joinTexts n) := by
  have inherent := (landmarks_isDefinition identifier).inherent
  induction n using induction_on_kids with
  | node n ih =>
    rw [joinTexts_eq, mapChildren_mapChildren, contains_iff, inherent.mapChildren,
      kids_mapChildren rfl]
    rcases contains_iff.1 holds with isOne | ⟨c, child, inside⟩
    · exact .inl isOne
    · have other : c.isText = false := isText_eq_false_of_contains (plain.below c child) inside
      have other : (joinTexts c).isText = false := by rw [joinTexts_eq]; exact other
      refine .inr ⟨joinTexts c, mem_mergeTexts_of_mem (List.mem_map_of_mem child) other, ?_⟩
      exact ih c child (plain.below c child) inside

theorem plainTexts_removeWhere (removed : Node → Bool) {n : Node} (plain : PlainTexts n) :
    PlainTexts (removeWhere removed n) := by
  refine everywhere_removeWhere (fun m all text => ?_) plain
  rw [isText, kind_removeWhere] at text
  rw [kids_removeWhere, all.here text]
  rfl

/-- Cleaning keeps every definition that is referred to. -/
theorem contains_clean {tree : Node} (plain : PlainTexts tree)
    (known : (referencedFootnotes tree).contains identifier = true)
    (holds : Contains (isDefinition identifier) tree) :
    Contains (isDefinition identifier) (clean tree) := by
  have inherent := (landmarks_isDefinition identifier).inherent
  have plain := plainTexts_demoteFootnotes plain
  apply contains_joinTexts (plainTexts_removeWhere isEmptyText plain)
  refine (contains_removeWhere inherent isEmptyText
    (contains_demoteFootnotes known holds)).resolve_right ?_
  -- An empty text has nothing inside.
  rintro ⟨m, out, inside⟩
  obtain ⟨empty, below⟩ := of_mem_outermost out
  have other := isText_eq_false_of_contains (plain.of_mem_descendants below) inside
  rw [isEmptyText, other] at empty
  cases empty

end

/-! ### References -/

/-- Whether every footnote that a tree refers to is defined in it. -/
def Intact (tree : Node) : Prop :=
  ∀ identifier, Refers identifier tree → Contains (isDefinition identifier) tree

/-- The lists of abbreviations that a document loses: its sections, and then its footnotes. -/
def listsOf (f : Frontmatter) (tree : Node) : List Node :=
  let outlined := (extractSections tree f).tree
  tree.outermost (fun n => (sectionAbbreviations? n).isSome) ++
    outlined.outermost fun n => (footnoteAbbreviations? (referencedFootnotes outlined) n).isSome

/-- Where no list of abbreviations that goes has a footnote inside that is still referred to, a
document keeps a definition for every reference. -/
theorem intact_concluded {tree : Node} (f : Frontmatter) (root : tree.kind = "root")
    (plain : PlainTexts tree) (intact : Intact tree)
    (spared : ∀ list ∈ listsOf f tree, ∀ d ∈ list.descendants, ∀ identifier,
      isDefinition identifier d = true → ¬ Refers identifier (concluded f tree)) :
    Intact (concluded f tree) := by
  intro identifier refers
  have inherent := (landmarks_isDefinition identifier).inherent
  have noted := refers_of_refers_clean refers
  have outlined := refers_of_refers_removeWhere noted
  have top : (extractSections tree f).tree.kind = "root" := (kind_removeWhere _ _).trans root
  have known := contains_referencedFootnotes_of_refers top outlined
  -- A list that goes is no definition of the identifier itself, and it has none inside.
  have kept {list : Node} (goes : list ∈ listsOf f tree)
      (other : isDefinition identifier list = false) :
      ¬Contains (isDefinition identifier) list := by
    rintro ⟨d, mem, isOne⟩
    rcases List.mem_cons.1 mem with rfl | below
    · exact absurd (isOne.symm.trans other) (by decide)
    · exact spared list goes d below identifier isOne refers
  have first : Contains (isDefinition identifier) (extractSections tree f).tree := by
    have holds := intact identifier (refers_of_refers_removeWhere outlined)
    refine (contains_removeWhere inherent _ holds).resolve_right ?_
    rintro ⟨list, goes, inside⟩
    obtain ⟨block, -⟩ := exists_kids_of_isSome (of_mem_outermost goes).1
    have other : isDefinition identifier list = false := by
      rw [isDefinition, is, block]
      rfl
    exact kept (List.mem_append_left _ goes) other inside
  refine contains_clean (plainTexts_removeWhere _ (plainTexts_removeWhere _ plain))
    (contains_referencedFootnotes_of_refers ((kind_removeWhere _ _).trans top) noted) ?_
  refine (contains_removeWhere inherent _ first).resolve_right ?_
  rintro ⟨list, goes, inside⟩
  have other : isDefinition identifier list = false := by
    rw [← Bool.not_eq_true]
    intro isOne
    have orphan : isOrphan (referencedFootnotes (extractSections tree f).tree) list = false := by
      simp only [isDefinition, Bool.and_eq_true, beq_iff_eq] at isOne
      simp [isOrphan, isOne.2, known]
    have list := (of_mem_outermost goes).1
    rw [footnoteAbbreviations?_of_not_isOrphan orphan] at list
    cases list
  exact kept (List.mem_append_right _ goes) other inside

/-- A footnote inside a list of abbreviations goes with it, though a reference elsewhere stays. -/
example :
    let reference : Node := (leaf "footnoteReference").setAttr "identifier" (.string "f1")
    let definition : Node := (branch "footnoteDefinition"
      [branch "paragraph" [.text "A salt"]]).setAttr "identifier" (.string "f1")
    let tree := branch "root" [branch "block" [branch "paragraph" [.text "x", reference]],
      branch "block" [branch "heading" [.text "Abbreviations"],
        branch "paragraph" [.text "BHT, butylated hydroxytoluene", definition]]]
    let after := concluded {} tree
    tree.count (isDefinition "f1") = 1 ∧ after.count (·.is "footnoteReference") = 1 ∧
      after.count (isDefinition "f1") = 0 := by
  decide +kernel

end Manuscript
