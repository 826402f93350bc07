import Manuscript.Body.Abstract
import Manuscript.Proofs.Body.Prose
import Manuscript.Proofs.Document.Assembly

/-!
The abstract of an article in its simple form. No section, group or block is left in it, and it has
the words that it had before, but for what flattening takes out and for what becomes of a title in
front: it goes if it says no more than that an abstract follows, and a space comes behind it if it
goes into the paragraph that follows.
-/

set_option autoImplicit false

namespace Manuscript.Body

open Manuscript.Node

/-- The kinds of the nodes that give way in an abstract, are put into another or get another kind. -/
def reshapedKinds : List String := ["sec", "ack", "app", "app-group", "block", "title", "p"]

/-- Whether a node has no text of its own, if it is of a kind that is reshaped. -/
def Wordless (n : Node) : Prop := n.kind ∈ reshapedKinds → n.value = none

theorem Wordless.bare {lifted : Node → Bool} {n : Node} (wordless : Wordless n)
    (known : lifted n = true → n.kind ∈ reshapedKinds) : Bare lifted n :=
  fun gone => wordless (known gone)

theorem mem_reshapedKinds_of_isSection {n : Node} (sec : isSection n = true) :
    n.kind ∈ reshapedKinds := by
  simp only [isSection, isSectionKind, Bool.or_eq_true, beq_iff_eq] at sec
  rcases sec with (kind | kind) | kind <;> rw [kind] <;> decide

/-! ### Flat children -/

/-- The children of an abstract when its sections are flat and its blocks have given way. -/
def flatChildren (n : Node) : List Node :=
  ((flattenSections .strong (unwrapOnlySection n)).liftWhere (·.is "block")).kids

theorem liftFrom_block_nestLoose (loose ns : List Node) :
    liftFrom (·.is "block") (nestLoose loose ns) = liftFrom (·.is "block") (loose ++ ns) := by
  have gathered (loose : List Node) :
      liftFrom (·.is "block") (if loose.isEmpty then [] else [branch "block" loose]) =
        liftFrom (·.is "block") loose := by
    cases loose with
    | nil => rfl
    | cons n ns => exact List.append_nil _
  induction ns generalizing loose with
  | nil => rw [nestLoose, gathered, List.append_nil]
  | cons n ns ih =>
    rw [nestLoose]
    split
    · rw [liftFrom_eq_flatMap, List.flatMap_append, ← liftFrom_eq_flatMap, gathered,
        List.flatMap_cons, ← liftFrom_eq_flatMap, ih, List.nil_append, liftFrom_eq_flatMap,
        liftFrom_eq_flatMap, liftFrom_eq_flatMap, List.flatMap_append, List.flatMap_cons]
    · rw [ih, List.append_assoc, List.singleton_append]

/-- The blocks that sections and what stands between them are put into give way again. -/
theorem flatChildren_eq (n : Node) : flatChildren n =
    liftFrom (·.is "block") (flatForest .strong (unwrapOnlySection n).kids) := by
  rw [flatChildren, flattenSections_eq_nestBlocks, kids_liftWhere, nestBlocks]
  split
  · rw [kids_withKids, kids_withKids, liftFrom_block_nestLoose, List.nil_append]
  · rw [kids_withKids, kids_withKids]
    exact List.append_nil _

/-! ### The unwrapped section -/

theorem value_unwrapOnlySection (n : Node) : (unwrapOnlySection n).value = n.value := by
  unfold unwrapOnlySection
  split
  · split <;> rfl
  · rfl

theorem kids_unwrapOnlySection (n : Node) : (unwrapOnlySection n).kids = n.kids ∨
    ∃ only, n.kids = [only] ∧ only.kind = "sec" ∧ (unwrapOnlySection n).kids = only.kids := by
  unfold unwrapOnlySection
  split
  · next only same =>
    split
    · next sec => exact .inr ⟨only, same, beq_iff_eq.1 sec, rfl⟩
    · exact .inl rfl
  · exact .inl rfl

section
variable {n : Node} (wordless : ∀ c ∈ n.kids, Everywhere Wordless c)
include wordless

theorem wordless_unwrapOnlySection :
    ∀ c ∈ (unwrapOnlySection n).kids, Everywhere Wordless c := by
  rcases kids_unwrapOnlySection n with same | ⟨only, alone, -, same⟩
  · rwa [same]
  · rw [same]
    exact (wordless only (by rw [alone]; exact List.mem_singleton_self only)).below

theorem forestText_unwrapOnlySection :
    forestText (unwrapOnlySection n).kids = forestText n.kids := by
  rcases kids_unwrapOnlySection n with same | ⟨only, alone, sec, same⟩
  · rw [same]
  · have whole := wordless only (by rw [alone]; exact List.mem_singleton_self only)
    have bare : only.value = none := whole.here (by rw [sec]; decide)
    rw [same, alone, forestText, forestText, toText_eq, bare]
    simp

end

/-! ### What stays of the text -/

theorem wordless_labelSection (depth : Nat) {n : Node} (wordless : Everywhere Wordless n) :
    Everywhere Wordless (labelSection .strong depth n) := by
  induction n using induction_on_kids generalizing depth with
  | node n ih =>
    rw [labelSection_eq]
    split
    · refine everywhere_iff.2 ⟨fun known => wordless.here known, fun c child => ?_⟩
      have labelled : ∀ c ∈ dropLabel (n.kids.map (labelSection .strong (depth + 1))),
          Everywhere Wordless c := by
        apply everywhere_dropLabel
        rw [List.forall_mem_map]
        exact fun c child => ih c child (depth + 1) (wordless.below c child)
      rcases mem_styleFirst child with place | ⟨title, place, titled, rfl⟩
      · exact labelled c place
      · -- The paragraph that a title becomes has the text that the title has itself, so none.
        have whole := labelled title place
        have bare : title.value = none := whole.here (by rw [beq_iff_eq.1 titled]; decide)
        refine everywhere_iff.2 ⟨fun _ => bare, List.forall_mem_singleton.2 ?_⟩
        exact everywhere_iff.2 ⟨fun _ => rfl, whole.below⟩
    · exact wordless

theorem wordless_sectionAsBlock {n : Node} (wordless : Everywhere Wordless n) :
    Everywhere Wordless (sectionAsBlock n) := by
  unfold sectionAsBlock
  split
  · next sec =>
    have bare : n.value = none := wordless.here (mem_reshapedKinds_of_isSection sec)
    exact everywhere_iff.2 ⟨fun _ => bare, wordless.below⟩
  · exact wordless

theorem wordless_liftFrom (lifted : Node → Bool) {ns : List Node}
    (wordless : ∀ n ∈ ns, Everywhere Wordless n) :
    ∀ n ∈ liftFrom lifted ns, Everywhere Wordless n :=
  everywhere_liftFrom (fun _ here => here) fun n mem => (wordless n mem).imp fun _ here _ => here

theorem wordless_flatForest {ns : List Node} (wordless : ∀ n ∈ ns, Everywhere Wordless n) :
    ∀ n ∈ flatForest .strong ns, Everywhere Wordless n := by
  refine wordless_liftFrom isSection (List.forall_mem_map.2 fun n mem => ?_)
  exact wordless_sectionAsBlock
    (wordless_labelSection 1 (wordless_liftFrom isAppGroup wordless n mem))

theorem forestText_flatForest {tree : Node} (wordless : ∀ n ∈ tree.kids, Everywhere Wordless n) :
    forestText (flatForest .strong tree.kids) = lastingText [] [] tree.kids := by
  have groups : ∀ n ∈ tree.kids, Everywhere (Bare isAppGroup) n := fun n child =>
    (wordless n child).imp fun m here => here.bare fun group => by
      rw [beq_iff_eq.1 group]; decide
  have sections : ∀ n ∈ tree.kids, Everywhere (Bare isSection) n := fun n child =>
    (wordless n child).imp fun m here => here.bare mem_reshapedKinds_of_isSection
  have labelled := toText_flattenSections_eq .strong sections
  rw [flattenSections_eq_nestBlocks, toText_nestBlocks, toText_eq, kids_withKids] at labelled
  have lasts := lastingText_eq .strong 1 (List.forall_mem_nil _) groups sections []
  rw [lasts]
  exact (String.append_right_inj _).1 labelled |>.trans (sparedText_none .strong 1 [] _).symm

theorem forestText_flatChildren {n : Node} (wordless : ∀ c ∈ n.kids, Everywhere Wordless c) :
    forestText (flatChildren n) = lastingText [] [] (unwrapOnlySection n).kids := by
  have unwrapped := wordless_unwrapOnlySection wordless
  rw [flatChildren_eq, ← forestText_flatForest unwrapped]
  refine forestText_liftFrom fun m mem => (wordless_flatForest unwrapped m mem).imp fun k here => ?_
  exact here.bare fun block => by rw [beq_iff_eq.1 block]; decide

/-! ### The title in front -/

/-- What comes behind a title in front of nodes: a space, if they start with a paragraph. -/
def gapBefore : List Node → String
  | [] => ""
  | n :: _ => if n.is "p" then " " else ""

/-- The text of flat children, with what becomes of a title in front of them. -/
def openedText : List Node → String
  | [] => ""
  | first :: rest =>
    (if first.is "title" then
      if isAbstractTitle first then ""
      else first.toText ++ gapBefore rest
    else first.toText) ++ forestText rest

theorem forestText_mergeTitle {ns : List Node} (wordless : ∀ n ∈ ns, Wordless n) :
    forestText (mergeTitle ns) = openedText ns := by
  cases ns with
  | nil => rfl
  | cons first rest =>
    obtain ⟨here, others⟩ := List.forall_mem_cons.1 wordless
    rw [mergeTitle.eq_def, openedText]
    simp only
    split
    · next other =>
      rw [Bool.not_eq_true'] at other
      rw [other, if_neg Bool.false_ne_true, forestText]
    · next titled =>
      rw [Bool.not_eq_true, Bool.not_eq_false'] at titled
      have bare : first.value = none := here (by rw [beq_iff_eq.1 titled]; decide)
      rw [if_pos titled]
      split
      · rw [String.empty_append]
      · -- Only a paragraph behind the title takes it in.
        have turned : Node.toText { first with kind := "p" } = first.toText := by
          rw [toText_eq, toText_eq first]
          rfl
        cases rest with
        | nil => simp [forestText, turned, gapBefore]
        | cons second rest =>
          simp only [gapBefore]
          cases paragraph : second.is "p" with
          | false => simp [forestText, turned]
          | true =>
            have none : second.value = none :=
              (List.forall_mem_cons.1 others).1 (by rw [beq_iff_eq.1 paragraph]; decide)
            rw [if_pos rfl, if_pos rfl, forestText, toText_eq, kids_withKids, forestText_append,
              forestText, forestText, toText_eq first, toText_eq second, bare, none]
            simp [withKids, none, text, scalar, toText, String.append_assoc]

/-! ### The simple form -/

theorem kids_simplifyAbstract (n : Node) :
    (simplifyAbstract n).kids = mergeTitle (flatChildren n) := rfl

theorem value_flattenSections (style : TitleStyle) (tree : Node) :
    (flattenSections style tree).value = tree.value := by
  rw [flattenSections_eq_nestBlocks, nestBlocks]
  split <;> rfl

theorem value_simplifyAbstract (n : Node) : (simplifyAbstract n).value = n.value :=
  (value_flattenSections _ _).trans (value_unwrapOnlySection n)

/-- Nothing that gives way is left, wherever it stood. -/
theorem kind_simplifyAbstract (n : Node) : ∀ m ∈ (simplifyAbstract n).descendants,
    m.kind ∉ ["sec", "ack", "app", "app-group", "block"] := by
  have given (kind : String) : kind ∈ ["sec", "ack", "app", "app-group", "block"] ↔
      kind ∈ nestingKinds ∨ kind = "block" := by
    simp [nestingKinds, or_assoc]
  have steady : Steady fun m => m.kind ∉ ["sec", "ack", "app", "app-group", "block"] := by
    have made : ∀ kind ∈ madeKinds, kind ∉ ["sec", "ack", "app", "app-group", "block"] := by decide
    exact ⟨fun here kind _ => kind ▸ here, fun kind => made _ kind⟩
  have flat := flattened_flattenSections .strong (unwrapOnlySection n)
  have gone : ∀ c ∈ flatChildren n,
      OfKinds (· ∉ ["sec", "ack", "app", "app-group", "block"]) c := by
    rw [flatChildren, kids_liftWhere]
    intro c mem m inside
    have nested := ofKinds_liftFrom _ flat.below c mem m inside
    have block := not_lifted_of_mem_liftFrom (·.is "block") (fun _ _ => rfl) _ c mem m inside
    exact mt (given _).1 (not_or.2 ⟨nested, beq_eq_false_iff_ne.1 block⟩)
  rw [forall_mem_descendants_iff, kids_simplifyAbstract]
  exact Conversion.everywhere_mergeTitle steady gone

/-- A simplified abstract has none of the elements that give way. If these, titles and paragraphs
have no text of their own, it has the text of the abstract without the labels in front of sections
and the usual titles of acknowledgments, where the section that is its only child does not count;
and a title that then comes first goes if it says no more than that an abstract follows, or else has
a space behind it if a paragraph follows. -/
theorem simplifyAbstract_keeps_text {n : Node}
    (wordless : ∀ m ∈ n.descendants, m.kind ∈ reshapedKinds → m.value = none) :
    (∀ m ∈ (simplifyAbstract n).descendants,
      m.kind ∉ ["sec", "ack", "app", "app-group", "block"]) ∧
    n.toText = n.value.getD "" ++ ownTexts (seatsIn [] [] (unwrapOnlySection n).kids) ∧
    forestText (flatChildren n) =
      ownTexts ((seatsIn [] [] (unwrapOnlySection n).kids).filter (!isLost ·)) ∧
    (simplifyAbstract n).toText = n.value.getD "" ++ openedText (flatChildren n) := by
  have all : ∀ c ∈ n.kids, Everywhere Wordless c := forall_mem_descendants_iff.1 wordless
  refine ⟨kind_simplifyAbstract n, ?_, forestText_flatChildren all, ?_⟩
  · rw [ownTexts_seatsIn, forestText_unwrapOnlySection all, ← toText_eq]
  · have flat : ∀ m ∈ flatChildren n, Wordless m := fun m mem => by
      rw [flatChildren_eq] at mem
      exact (wordless_liftFrom _ (wordless_flatForest (wordless_unwrapOnlySection all)) m mem).here
    rw [toText_eq, value_simplifyAbstract, kids_simplifyAbstract, forestText_mergeTitle flat]

/-- A section with a title, in which sections and groups are in each other. -/
def structured : Node :=
  .branch "abstract" [
    .branch "sec" [
      .branch "block" [.branch "title" [.text "Summary ", .branch "sec" [.text "of aims"]]],
      .branch "p" [.text "x"],
      .branch "app-group" [
        .branch "app" [.branch "label" [.text "1"], .branch "title" [.text "Aims"],
          .branch "ack" [.branch "title" [.text "ACKS"], .branch "p" [.text "y"]]]]]]

theorem simplifyAbstract_keeps_text_structured :
    structured.toText = "Summary of aimsx1AimsACKSy" ∧
      (simplifyAbstract structured).toText = "Summary of aims xAimsy" :=
  ⟨by decide, (simplifyAbstract_keeps_text (by decide)).2.2.2.trans (by decide)⟩

end Manuscript.Body
