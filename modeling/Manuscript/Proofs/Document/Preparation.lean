import Manuscript.Proofs.Document.Assembly
import Manuscript.Proofs.Tree.Passage

/-!
How parts of an article come to be rendered. On the way to the normal form, sections are taken apart
and markup is repaired; footnotes, paragraphs, references and texts are passed by and come into a
block.
-/

set_option autoImplicit false

namespace Manuscript.Conversion

open Manuscript.Node Manuscript.Body

def passedKinds : List String := ["root", "block", "fn-group", "fn", "p", "xref", "text"]

/-- Whether only footnotes are wanted, and which of them hangs on their identifiers. -/
structure Notes (wanted : Node → Bool) : Prop where
  own : ∀ {n : Node}, wanted n = true → n.kind = "fn"
  alike : ∀ {m n : Node}, m.kind = n.kind → m.attr? "id" = n.attr? "id" → wanted m = wanted n

def sectioned (style : TitleStyle) (ns : List Node) : List Node :=
  liftFrom isSection ((labelSections style 1 (liftFrom (·.is "app-group") ns)).map sectionAsBlock)

/-- What is below a node that is no section, with the sections there taken apart. -/
def unsectioned (ns : List Node) : List Node := liftFrom isSection (liftFrom (·.is "app-group") ns)

def nested (ns : List Node) : List Node :=
  if ns.any (·.is "block") then nestLoose [] ns else [.branch "block" ns]

/-- The tree with its markup in the form in which it is rendered. -/
def polish (a : Article) (tree : Node) : Node :=
  hostGraphics a (renameCitations (hoistTitles (entitleBoxes (typography tree))))

theorem kids_flattenSections (style : TitleStyle) (tree : Node) :
    (flattenSections style tree).kids = nested (sectioned style tree.kids) := by
  have same : (flattenSections style tree).kids = nested (liftFrom isSection
      ((labelSections style 1 (tree.liftWhere (·.is "app-group")).kids).map sectionAsBlock)) := by
    rw [← kids_withKids (tree.liftWhere (·.is "app-group")) (List.map _ _), ← kids_liftWhere]
    unfold flattenSections nestBlocks nested
    simp only
    split <;> rfl
  rw [same, kids_liftWhere]
  rfl

theorem kind_flattenSections (style : TitleStyle) (tree : Node) :
    (flattenSections style tree).kind = tree.kind := by
  unfold flattenSections nestBlocks
  simp only
  split <;> rfl

section
variable {wanted : Node → Bool} (notes : Notes wanted)
include notes

theorem Notes.unwanted {n : Node} (other : n.kind ≠ "fn") : wanted n = false := by
  rw [← Bool.not_eq_true]
  exact fun isOne => other (notes.own isOne)

theorem Notes.steady : Steady fun n => wanted n = false := by
  constructor
  · intro m n here kind id
    rw [notes.alike kind id, here]
  · intro n made
    apply notes.unwanted
    intro same
    rw [same] at made
    exact absurd made (by decide)

theorem Notes.block {n : Node} (block : n.kind = "block") : wanted n = false := by
  apply notes.unwanted
  rw [block]
  decide

theorem Notes.group {n : Node} (group : n.kind = "fn-group") : wanted n = false := by
  apply notes.unwanted
  rw [group]
  decide

theorem Notes.inherent : Inherent wanted := fun _ _ => notes.alike rfl rfl

theorem Notes.known {n : Node} (isOne : wanted n = true) : n.kind ∈ passedKinds := by
  rw [notes.own isOne]
  decide

theorem clear_block {n : Node} (block : n.kind = "block") (clear : Clear wanted n.kids) :
    Everywhere (fun n => wanted n = false) n :=
  everywhere_iff.2 ⟨notes.block block, clear⟩

/-! ### Sections -/

omit notes in
theorem not_isSection_of_passed {n : Node} (known : n.kind ∈ passedKinds) :
    isSection n = false := by
  have all : ∀ kind ∈ passedKinds, isSectionKind kind = false := by decide
  exact all n.kind known

omit notes in
theorem not_is_of_passed {n : Node} (known : n.kind ∈ passedKinds) (kind : String)
    (other : kind ∉ passedKinds) : n.is kind = false := by
  rw [is, beq_eq_false_iff_ne]
  exact fun same => other (same ▸ known)

theorem passage_groups : Passage wanted (· ∈ passedKinds) (liftFrom (·.is "app-group")) :=
  .liftFrom notes.inherent fun _ known => not_is_of_passed known _ (by decide)

theorem passage_sections : Passage wanted (· ∈ passedKinds) (liftFrom isSection) :=
  .liftFrom notes.inherent fun _ known => not_isSection_of_passed known

theorem passage_unsectioned : Passage wanted (· ∈ passedKinds) unsectioned :=
  (passage_groups notes).trans (passage_sections notes)

theorem sectioned_around (style : TitleStyle) (before after : List Node) {n : Node}
    (known : n.kind ∈ passedKinds) : sectioned style (before ++ n :: after) =
      sectioned style before ++ n.mapChildren unsectioned :: sectioned style after := by
  -- What is no section is neither labelled nor made a block.
  have stays {m : Node} (known : m.kind ∈ passedKinds) :
      sectionAsBlock (labelSection style 1 m) = m := by
    have other := not_isSection_of_passed known
    rw [labelSection_eq, show isSectionKind m.kind = false from other, if_neg Bool.false_ne_true,
      sectionAsBlock, other, if_neg Bool.false_ne_true]
  have lifted : (n.mapChildren (liftFrom (·.is "app-group"))).kind ∈ passedKinds := known
  simp only [sectioned, labelSections_eq_map, List.map_map]
  rw [(passage_groups notes).seam before after known, List.map_append, List.map_cons,
    Function.comp_apply, stays lifted, (passage_sections notes).seam _ _ lifted,
    mapChildren_mapChildren]
  rfl

theorem sectioned_append (style : TitleStyle) {ns : List Node}
    (known : ∀ n ∈ ns, n.kind ∈ passedKinds) (ms : List Node) :
    sectioned style (ns ++ ms) = ns.map (mapChildren unsectioned) ++ sectioned style ms := by
  induction ns with
  | nil => rfl
  | cons n ns ih =>
    obtain ⟨first, rest⟩ := List.forall_mem_cons.1 known
    have around := sectioned_around notes style [] (ns ++ ms) first
    rw [List.cons_append, ← List.nil_append (n :: _), around, ih rest]
    rfl

theorem clear_sectioned (style : TitleStyle) {ns : List Node} (clear : Clear wanted ns) :
    Clear wanted (sectioned style ns) := by
  apply (passage_sections notes).clear
  rw [labelSections_eq_map, List.map_map]
  refine List.forall_mem_map.2 fun n mem => ?_
  have labelled := everywhere_labelSection notes.steady style 1
    ((passage_groups notes).clear clear n mem)
  show Everywhere _ (sectionAsBlock _)
  unfold sectionAsBlock
  split
  · exact clear_block notes rfl labelled.below
  · exact labelled

theorem lone_sectioned (style : TitleStyle) {path : List String} {ns : List Node}
    (known : ∀ kind ∈ path, kind ∈ passedKinds) (lone : Lone wanted path ns) :
    Lone wanted path (sectioned style ns) := by
  have passage := passage_unsectioned notes
  cases lone with
  | top isOne inside front back =>
    rw [sectioned_around notes style _ _ (notes.known isOne)]
    apply Lone.top ((notes.inherent.mapChildren _ _).trans isOne)
    · rw [kids_mapChildren passage.nil]
      exact passage.clear inside
    · exact clear_sectioned notes style front
    · exact clear_sectioned notes style back
  | @under path before after n other inside front back =>
    obtain ⟨here, rest⟩ := List.forall_mem_cons.1 known
    rw [sectioned_around notes style _ _ here]
    apply Lone.under (n := n.mapChildren unsectioned) ((notes.inherent.mapChildren _ n).trans other)
    · rw [kids_mapChildren passage.nil]
      exact passage.lone notes.inherent (fun _ => notes.known) rest inside
    · exact clear_sectioned notes style front
    · exact clear_sectioned notes style back

/-! ### Blocks -/

theorem clear_nestLoose {loose ns : List Node} (before : Clear wanted loose)
    (clear : Clear wanted ns) : Clear wanted (nestLoose loose ns) := by
  have gathered {loose : List Node} (clear : Clear wanted loose) :
      Clear wanted (if loose.isEmpty then [] else [.branch "block" loose]) := by
    split
    · exact List.forall_mem_nil _
    · exact List.forall_mem_singleton.2 (clear_block notes rfl clear)
  induction ns generalizing loose with
  | nil => exact gathered before
  | cons n ns ih =>
    obtain ⟨first, rest⟩ := List.forall_mem_cons.1 clear
    rw [nestLoose]
    split
    · refine List.forall_mem_append.2 ⟨gathered before, List.forall_mem_cons.2 ⟨first, ?_⟩⟩
      exact ih (List.forall_mem_nil _) rest
    · exact ih (List.forall_mem_append.2 ⟨before, List.forall_mem_singleton.2 first⟩) rest

theorem clear_nested {ns : List Node} (clear : Clear wanted ns) : Clear wanted (nested ns) := by
  unfold nested
  split
  · exact clear_nestLoose notes (List.forall_mem_nil _) clear
  · exact List.forall_mem_singleton.2 (clear_block notes rfl clear)

theorem exists_nestLoose {loose ns : List Node} (some : loose ≠ []) (clear : Clear wanted ns) :
    ∃ more rest, nestLoose loose ns = .branch "block" (loose ++ more) :: rest ∧
      Clear wanted more ∧ Clear wanted rest := by
  have full {loose : List Node} (some : loose ≠ []) : loose.isEmpty = false := by simp [some]
  have none : Clear wanted [] := List.forall_mem_nil _
  induction ns generalizing loose with
  | nil =>
    refine ⟨[], [], ?_, none, none⟩
    rw [nestLoose, full some, List.append_nil]
    rfl
  | cons n ns ih =>
    obtain ⟨first, others⟩ := List.forall_mem_cons.1 clear
    -- A block closes off what is loose; any other node joins it.
    rw [nestLoose, full some]
    split
    · refine ⟨[], n :: nestLoose [] ns, by rw [List.append_nil]; rfl, none, ?_⟩
      exact List.forall_mem_cons.2 ⟨first, clear_nestLoose notes none others⟩
    · obtain ⟨more, rest, same, inside, behind⟩ :=
        ih (List.append_ne_nil_of_left_ne_nil some [n]) others
      refine ⟨n :: more, rest, ?_, List.forall_mem_cons.2 ⟨first, inside⟩, behind⟩
      rw [same, List.append_assoc]
      rfl

theorem lone_nestLoose {path : List String} {loose before after : List Node} {n : Node}
    (apart : n.kind ≠ "block") (other : wanted n = false) (inside : Lone wanted path n.kids)
    (early : Clear wanted loose) (front : Clear wanted before) (back : Clear wanted after) :
    Lone wanted ("block" :: n.kind :: path) (nestLoose loose (before ++ n :: after)) := by
  induction before generalizing loose with
  | nil =>
    have single : n.is "block" = false := beq_eq_false_iff_ne.2 apart
    obtain ⟨more, rest, same, beside, behind⟩ :=
      exists_nestLoose notes (List.concat_ne_nil n loose) back
    rw [List.nil_append, nestLoose, single, if_neg Bool.false_ne_true, same, List.append_assoc]
    have here : Lone wanted (n.kind :: path) (loose ++ n :: more) :=
      .under other inside early beside
    exact .under (n := .branch "block" (loose ++ n :: more)) (notes.block rfl) here
      (List.forall_mem_nil _) behind
  | cons m before ih =>
    obtain ⟨first, rest⟩ := List.forall_mem_cons.1 front
    rw [List.cons_append, nestLoose]
    split
    · -- What was loose before a block is in one of its own, ahead of that of the wanted node.
      have gathered := clear_nestLoose notes early (List.forall_mem_nil _)
      rw [nestLoose] at gathered
      rw [List.append_cons]
      refine (ih (List.forall_mem_nil _) rest).prepend ?_
      exact List.forall_mem_append.2 ⟨gathered, List.forall_mem_singleton.2 first⟩
    · refine ih ?_ rest
      exact List.forall_mem_append.2 ⟨early, List.forall_mem_singleton.2 first⟩

theorem lone_nested {kind : String} {path : List String} {ns : List Node} (apart : kind ≠ "block")
    (lone : Lone wanted (kind :: path) ns) :
    Lone wanted ("block" :: kind :: path) (nested ns) := by
  unfold nested
  split
  · cases lone with
    | under other inside front back =>
      exact lone_nestLoose notes apart other inside (List.forall_mem_nil _) front back
  · exact .under (n := .branch "block" ns) (notes.block rfl) lone (List.forall_mem_nil _)
      (List.forall_mem_nil _)

/-! ### Markup -/

omit notes in
theorem root_mem_passedKinds : "root" ∈ passedKinds := by decide

theorem skips_dropDataTitles : Skips wanted (· ∈ passedKinds) dropDataTitles := by
  refine .mapDown root_mem_passedKinds notes.inherent size_dropDataTitle_le (fun n known => ?_)
    fun n => everywhere_dropDataTitle notes.steady
  have other := not_is_of_passed known "sec" (by decide)
  rw [dropDataTitle, isDataAvailability, other, Bool.false_and, if_neg Bool.false_ne_true]

theorem skips_typography : Skips wanted (· ∈ passedKinds) typography := by
  have formats : Skips wanted (· ∈ passedKinds) (removeWhere isEmptyFormat) := by
    refine .removeWhere root_mem_passedKinds notes.inherent fun n known => ?_
    have all : ∀ kind ∈ passedKinds, ["bold", "italic", "underline", "monospace", "sc", "sub",
      "sup", "strike"].contains kind = false := by decide
    rw [isEmptyFormat, isInlineFormat, isOneOf, all n.kind known]
    rfl
  have breaks : Skips wanted (· ∈ passedKinds) (spaceBreaks false) := by
    have here (n : Node) (known : n.kind ∈ passedKinds) :
        spaceBreaks false n = n.mapChildren (List.map (spaceBreaks false)) := by
      have all : ∀ kind ∈ passedKinds, isTitleKind kind = false := by decide
      rw [spaceBreaks_eq, Bool.false_and, if_neg Bool.false_ne_true, Bool.false_or, all _ known]
    exact .of_mapChildren root_mem_passedKinds here
      (.map here fun n => everywhere_spaceBreaks notes.steady false)
  exact formats.trans root_mem_passedKinds breaks

theorem skips_polish (a : Article) : Skips wanted (· ∈ passedKinds) (polish a) := by
  have entitled : Skips wanted (· ∈ passedKinds) entitleBoxes := by
    refine .mapUp root_mem_passedKinds notes.inherent (fun n known => ?_) fun n =>
      everywhere_withKids_if notes.steady fun cs => everywhere_entitleBox notes.steady
    rw [not_is_of_passed known "boxed-text" (by decide), if_neg Bool.false_ne_true]
  -- Each pass changes nodes of kinds of its own, of which none is passed by.
  have other {n : Node} (known : n.kind ∈ passedKinds) :
      n.isOneOf ["fig", "table-wrap"] = false := by
    have all : ∀ kind ∈ passedKinds, ["fig", "table-wrap"].contains kind = false := by decide
    exact all n.kind known
  have hoisted : Skips wanted (· ∈ passedKinds) hoistTitles := by
    refine .mapUp root_mem_passedKinds notes.inherent (fun n known => ?_) fun n =>
      everywhere_withKids_if notes.steady fun cs => everywhere_hoistTitle notes.steady
    rw [other known, if_neg Bool.false_ne_true]
  have renamed : Skips wanted (· ∈ passedKinds) renameCitations := by
    refine .mapUp root_mem_passedKinds notes.inherent (fun n known => ?_) fun n =>
      everywhere_renameCitation notes.steady
    rw [not_is_of_passed known "citation" (by decide), if_neg Bool.false_ne_true]
  have hosted : Skips wanted (· ∈ passedKinds) (hostGraphics a) := by
    unfold hostGraphics
    cases imageBase? a with
    | none => exact .refl wanted _
    | some base =>
      refine .mapDown root_mem_passedKinds notes.inherent (size_hostGraphic_le base)
        (fun n known => ?_) fun n => everywhere_hostGraphic notes.steady base
      unfold hostGraphic
      split
      · rw [other known, if_neg Bool.false_ne_true]
      · rfl
  have first := (skips_typography notes).trans root_mem_passedKinds entitled
  have second := (first.trans root_mem_passedKinds hoisted).trans root_mem_passedKinds renamed
  exact second.trans root_mem_passedKinds hosted

/-! ### The article -/

theorem kids_prepare (a : Article) (footnotes : Option Node) : (prepare a footnotes).kids =
    onForest (polish a) (nested (sectioned .heading
      (onForest dropDataTitles (assemble a footnotes).kids))) := by
  have titles := skips_dropDataTitles notes
  have root : (assemble a footnotes).kind ∈ passedKinds := root_mem_passedKinds
  have flat : (flattenSections .heading (dropDataTitles (assemble a footnotes))).kind ∈
      passedKinds := by
    rw [kind_flattenSections, titles.here _ root]
    exact root
  rw [← titles.kids root, ← kids_flattenSections, ← (skips_polish notes a).kids flat]
  rfl

theorem clear_simplifyAbstract {n : Node} (clear : Clear wanted n.kids) :
    Clear wanted (simplifyAbstract n).kids := by
  have content : Clear wanted (unwrapOnlySection n).kids := by
    unfold unwrapOnlySection
    split
    · next only same =>
      rw [same] at clear
      split
      · exact (clear only (List.mem_singleton_self only)).below
      · rw [same]
        exact clear
    · exact clear
  apply everywhere_mergeTitle notes.steady
  rw [kids_liftWhere, kids_flattenSections]
  refine everywhere_liftFrom (fun m here => (notes.inherent.mapChildren _ m).trans here) ?_
  have blocks := clear_nested notes (clear_sectioned notes .strong content)
  exact fun m mem => (blocks m mem).imp fun _ here _ => here

theorem passage_removeFloats : Passage wanted (· ∈ passedKinds) (removeFrom isFloat) := by
  refine .removeFrom notes.inherent fun n known => ?_
  rw [isFloat, not_is_of_passed known _ (by decide), Bool.false_and]

theorem lone_moveFloats {body : Node} (lone : Lone wanted ["fn-group"] body.kids) :
    Lone wanted ["fn-group"] (moveFloats body).kids := by
  have removed := passage_removeFloats notes
  have group : ∀ kind ∈ ["fn-group"], kind ∈ passedKinds := by decide
  unfold moveFloats
  split
  · exact lone
  · rw [kids_appendBehindSeparator, kids_removeWhere, ← removeFrom_eq_map]
    apply (removed.lone notes.inherent (fun _ => notes.known) group lone).append
    apply everywhere_separated notes.steady
    refine everywhere_floats notes.steady fun n mem float => ?_
    -- A floating supplement is neither a footnote nor above one that is wanted.
    have kind : n.kind = "supplementary-material" := by
      simp only [isFloat, Bool.and_eq_true] at float
      exact beq_iff_eq.1 float.1
    rw [descendants_eq] at mem
    apply lone.clear_of_mem mem
    · rw [kind]
      decide
    · apply notes.unwanted
      rw [kind]
      decide

/-- If the article has no wanted footnote, the one among the footnotes of the reference list is the
only one that is assembled. -/
theorem lone_assemble {a : Article} {footnotes : List Node}
    (article : Everywhere (fun n => wanted n = false) a.tree) (lone : Lone wanted [] footnotes) :
    Lone wanted ["fn-group"] (assemble a (some (.branch "fn-group" footnotes))).kids := by
  have abstract : Clear wanted (a.abstract?.map abstractBlock).toList := by
    cases found : a.abstract? with
    | none => exact List.forall_mem_nil _
    | some abstract =>
      obtain ⟨front, first, inside⟩ := Option.bind_eq_some_iff.1 found
      have all := (article.of_find? first).of_find? inside
      have content := clear_simplifyAbstract notes all.below
      exact List.forall_mem_singleton.2 (clear_block notes rfl content)
  have floating : Clear wanted (a.floatsGroups.flatMap Node.kids) := by
    intro n mem
    obtain ⟨group, found, child⟩ := List.mem_flatMap.1 mem
    exact (article.of_mem_descendants (List.mem_filter.1 found).1).below n child
  have body : Clear wanted (a.body?.getD (.branch "body" [])).kids := by
    cases found : a.body? with
    | none => exact List.forall_mem_nil _
    | some body => exact (article.of_find? found).below
  have group : Lone wanted ["fn-group"]
      ((a.body?.getD (.branch "body" [])).kids ++ [.branch "fn-group" footnotes]) :=
    .under (n := .branch "fn-group" footnotes) (notes.group rfl) lone body (List.forall_mem_nil _)
  have back : Clear wanted (relocatedParts a.back?) :=
    everywhere_relocatedParts fun _ found => article.of_find? found
  refine (Lone.prepend ?_ abstract).append floating
  apply lone_moveFloats notes
  rw [appendBackMatter, kids_appendBehindSeparator]
  exact group.append (everywhere_separated notes.steady back)

theorem lone_prepare {a : Article} {footnotes : Option Node}
    (lone : Lone wanted ["fn-group"] (assemble a footnotes).kids) :
    Lone wanted ["block", "fn-group"] (prepare a footnotes).kids := by
  have known : ∀ kind ∈ ["block", "fn-group"], kind ∈ passedKinds := by decide
  have group : ∀ kind ∈ ["fn-group"], kind ∈ passedKinds := by decide
  have own (n : Node) := notes.known (n := n)
  rw [kids_prepare notes]
  apply (skips_polish notes a).passage.lone notes.inherent own known
  apply lone_nested notes (by decide)
  apply lone_sectioned notes _ group
  exact (skips_dropDataTitles notes).passage.lone notes.inherent own group lone

end

/-! ### Elements that are passed by -/

theorem notes_none : Notes fun _ => false := ⟨nofun, fun _ _ => rfl⟩

theorem exists_kids_moveFloats {body : Node} {ns more : List Node} (parts : body.kids = ns ++ more)
    (passed : ∀ n ∈ ns, OfKinds (· ∈ passedKinds) n) :
    ∃ rest, (moveFloats body).kids = ns ++ rest := by
  have removed := passage_removeFloats notes_none
  unfold moveFloats
  split
  · exact ⟨more, parts⟩
  · rw [kids_appendBehindSeparator, kids_removeWhere, ← removeFrom_eq_map, parts,
      removed.append fun n mem => (passed n mem).here, removed.map_eq_self passed,
      List.append_assoc]
    exact ⟨_, rfl⟩

theorem exists_kids_assemble {a : Article} {body : Node} (found : a.body? = some body)
    (passed : ∀ n ∈ body.kids, OfKinds (· ∈ passedKinds) n) (footnotes : Option Node) :
    ∃ front back, (assemble a footnotes).kids = front ++ (body.kids ++ back) ∧
      ∀ n ∈ front, n.kind = "block" := by
  have extended : ∃ more, (assembleBody a footnotes).kids = body.kids ++ more := by
    unfold assembleBody
    simp only [found, Option.getD_some, appendBackMatter]
    cases footnotes with
    | none => exact exists_kids_moveFloats (kids_appendBehindSeparator _ _) passed
    | some group =>
      apply exists_kids_moveFloats _ passed
      · exact [group] ++ if (relocatedParts a.back?).isEmpty then [] else
          separator :: relocatedParts a.back?
      · rw [kids_appendBehindSeparator, kids_withKids, List.append_assoc]
  obtain ⟨more, parts⟩ := extended
  refine ⟨(a.abstract?.map abstractBlock).toList, more ++ a.floatsGroups.flatMap Node.kids, ?_, ?_⟩
  · show _ ++ (assembleBody a footnotes).kids ++ _ = _
    rw [parts, List.append_assoc, List.append_assoc]
  · intro n mem
    obtain ⟨abstract, -, rfl⟩ := Option.map_eq_some_iff.1 (Option.mem_toList.1 mem)
    rfl

theorem nestLoose_append {ns : List Node} (apart : ∀ n ∈ ns, n.kind ≠ "block")
    (loose ms : List Node) : nestLoose loose (ns ++ ms) = nestLoose (loose ++ ns) ms := by
  induction ns generalizing loose with
  | nil => rw [List.nil_append, List.append_nil]
  | cons n ns ih =>
    obtain ⟨first, rest⟩ := List.forall_mem_cons.1 apart
    have other : n.is "block" = false := beq_eq_false_iff_ne.2 first
    rw [List.cons_append, nestLoose, other, if_neg Bool.false_ne_true, ih rest, List.append_assoc,
      List.singleton_append]

theorem nestLoose_blocks {ns : List Node} (blocks : ∀ n ∈ ns, n.kind = "block") (ms : List Node) :
    nestLoose [] (ns ++ ms) = ns ++ nestLoose [] ms := by
  induction ns with
  | nil => rfl
  | cons n ns ih =>
    obtain ⟨first, rest⟩ := List.forall_mem_cons.1 blocks
    have block : n.is "block" = true := beq_iff_eq.2 first
    rw [List.cons_append, nestLoose, if_pos block, ih rest]
    rfl

theorem exists_nested {front ns : List Node} (some : ns ≠ [])
    (blocks : ∀ n ∈ front, n.kind = "block") (apart : ∀ n ∈ ns, n.kind ≠ "block")
    (back : List Node) : ∃ before more after,
      nested (front ++ (ns ++ back)) = before ++ .branch "block" (ns ++ more) :: after := by
  unfold nested
  split
  · have clear : Clear (fun _ => false) back := fun _ _ _ _ => rfl
    obtain ⟨more, rest, same, -⟩ := exists_nestLoose notes_none some clear
    refine ⟨front, more, rest, ?_⟩
    rw [nestLoose_blocks blocks, nestLoose_append apart, List.nil_append, same]
  · next none =>
    cases front with
    | nil => exact ⟨[], back, [], rfl⟩
    | cons n front =>
      have block : n.is "block" = true := beq_iff_eq.2 (blocks n List.mem_cons_self)
      simp [block] at none

/-- Nodes of the kinds that are passed by come into a block as they are, and stand in front there if
there are only blocks before them. -/
theorem exists_kids_prepare {a : Article} {footnotes : Option Node} {front ns back : List Node}
    (parts : (assemble a footnotes).kids = front ++ (ns ++ back)) (some : ns ≠ [])
    (blocks : ∀ n ∈ front, n.kind = "block") (passed : ∀ n ∈ ns, OfKinds (· ∈ passedKinds) n)
    (apart : ∀ n ∈ ns, n.kind ≠ "block") : ∃ before more after,
      (prepare a footnotes).kids = before ++ .branch "block" (ns ++ more) :: after := by
  have titles := (skips_dropDataTitles notes_none).passage
  have polished := (skips_polish notes_none a).passage
  have known {front : List Node} (blocks : ∀ n ∈ front, n.kind = "block") :
      ∀ n ∈ front, n.kind ∈ passedKinds := by
    intro n mem
    rw [blocks n mem]
    decide
  have still (f : List Node → List Node) {front : List Node}
      (blocks : ∀ n ∈ front, n.kind = "block") :
      ∀ n ∈ front.map (mapChildren f), n.kind = "block" :=
    List.forall_mem_map.2 blocks
  have here : ∀ n ∈ ns, n.kind ∈ passedKinds := fun n mem => (passed n mem).here
  rw [kids_prepare notes_none, parts, titles.append (known blocks), titles.append here,
    titles.map_eq_self passed, sectioned_append notes_none _ (known (still _ blocks)),
    sectioned_append notes_none _ here, (passage_unsectioned notes_none).map_eq_self passed]
  -- The nodes are loose, so that they get into one block, at the start of it.
  obtain ⟨before, more, after, same⟩ := exists_nested some (still unsectioned (still _ blocks))
    apart (sectioned .heading (onForest dropDataTitles back))
  have block : (branch "block" (ns ++ more)).kind ∈ passedKinds := by
    show "block" ∈ passedKinds
    decide
  have inside : (branch "block" (ns ++ more)).mapChildren (onForest (polish a)) =
      branch "block" (ns ++ onForest (polish a) more) := by
    show branch "block" (onForest (polish a) (ns ++ more)) = _
    rw [polished.append here, polished.map_eq_self passed]
  exact ⟨_, _, _, by rw [same, polished.seam before after block, inside]⟩

end Manuscript.Conversion
