import Manuscript.Proofs.Document.Outline
import Manuscript.Proofs.Tree.Lifting

/-!
What flattening the sections of a tree leaves: blocks at the top, no section and no group of
appendices at any depth, and nothing that a second flattening would change.
-/

set_option autoImplicit false

namespace Manuscript.Body

open Manuscript.Node

def nestingKinds : List String := ["sec", "ack", "app", "app-group"]

theorem not_mem_nestingKinds_iff {kind : String} : kind ∉ nestingKinds ↔
    isSectionKind kind = false ∧ (kind == "app-group") = false := by
  simp [nestingKinds, isSectionKind, and_assoc]

abbrev isAppGroup (n : Node) : Bool := n.is "app-group"

def flatForest (style : TitleStyle) (ns : List Node) : List Node :=
  liftFrom isSection ((liftFrom isAppGroup ns).map (sectionAsBlock ∘ labelSection style 1))

theorem flattenSections_eq_nestBlocks (style : TitleStyle) (tree : Node) :
    flattenSections style tree = nestBlocks (tree.withKids (flatForest style tree.kids)) := by
  unfold flattenSections flatForest
  dsimp only
  rw [labelSections_eq_map, kids_liftWhere, List.map_map]
  rfl

/-! ### Steps -/

section
variable {K : String → Prop}

theorem ofKinds_sectionAsBlock (block : K "block") {n : Node} (all : OfKinds K n) :
    OfKinds K (sectionAsBlock n) := by
  unfold sectionAsBlock
  split
  · exact ofKinds_iff.2 ⟨block, all.below⟩
  · exact all

theorem ofKinds_nestBlocks (block : K "block") {tree : Node} (all : ∀ c ∈ tree.kids, OfKinds K c) :
    ∀ c ∈ (nestBlocks tree).kids, OfKinds K c := by
  intro c mem
  unfold nestBlocks at mem
  split at mem
  · obtain ⟨kind, place | inside⟩ := mem_nestLoose mem
    · exact all c place
    · refine ofKinds_iff.2 ⟨kind ▸ block, fun d child => ?_⟩
      rcases inside d child with none | ⟨place, -⟩
      · cases none
      · exact all d place
  · rw [List.mem_singleton.1 mem]
    exact ofKinds_iff.2 ⟨block, all⟩

end

theorem mem_nestLoose_of_block {loose ns : List Node} {n : Node} (mem : n ∈ ns)
    (block : n.is "block" = true) : n ∈ nestLoose loose ns := by
  induction ns generalizing loose with
  | nil => cases mem
  | cons m ns ih =>
    rw [nestLoose]
    rcases List.mem_cons.1 mem with rfl | mem
    · rw [if_pos block]
      exact List.mem_append_right _ List.mem_cons_self
    · split
      · exact List.mem_append_right _ (List.mem_cons_of_mem _ (ih mem))
      · exact ih mem

theorem nestLoose_of_blocks {ns : List Node} (blocks : ∀ n ∈ ns, n.kind = "block") :
    nestLoose [] ns = ns := by
  induction ns with
  | nil => rfl
  | cons n ns ih =>
    obtain ⟨first, rest⟩ := List.forall_mem_cons.1 blocks
    have block : n.is "block" = true := beq_iff_eq.2 first
    rw [nestLoose, if_pos block, ih rest]
    rfl

/-- There is a block at least, so that a second round finds one. -/
theorem any_block_nestBlocks (tree : Node) : (nestBlocks tree).kids.any (·.is "block") = true := by
  unfold nestBlocks
  split
  · next some =>
    obtain ⟨n, mem, block⟩ := List.any_eq_true.1 some
    exact List.any_eq_true.2 ⟨n, mem_nestLoose_of_block mem block, block⟩
  · rfl

/-! ### Flattened trees -/

/-- A tree of blocks in which nothing gives way when sections are flattened. -/
structure Flattened (tree : Node) : Prop where
  parent : tree = tree.withKids tree.kids
  some : tree.kids.any (·.is "block") = true
  blocks : ∀ c ∈ tree.kids, c.kind = "block"
  below : ∀ c ∈ tree.kids, OfKinds (· ∉ nestingKinds) c

theorem flattened_flattenSections (style : TitleStyle) (tree : Node) :
    Flattened (flattenSections style tree) where
  parent := by
    rw [flattenSections_eq_nestBlocks, nestBlocks]
    split <;> rfl
  some := any_block_nestBlocks _
  blocks := fun _ => kind_of_mem_nestBlocks
  below := by
    rw [flattenSections_eq_nestBlocks]
    apply ofKinds_nestBlocks (by decide)
    -- Sections go in the last step; groups are gone since the first one, and no step makes one.
    have groups := not_lifted_of_mem_liftFrom isAppGroup (fun _ _ => rfl) tree.kids
    have steady : Steady fun n => isAppGroup n = false := by
      have made : ∀ kind ∈ madeKinds, (kind == "app-group") = false := by decide
      exact ⟨fun here kind _ => by rwa [isAppGroup, is, kind], fun kind => made _ kind⟩
    have labelled :
        ∀ n ∈ (liftFrom isAppGroup tree.kids).map (sectionAsBlock ∘ labelSection style 1),
          OfKinds (fun kind => (kind == "app-group") = false) n := by
      rw [List.forall_mem_map]
      exact fun n mem => ofKinds_sectionAsBlock (by decide)
        (everywhere_labelSection steady style 1 (groups n mem))
    intro m mem d inside
    exact not_mem_nestingKinds_iff.2
      ⟨not_lifted_of_mem_liftFrom isSection (fun _ _ => rfl) _ m mem d inside,
        ofKinds_liftFrom isSection labelled m mem d inside⟩

theorem Flattened.flattenSections_eq {tree : Node} (flat : Flattened tree) (style : TitleStyle) :
    flattenSections style tree = tree := by
  have spared (lifted : Node → Bool) (other : ∀ n, n.kind ∉ nestingKinds → lifted n = false) :
      liftFrom lifted tree.kids = tree.kids :=
    liftFrom_eq_self fun c child => (flat.below c child).imp fun m here => other m here
  have unlabelled : tree.kids.map (sectionAsBlock ∘ labelSection style 1) = tree.kids :=
    calc tree.kids.map (sectionAsBlock ∘ labelSection style 1)
      _ = tree.kids.map id := List.map_congr_left fun c child => by
        have other := (not_mem_nestingKinds_iff.1 (flat.below c child).here).1
        rw [Function.comp_apply, labelSection_eq, other, if_neg Bool.false_ne_true, sectionAsBlock,
          isSection, other, if_neg Bool.false_ne_true, id]
      _ = tree.kids := List.map_id _
  have same : flatForest style tree.kids = tree.kids := by
    rw [flatForest, spared isAppGroup fun _ other => (not_mem_nestingKinds_iff.1 other).2,
      unlabelled, spared isSection fun _ other => (not_mem_nestingKinds_iff.1 other).1]
  rw [flattenSections_eq_nestBlocks, same, ← flat.parent, nestBlocks, if_pos flat.some,
    nestLoose_of_blocks flat.blocks]
  exact flat.parent.symm

/-! ### The shape -/

/-- Flattened sections are blocks at the top and no sections below, and flattening them again
changes nothing; blocks are inside blocks only if the tree had blocks before. -/
theorem flattenSections_shape (style : TitleStyle) (tree : Node) :
    (∀ c ∈ (flattenSections style tree).kids, c.kind = "block") ∧
    (∀ n ∈ (flattenSections style tree).descendants, n.kind ∉ ["sec", "ack", "app", "app-group"]) ∧
    (∀ again, flattenSections again (flattenSections style tree) = flattenSections style tree) ∧
    ((∀ n ∈ tree.nodes, n.kind ≠ "block") → ∀ n ∈ (flattenSections style tree).nodes,
      n.kind = "block" → ∀ m ∈ n.descendants, m.kind ≠ "block") := by
  have flat := flattened_flattenSections style tree
  refine ⟨flat.blocks, fun n mem => ?_, flat.flattenSections_eq, fun none n mem block m inner => ?_⟩
  · rw [descendants_eq, mem_forestNodes_iff] at mem
    obtain ⟨c, child, mem⟩ := mem
    exact flat.below c child n mem
  · have shallow : Shallow False tree.kids := fun c child d grandchild e mem block =>
      none e (mem_nodes_iff.2 (.inr ⟨c, child, mem_nodes_iff.2 (.inr ⟨d, grandchild, mem⟩)⟩)) block
    have below {c : Node} (child : c ∈ (flattenSections style tree).kids) {d : Node}
        (mem : d ∈ c.descendants) : d.kind ≠ "block" := by
      rw [descendants_eq, mem_forestNodes_iff] at mem
      obtain ⟨e, grandchild, mem⟩ := mem
      exact shallow_flattenSections style shallow c child e grandchild d mem
    rcases mem_nodes_iff.1 mem with rfl | ⟨c, child, mem⟩
    · exact absurd ((kind_nestBlocks _).symm.trans block) (none tree List.mem_cons_self)
    · rcases List.mem_cons.1 mem with rfl | mem
      · exact below child inner
      · exact absurd block (below child mem)

/-- A section inside a paragraph, beside appendices in a group. -/
def scattered : Node :=
  .branch "body" [
    .branch "p" [.text "x", .branch "sec" [.branch "title" [.text "Inside"]]],
    .branch "app-group" [.branch "app" [.branch "ack" [.branch "p" [.text "y"]]]]]

theorem flattenSections_shape_scattered : ∀ n ∈ (flattenSections .strong scattered).nodes,
    n.kind = "block" → ∀ m ∈ n.descendants, m.kind ≠ "block" :=
  (flattenSections_shape .strong scattered).2.2.2 (by decide)

end Manuscript.Body
