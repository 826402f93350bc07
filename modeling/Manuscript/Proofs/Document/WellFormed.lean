import Manuscript.Proofs.Document.Assembly
import Manuscript.Proofs.Document.Citations
import Manuscript.Proofs.Document.Cleaning

/-!
Every converted document is well-formed. The steps behind citing take out sections and footnotes,
demote footnotes to paragraphs and clean the texts; none of them touches a citation or a group.
-/

set_option autoImplicit false

namespace Manuscript

open Node Myst Myst.Citation Body

section
variable {allowed : Prop}

/-! ### Taking out lists of abbreviations -/

theorem tidy_removeWhere {removed : Node → Bool}
    (spares : ∀ c, isCite c = true → removed c = false) {n : Node}
    (all : Everywhere (Tidy allowed) n) : Everywhere (Tidy allowed) (removeWhere removed n) := by
  apply everywhere_removeWhere _ all
  intro m all
  have here := all.here
  apply here.of_kids (kind_removeWhere removed m)
  · intro leaf
    rw [removeWhere_eq, mapChildren, leaf]
    rfl
  · rw [kids_removeWhere]
    refine List.forall_mem_map.2 fun c mem => ⟨c, (List.mem_filter.1 mem).1, ?_⟩
    exact kind_removeWhere removed c
  · -- Groups keep all their citations, so that none becomes empty.
    intro isOne
    obtain ⟨some, cites⟩ := here.group isOne
    have kept : m.kids.filter (!removed ·) = m.kids :=
      List.filter_eq_self.2 fun c child => by rw [spares c (cites c child)]; rfl
    rw [kids_removeWhere, kept]
    exact fun none => some (List.map_eq_nil_iff.1 none)

theorem tidy_extract {find? : Node → Option Abbreviations}
    (spares : ∀ c, isCite c = true → find? c = none) {tree : Node} (f : Frontmatter)
    (all : Everywhere (Tidy allowed) tree) :
    Everywhere (Tidy allowed) (extract find? tree f).tree :=
  tidy_removeWhere (fun c cite => by rw [spares c cite]; rfl) all

/-! ### Footnotes as paragraphs -/

theorem part_paragraph {cs : List Node} (parts : ∀ c ∈ cs, Part allowed c) :
    Part allowed (.branch "paragraph" cs) := by
  have known : "paragraph" ∈ documentKinds := by decide
  have below : "paragraph" ≠ "root" := by decide
  have other : isCite (.branch "paragraph" cs) = false := rfl
  refine ⟨tidy_of_parts (.inr known) below rfl (fun cite => ?_) parts, known,
    blocksIf_of_ne "paragraph" (by decide), other⟩
  exact absurd (other.symm.trans cite) (by decide)

theorem part_demoted {referenced : Dict Unit} {n : Node} (part : Part allowed n) :
    Part allowed (demoted referenced n) := by
  unfold demoted
  split
  · next orphan =>
    have kind : n.kind = "footnoteDefinition" := by
      simp only [isOrphan, Bool.and_eq_true] at orphan
      exact beq_iff_eq.1 orphan.1
    have parts := parts_of_tidy part.tidy (by rw [kind]; decide) (by rw [isGroup, is, kind]; rfl)
    split
    · next only same =>
      split
      · exact parts only (by rw [same]; exact List.mem_singleton_self only)
      · exact part_paragraph parts
    · exact part_paragraph parts
  · exact part

theorem tidy_demoteFootnotes {tree : Node} (all : Everywhere (Tidy allowed) tree) :
    Everywhere (Tidy allowed) (demoteFootnotes tree) := by
  rw [demoteFootnotes_eq]
  refine everywhere_mapUp_of_local local_tidy (fun n => ?_) (fun n all => ?_) all
  · unfold demoteIn
    split <;> exact ⟨rfl, rfl⟩
  · unfold demoteIn
    split
    · next legend =>
      have kind : n.kind = "legend" := beq_iff_eq.1 legend
      have below : n.kind ≠ "root" := by rw [kind]; decide
      have single : isGroup n = false := by rw [isGroup, is, kind]; rfl
      refine tidy_of_parts (n := n.withKids _) all.here.own below single (fun cite => ?_) ?_
      · rw [isCite, is, kind_withKids, kind] at cite
        cases cite
      · rw [kids_withKids]
        refine List.forall_mem_map.2 fun c child => ?_
        exact part_demoted (parts_of_tidy all below single c child)
    · exact all

/-! ### Texts -/

/-- A tidy node without empty texts and without texts that meet. -/
structure Finished (allowed : Prop) (n : Node) : Prop extends Tidy allowed n where
  filled : ∀ c ∈ n.kids, isEmptyText c = false
  apart : ∀ t u, [t, u] <:+: n.kids → t.isText = true → u.isText = false

theorem mergeTexts_ne_nil {ns : List Node} (some : ns ≠ []) : mergeTexts ns ≠ [] := by
  cases ns with
  | nil => exact absurd rfl some
  | cons n ns =>
    rw [mergeTexts]
    split
    · split <;> exact List.cons_ne_nil _ _
    · exact List.cons_ne_nil _ _

theorem infix_pair_cons {t u a : Node} {ns : List Node} (next : [t, u] <:+: a :: ns) :
    t = a ∧ (∃ rest, ns = u :: rest) ∨ [t, u] <:+: ns := by
  rcases List.infix_cons_iff.1 next with front | later
  · obtain ⟨rfl, rest, same⟩ := List.cons_prefix_cons.1 front
    exact .inl ⟨rfl, rest, same.symm⟩
  · exact .inr later

theorem apart_mergeTexts (ns : List Node) {t u : Node} (next : [t, u] <:+: mergeTexts ns)
    (text : t.isText = true) : u.isText = false := by
  induction ns generalizing t u with
  | nil => simp [mergeTexts] at next
  | cons n ns ih =>
    rw [mergeTexts] at next
    split at next
    · next m ms merged =>
      rw [merged] at ih
      split at next
      · next texts =>
        rcases infix_pair_cons next with ⟨_, rest, rfl⟩ | later
        · -- The text that the first one was merged with met no other text.
          exact ih ⟨[], rest, rfl⟩ (Bool.and_eq_true_iff.1 texts).2
        · exact ih (List.infix_cons_iff.2 (.inr later)) text
      · next other =>
        rcases infix_pair_cons next with ⟨rfl, rest, same⟩ | later
        · cases same
          rw [text, Bool.true_and, Bool.not_eq_true] at other
          exact other
        · exact ih later text
    · rcases infix_pair_cons next with ⟨_, rest, none⟩ | later
      · cases none
      · exact absurd (List.infix_nil.1 later) (List.cons_ne_nil _ _)

theorem isEmptyText_extendText {t : Node} (s : String) (text : t.isText = true)
    (filled : isEmptyText t = false) : isEmptyText (extendText t s) = false := by
  have some : t.value.getD "" ≠ "" := by
    simpa [isEmptyText, text, String.isEmpty_iff] using filled
  simp [isEmptyText, extendText, some]

theorem finished_extendText {t : Node} (s : String) (all : Everywhere (Finished allowed) t) :
    Everywhere (Finished allowed) (extendText t s) := by
  have here := all.here
  have tidy := everywhere_tidy_of_same (m := extendText t s) (n := t) rfl rfl
    (all.imp fun _ finished => finished.toTidy)
  exact everywhere_iff.2 ⟨⟨tidy.here, here.filled, here.apart⟩, all.below⟩

theorem finished_joinTexts {n : Node}
    (all : Everywhere (fun m => Tidy allowed m ∧ ∀ c ∈ m.kids, isEmptyText c = false) n) :
    Everywhere (Finished allowed) (joinTexts n) := by
  induction n using induction_on_kids with
  | node n ih =>
    obtain ⟨tidy, filled⟩ := all.here
    have kids : (joinTexts n).kids = mergeTexts (n.kids.map joinTexts) := by
      rw [joinTexts_eq, kids_mapChildren rfl, kids_mapChildren_map]
    have joined : ∀ m ∈ n.kids.map joinTexts, Everywhere (Finished allowed) m ∧
        isEmptyText m = false ∧ ∃ d ∈ n.kids, m.kind = d.kind := by
      refine List.forall_mem_map.2 fun c child => ⟨ih c child (all.below c child), ?_, c, child, ?_⟩
      · rw [joinTexts_eq]
        exact filled c child
      · rw [joinTexts_eq]
        rfl
    -- A merged text has the kind of one of the texts in it, and it is not empty either.
    have members : ∀ m ∈ (joinTexts n).kids, Everywhere (Finished allowed) m ∧
        isEmptyText m = false ∧ ∃ d ∈ n.kids, m.kind = d.kind := by
      intro m mem
      rw [kids] at mem
      rcases mem_mergeTexts mem with place | ⟨t, place, s, text, rfl⟩
      · exact joined m place
      · obtain ⟨finished, some, d, child, kind⟩ := joined t place
        exact ⟨finished_extendText s finished, isEmptyText_extendText s text some, d, child, kind⟩
    refine everywhere_iff.2 ⟨⟨?_, fun m mem => (members m mem).2.1, ?_⟩,
      fun m mem => (members m mem).1⟩
    · apply tidy.of_kids (by rw [joinTexts_eq]; rfl)
      · intro leaf
        rw [joinTexts_eq, mapChildren, mapChildren, leaf]
        rfl
      · exact fun m mem => (members m mem).2.2
      · intro isOne
        rw [kids]
        exact mergeTexts_ne_nil fun none => (tidy.group isOne).1 (List.map_eq_nil_iff.1 none)
    · intro t u next text
      rw [kids] at next
      exact apart_mergeTexts _ next text

theorem finished_clean {tree : Node} (all : Everywhere (Tidy allowed) tree) :
    Everywhere (Finished allowed) (clean tree) := by
  have spares : ∀ c, isCite c = true → isEmptyText c = false := by
    intro c cite
    rw [isEmptyText, isText, beq_iff_eq.1 cite]
    rfl
  have tidy := tidy_removeWhere spares (tidy_demoteFootnotes all)
  have filled := not_removed_of_mem_kids isEmptyText (fun n => by
    rw [isEmptyText, isText, kind_removeWhere, value_removeWhere]
    rfl) (demoteFootnotes tree)
  exact finished_joinTexts fun m mem => ⟨tidy m mem, filled m mem⟩

/-! ### Documents -/

/-- A root of blocks in which citations are leaves in groups, groups hold citations, and texts are
neither empty nor next to each other. -/
structure WellFormed (tree : Node) : Prop where
  root : tree.kind = "root"
  blocks : ∀ c ∈ tree.kids, c.kind = "block"
  known : ∀ n ∈ tree.descendants, n.kind ∈ documentKinds
  bare : ∀ n ∈ tree.nodes, isCite n = true → n.children = none
  grouped : ∀ n ∈ tree.nodes, ∀ c ∈ n.kids, isCite c = true → isGroup n = true
  cites : ∀ n ∈ tree.nodes, isGroup n = true → n.kids ≠ [] ∧ ∀ c ∈ n.kids, isCite c = true
  filled : ∀ n ∈ tree.nodes, n.kind = "text" → n.value.getD "" ≠ ""
  apart : ∀ n ∈ tree.nodes, ∀ t u, [t, u] <:+: n.kids → t.kind = "text" → u.kind ≠ "text"

theorem exists_parent {n m : Node} (mem : m ∈ n.descendants) : ∃ p ∈ n.nodes, m ∈ p.kids := by
  induction n using induction_on_kids with
  | node n ih =>
    rw [descendants_eq, mem_forestNodes_iff] at mem
    obtain ⟨c, child, mem⟩ := mem
    rcases List.mem_cons.1 mem with rfl | mem
    · exact ⟨n, List.mem_cons_self, child⟩
    · obtain ⟨p, above, inside⟩ := ih c child mem
      exact ⟨p, mem_nodes_iff.2 (.inr ⟨c, child, above⟩), inside⟩

theorem wellFormed_of_finished {tree : Node} (root : tree.kind = "root")
    (all : Everywhere (Finished allowed) tree) : WellFormed tree where
  root := root
  blocks := all.here.top root
  known := by
    intro n mem
    obtain ⟨p, above, child⟩ := exists_parent mem
    exact (all p above).below n child
  bare := fun n mem => (all n mem).bare
  grouped := by
    intro n mem c child cite
    rw [← Bool.not_eq_false]
    intro single
    exact absurd (cite.symm.trans ((all n mem).grouped single c child)) (by decide)
  cites := fun n mem => (all n mem).group
  filled := by
    intro n mem text empty
    rcases List.mem_cons.1 mem with rfl | mem
    · exact absurd (root.symm.trans text) (by decide)
    · obtain ⟨p, above, child⟩ := exists_parent mem
      have some := (all p above).filled n child
      rw [isEmptyText, isText, text, empty] at some
      cases some
  apart := by
    intro n mem t u next left right
    have single := (all n mem).apart t u next (beq_iff_eq.2 left)
    rw [isText, right] at single
    cases single

theorem blocksIf_of_mem_descendants {tree n m : Node} (all : Everywhere (Finished allowed) tree)
    (mem : n ∈ tree.nodes) (block : n.kind = "block") (inside : m ∈ n.descendants) :
    BlocksIf allowed m.kind := by
  obtain ⟨p, above, child⟩ := exists_parent inside
  have finished := all.of_mem_nodes mem
  apply (finished p above).inner _ m child
  intro root
  rcases List.mem_cons.1 above with rfl | below
  · exact absurd (block.symm.trans root) (by decide)
  · obtain ⟨q, above, child⟩ := exists_parent below
    have known := (finished q above).below p child
    rw [root] at known
    exact absurd known (by decide)

theorem finished_of_convert {a : Article} {options : Conversion.Options} {c : Conversion}
    (article : OfKinds (BlocksIf allowed) a.tree) (converted : a.convert options = .ok c) :
    c.tree.kind = "root" ∧ Everywhere (Finished allowed) c.tree := by
  unfold Article.convert at converted
  cases registered : Reference.Registry.ofReferences options.sources a.references with
  | error fault =>
    rw [registered] at converted
    cases converted
  | ok registry =>
    rw [registered] at converted
    cases converted
    -- The references are part of the article, and their notes go into its body.
    have refs : ∀ n ∈ a.references, OfKinds (BlocksIf allowed) n :=
      Conversion.everywhere_references article
    have notes := Reference.Registry.ofKinds_footnoteGroup refs registered
    have cited := tidy_cite_document registry (registry.order a.references)
      (shaped_emit options.formulas (Conversion.outlined_prepare article notes))
    constructor
    · rw [kind_clean]
      show (removeWhere _ (removeWhere _ _)).kind = "root"
      rw [kind_removeWhere, kind_removeWhere, kind_cite_document]
      exact congrArg Node.kind (emit_fst options.formulas _)
    · have kind {n : Node} (cite : isCite n = true) : n.kind = "cite" := beq_iff_eq.1 cite
      refine finished_clean (tidy_extract (fun n cite => ?_) _
        (tidy_extract (fun n cite => ?_) _ cited))
      · exact footnoteAbbreviations?_of_not_isOrphan (isOrphan_of_ne (by rw [kind cite]; decide))
      · exact sectionAbbreviations?_of_ne (by rw [kind cite]; decide)

/-- Whatever an article holds, the document that it is converted into is well-formed, and blocks are
inside blocks only if the article has blocks of its own. -/
theorem wellFormed_of_convert {a : Article} {options : Conversion.Options} {c : Conversion}
    (converted : a.convert options = .ok c) :
    WellFormed c.tree ∧ ((∀ n ∈ a.tree.nodes, n.kind ≠ "block") →
      ∀ n ∈ c.tree.nodes, n.kind = "block" → ∀ m ∈ n.descendants, m.kind ≠ "block") := by
  have article : OfKinds (BlocksIf (∃ n ∈ a.tree.nodes, n.kind = "block")) a.tree :=
    fun n mem block => ⟨n, mem, block⟩
  obtain ⟨root, finished⟩ := finished_of_convert article converted
  refine ⟨wellFormed_of_finished root finished, fun none n mem block m inside inner => ?_⟩
  obtain ⟨own, there, isBlock⟩ := blocksIf_of_mem_descendants finished mem block inside inner
  exact none own there isBlock

/-- An article of one paragraph with a reference in it. -/
def brief : Article :=
  .ofTree (.branch "article" [.branch "body" [.branch "p" [.text "As shown",
    .branch "xref" [.text "1"] (Dict.empty.insert "ref-type" (.string "bibr"))]]])

theorem wellFormed_of_convert_brief : ∃ c, brief.convert {} = .ok c ∧ WellFormed c.tree ∧
    ∀ n ∈ c.tree.nodes, n.kind = "block" → ∀ m ∈ n.descendants, m.kind ≠ "block" := by
  obtain ⟨c, converted⟩ : ∃ c, brief.convert {} = .ok c := ⟨_, rfl⟩
  obtain ⟨formed, flat⟩ := wellFormed_of_convert converted
  exact ⟨c, converted, formed, flat (by decide)⟩

end

end Manuscript
