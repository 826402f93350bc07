import Manuscript.Myst.Abbreviation
import Manuscript.Proofs.Tree.Passage

/-!
What taking out lists of abbreviations and cleaning leave in its place. A list is a block or a
footnote; cleaning changes what is in legends and joins texts, and passes all other nodes by.
-/

set_option autoImplicit false

namespace Manuscript.Myst

open Manuscript.Node

/-! ### Lists of abbreviations -/

theorem kids_extract (find? : Node → Option Abbreviations) (tree : Node) (f : Frontmatter) :
    (extract find? tree f).tree.kids = removeFrom (fun n => (find? n).isSome) tree.kids := by
  rw [extract, kids_removeWhere, removeFrom_eq_map]

theorem exists_kids_of_isSome {n : Node} (list : (sectionAbbreviations? n).isSome = true) :
    n.kind = "block" ∧ ∃ heading paragraph, n.kids = [heading, paragraph] ∧
      heading.kind = "heading" ∧ paragraph.kind = "paragraph" := by
  unfold sectionAbbreviations? at list
  split at list
  · next heading paragraph parts =>
    split at list
    · next shape =>
      simp only [Bool.and_eq_true] at shape
      exact ⟨beq_iff_eq.1 shape.1.1.1, heading, paragraph, parts, beq_iff_eq.1 shape.1.1.2,
        beq_iff_eq.1 shape.1.2⟩
    · cases list
  · cases list

theorem sectionAbbreviations?_of_ne {n : Node} (other : n.kind ≠ "block") :
    sectionAbbreviations? n = none := by
  cases found : sectionAbbreviations? n with
  | none => rfl
  | some entries => exact absurd (exists_kids_of_isSome (by rw [found]; rfl)).1 other

theorem footnoteAbbreviations?_of_not_isOrphan {referenced : Dict Unit} {n : Node}
    (kept : isOrphan referenced n = false) : footnoteAbbreviations? referenced n = none := by
  unfold footnoteAbbreviations?
  split
  · rw [kept]
    rfl
  · rfl

theorem isOrphan_of_ne {referenced : Dict Unit} {n : Node} (other : n.kind ≠ "footnoteDefinition") :
    isOrphan referenced n = false := by
  rw [isOrphan, is, beq_eq_false_iff_ne.2 other, Bool.false_and]

theorem contains_referencedFootnotes_iff {tree : Node} {identifier : String} :
    (referencedFootnotes tree).contains identifier = true ↔
      ∃ n ∈ tree.descendants, n.kind = "footnoteReference" ∧
        n.attrText? "identifier" = some identifier := by
  rw [referencedFootnotes, Dict.contains_ofList, List.any_eq_true]
  constructor
  · rintro ⟨entry, mem, same⟩
    obtain ⟨n, found, entry'⟩ := List.mem_filterMap.1 mem
    obtain ⟨below, reference⟩ := List.mem_filter.1 found
    obtain ⟨name, named, rfl⟩ := Option.map_eq_some_iff.1 entry'
    exact ⟨n, below, beq_iff_eq.1 reference, named.trans (congrArg some (beq_iff_eq.1 same))⟩
  · rintro ⟨n, below, reference, named⟩
    refine ⟨(identifier, ()), List.mem_filterMap.2 ⟨n, ?_, by rw [named]; rfl⟩, beq_self_eq_true _⟩
    exact List.mem_filter.2 ⟨below, beq_iff_eq.2 reference⟩

theorem contains_referencedFootnotes {tree n : Node} {identifier : String}
    (mem : n ∈ tree.descendants) (reference : n.kind = "footnoteReference")
    (same : n.attrText? "identifier" = some identifier) :
    (referencedFootnotes tree).contains identifier = true :=
  contains_referencedFootnotes_iff.2 ⟨n, mem, reference, same⟩

/-! ### Texts -/

theorem mem_mergeTexts {ns : List Node} {m : Node} (mem : m ∈ mergeTexts ns) :
    m ∈ ns ∨ ∃ t ∈ ns, ∃ s, t.isText = true ∧ m = extendText t s := by
  induction ns generalizing m with
  | nil => cases mem
  | cons n ns ih =>
    have later {k : Node} (mem : k ∈ mergeTexts ns) : k ∈ n :: ns ∨
        ∃ t ∈ n :: ns, ∃ s, t.isText = true ∧ k = extendText t s := by
      rcases ih mem with place | ⟨t, place, s, text, same⟩
      · exact .inl (List.mem_cons_of_mem _ place)
      · exact .inr ⟨t, List.mem_cons_of_mem _ place, s, text, same⟩
    rw [mergeTexts] at mem
    split at mem
    · next k ks merged =>
      rw [merged] at later
      split at mem
      · next texts =>
        rcases List.mem_cons.1 mem with rfl | mem
        · exact .inr ⟨n, List.mem_cons_self, _, (Bool.and_eq_true_iff.1 texts).1, rfl⟩
        · exact later (List.mem_cons_of_mem _ mem)
      · rcases List.mem_cons.1 mem with rfl | mem
        · exact .inl List.mem_cons_self
        · exact later mem
    · rw [List.mem_singleton.1 mem]
      exact .inl List.mem_cons_self

theorem joinTexts_eq (n : Node) :
    joinTexts n = (n.mapChildren (List.map joinTexts)).mapChildren mergeTexts := by
  rw [joinTexts, mapUp_eq]
  rfl

/-- A node that is no text keeps the texts before it from those behind. -/
theorem mergeTexts_around {n : Node} (other : n.isText = false) (before after : List Node) :
    mergeTexts (before ++ n :: after) = mergeTexts before ++ n :: mergeTexts after := by
  induction before with
  | nil =>
    show mergeTexts (n :: after) = n :: mergeTexts after
    rw [mergeTexts]
    cases mergeTexts after <;> simp [other]
  | cons b before ih =>
    rw [List.cons_append, mergeTexts, mergeTexts, ih]
    cases mergeTexts before with
    | nil => simp [other]
    | cons m ms =>
      simp only [List.cons_append]
      split <;> rfl

/-- The footnotes of a legend that nothing refers to, as paragraphs. -/
def demoteIn (referenced : Dict Unit) (n : Node) : Node :=
  if n.is "legend" then n.withKids (n.kids.map (demoted referenced)) else n

theorem demoteFootnotes_eq (tree : Node) :
    demoteFootnotes tree = tree.mapUp (demoteIn (referencedFootnotes tree)) := by
  rw [demoteFootnotes, demoteOrphans, mapUpSum_fst]
  congr 1
  funext n
  unfold demoteIn
  split <;> rfl

theorem kind_clean (tree : Node) : (clean tree).kind = tree.kind := by
  have demoted : (demoteFootnotes tree).kind = tree.kind := by
    rw [demoteFootnotes_eq, mapUp_eq, demoteIn]
    split <;> rfl
  rw [clean, joinTexts_eq, kind_mapChildren, kind_mapChildren, kind_removeWhere, demoted]

section
variable {p : Node → Prop}

/-! ### What cleaning keeps -/

theorem everywhere_demoted (paragraph : ∀ cs, p (.branch "paragraph" cs)) {referenced : Dict Unit}
    {n : Node} (all : Everywhere p n) : Everywhere p (demoted referenced n) := by
  have around : Everywhere p (.branch "paragraph" n.kids) :=
    everywhere_iff.2 ⟨paragraph n.kids, all.below⟩
  unfold demoted
  split
  · split
    · next only same =>
      split
      · exact all.below only (by rw [same]; exact List.mem_singleton_self only)
      · exact around
    · exact around
  · exact all

theorem everywhere_demoteIn (free : KidsFree p) (paragraph : ∀ cs, p (.branch "paragraph" cs))
    {referenced : Dict Unit} {n : Node} (all : Everywhere p n) :
    Everywhere p (demoteIn referenced n) := by
  unfold demoteIn
  split
  · apply free.of_kids all
    exact List.forall_mem_map.2 fun c child => everywhere_demoted paragraph (all.below c child)
  · exact all

theorem everywhere_joinTexts (free : KidsFree p)
    (text : ∀ n s, n.kind = "text" → p n → p (extendText n s)) {tree : Node}
    (all : Everywhere p tree) : Everywhere p (joinTexts tree) := by
  refine everywhere_mapUp (fun _ here => free.mapChildren _ here) (fun n all => ?_) all
  refine everywhere_iff.2 ⟨free.mapChildren _ all.here, ?_⟩
  rw [kids_mapChildren rfl]
  intro m mem
  rcases mem_mergeTexts mem with child | ⟨t, child, s, isText, rfl⟩
  · exact all.below m child
  · have inside := all.below t child
    exact everywhere_iff.2 ⟨text t s (beq_iff_eq.1 isText) inside.here, inside.below⟩

/-- A property that hangs on nothing below a node, holds of new paragraphs and stays with texts that
grow, holds of all that is left by cleaning if it did before. -/
theorem everywhere_clean (free : KidsFree p) (paragraph : ∀ cs, p (.branch "paragraph" cs))
    (text : ∀ n s, n.kind = "text" → p n → p (extendText n s)) {tree : Node}
    (all : Everywhere p tree) : Everywhere p (clean tree) := by
  apply everywhere_joinTexts free text
  refine everywhere_removeWhere (fun n all => ?_) ?_
  · rw [removeWhere_eq]
    exact free.mapChildren _ all.here
  · rw [demoteFootnotes_eq]
    exact everywhere_mapUp (fun _ here => free.mapChildren _ here)
      (fun n => everywhere_demoteIn free paragraph) all

end

section
variable {wanted : Node → Bool} {on : String → Prop}

/-- Whether cleaning passes nodes of a kind by. -/
def Undisturbed (kind : String) : Prop := kind ≠ "text" ∧ kind ≠ "legend"

instance : DecidablePred Undisturbed := fun kind =>
  inferInstanceAs (Decidable (kind ≠ "text" ∧ kind ≠ "legend"))

/-- Cleaning where it is settled which footnotes are referred to. -/
def cleanBy (referenced : Dict Unit) (tree : Node) : Node :=
  joinTexts ((tree.mapUp (demoteIn referenced)).removeWhere isEmptyText)

theorem clean_eq (tree : Node) : clean tree = cleanBy (referencedFootnotes tree) tree := by
  rw [clean, demoteFootnotes_eq, cleanBy]

theorem undisturbed_root : Undisturbed "root" := by decide

theorem skips_joinTexts (inherent : Inherent wanted)
    (text : ∀ n, n.kind = "text" → wanted n = false) : Skips wanted Undisturbed joinTexts := by
  have own (n : Node) := (joinTexts_eq n).trans (mapChildren_mapChildren _ _ n)
  refine .of_mapChildren undisturbed_root (fun n _ => own n)
    ⟨rfl, fun {n} before after known => ?_, fun {ns} clear m mem => ?_⟩
  · have other : (joinTexts n).isText = false := by
      rw [joinTexts_eq]
      exact beq_eq_false_iff_ne.2 known.1
    rw [List.map_append, List.map_cons, mergeTexts_around other, joinTexts_eq n,
      mapChildren_mapChildren]
  · have joined : ∀ k ∈ ns.map joinTexts, Everywhere (fun n => wanted n = false) k :=
      List.forall_mem_map.2 fun k place =>
        everywhere_joinTexts inherent.kidsFree
          (fun n s isText _ => text (extendText n s) isText) (clear k place)
    rcases mem_mergeTexts mem with place | ⟨t, place, s, isText, rfl⟩
    · exact joined m place
    · exact everywhere_iff.2 ⟨text _ (beq_iff_eq.1 isText), (joined t place).below⟩

theorem skips_cleanBy (inherent : Inherent wanted)
    (paragraph : ∀ cs, wanted (.branch "paragraph" cs) = false)
    (text : ∀ n, n.kind = "text" → wanted n = false) (referenced : Dict Unit) :
    Skips wanted Undisturbed (cleanBy referenced) := by
  have demote : Skips wanted Undisturbed (mapUp (demoteIn referenced)) := by
    refine .mapUp undisturbed_root inherent (fun n known => ?_) fun n all => ?_
    · rw [demoteIn, is, beq_eq_false_iff_ne.2 known.2, if_neg Bool.false_ne_true]
    · exact everywhere_demoteIn inherent.kidsFree paragraph all
  have fill : Skips wanted Undisturbed (removeWhere isEmptyText) := by
    refine .removeWhere undisturbed_root inherent fun n known => ?_
    rw [isEmptyText, isText, beq_eq_false_iff_ne.2 known.1, Bool.false_and]
  exact (demote.trans undisturbed_root fill).trans undisturbed_root (skips_joinTexts inherent text)

end

end Manuscript.Myst
