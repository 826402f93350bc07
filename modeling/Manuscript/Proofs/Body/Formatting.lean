import Manuscript.Body.Typography
import Manuscript.Proofs.Document.Outline
import Manuscript.Proofs.Tree.Removal

/-!
Empty formatting. One run of the repairs takes out the elements that format nothing; what held
nothing else is empty then itself and stays until the next run. A run changes nothing exactly where
no empty formatting is left.
-/

set_option autoImplicit false

namespace Manuscript.Node

theorem forestText_eq_empty_iff {ns : List Node} :
    forestText ns = "" ↔ ∀ n ∈ ns, n.toText = "" := by
  induction ns with
  | nil => simp [forestText]
  | cons n ns ih => simp [forestText, ih, String.append_eq_empty_iff]

theorem forestText_map_of_same {f : Node → Node} {ns : List Node}
    (same : ∀ n ∈ ns, (f n).toText = n.toText) : forestText (ns.map f) = forestText ns := by
  induction ns with
  | nil => rfl
  | cons n ns ih =>
    obtain ⟨first, rest⟩ := List.forall_mem_cons.1 same
    rw [List.map_cons, forestText, first, ih rest, forestText]

section
variable {p : Node → Bool}

theorem forestText_filter_of_empty (none : ∀ n : Node, p n = true → n.toText = "") (ns : List Node) :
    forestText (ns.filter (!p ·)) = forestText ns := by
  induction ns with
  | nil => rfl
  | cons n ns ih =>
    cases gone : p n with
    | true => rw [List.filter_cons_of_neg (by simp [gone]), ih, forestText, none n gone,
        String.empty_append]
    | false => rw [List.filter_cons_of_pos (by simp [gone]), forestText, ih, forestText]

theorem toText_removeWhere_of_empty (none : ∀ n : Node, p n = true → n.toText = "") (n : Node) :
    (removeWhere p n).toText = n.toText := by
  induction n using induction_on_kids with
  | node n ih =>
    rw [toText_eq, kids_removeWhere, value_removeWhere, toText_eq n,
      forestText_map_of_same fun c mem => ih c (List.mem_filter.1 mem).1,
      forestText_filter_of_empty none]

end

end Manuscript.Node

namespace Manuscript.Body

open Manuscript.Node

/-! ### One removal -/

theorem kind_ne_of_isInlineFormat {n : Node} (inline : isInlineFormat n = true) :
    n.kind ≠ "text" ∧ n.kind ≠ "break" := by
  constructor <;>
  · rintro same
    rw [isInlineFormat, isOneOf, same] at inline
    exact absurd inline (by decide)

theorem toText_of_isEmptyFormat {n : Node} (empty : isEmptyFormat n = true) : n.toText = "" := by
  simp only [isEmptyFormat, Bool.and_eq_true, String.isEmpty_iff] at empty
  exact empty.1.2

theorem not_isText_of_isEmptyFormat {n : Node} (empty : isEmptyFormat n = true) :
    n.isText = false := by
  simp only [isEmptyFormat, Bool.and_eq_true] at empty
  exact beq_eq_false_iff_ne.2 (kind_ne_of_isInlineFormat empty.1.1).1

/-- Whether an element formats no text and holds empty formatting, with nothing but texts
beside it. -/
def isHollowFormat (n : Node) : Bool :=
  isInlineFormat n && n.toText.isEmpty && n.kids.any isEmptyFormat &&
    n.kids.all fun c => c.isText || isEmptyFormat c

theorem isEmptyFormat_removeWhere (n : Node) :
    isEmptyFormat (n.removeWhere isEmptyFormat) = (isEmptyFormat n || isHollowFormat n) := by
  have inline : isInlineFormat (n.removeWhere isEmptyFormat) = isInlineFormat n := by
    rw [isInlineFormat, isInlineFormat, isOneOf, isOneOf, kind_removeWhere]
  have text := toText_removeWhere_of_empty (fun _ => toText_of_isEmptyFormat) n
  have kids : (n.removeWhere isEmptyFormat).kids.all isText =
      n.kids.all fun c => c.isText || isEmptyFormat c := by
    rw [kids_removeWhere, List.all_map, List.all_filter]
    refine congrArg (List.all _) (funext fun c => ?_)
    rw [Function.comp_apply, isText, kind_removeWhere, Bool.not_not, Bool.or_comm]
    rfl
  rw [isEmptyFormat, inline, text, kids, isEmptyFormat, isHollowFormat]
  cases some : n.kids.any isEmptyFormat with
  | true =>
    -- What is empty itself holds texts only.
    have others : n.kids.all isText = false := by
      obtain ⟨c, child, empty⟩ := List.any_eq_true.1 some
      exact List.all_eq_false.2 ⟨c, child, by simp [not_isText_of_isEmptyFormat empty]⟩
    rw [others, Bool.and_false, Bool.false_or, Bool.and_true]
  | false =>
    have same : (n.kids.all fun c => c.isText || isEmptyFormat c) = n.kids.all isText := by
      rw [Bool.eq_iff_iff, List.all_eq_true, List.all_eq_true]
      refine forall₂_congr fun c child => ?_
      simp [Bool.eq_false_iff.2 (List.any_eq_false.1 some c child)]
    rw [same, Bool.and_false, Bool.false_and, Bool.or_false]

/-! ### Breaks -/

mutual
theorem size_spaceBreaks_le (inTitle : Bool) : (n : Node) → (spaceBreaks inTitle n).size ≤ n.size
  | ⟨_, none, _, _⟩ => by
    rw [spaceBreaks]
    split <;> exact Nat.le_refl _
  | ⟨_, some cs, _, _⟩ => by
    rw [spaceBreaks]
    split
    · simp [text, scalar, size]
    · exact Nat.add_le_add_left (forestSize_spaceBreaksAll_le _ cs) 1

theorem forestSize_spaceBreaksAll_le (inTitle : Bool) :
    (ns : List Node) → forestSize (spaceBreaksAll inTitle ns) ≤ forestSize ns
  | [] => Nat.le_refl _
  | n :: ns =>
    Nat.add_le_add (size_spaceBreaks_le inTitle n) (forestSize_spaceBreaksAll_le inTitle ns)
end

theorem spaceBreaks_spaceBreaks (inTitle : Bool) (n : Node) :
    spaceBreaks inTitle (spaceBreaks inTitle n) = spaceBreaks inTitle n := by
  induction n using induction_on_kids generalizing inTitle with
  | node n ih =>
    rw [spaceBreaks_eq inTitle n]
    split
    · cases inTitle <;> rfl
    · next other =>
      rw [spaceBreaks_eq, kind_mapChildren, if_neg other]
      apply mapChildren_of_eq_self
      rw [kids_mapChildren_map, List.map_map]
      exact List.map_congr_left fun c child => ih c child _

theorem spaceBreaks_eq_self {inTitle : Bool} {n : Node} (none : (spaceBreaks inTitle n).toText = "") :
    spaceBreaks inTitle n = n := by
  induction n using induction_on_kids generalizing inTitle with
  | node n ih =>
    rw [spaceBreaks_eq] at none ⊢
    split at none
    · exact absurd none (by decide)
    · next other =>
      rw [if_neg other]
      apply mapChildren_of_eq_self
      rw [toText_eq, kids_mapChildren_map, String.append_eq_empty_iff, forestText_eq_empty_iff,
        List.forall_mem_map] at none
      have same : n.kids.map (spaceBreaks (inTitle || isTitleKind n.kind)) = n.kids.map id :=
        List.map_congr_left fun c child => ih c child (none.2 c child)
      rw [same, List.map_id]

theorem isEmptyFormat_of_spaceBreaks {inTitle : Bool} {n : Node}
    (empty : isEmptyFormat (spaceBreaks inTitle n) = true) : isEmptyFormat n = true := by
  rwa [spaceBreaks_eq_self (toText_of_isEmptyFormat empty)] at empty

/-! ### A run -/

theorem solid_spaceBreaks {inTitle : Bool} {n : Node}
    (solid : Everywhere (fun m => isEmptyFormat m = false) n) :
    Everywhere (fun m => isEmptyFormat m = false) (spaceBreaks inTitle n) := by
  induction n using induction_on_kids generalizing inTitle with
  | node n ih =>
    have here : isEmptyFormat (spaceBreaks inTitle n) = false :=
      Bool.eq_false_iff.2 fun empty =>
        Bool.eq_false_iff.1 solid.here (isEmptyFormat_of_spaceBreaks empty)
    refine everywhere_iff.2 ⟨here, ?_⟩
    rw [spaceBreaks_eq]
    split
    · exact List.forall_mem_nil _
    · rw [kids_mapChildren_map, List.forall_mem_map]
      exact fun c child => ih c child (solid.below c child)

theorem solid_removeWhere {n : Node} (kept : isEmptyFormat n = false)
    (solid : Everywhere (fun m => isHollowFormat m = false) n) :
    Everywhere (fun m => isEmptyFormat m = false) (n.removeWhere isEmptyFormat) := by
  induction n using induction_on_kids with
  | node n ih =>
    rw [everywhere_iff, kids_removeWhere, List.forall_mem_map]
    refine ⟨by rw [isEmptyFormat_removeWhere, kept, solid.here]; rfl, fun c mem => ?_⟩
    obtain ⟨child, stays⟩ := List.mem_filter.1 mem
    exact ih c child (by simpa using stays) (solid.below c child)

theorem kids_typography (tree : Node) : (typography tree).kids =
    ((tree.kids.filter (!isEmptyFormat ·)).map (removeWhere isEmptyFormat)).map
      (spaceBreaks (isTitleKind tree.kind)) := by
  rw [typography, spaceBreaks_eq, Bool.false_and, if_neg Bool.false_ne_true, kids_mapChildren_map,
    kids_removeWhere, kind_removeWhere, Bool.false_or]

theorem typography_settles {tree : Node}
    (solid : ∀ m ∈ tree.descendants, isHollowFormat m = false) :
    ∀ m ∈ (typography tree).descendants, isEmptyFormat m = false := by
  rw [forall_mem_descendants_iff] at solid ⊢
  rw [kids_typography, List.forall_mem_map, List.forall_mem_map]
  intro c mem
  obtain ⟨child, stays⟩ := List.mem_filter.1 mem
  exact solid_spaceBreaks (solid_removeWhere (by simpa using stays) (solid c child))

/-! ### What one run leaves -/

/-- Whether nothing stands in a node if it is a text or a break. -/
def IsLeafy (n : Node) : Prop := n.kind ∈ ["text", "break"] → n.kids = []

theorem spaceBreaks_of_texts {inTitle : Bool} {n : Node} (other : n.kind ≠ "break")
    (texts : ∀ c ∈ n.kids, c.isText = true ∧ c.kids = []) : spaceBreaks inTitle n = n := by
  have leaf (b : Bool) {c : Node} (text : c.isText = true) (none : c.kids = []) :
      spaceBreaks b c = c := by
    rw [spaceBreaks_eq, beq_iff_eq.1 text, if_neg (by simp)]
    exact mapChildren_of_eq_self (by rw [none]; rfl)
  rw [spaceBreaks_eq, if_neg (by simp [other])]
  apply mapChildren_of_eq_self
  have same (b : Bool) : n.kids.map (spaceBreaks b) = n.kids.map id :=
    List.map_congr_left fun c child => leaf b (texts c child).1 (texts c child).2
  rw [same, List.map_id]

theorem isText_of_isEmptyFormat {n c : Node} (empty : isEmptyFormat n = true) (child : c ∈ n.kids) :
    c.isText = true := by
  simp only [isEmptyFormat, Bool.and_eq_true, List.all_eq_true] at empty
  exact empty.2 c child

theorem isInlineFormat_of_isHollowFormat {n : Node} (hollow : isHollowFormat n = true) :
    isInlineFormat n = true := by
  simp only [isHollowFormat, Bool.and_eq_true] at hollow
  exact hollow.1.1.1

/-- What has something hollow in it is not empty itself, as it does not hold texts only. -/
theorem not_isEmptyFormat_of_hollow {n m : Node} (leafy : Everywhere IsLeafy n) (mem : m ∈ n.nodes)
    (hollow : isHollowFormat m = true) : isEmptyFormat n = false := by
  rw [← Bool.not_eq_true]
  intro empty
  rcases mem_nodes_iff.1 mem with rfl | ⟨c, child, mem⟩
  · simp only [isHollowFormat, Bool.and_eq_true, List.any_eq_true] at hollow
    obtain ⟨c, child, inner⟩ := hollow.1.2
    have text := isText_of_isEmptyFormat empty child
    rw [not_isText_of_isEmptyFormat inner] at text
    cases text
  · have text : c.kind = "text" := beq_iff_eq.1 (isText_of_isEmptyFormat empty child)
    rcases mem_nodes_iff.1 mem with rfl | ⟨d, inside, -⟩
    · exact (kind_ne_of_isInlineFormat (isInlineFormat_of_isHollowFormat hollow)).1 text
    · rw [(leafy.below c child).here (by simp [text])] at inside
      cases inside

/-- A hollow element is empty after a run, and no run replaces a break in it. -/
theorem isEmptyFormat_of_hollow {n : Node} (leafy : Everywhere IsLeafy n)
    (hollow : isHollowFormat n = true) (inTitle : Bool) :
    isEmptyFormat (spaceBreaks inTitle (n.removeWhere isEmptyFormat)) = true := by
  have emptied : isEmptyFormat (n.removeWhere isEmptyFormat) = true := by
    rw [isEmptyFormat_removeWhere, hollow, Bool.or_true]
  have inline := kind_ne_of_isInlineFormat (isInlineFormat_of_isHollowFormat hollow)
  have texts : ∀ c ∈ (n.removeWhere isEmptyFormat).kids, c.isText = true ∧ c.kids = [] := by
    rw [kids_removeWhere, List.forall_mem_map]
    intro c mem
    have child := (List.mem_filter.1 mem).1
    have text : (removeWhere isEmptyFormat c).isText = true :=
      isText_of_isEmptyFormat emptied (by rw [kids_removeWhere]; exact List.mem_map_of_mem mem)
    rw [isText, kind_removeWhere] at text
    refine ⟨by rwa [isText, kind_removeWhere], ?_⟩
    rw [kids_removeWhere, (leafy.below c child).here (by simp [beq_iff_eq.1 text])]
    rfl
  rwa [spaceBreaks_of_texts (by rw [kind_removeWhere]; exact inline.2) texts]

theorem exists_isEmptyFormat_of_hollow {n m : Node} (leafy : Everywhere IsLeafy n)
    (mem : m ∈ n.nodes) (hollow : isHollowFormat m = true) (inTitle : Bool) :
    ∃ k ∈ (spaceBreaks inTitle (n.removeWhere isEmptyFormat)).nodes, isEmptyFormat k = true := by
  induction n using induction_on_kids generalizing inTitle with
  | node n ih =>
    rcases mem_nodes_iff.1 mem with rfl | ⟨c, child, mem⟩
    · exact ⟨_, List.mem_cons_self, isEmptyFormat_of_hollow leafy hollow inTitle⟩
    · have whole := leafy.below c child
      have stays := not_isEmptyFormat_of_hollow whole mem hollow
      have other : n.kind ≠ "break" := fun same => by
        rw [leafy.here (by simp [same])] at child
        cases child
      obtain ⟨k, inside, empty⟩ := ih c child whole mem (inTitle || isTitleKind n.kind)
      refine ⟨k, mem_nodes_iff.2 (.inr ⟨_, ?_, inside⟩), empty⟩
      rw [spaceBreaks_eq, kind_removeWhere, if_neg (by simp [other]), kids_mapChildren_map,
        kids_removeWhere]
      exact List.mem_map_of_mem (List.mem_map_of_mem (List.mem_filter.2 ⟨child, by simp [stays]⟩))

/-- If texts and breaks are leaves, one run leaves empty formatting exactly where there was an
element with nothing but empty formatting in it, with or without empty texts. -/
theorem exists_isEmptyFormat_typography_iff {tree : Node}
    (leafy : ∀ m ∈ tree.descendants, m.kind ∈ ["text", "break"] → m.kids = []) :
    (∃ m ∈ (typography tree).descendants, isEmptyFormat m = true) ↔
      ∃ m ∈ tree.descendants, isHollowFormat m = true := by
  constructor
  · rintro ⟨m, mem, empty⟩
    refine Classical.byContradiction fun none => ?_
    have solid : ∀ m ∈ tree.descendants, isHollowFormat m = false := fun m mem =>
      Bool.eq_false_iff.2 fun hollow => none ⟨m, mem, hollow⟩
    rw [typography_settles solid m mem] at empty
    cases empty
  · rintro ⟨m, mem, hollow⟩
    rw [descendants_eq, mem_forestNodes_iff] at mem
    obtain ⟨c, child, mem⟩ := mem
    have whole : Everywhere IsLeafy c := forall_mem_descendants_iff.1 leafy c child
    have stays := not_isEmptyFormat_of_hollow whole mem hollow
    obtain ⟨k, inside, empty⟩ := exists_isEmptyFormat_of_hollow whole mem hollow
      (isTitleKind tree.kind)
    refine ⟨k, ?_, empty⟩
    rw [descendants_eq, mem_forestNodes_iff, kids_typography]
    exact ⟨_, List.mem_map_of_mem (List.mem_map_of_mem
      (List.mem_filter.2 ⟨child, by simp [stays]⟩)), inside⟩

/-- A further run changes nothing exactly where the first one leaves no empty formatting. -/
theorem second_typography_idle_iff (tree : Node) : typography (typography tree) = typography tree ↔
    ∀ m ∈ (typography tree).descendants, isEmptyFormat m = false := by
  constructor
  · intro idle
    -- Replacing breaks makes no tree larger, so the second run has taken nothing out.
    apply not_removed_of_size_le
    calc (typography tree).size
      _ = (typography (typography tree)).size := by rw [idle]
      _ ≤ ((typography tree).removeWhere isEmptyFormat).size := size_spaceBreaks_le ..
  · intro none
    have kept : (typography tree).removeWhere isEmptyFormat = typography tree := by
      rw [removeWhere_eq]
      apply mapChildren_of_eq_self
      rw [← removeFrom_eq_map]
      exact removeFrom_eq_self (by rwa [← descendants_eq])
    rw [typography, kept]
    exact spaceBreaks_spaceBreaks false _

/-- Empty formatting inside of formatting, and breaks in a title. -/
def hollowBody : Node :=
  .branch "body" [
    .branch "title" [.branch "bold" [.branch "italic" [.leaf "break"]], .leaf "break"],
    .branch "p" [.text "a", .branch "bold" [.branch "italic" []]]]

example : (typography hollowBody == .branch "body" [
      .branch "title" [.branch "bold" [.branch "italic" [.text " "]], .text " "],
      .branch "p" [.text "a", .branch "bold" []]]) = true ∧
    (typography (typography hollowBody) == typography hollowBody) = false := by
  decide

end Manuscript.Body
