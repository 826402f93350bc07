import Manuscript.Proofs.Emission.Contribution
import Manuscript.Proofs.Emission.Machine

/-!
Rendering one forest behind another. What comes first has no influence on what comes behind, but for
text that meets text.
-/

set_option autoImplicit false

namespace Manuscript.Myst

theorem renderAll_append (s : Setting) (xs ys : List Node) :
    renderAll s (xs ++ ys) = (renderAll s xs).join (renderAll s ys) := by
  induction xs with
  | nil =>
    rw [List.nil_append]
    conv => rhs; rw [renderAll]
    rw [Emission.empty_join]
  | cons x xs ih =>
    rw [List.cons_append, renderAll, ih]
    conv => rhs; rw [renderAll]
    rw [Emission.join_assoc]

/-! ### Texts of contributions -/

/-- Whether the nodes of a contribution that are texts are nothing but texts. -/
def Emission.Plain (e : Emission) : Prop :=
  ∀ n ∈ e.forest, n.isText = true → ∃ s, n = .text s

namespace Emission.Plain

variable {a b : Emission}

theorem empty : Emission.empty.Plain := List.forall_mem_nil _

theorem ofReport (r : Report) : (Emission.ofReport r).Plain := List.forall_mem_nil _

theorem ofNode {n : Node} (other : n.isText = false) : (Emission.ofNode n).Plain :=
  List.forall_mem_singleton.2 fun text => absurd (other.symm.trans text) (by decide)

theorem wrap {kind : String} (other : kind ≠ "text") (attrs : Attrs) (inner : Emission) :
    (Emission.wrap kind attrs inner).Plain :=
  ofNode (n := .branch kind inner.forest attrs) (beq_false_of_ne other)

theorem ofText (s : String) : (Emission.ofText s).Plain := by
  unfold Emission.ofText
  split
  · exact empty
  · exact List.forall_mem_singleton.2 fun _ => ⟨s, rfl⟩

theorem join (left : a.Plain) (right : b.Plain) : (a.join b).Plain := by
  intro n mem text
  rcases mem_joinForests mem with place | place | ⟨m, place, s, text, rfl⟩
  · exact left n place text
  · exact right n place text
  · obtain ⟨t, rfl⟩ := left m place text
    exact ⟨t ++ s, rfl⟩

end Emission.Plain

mutual
theorem plain_render {s : Setting} {n : Node} : (render s n).Plain := by
  have kinds := textless_ruleOf n
  rw [render]
  cases rule : ruleOf n with
  | children => exact plain_renderAll
  | text => exact .ofText _
  | wrap kind attrs report =>
    rw [rule] at kinds
    exact .join (.ofReport report) (.wrap kinds attrs _)
  | leaf kind attrs =>
    rw [rule] at kinds
    exact .ofNode (beq_false_of_ne kinds)
  | separator =>
    dsimp only
    split
    · exact .empty
    · exact .ofNode (by decide)
  | formula kind =>
    rw [rule] at kinds
    dsimp only
    split
    · exact .ofNode (beq_false_of_ne kinds)
    · exact plain_renderAll
  | title | tabs | figure | table => exact .wrap (by decide) _ _
  | code => exact .ofNode rfl
  | nothing => exact .empty
  | unknown => exact .ofReport _
termination_by 3 * n.size + 1
decreasing_by
  all_goals have := Node.size_eq n; omega

theorem plain_renderAll {s : Setting} : {ns : List Node} → (renderAll s ns).Plain
  | [] => by
    rw [renderAll]
    exact .empty
  | n :: ns => by
    rw [renderAll]
    exact .join plain_render plain_renderAll
termination_by ns => 3 * Node.forestSize ns + 2
decreasing_by
  all_goals simp only [Node.forestSize]
  · omega
  · have := Node.size_pos n; omega
end

theorem plain_renderTabs (s : Setting) (ns : List Node) : (renderTabs s ns).Plain := by
  induction ns with
  | nil =>
    rw [renderTabs]
    exact .empty
  | cons n ns ih =>
    rw [renderTabs]
    exact .join (.wrap (by decide) _ _) ih

theorem plain_figureImage (n : Node) : (figureImage n).Plain := by
  unfold figureImage
  split
  · exact .ofNode rfl
  · exact .empty

theorem plain_captionOf (parts : List (Option Emission)) : (captionOf parts).Plain := by
  unfold captionOf
  split
  · exact .empty
  · exact .wrap (by decide) _ _

theorem plain_shown {shown : Option Node} {f : Node → Emission} (plain : ∀ n, (f n).Plain) :
    ∀ e ∈ shown.map f, e.Plain := by
  intro e mem
  obtain ⟨n, -, rfl⟩ := Option.map_eq_some_iff.1 mem
  exact plain n

section
variable {s : Setting} {n : Node}

theorem plain_titlePart : ∀ e ∈ titlePart s n, e.Plain :=
  plain_shown fun _ => .wrap (by decide) _ _

theorem plain_captionPart : ∀ e ∈ captionPart s n, e.Plain := plain_shown fun _ => plain_renderAll

theorem plain_captionPart_or {m : Node} :
    ∀ e ∈ (captionPart s m).or (labelPart s n), e.Plain := by
  intro e mem
  rcases Option.or_eq_some_iff.1 mem with mem | ⟨-, mem⟩
  · exact plain_captionPart e mem
  · exact plain_shown (fun _ => .wrap (by decide) _ _) e mem

end

/-- Two forests whose texts are nothing but texts meet without a seam, or the last text of one and
the first of the other become one. -/
theorem joinForests_plain {a b : Emission} (left : a.Plain) (right : b.Plain) :
    (∃ front s t back, a.forest = front ++ [.text s] ∧ b.forest = .text t :: back ∧
        joinForests a.forest b.forest = front ++ .text (s ++ t) :: back) ∨
      (¬ ∃ front s t back, a.forest = front ++ [.text s] ∧ b.forest = .text t :: back) ∧
        joinForests a.forest b.forest = a.forest ++ b.forest := by
  by_cases meet : ∃ front s t back, a.forest = front ++ [.text s] ∧ b.forest = .text t :: back
  · obtain ⟨front, s, t, back, before, behind⟩ := meet
    refine .inl ⟨front, s, t, back, before, behind, ?_⟩
    rw [before, behind, joinForests_concat]
    rfl
  · refine .inr ⟨meet, ?_⟩
    rcases joinForests_cases a.forest b.forest with
      apart | ⟨front, m, n, back, before, behind, seam⟩
    · exact apart
    -- A seam is only between two texts, and these are excluded here.
    · have last : m ∈ a.forest := by rw [before]; simp
      have first : n ∈ b.forest := by rw [behind]; simp
      obtain ⟨s, rfl⟩ := left m last seam.1
      obtain ⟨t, rfl⟩ := right n first seam.2.1
      exact absurd ⟨front, s, t, back, before, behind⟩ meet

/-- The document of two forests has the nodes of one and then those of the other. Only two texts
that meet become one. -/
theorem emission_compositional (formulas : Formula.Converter) (n : Node) (xs ys : List Node) :
    let front := emit formulas (n.withKids xs)
    let back := emit formulas (n.withKids ys)
    let both := emit formulas (n.withKids (xs ++ ys))
    both.1 = .branch "root" both.1.kids ∧
    ((∃ ks s t ms, front.1.kids = ks ++ [.text s] ∧ back.1.kids = .text t :: ms ∧
        both.1.kids = ks ++ .text (s ++ t) :: ms) ∨
      (¬ (∃ ks s t ms, front.1.kids = ks ++ [.text s] ∧ back.1.kids = .text t :: ms)) ∧
        both.1.kids = front.1.kids ++ back.1.kids) ∧
    both.2.remarks = front.2.remarks ++ back.2.remarks ∧
    ∀ kind, both.2.unhandled.contains kind =
      (front.2.unhandled.contains kind || back.2.unhandled.contains kind) := by
  have root (ns : List Node) : (Node.branch "root" ns).kids = ns := rfl
  have tree (ns : List Node) : (n.withKids ns).kids = ns := rfl
  simp only [emit_eq, tree, root, renderAll_append, Emission.join]
  exact ⟨trivial, joinForests_plain plain_renderAll plain_renderAll, rfl,
    fun kind => Dict.contains_insertAll _ _ kind⟩

end Manuscript.Myst
