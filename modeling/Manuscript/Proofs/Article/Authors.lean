import Manuscript.Article.Frontmatter
import Manuscript.Proofs.Body.Headings
import Manuscript.Proofs.Tree.Removal
import Mathlib.Data.List.Perm.Basic

/-!
The authors of an article. They are looked for in each group of contributors, and what a group holds
is looked for at all depths. So a contributor is listed as often as there are groups around it, and
the authors are the contributors in groups, each once and in document order, exactly if no author
stands in a group that stands in another group.
-/

set_option autoImplicit false

namespace Manuscript.Node

theorem mem_descendants_trans {m n k : Node} (outer : m ∈ n.descendants)
    (inner : k ∈ m.descendants) : k ∈ n.descendants := by
  have all := forall_mem_descendants_iff (p := (· ∈ n.descendants)).1 fun _ mem => mem
  rw [descendants_eq, mem_forestNodes_iff] at outer
  obtain ⟨c, child, inside⟩ := outer
  exact (all c child).of_mem_nodes inside k (List.mem_cons_of_mem _ inner)

/-- The nodes that satisfy `wanted` and stand below one that satisfies `group`, in document
order. -/
def within (group wanted : Node → Bool) (root : Node) : List Node :=
  ((placedIn [] root.kids).filter fun place => wanted place.1 && place.2.any group).map Prod.fst

/-- The nodes that satisfy `wanted` below each node that satisfies `group`, one such node after the
other. -/
def inEach (group wanted : Node → Bool) (root : Node) : List Node :=
  (root.findAll group).flatMap (findAll wanted)

/-- The wanted ones of nodes with those around them, each as often as there are groups around it. -/
def perGroup (group wanted : Node → Bool) (places : List (Node × List Node)) : List Node :=
  (places.filter (wanted ·.1)).flatMap fun place => List.replicate (place.2.countP group) place.1

section
variable {group wanted : Node → Bool}

/-! ### Nodes in groups -/

theorem filter_placedIn_inside {around : List Node} (inside : around.any group = true)
    (ns : List Node) :
    ((placedIn around ns).filter fun place => wanted place.1 && place.2.any group).map Prod.fst =
      (forestNodes ns).filter wanted := by
  have same : (placedIn around ns).filter (fun place => wanted place.1 && place.2.any group) =
      (placedIn around ns).filter (wanted ∘ Prod.fst) := by
    refine List.filter_congr fun place mem => ?_
    have known : place.2.any group = true := by
      obtain ⟨before, split⟩ := suffix_of_mem_placedIn mem
      rw [← split, List.any_append, inside, Bool.or_true]
    rw [known, Bool.and_true, Function.comp_apply]
  rw [same, ← List.filter_map, map_fst_placedIn]

mutual
theorem filter_placedBelow_outside : (n : Node) → {around : List Node} →
    around.any group = false → group n = false →
    ((placedBelow around n).filter fun place => wanted place.1 && place.2.any group).map Prod.fst =
      (outermost group n).flatMap (findAll wanted)
  | ⟨_, none, _, _⟩, _, _, _ => rfl
  | ⟨_, some cs, _, _⟩, _, outside, other =>
    filter_placedIn_outside cs (by rw [List.any_cons, other, outside, Bool.or_false])

theorem filter_placedIn_outside : (ns : List Node) → {around : List Node} →
    around.any group = false →
    ((placedIn around ns).filter fun place => wanted place.1 && place.2.any group).map Prod.fst =
      (outermostIn group ns).flatMap (findAll wanted)
  | [], _, _ => rfl
  | n :: ns, around, outside => by
    rw [placedIn, List.filter_cons_of_neg (by simp [outside]), List.filter_append, List.map_append,
      filter_placedIn_outside ns outside, outermostIn, List.flatMap_append]
    refine congrArg (· ++ _) ?_
    cases here : group n with
    | true =>
      have inside : (n :: around).any group = true := by rw [List.any_cons, here, Bool.true_or]
      rw [if_pos rfl, placedBelow_eq, filter_placedIn_inside inside, List.flatMap_cons,
        List.flatMap_nil, List.append_nil, findAll, descendants_eq]
    | false => exact filter_placedBelow_outside n outside here
end

theorem within_eq_flatMap (root : Node) :
    within group wanted root = (outermost group root).flatMap (findAll wanted) := by
  rw [within, filter_placedIn_outside root.kids rfl, outermost_eq]

/-! ### Nodes in each group -/

theorem inEach_eq_flatMap (root : Node) : inEach group wanted root =
    (outermost group root).flatMap fun m => m.findAll wanted ++ inEach group wanted m := by
  rw [inEach, findAll_eq_flatMap, List.flatMap_assoc]
  rfl

/-- Whether nothing wanted stands in a group that stands in another group. -/
def OnceGrouped (group wanted : Node → Bool) (root : Node) : Prop :=
  ∀ outer ∈ root.findAll group, ∀ inner ∈ outer.findAll group, inner.findAll wanted = []

theorem onceGrouped_iff {root : Node} : OnceGrouped group wanted root ↔
    ∀ outer ∈ root.findAll group, inEach group wanted outer = [] := by
  simp [OnceGrouped, inEach, List.flatMap_eq_nil_iff]

theorem inEach_eq_within {root : Node} (once : OnceGrouped group wanted root) :
    inEach group wanted root = within group wanted root := by
  rw [onceGrouped_iff] at once
  rw [inEach_eq_flatMap, within_eq_flatMap]
  refine List.flatMap_congr fun outer place => ?_
  rw [once outer (List.mem_filter.2 (of_mem_outermost place).symm), List.append_nil]

theorem onceGrouped_of_length {root : Node}
    (short : (inEach group wanted root).length = (within group wanted root).length) :
    OnceGrouped group wanted root := by
  have twice : (inEach group wanted root).Perm (within group wanted root ++
      (outermost group root).flatMap (inEach group wanted)) := by
    rw [inEach_eq_flatMap, within_eq_flatMap]
    exact (List.flatMap_append_perm _ _ _).symm
  have lengths := twice.length_eq
  rw [short, List.length_append] at lengths
  have nothing : ∀ top ∈ outermost group root, inEach group wanted top = [] :=
    List.flatMap_eq_nil_iff.1 (List.eq_nil_of_length_eq_zero (by omega))
  -- A group that is not outermost has its groups in an outermost one.
  intro outer mem inner below
  rw [findAll_eq_flatMap] at mem
  obtain ⟨top, place, mem⟩ := List.mem_flatMap.1 mem
  refine List.flatMap_eq_nil_iff.1 (nothing top place) inner ?_
  rcases List.mem_cons.1 mem with rfl | mem
  · exact below
  · rw [findAll, List.mem_filter] at mem below ⊢
    exact ⟨mem_descendants_trans mem.1 below.1, below.2⟩

/-! ### How often a node comes -/

theorem count_perGroup_cons (x n : Node) (around : List Node) (places : List (Node × List Node)) :
    (perGroup group wanted ((n, around) :: places)).count x =
      around.countP group * (if wanted n then [n] else []).count x +
        (perGroup group wanted places).count x := by
  rw [perGroup, List.filter_cons, perGroup]
  cases wanted n with
  | false => simp
  | true =>
    simp only [if_true, List.flatMap_cons, List.count_append, List.count_replicate,
      List.count_singleton]
    split <;> simp

mutual
theorem count_placedBelow (x : Node) : (n : Node) → (around : List Node) →
    (perGroup group wanted (placedBelow around n)).count x =
      (n :: around).countP group * (n.findAll wanted).count x + (inEach group wanted n).count x
  | ⟨_, none, _, _⟩, _ => by simp [placedBelow, perGroup, findAll, inEach, descendants]
  | ⟨k, some cs, v, a⟩, around => count_placedIn x cs (⟨k, some cs, v, a⟩ :: around)

theorem count_placedIn (x : Node) : (ns around : List Node) →
    (perGroup group wanted (placedIn around ns)).count x =
      around.countP group * ((forestNodes ns).filter wanted).count x +
        (((forestNodes ns).filter group).flatMap (findAll wanted)).count x
  | [], _ => by simp [placedIn, perGroup, forestNodes]
  | n :: ns, around => by
    have split : perGroup group wanted (placedBelow around n ++ placedIn around ns) =
        perGroup group wanted (placedBelow around n) ++
          perGroup group wanted (placedIn around ns) := by
      simp [perGroup]
    have own : (if group n then [n] else []).flatMap (findAll wanted) =
        if group n then n.findAll wanted else [] := by
      cases group n <;> simp
    have nodes (p : Node → Bool) : (forestNodes (n :: ns)).filter p =
        (if p n then [n] else []) ++ (n.findAll p ++ (forestNodes ns).filter p) := by
      rw [forestNodes, List.filter_cons, List.filter_append]
      cases p n <;> rfl
    rw [placedIn, count_perGroup_cons, split, List.count_append, count_placedBelow x n around,
      count_placedIn x ns around, nodes, nodes, List.flatMap_append, List.flatMap_append, own,
      List.countP_cons, ← inEach]
    simp only [List.count_append, Nat.mul_add, Nat.add_mul]
    cases group n <;> simp <;> omega
end

/-- What is found group by group are the wanted nodes, each as often as there are groups around
it. -/
theorem perm_inEach (root : Node) :
    (inEach group wanted root).Perm (perGroup group wanted (placedIn [] root.kids)) := by
  rw [List.perm_iff_count]
  intro x
  rw [count_placedIn, List.countP_nil, Nat.zero_mul, Nat.zero_add, inEach, findAll,
    descendants_eq]

end

end Manuscript.Node

namespace Manuscript.Article

open Manuscript.Node

/-! ### Authors -/

def isGroup (n : Node) : Bool := n.is "contrib-group"

/-- Whether a node is a contributor that counts as an author. -/
def isAuthorContrib (n : Node) : Bool := n.is "contrib" && isAuthor n

theorem filter_contributors (front : Node) :
    (contributors front).filter isAuthor = inEach isGroup isAuthorContrib front := by
  rw [contributors, List.filter_flatMap, inEach]
  refine List.flatMap_congr fun group _ => ?_
  rw [findKinds, findAll, List.filter_filter, findAll]
  exact List.filter_congr fun n _ => Bool.and_comm _ _

theorem authors_frontmatter {a : Article} {front : Node} (found : a.front? = some front) :
    a.frontmatter.authors = (inEach isGroup isAuthorContrib front).map author := by
  rw [frontmatter, found, ← filter_contributors]

theorem onceGrouped_front_iff {front : Node} : OnceGrouped isGroup isAuthorContrib front ↔
    ∀ outer ∈ front.findKinds "contrib-group", ∀ inner ∈ outer.findKinds "contrib-group",
      ∀ c ∈ inner.findKinds "contrib", isAuthor c = false := by
  refine forall₂_congr fun outer _ => forall₂_congr fun inner _ => ?_
  simp [findAll, findKinds, List.filter_eq_nil_iff, isAuthorContrib]

/-- The authors of an article are the contributors in groups of its front that are authors, each
once and in document order, exactly if none of them stands in a group that stands in another group.
For every article an author is listed as often as there are groups around the contributor. -/
theorem authors_listed_once_iff {a : Article} {front : Node} (found : a.front? = some front) :
    (a.frontmatter.authors = (within isGroup isAuthorContrib front).map author ↔
      ∀ outer ∈ front.findKinds "contrib-group", ∀ inner ∈ outer.findKinds "contrib-group",
        ∀ c ∈ inner.findKinds "contrib", isAuthor c = false) ∧
    a.frontmatter.authors.Perm
      ((perGroup isGroup isAuthorContrib (placedIn [] front.kids)).map author) := by
  rw [authors_frontmatter found, ← onceGrouped_front_iff]
  refine ⟨⟨fun same => ?_, fun once => ?_⟩, (perm_inEach front).map author⟩
  · have lengths := congrArg List.length same
    rw [List.length_map, List.length_map] at lengths
    exact onceGrouped_of_length lengths
  · rw [inEach_eq_within once]

/-- The members of a group that is an author itself. -/
def collaboration : Node :=
  let contrib (surname : String) (parts : List Node) : Node :=
    .branch "contrib" (.branch "surname" [.text surname] :: parts)
  .branch "front" [.branch "contrib-group" [
    contrib "Lab" [.branch "collab" [.branch "contrib-group" [contrib "Curie" []]]]]]

example : ((within isGroup isAuthorContrib collaboration).map author).map (·.name) =
      ["Lab", "Curie"] ∧
    (frontmatter (.ofTree (.branch "article" [collaboration]))).authors.map (·.name) =
      ["Lab", "Curie", "Curie"] := by decide +kernel

end Manuscript.Article
