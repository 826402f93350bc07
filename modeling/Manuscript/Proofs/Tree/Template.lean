import Manuscript.Tree.Rewrite

/-!
Trees with gaps. A template is a tree in which some subtrees are left out, with a mark in the place
of each; filling puts a list of nodes into every gap and leaves the rest as it is. Cutting a tree
where a test gives a mark, but not inside what is cut out, makes a template that the subtrees fill
again.
-/

set_option autoImplicit false

namespace Manuscript.Node

inductive Template (α : Type) where
  | gap (mark : α)
  | node (kind : String) (children : Option (List (Template α))) (value : Option String)
      (attrs : Attrs)

namespace Template

variable {α : Type}

mutual
/-- What a template makes if every gap gets the nodes that `f` has for its mark. -/
def fill (f : α → List Node) : Template α → List Node
  | gap mark => f mark
  | node k none v a => [⟨k, none, v, a⟩]
  | node k (some ts) v a => [⟨k, some (fillAll f ts), v, a⟩]

def fillAll (f : α → List Node) : List (Template α) → List Node
  | [] => []
  | t :: ts => t.fill f ++ fillAll f ts
end

mutual
def gaps : Template α → List α
  | gap mark => [mark]
  | node _ none _ _ => []
  | node _ (some ts) _ _ => gapsIn ts

def gapsIn : List (Template α) → List α
  | [] => []
  | t :: ts => t.gaps ++ gapsIn ts
end

mutual
/-- The nodes that the template has itself, in document order, each without what is below it. -/
def own : Template α → List Node
  | gap _ => []
  | node k none v a => [⟨k, none, v, a⟩]
  | node k (some ts) v a => ⟨k, none, v, a⟩ :: ownIn ts

def ownIn : List (Template α) → List Node
  | [] => []
  | t :: ts => t.own ++ ownIn ts
end

mutual
/-- The tree with a gap wherever the test gives a mark, as near to the root as it does. -/
def cut (mark? : Node → Option α) : Node → Template α
  | ⟨k, none, v, a⟩ => (mark? ⟨k, none, v, a⟩).elim (node k none v a) gap
  | ⟨k, some cs, v, a⟩ =>
    (mark? ⟨k, some cs, v, a⟩).elim (node k (some (cutAll mark? cs)) v a) gap

def cutAll (mark? : Node → Option α) : List Node → List (Template α)
  | [] => []
  | n :: ns => cut mark? n :: cutAll mark? ns
end

mutual
theorem fill_congr {f g : α → List Node} : (t : Template α) → (∀ mark ∈ t.gaps, f mark = g mark) →
    t.fill f = t.fill g
  | gap mark, same => same mark (List.mem_singleton_self mark)
  | node _ none _ _, _ => rfl
  | node _ (some ts) _ _, same => by rw [fill, fill, fillAll_congr ts same]

/-- What a template makes hangs on the marks of its gaps alone. -/
theorem fillAll_congr {f g : α → List Node} : (ts : List (Template α)) →
    (∀ mark ∈ gapsIn ts, f mark = g mark) → fillAll f ts = fillAll g ts
  | [], _ => rfl
  | t :: ts, same => by
    obtain ⟨here, others⟩ := List.forall_mem_append.1 same
    rw [fillAll, fillAll, fill_congr t here, fillAll_congr ts others]
end

section
variable (mark? : Node → Option α)

theorem cut_of_some {mark? : Node → Option α} {n : Node} {mark : α} (found : mark? n = some mark) :
    cut mark? n = gap mark := by
  obtain ⟨k, children, v, a⟩ := n
  cases children <;> rw [cut, found] <;> rfl

theorem cut_of_none {mark? : Node → Option α} {n : Node} (found : mark? n = none) :
    cut mark? n = node n.kind (n.children.map (cutAll mark?)) n.value n.attrs := by
  obtain ⟨k, children, v, a⟩ := n
  cases children <;> rw [cut, found] <;> rfl

mutual
theorem fill_cut {f : α → List Node} (fits : ∀ n mark, mark? n = some mark → f mark = [n]) :
    (n : Node) → (cut mark? n).fill f = [n]
  | ⟨k, none, v, a⟩ => by
    cases found : mark? ⟨k, none, v, a⟩ with
    | some mark => rw [cut_of_some found, fill, fits _ _ found]
    | none => rw [cut_of_none found]; rfl
  | ⟨k, some cs, v, a⟩ => by
    cases found : mark? ⟨k, some cs, v, a⟩ with
    | some mark => rw [cut_of_some found, fill, fits _ _ found]
    | none =>
      rw [cut_of_none found, Option.map_some, fill, fillAll_cutAll fits cs]

theorem fillAll_cutAll {f : α → List Node} (fits : ∀ n mark, mark? n = some mark → f mark = [n]) :
    (ns : List Node) → fillAll f (cutAll mark? ns) = ns
  | [] => rfl
  | n :: ns => by
    rw [cutAll, fillAll, fill_cut fits n, fillAll_cutAll fits ns, List.singleton_append]
end

mutual
theorem gaps_cut : (n : Node) → (cut mark? n).gaps.map some =
    (if (mark? n).isSome then [n] else outermost (fun m => (mark? m).isSome) n).map mark?
  | ⟨k, none, v, a⟩ => by
    cases found : mark? ⟨k, none, v, a⟩ with
    | some mark => rw [cut_of_some found]; simp [gaps, found]
    | none => rw [cut_of_none found]; rfl
  | ⟨k, some cs, v, a⟩ => by
    cases found : mark? ⟨k, some cs, v, a⟩ with
    | some mark => rw [cut_of_some found]; simp [gaps, found]
    | none => rw [cut_of_none found, Option.map_some, gaps, gapsIn_cutAll cs]; rfl

/-- The gaps are where the outermost nodes were for which there is a mark. -/
theorem gapsIn_cutAll : (ns : List Node) → (gapsIn (cutAll mark? ns)).map some =
    (outermostIn (fun m => (mark? m).isSome) ns).map mark?
  | [] => rfl
  | n :: ns => by
    rw [cutAll, gapsIn, List.map_append, gaps_cut n, gapsIn_cutAll ns, outermostIn,
      List.map_append]
end

theorem exists_of_mem_gapsIn_cutAll {mark? : Node → Option α} {ns : List Node} {mark : α}
    (mem : mark ∈ gapsIn (cutAll mark? ns)) : ∃ n, mark? n = some mark := by
  have marked : some mark ∈ (gapsIn (cutAll mark? ns)).map some := List.mem_map_of_mem mem
  rw [gapsIn_cutAll] at marked
  obtain ⟨n, _, found⟩ := List.mem_map.1 marked
  exact ⟨n, found⟩

mutual
theorem forall_mem_own_cut {p : Node → Prop}
    (unmarked : ∀ n, mark? n = none → p { n with children := none }) :
    (n : Node) → ∀ m ∈ (cut mark? n).own, p m
  | ⟨k, none, v, a⟩ => by
    cases found : mark? ⟨k, none, v, a⟩ with
    | some mark => rw [cut_of_some found]; exact List.forall_mem_nil _
    | none =>
      rw [cut_of_none found]
      exact List.forall_mem_singleton.2 (unmarked _ found)
  | ⟨k, some cs, v, a⟩ => by
    cases found : mark? ⟨k, some cs, v, a⟩ with
    | some mark => rw [cut_of_some found]; exact List.forall_mem_nil _
    | none =>
      rw [cut_of_none found]
      exact List.forall_mem_cons.2 ⟨unmarked _ found, forall_mem_ownIn_cutAll unmarked cs⟩

theorem forall_mem_ownIn_cutAll {p : Node → Prop}
    (unmarked : ∀ n, mark? n = none → p { n with children := none }) :
    (ns : List Node) → ∀ m ∈ ownIn (cutAll mark? ns), p m
  | [] => List.forall_mem_nil _
  | n :: ns => List.forall_mem_append.2
      ⟨forall_mem_own_cut unmarked n, forall_mem_ownIn_cutAll unmarked ns⟩
end

end

end Template

end Manuscript.Node
