import Manuscript.Proofs.Reference.Completeness
import Manuscript.Proofs.Tree.Everywhere

/-!
The keys of a registry, for an article that states no identifier twice. Only what stands in the
first reference list of the back matter is registered, so an entry is known exactly if it stands
there.
-/

set_option autoImplicit false

namespace Manuscript

open Manuscript.Node

namespace Node

def identifiersOf (ns : List Node) : List String := ns.filterMap (·.attrText? "id")

theorem identifiersOf_append (xs ys : List Node) :
    identifiersOf (xs ++ ys) = identifiersOf xs ++ identifiersOf ys :=
  List.filterMap_append ..

theorem identifiersOf_cons (n : Node) (ns : List Node) :
    identifiersOf (n :: ns) = (n.attrText? "id").toList ++ identifiersOf ns := by
  rw [identifiersOf, List.filterMap_cons]
  cases n.attrText? "id" <;> rfl

theorem nodes_sublist_forestNodes {n : Node} {ns : List Node} (mem : n ∈ ns) :
    n.nodes.Sublist (forestNodes ns) := by
  induction ns with
  | nil => cases mem
  | cons m ns ih =>
    rw [forestNodes, ← List.cons_append]
    rcases List.mem_cons.1 mem with rfl | mem
    · exact List.sublist_append_left _ _
    · exact (ih mem).trans (List.sublist_append_right _ _)

theorem nodes_sublist {m n : Node} (mem : m ∈ n.nodes) : m.nodes.Sublist n.nodes := by
  induction n using induction_on_kids with
  | node n ih =>
    rcases mem_nodes_iff.1 mem with rfl | ⟨c, child, mem⟩
    · exact .refl _
    · have inside := (ih c child mem).trans (nodes_sublist_forestNodes child)
      rw [← descendants_eq] at inside
      exact inside.cons n

theorem nodes_sublist_of_find? {m n : Node} {wanted : Node → Bool}
    (found : n.find? wanted = some m) : m.nodes.Sublist n.nodes :=
  nodes_sublist (List.mem_cons_of_mem n (List.mem_of_find?_eq_some found))

theorem eq_of_identifier {ns : List Node} (distinct : (identifiersOf ns).Nodup) {m n : Node}
    (first : m ∈ ns) (second : n ∈ ns) {name : String} (identifier : m.attrText? "id" = some name)
    (same : n.attrText? "id" = some name) : m = n := by
  induction ns with
  | nil => cases first
  | cons head ns ih =>
    have stated {k : Node} (mem : k ∈ ns) (named : k.attrText? "id" = some name) :
        name ∈ identifiersOf ns :=
      List.mem_filterMap.2 ⟨k, mem, named⟩
    rw [identifiersOf_cons] at distinct
    obtain ⟨-, rest, apart⟩ := List.nodup_append.1 distinct
    rcases List.mem_cons.1 first with rfl | inFirst <;>
      rcases List.mem_cons.1 second with rfl | inSecond
    · rfl
    · exact absurd rfl (apart name (by rw [identifier]; exact List.mem_singleton_self name) name
        (stated inSecond same))
    · exact absurd rfl (apart name (by rw [same]; exact List.mem_singleton_self name) name
        (stated inFirst identifier))
    · exact ih rest inFirst inSecond

end Node

namespace Article

def DistinctIds (a : Article) : Prop := (identifiersOf a.tree.nodes).Nodup

theorem nodes_refList? {a : Article} {list : Node} (found : a.refList? = some list) :
    list.nodes.Sublist a.tree.nodes := by
  obtain ⟨back, outer, inner⟩ := Option.bind_eq_some_iff.1 found
  exact (nodes_sublist_of_find? inner).trans (nodes_sublist_of_find? outer)

theorem mem_references_iff {a : Article} {ref : Node} : ref ∈ a.references ↔
    ∃ list, a.refList? = some list ∧ ref ∈ list.descendants ∧ ref.is "ref" = true := by
  unfold references
  cases a.refList? with
  | none => simp
  | some list => simp [findKinds, findAll]

theorem nodes_of_mem_references {a : Article} {ref : Node} (mem : ref ∈ a.references) :
    ref.nodes.Sublist a.tree.nodes := by
  obtain ⟨list, found, inside, -⟩ := mem_references_iff.1 mem
  exact (nodes_sublist (List.mem_cons_of_mem list inside)).trans (nodes_refList? found)

end Article

namespace Reference.Registry

section
variable {sources : Sources}

theorem find?_enterAll_eq_none_iff {lookup : Lookup} {entries : List (String × List Resolution)}
    {name : String} : (enterAll lookup entries).find? name = none ↔
      lookup.find? name = none ∧ name ∉ entries.map (·.1) := by
  constructor
  · intro unknown
    have absent : name ∉ entries.map (·.1) := by
      intro mem
      have known : ((enterAll lookup entries).find? name).isSome = true :=
        isSome_find?_enterAll mem
      rw [unknown] at known
      cases known
    exact ⟨by rwa [find?_enterAll_of_not_mem lookup absent] at unknown, absent⟩
  · rintro ⟨unknown, absent⟩
    rw [find?_enterAll_of_not_mem lookup absent, unknown]

theorem exists_grown_of_registered {refs : List Node} {r : Registry}
    (registered : ofReferences sources refs = .ok r) :
    (∀ ref ∈ refs, ∃ name, ref.attrText? "id" = some name) ∧ ∃ next, r = next.inheritAll ∧
      addAll sources .empty 0 refs = .ok next ∧
      Grown (entriesFrom sources 0 refs) (refs.flatMap kids) refs.length .empty next := by
  unfold ofReferences at registered
  cases added : addAll sources .empty 0 refs with
  | error fault => rw [added] at registered; cases registered
  | ok next =>
    rw [added] at registered
    cases registered
    have named := named_of_addAll added
    have names : ∀ ref ∈ refs, ∃ name, ref.attrText? "id" = some name :=
      fun ref mem => (named ref mem).2
    obtain ⟨after, again, grown⟩ := exists_addAll sources .empty 0
      (fun ref mem => (named ref mem).1) names
    rw [added] at again
    cases again
    exact ⟨names, next, rfl, rfl, grown⟩

/-- The keys of a registry are the identifiers of the entries and of their resolved parts. -/
theorem isSome_find?_iff {refs : List Node} {r : Registry}
    (registered : ofReferences sources refs = .ok r) {name : String} :
    (r.lookup.find? name).isSome = true ↔ name ∈ identifiers refs := by
  obtain ⟨names, next, rfl, -, grown⟩ := exists_grown_of_registered registered
  rw [← keys_entriesFrom sources 0 names, isSome_find?_inheritAll, grown.lookup]
  constructor
  · intro known
    refine Decidable.byContradiction fun absent => ?_
    rw [find?_enterAll_eq_none_iff.2 ⟨rfl, absent⟩] at known
    cases known
  · exact fun mem => isSome_find?_enterAll mem

/-! ### Distinct identifiers -/

theorem identifiers_cons (ref : Node) (refs : List Node) : identifiers (ref :: refs) =
    identifiersOf (ref.kids.filter isResolved) ++ (ref.attrText? "id").toList ++
      identifiers refs :=
  List.flatMap_cons

theorem identifiers_append (before after : List Node) :
    identifiers (before ++ after) = identifiers before ++ identifiers after :=
  List.flatMap_append

theorem isResolved_of_is_ref {part : Node} (isRef : part.is "ref" = true) :
    isResolved part = false := by
  rw [is, beq_iff_eq] at isRef
  rw [isResolved, isCitation, isOneOf, is, isRef]
  rfl

/-- Entries and their parts state a name at most as often as all nodes do. -/
theorem count_identifiers_le (name : String) (n : Node) :
    (identifiers (n.findKinds "ref")).count name +
        (identifiersOf (n.kids.filter isResolved)).count name ≤
      (identifiersOf n.descendants).count name := by
  -- The second summand is what an entry `n` adds, of the parts that are no entries themselves.
  induction n using induction_on_kids with
  | node n ih =>
    rw [findKinds, findAll, descendants_eq]
    generalize n.kids = ns at ih
    induction ns with
    | nil => exact Nat.le_refl _
    | cons c ns inner =>
      obtain ⟨here, others⟩ := List.forall_mem_cons.1 ih
      have rest := inner others
      rw [findKinds, findAll] at here
      simp only [forestNodes, List.filter_cons, List.filter_append, identifiersOf_cons,
        identifiersOf_append, List.count_append]
      cases isRef : c.is "ref" with
      | true =>
        rw [if_pos rfl, if_neg (by rw [isResolved_of_is_ref isRef]; exact Bool.false_ne_true),
          identifiers_cons, identifiers_append]
        simp only [List.count_append]
        omega
      | false =>
        rw [if_neg Bool.false_ne_true, identifiers_append, List.count_append]
        split
        · rw [identifiersOf_cons, List.count_append]
          omega
        · omega

theorem nodup_identifiers {a : Article} (distinct : a.DistinctIds) :
    (identifiers a.references).Nodup := by
  rw [List.nodup_iff_count]
  intro name
  unfold Article.references
  cases found : a.refList? with
  | none => exact Nat.zero_le 1
  | some list =>
    have once := List.nodup_iff_count.1 distinct name
    have below := count_identifiers_le name list
    have inside : list.descendants.Sublist a.tree.nodes :=
      (List.sublist_cons_self _ _).trans (Article.nodes_refList? found)
    have within : (identifiersOf list.descendants).count name ≤
        (identifiersOf a.tree.nodes).count name :=
      (inside.filterMap _).count_le name
    simp only
    omega

theorem mem_identifiers_iff {refs : List Node} {name : String} : name ∈ identifiers refs ↔
    ∃ ref ∈ refs, ref.attrText? "id" = some name ∨
      ∃ part ∈ ref.kids, isResolved part = true ∧ part.attrText? "id" = some name := by
  simp only [identifiers, List.mem_flatMap, List.mem_append, List.mem_filterMap, List.mem_filter,
    Option.mem_toList, and_assoc, or_comm]

/-- Without repeated identifiers, an entry of the back matter is known exactly if it stands in the
reference list that is registered. -/
theorem known_iff_mem_references {a : Article} {r : Registry} {back ref : Node} {name : String}
    (registered : ofReferences sources a.references = .ok r) (distinct : a.DistinctIds)
    (found : a.back? = some back) (mem : ref ∈ back.findKinds "ref")
    (identifier : ref.attrText? "id" = some name) :
    (r.lookup.find? name).isSome = true ↔ ref ∈ a.references := by
  rw [isSome_find?_iff registered, mem_identifiers_iff]
  obtain ⟨inside, isRef⟩ := List.mem_filter.1 mem
  have place : ref ∈ a.tree.nodes :=
    (nodes_sublist_of_find? found).subset (List.mem_cons_of_mem back inside)
  constructor
  · rintro ⟨other, listed, same | ⟨part, child, isOne, same⟩⟩
    · have there := (Article.nodes_of_mem_references listed).subset List.mem_cons_self
      rwa [eq_of_identifier distinct place there identifier same]
    · -- A part that is resolved is no entry, so it is not the one with this identifier.
      have there := (Article.nodes_of_mem_references listed).subset
        (mem_nodes_iff.2 (.inr ⟨part, child, List.mem_cons_self⟩))
      rw [eq_of_identifier distinct place there identifier same] at isRef
      rw [isResolved_of_is_ref isRef] at isOne
      cases isOne
  · exact fun listed => ⟨ref, listed, .inl identifier⟩

/-- An entry of a second list is not known. -/
example :
    let list (id : String) : Node := branch "ref-list" [(branch "ref" [branch "mixed-citation"
      [.text "A"]]).setAttr "id" (.string id)]
    let a := Article.ofTree (branch "article" [branch "back" [list "r1", list "r2"]])
    (ofReferences {} a.references).toOption.map (·.lookup.keys) = some ["r1"] := by
  decide +kernel

end

end Reference.Registry

end Manuscript
