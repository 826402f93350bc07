import Manuscript.Proofs.Citation.Siblings

/-!
Citations in a row. Citations that touch, or have only a separator between them, end up in one group
with the kind of the first, however many they are and wherever the separators stand: the rules that
merge groups go through a row once each, and merging is associative.
-/

set_option autoImplicit false

namespace Manuscript.Myst.Citation

open Manuscript.Node

/-! ### Rows -/

/-- Whether a node is a text that only separates citations. -/
def Separates (t : Node) : Prop :=
  t.kind = "text" ∧ InBlanks SeparatorCore (t.value.getD "").toList

/-- Whether siblings are the nodes of a list, each behind a separator or, if that is allowed,
without one. -/
inductive Row (touching : Prop) : List Node → List Node → Prop
  | nil : Row touching [] []
  | next {n : Node} {nodes siblings : List Node} (allowed : touching)
      (rest : Row touching nodes siblings) : Row touching (n :: nodes) (n :: siblings)
  | behind {t n : Node} {nodes siblings : List Node} (separates : Separates t)
      (rest : Row touching nodes siblings) : Row touching (n :: nodes) (t :: n :: siblings)

theorem Separates.any_textOf? {t : Node} (separates : Separates t) :
    (textOf? t).any isSeparator = true :=
  any_textOf?_iff.2 ⟨separates.1, isSeparator_iff.2 separates.2⟩

theorem Separates.remains {t t' : Node} (separates : Separates t) (remains : Remains t t') :
    Separates t' := by
  rw [Separates, remains.kind, remains.value]
  exact separates

theorem Row.map {touching : Prop} {f : Node → Node} (keeps : ∀ t, Separates t → Separates (f t))
    {nodes siblings : List Node} (row : Row touching nodes siblings) :
    Row touching (nodes.map f) (siblings.map f) := by
  induction row with
  | nil => exact .nil
  | next allowed _ ih => exact .next allowed ih
  | behind separates _ ih => exact .behind (keeps _ separates) ih

/-! ### Merging -/

theorem attr?_mergeGroups (g h : Node) : (mergeGroups g h).attr? "kind" = g.attr? "kind" := by
  rw [attr?, mergeGroups, Dict.find?_insert?, if_pos rfl, Dict.find?_erase, if_pos rfl]
  simp

theorem mergeGroups_group (kind kind' : Option Json) (cites cites' : List Node) :
    mergeGroups (group kind cites) (group kind' cites') = group kind (cites ++ cites') := by
  have erased : (Dict.empty.insert? "kind" kind').erase "kind" = Dict.empty :=
    Dict.ext_find? fun key => by
      rw [Dict.find?_erase, Dict.find?_insert?]
      split <;> rfl
  have attrs : ((Dict.empty.insert? "kind" kind').erase "kind").insert? "kind"
      ((group kind cites).attr? "kind") = Dict.empty.insert? "kind" kind := by
    rw [attr?_group, erased]
  exact (Node.mk.injEq ..).mpr ⟨rfl, rfl, rfl, attrs⟩

theorem mergeGroups_assoc (g h k : Node) :
    mergeGroups (mergeGroups g h) k = mergeGroups g (mergeGroups h k) := by
  have attrs : (k.attrs.erase "kind").insert? "kind" ((mergeGroups g h).attr? "kind") =
      ((mergeGroups h k).attrs.erase "kind").insert? "kind" (g.attr? "kind") := by
    rw [attr?_mergeGroups, erase_kind_mergeGroups]
  have children := List.append_assoc g.kids h.kids k.kids
  exact (Node.mk.injEq ..).mpr ⟨rfl, congrArg some children, rfl, attrs⟩

theorem Cluster.mergeGroups {g h : Node} (first : Cluster g) (second : Cluster h) :
    Cluster (mergeGroups g h) where
  isGroup := second.isGroup
  cites := List.forall_mem_append.2 ⟨first.cites, second.cites⟩
  bare := List.forall_mem_append.2 ⟨first.bare, second.bare⟩

def mergeAll (g : Node) (gs : List Node) : Node := gs.foldl mergeGroups g

theorem mergeAll_mergeGroups (g h : Node) (gs : List Node) :
    mergeAll (mergeGroups g h) gs = mergeGroups g (mergeAll h gs) := by
  induction gs generalizing h with
  | nil => rfl
  | cons k gs ih =>
    show mergeAll (mergeGroups (mergeGroups g h) k) gs = _
    rw [mergeGroups_assoc, ih]
    rfl

theorem cluster_mergeAll {g : Node} {gs : List Node} (all : ∀ n ∈ g :: gs, Cluster n) :
    Cluster (mergeAll g gs) := by
  induction gs generalizing g with
  | nil => exact all g List.mem_cons_self
  | cons h gs ih =>
    simp only [List.forall_mem_cons] at all
    exact ih (List.forall_mem_cons.2 ⟨all.1.mergeGroups all.2.1, all.2.2⟩)

theorem mergeAll_inGroup (kind : Option Json) (cites cs : List Node) :
    mergeAll (group kind cites) (cs.map inGroup) =
      group kind (cites ++ cs.map fun c => { c with children := none }) := by
  induction cs generalizing cites with
  | nil => simp [mergeAll]
  | cons c cs ih =>
    show mergeAll (mergeGroups (group kind cites) (inGroup c)) (cs.map inGroup) = _
    rw [inGroup, mergeGroups_group, ih, List.append_assoc]
    rfl

/-! ### The two scans that merge -/

/-- Groups that touch are merged, so that from then on there is a separator between any two. -/
theorem scan_mergeTouching {g : Node} {gs siblings : List Node} (row : Row True gs siblings)
    (all : ∀ n ∈ g :: gs, Cluster n) : ∃ h hs siblings',
      (mergeTouching.scan (g :: siblings)).1 = h :: siblings' ∧ Row False hs siblings' ∧
        (∀ n ∈ h :: hs, Cluster n) ∧ mergeAll h hs = mergeAll g gs := by
  -- What is merged may meet a further group, so the group in front is any one.
  induction row generalizing g with
  | nil =>
    have alone : mergeTouching.next? [g] = none := rfl
    rw [mergeTouching.scan_of_none alone, mergeTouching.scan_nil]
    exact ⟨g, [], [], rfl, .nil, all, rfl⟩
  | @next n nodes siblings _ _ ih =>
    simp only [List.forall_mem_cons] at all
    obtain ⟨first, second, rest⟩ := all
    have found : mergeTouching.next? (g :: n :: siblings) =
        some ([], mergeGroups g n :: siblings) :=
      mergeFront?_eq_some_iff.2 ⟨g, n, siblings, rfl, first.isGroup, second.isGroup, rfl, rfl⟩
    rw [mergeTouching.scan_of_some found]
    exact ih (List.forall_mem_cons.2 ⟨first.mergeGroups second, rest⟩)
  | @behind t n nodes siblings separates _ ih =>
    obtain ⟨first, rest⟩ := List.forall_mem_cons.1 all
    have text : isGroup t = false := by
      rw [isGroup, is, separates.1]
      rfl
    have front : mergeTouching.next? (g :: t :: n :: siblings) = none := by
      simp [mergeTouching, mergeFront?, text]
    have back : mergeTouching.next? (t :: n :: siblings) = none := by
      simp [mergeTouching, mergeFront?, text]
    obtain ⟨h, hs, siblings', same, row, clusters, merged⟩ := ih rest
    rw [mergeTouching.scan_of_none front, mergeTouching.scan_of_none back, same]
    refine ⟨g, h :: hs, t :: h :: siblings', rfl, .behind separates row,
      List.forall_mem_cons.2 ⟨first, clusters⟩, ?_⟩
    -- Here the order of merging differs: the groups behind the separator are merged first.
    show mergeAll (mergeGroups g h) hs = mergeAll (mergeGroups g n) nodes
    rw [mergeAll_mergeGroups, mergeAll_mergeGroups, merged]

theorem scan_mergeSeparated {g : Node} {gs siblings : List Node} (row : Row False gs siblings)
    (all : ∀ n ∈ g :: gs, Cluster n) :
    (mergeSeparated.scan (g :: siblings)).1 = [mergeAll g gs] := by
  induction row generalizing g with
  | nil =>
    have alone : mergeSeparated.next? [g] = none := rfl
    rw [mergeSeparated.scan_of_none alone, mergeSeparated.scan_nil]
    rfl
  | next allowed => exact allowed.elim
  | @behind t n nodes siblings separates _ ih =>
    simp only [List.forall_mem_cons] at all
    obtain ⟨first, second, rest⟩ := all
    have found : mergeSeparated.next? (g :: t :: n :: siblings) =
        some ([], mergeGroups g n :: siblings) :=
      joinFront?_eq_some_iff.2 ⟨g, t, n, siblings, rfl, first.isGroup, separates.any_textOf?,
        second.isGroup, rfl, rfl⟩
    rw [mergeSeparated.scan_of_some found]
    exact ih (List.forall_mem_cons.2 ⟨first.mergeGroups second, rest⟩)

/-! ### Grouping a row -/

section
variable {order : List String}

/-- A rule goes on with each node of a row of groups, which changes at most the separators. -/
theorem Row.run {touching : Prop} {rule : Edit} (mem : rule ∈ rules order)
    {gs siblings : List Node} (row : Row touching gs siblings) (all : ∀ n ∈ gs, Cluster n) :
    Row touching gs (siblings.map fun n => (rule.run n).1) := by
  have kept : (gs.map fun n => (rule.run n).1) = gs.map id :=
    List.map_congr_left fun n inside => run_cluster mem (all n inside)
  rw [← List.map_id gs, ← kept]
  exact row.map fun t separates => separates.remains (remains_run mem t)

/-- Before groups are merged, each citation of a row has got one of its own. -/
theorem exists_row_of_groups {first : Node} {rest siblings : List Node}
    (row : Row True rest siblings) (cites : ∀ c ∈ first :: rest, isCite c = true) :
    ∃ siblings', along flattenGroups (alongAll [bareCites, groupCites] (first :: siblings)) =
      inGroup first :: siblings' ∧ Row True (rest.map inGroup) siblings' := by
  obtain ⟨cite, others⟩ := List.forall_mem_cons.1 cites
  have mem : flattenGroups ∈ rules [] := by simp [rules]
  have gathered : Row True (rest.map inGroup) (siblings.map gathered) := by
    have same : rest.map gathered = rest.map inGroup :=
      List.map_congr_left fun c inside => gathered_of_isCite (others c inside)
    rw [← same]
    exact row.map fun t separates =>
      separates.remains (remains_gathered (isCite_of_text separates.1))
  have clusters : ∀ n ∈ rest.map inGroup, Cluster n :=
    List.forall_mem_map.2 fun c inside => cluster_inGroup (others c inside)
  have scans : flattenGroups.onKids = unwrapGroup.onKids (· == "citeGroup") := rfl
  refine ⟨_, ?_, gathered.run mem clusters⟩
  rw [alongAll_gathered, along_of_step scans, if_neg (by decide), List.map_cons, List.map_cons,
    gathered_of_isCite cite, run_cluster mem (cluster_inGroup cite)]

theorem along_joinGroups {g : Node} {gs siblings : List Node} (row : Row True gs siblings)
    (all : ∀ n ∈ g :: gs, Cluster n) : ∃ h hs siblings',
      along joinGroups (g :: siblings) = h :: siblings' ∧ Row False hs siblings' ∧
        (∀ n ∈ h :: hs, Cluster n) ∧ mergeAll h hs = mergeAll g gs := by
  have mem : joinGroups ∈ rules [] := by simp [rules]
  have scans : joinGroups.onKids = mergeTouching.onKids fun _ => true := rfl
  obtain ⟨h, hs, siblings', same, row, clusters, merged⟩ := scan_mergeTouching row all
  obtain ⟨first, rest⟩ := List.forall_mem_cons.1 clusters
  refine ⟨h, hs, _, ?_, row.run mem rest, clusters, merged⟩
  rw [along_of_step scans, if_pos rfl, same, List.map_cons, run_cluster mem first]

theorem along_dropSeparators {g : Node} {gs siblings : List Node} (row : Row False gs siblings)
    (all : ∀ n ∈ g :: gs, Cluster n) :
    along dropSeparators (g :: siblings) = [mergeAll g gs] := by
  have mem : dropSeparators ∈ rules [] := by simp [rules]
  have scans : dropSeparators.onKids = mergeSeparated.onKids fun _ => true := rfl
  rw [along_of_step scans, if_pos rfl, scan_mergeSeparated row all, List.map_singleton,
    run_cluster mem (cluster_mergeAll all)]

theorem grouped_row {first : Node} {rest siblings : List Node} (row : Row True rest siblings)
    (cites : ∀ c ∈ first :: rest, isCite c = true) :
    grouped order (first :: siblings) = [group (first.attr? "kind")
      ((first :: rest).map fun c => { c with children := none })] := by
  obtain ⟨siblings₁, single, row₁⟩ := exists_row_of_groups row cites
  have clusters : ∀ n ∈ (first :: rest).map inGroup, Cluster n :=
    List.forall_mem_map.2 fun c inside => cluster_inGroup (cites c inside)
  obtain ⟨g, gs, siblings₂, joined, row₂, clusters', merged⟩ := along_joinGroups row₁ clusters
  have whole : mergeAll g gs = group (first.attr? "kind")
      ((first :: rest).map fun c => { c with children := none }) :=
    merged.trans (mergeAll_inGroup _ _ rest)
  have settled : ∀ m ∈ (branch "root" [mergeAll g gs]).nodes, Settled order m :=
    settled_of_only uninvolved_root rfl (cluster_mergeAll clusters')
  rw [← whole]
  refine grouped_of_pass ?_ settled
  let late := [expandRanges order, dropBrackets, lowerGroups, spaceGroups]
  have known : ∀ rule ∈ late, rule ∈ rules order := fun rule mem =>
    List.mem_append_right [bareCites, groupCites, flattenGroups, joinGroups, dropSeparators] mem
  show alongAll late (along dropSeparators (along joinGroups (along flattenGroups
    (alongAll [bareCites, groupCites] (first :: siblings))))) = _
  rw [single, joined, along_dropSeparators row₂ clusters', alongAll_eq_self known settled]

/-- The children of a paragraph that are citations, each next to the one before or behind a text
that only separates the two, become one group of these citations with the kind of the first. -/
theorem row_of_citations_grouped (order : List String) {way : Way}
    (above : ∀ c ∈ way, Uninvolved c.kind) {p first : Node} {rest siblings : List Node}
    (other : Uninvolved p.kind) (children : p.children = some (first :: siblings))
    (cites : ∀ c ∈ first :: rest, isCite c = true) (row : Row True rest siblings) :
    (groupCitations order (fill way p)).1 = fill (groupedAside order way)
      (p.withKids [group (first.attr? "kind")
        ((first :: rest).map fun c => { c with children := none })]) := by
  rw [groupCitations_fill above other, mapChildren, children, Option.map_some,
    grouped_row row cites]
  rfl

/-- Two citations that touch, and a third one with a child behind a comma and `and`. -/
def listedThree : Node := .branch "paragraph"
  [.leaf "cite" (Dict.empty.insert "kind" (.string "narrative")), citation, .text ", and ",
    .branch "cite" [.text "3"]]

theorem row_of_citations_grouped_three : (groupCitations [] listedThree).1 =
    .branch "paragraph" [group (some (.string "narrative"))
      [.leaf "cite" (Dict.empty.insert "kind" (.string "narrative")), citation, .leaf "cite"]] := by
  have other : Uninvolved listedThree.kind := by decide
  have row : Row True [citation, .branch "cite" [.text "3"]] listedThree.kids.tail :=
    .next trivial (.behind ⟨rfl, isSeparator_iff.1 (by decide +kernel)⟩ .nil)
  have cites : ∀ c ∈ [.leaf "cite" (Dict.empty.insert "kind" (.string "narrative")), citation,
      .branch "cite" [.text "3"]], isCite c = true := by simp [isCite, is, citation, leaf, branch]
  exact row_of_citations_grouped [] (List.forall_mem_nil _) other rfl cites row

end

end Manuscript.Myst.Citation
