import Mathlib.Data.List.Forall2
import Manuscript.Proofs.Citation.Resolution
import Manuscript.Proofs.Tree.Template

/-!
Resolving is one substitution for all known citations of a tree. The tree is a template with those
citations in its gaps, and the resolved tree is the same template with what they stand for; nothing
that comes in is looked at again.
-/

set_option autoImplicit false

namespace Manuscript.Reference

def Resolution.footnote? : Resolution → Option String
  | .footnote number => some number
  | .cite _ => none

end Manuscript.Reference

namespace Manuscript.Myst.Citation

open Manuscript.Node Manuscript.Reference

/-! ### Known citations -/

/-- Whether a text attribute of a node is a key, and of what. -/
def Finds (lookup : Lookup) (n : Node) (field : String) (resolutions : List Resolution) : Prop :=
  ∃ key, n.attrText? field = some key ∧ lookup.find? key = some resolutions

/-- Whether a node is a citation that is known, by its label or, where that is no key, by its
identifier. -/
def Denotes (lookup : Lookup) (n : Node) (resolutions : List Resolution) : Prop :=
  n.kind = "cite" ∧ (Finds lookup n "label" resolutions ∨
    (∀ others, ¬Finds lookup n "label" others) ∧ Finds lookup n "identifier" resolutions)

theorem finds_iff {lookup : Lookup} {n : Node} {field : String} {resolutions : List Resolution} :
    Finds lookup n field resolutions ↔
      (n.attrText? field).bind lookup.find? = some resolutions :=
  Option.bind_eq_some_iff.symm

theorem resolutions?_eq_some_iff {lookup : Lookup} {n : Node} {resolutions : List Resolution} :
    resolutions? lookup n = some resolutions ↔ Denotes lookup n resolutions := by
  simp only [resolutions?, Denotes, finds_iff, Option.ite_none_right_eq_some, is, beq_iff_eq]
  apply and_congr_right
  intro _
  cases (n.attrText? "label").bind lookup.find? <;> simp

/-! ### What comes in -/

/-- Whether a node is a leaf of a kind that points to what a text reads as. -/
structure PointsTo (kind s : String) (n : Node) : Prop where
  kind : n.kind = kind
  children : n.children = none
  value : n.value = none
  label : n.attrText? "label" = (Label.ofText? s).map (·.label)
  identifier : n.attrText? "identifier" = (Label.ofText? s).map (·.identifier)

def IsParenthetical (n : Node) : Prop := n.attrText? "kind" = some "parenthetical"

/-- Whether a node is a parenthetical group with one parenthetical citation for each of the labels,
in order. -/
structure CitesAll (labels : List String) (g : Node) : Prop where
  kind : g.kind = "citeGroup"
  parenthetical : IsParenthetical g
  cites : List.Forall₂ (fun s c => PointsTo "cite" s c ∧ IsParenthetical c) labels g.kids

/-- Whether nodes are what resolutions become: one reference for each footnote, in order, and behind
them one group for all labels, if there are any. -/
def SpellsOut (resolutions : List Resolution) (ns : List Node) : Prop :=
  ∃ notes groups, ns = notes ++ groups ∧
    List.Forall₂ (PointsTo "footnoteReference") (resolutions.filterMap Resolution.footnote?)
      notes ∧
    (resolutions.filterMap Resolution.cite? = [] → groups = []) ∧
    (resolutions.filterMap Resolution.cite? ≠ [] →
      ∃ g, groups = [g] ∧ CitesAll (resolutions.filterMap Resolution.cite?) g)

theorem pointsTo_pointer (kind s : String) : PointsTo kind s (pointer kind s) := by
  have identifier : (pointer kind s).attrText? "identifier" =
      (Label.ofText? s).map (·.identifier) := by
    unfold pointer
    cases Label.ofText? s <;>
      simp [attrText?, attr?, leaf, setAttr, Dict.find?_insert, Json.asString?]
  have value : (pointer kind s).value = none := by
    unfold pointer
    split <;> rfl
  exact ⟨kind_pointer kind s, children_pointer kind s, value, attrText?_pointer kind s, identifier⟩

theorem isParenthetical_setAttr (n : Node) :
    IsParenthetical (n.setAttr "kind" (.string "parenthetical")) := by
  simp [IsParenthetical, attrText?, attr?, setAttr, Dict.find?_insert, Json.asString?]

theorem PointsTo.setKind {kind s : String} {n : Node} (points : PointsTo kind s n) (value : Json) :
    PointsTo kind s (n.setAttr "kind" value) := by
  have same {name : String} (other : name ≠ "kind") :
      (n.setAttr "kind" value).attrText? name = n.attrText? name := by
    rw [attrText?, attr?, setAttr, Dict.find?_insert, if_neg other]
    rfl
  exact ⟨points.kind, points.children, points.value, (same (by decide)).trans points.label,
    (same (by decide)).trans points.identifier⟩

theorem citesAll_citing (labels : List String) : CitesAll labels (citing labels) := by
  refine ⟨rfl, isParenthetical_setAttr _, ?_⟩
  rw [kids_citing, List.forall₂_map_right_iff, List.forall₂_same]
  intro s _
  exact ⟨(pointsTo_pointer "cite" s).setKind _, isParenthetical_setAttr _⟩

theorem spellsOut_expansion (resolutions : List Resolution) :
    SpellsOut resolutions (expansion resolutions) := by
  have notes : resolutions.filterMap footnoteReference? =
      (resolutions.filterMap Resolution.footnote?).map (pointer "footnoteReference") := by
    rw [List.map_filterMap]
    exact List.filterMap_congr fun r _ => by cases r <;> rfl
  refine ⟨_, _, rfl, ?_, fun none => ?_, fun some => ?_⟩
  · rw [notes, List.forall₂_map_right_iff, List.forall₂_same]
    exact fun s _ => pointsTo_pointer _ s
  · rw [none]
    rfl
  · refine ⟨citing (resolutions.filterMap Resolution.cite?), ?_, citesAll_citing _⟩
    rw [if_neg (by simpa using some)]
    rfl

/-! ### The substitution -/

def replacement? (lookup : Lookup) (n : Node) : Option (Node × List Node) :=
  (resolutions? lookup n).map fun resolutions => (n, expansion resolutions)

theorem replacement?_eq_some_iff {lookup : Lookup} {n : Node} {mark : Node × List Node} :
    replacement? lookup n = some mark ↔
      ∃ resolutions, resolutions? lookup n = some resolutions ∧
        mark = (n, expansion resolutions) := by
  rw [replacement?, Option.map_eq_some_iff]
  exact exists_congr fun resolutions => and_congr_right fun _ => eq_comm

theorem replacement?_eq_none_iff {lookup : Lookup} {n : Node} :
    replacement? lookup n = none ↔ resolutions? lookup n = none :=
  Option.map_eq_none_iff

mutual
theorem fill_cut_replacement? (lookup : Lookup) : (n : Node) →
    ((Template.cut (replacement? lookup) n).fill (·.2),
        (Template.cut (replacement? lookup) n).gaps.length) =
      match resolutions? lookup n with
      | some resolutions => (expansion resolutions, 1)
      | none => ([(resolve lookup n).1], (resolve lookup n).2)
  | ⟨k, none, v, a⟩ => by
    cases found : resolutions? lookup ⟨k, none, v, a⟩ with
    | some resolutions =>
      rw [Template.cut_of_some (replacement?_eq_some_iff.2 ⟨resolutions, found, rfl⟩)]
      rfl
    | none =>
      rw [Template.cut_of_none (replacement?_eq_none_iff.2 found)]
      rfl
  | ⟨k, some cs, v, a⟩ => by
    cases found : resolutions? lookup ⟨k, some cs, v, a⟩ with
    | some resolutions =>
      rw [Template.cut_of_some (replacement?_eq_some_iff.2 ⟨resolutions, found, rfl⟩)]
      rfl
    | none =>
      rw [Template.cut_of_none (replacement?_eq_none_iff.2 found), Option.map_some, resolve,
        resolveAll_eq_fillAll lookup cs]
      rfl

/-- Resolving fills the gaps that known citations leave, and counts them. -/
theorem resolveAll_eq_fillAll (lookup : Lookup) : (ns : List Node) → resolveAll lookup ns =
    (Template.fillAll (·.2) (Template.cutAll (replacement? lookup) ns),
      (Template.gapsIn (Template.cutAll (replacement? lookup) ns)).length)
  | [] => rfl
  | n :: ns => by
    have first := fill_cut_replacement? lookup n
    rw [Template.cutAll, Template.fillAll, Template.gapsIn, List.length_append]
    cases found : resolutions? lookup n with
    | some resolutions =>
      simp only [found, Prod.mk.injEq] at first
      simp only [resolveAll, found, first, resolveAll_eq_fillAll lookup ns]
    | none =>
      simp only [found, Prod.mk.injEq] at first
      simp only [resolveAll, found, first, resolveAll_eq_fillAll lookup ns]
end

/-- Every known citation below the root that is in no other one gives way to what it stands for, as
the gaps of a template are filled, and the gaps are counted. All other nodes stay what they are and
where they are. -/
theorem resolving_substitutes (lookup : Lookup) (tree : Node) :
    ∃ ts : List (Template (Node × List Node)),
      tree.kids = Template.fillAll (fun mark => [mark.1]) ts ∧
      (∀ n ∈ Template.ownIn ts, ∀ resolutions, ¬Denotes lookup n resolutions) ∧
      (∀ mark ∈ Template.gapsIn ts, ∃ resolutions, Denotes lookup mark.1 resolutions ∧
        SpellsOut resolutions mark.2) ∧
      resolve lookup tree =
        (tree.mapChildren fun _ => Template.fillAll (·.2) ts, (Template.gapsIn ts).length) ∧
      ((resolve lookup tree).2 = 0 → (resolve lookup tree).1 = tree) := by
  have fits : ∀ n mark, replacement? lookup n = some mark → [mark.1] = [n] := by
    intro n mark found
    obtain ⟨_, _, rfl⟩ := replacement?_eq_some_iff.1 found
    rfl
  have kept : tree.kids = Template.fillAll (fun mark => [mark.1])
      (Template.cutAll (replacement? lookup) tree.kids) :=
    (Template.fillAll_cutAll (replacement? lookup) fits tree.kids).symm
  have filled : resolve lookup tree =
      (tree.mapChildren fun _ =>
          Template.fillAll (·.2) (Template.cutAll (replacement? lookup) tree.kids),
        (Template.gapsIn (Template.cutAll (replacement? lookup) tree.kids)).length) := by
    obtain ⟨k, _ | cs, v, a⟩ := tree
    · rfl
    · rw [resolve, resolveAll_eq_fillAll]
      rfl
  refine ⟨Template.cutAll (replacement? lookup) tree.kids, kept, ?_, fun mark mem => ?_, filled,
    fun none => ?_⟩
  · refine Template.forall_mem_ownIn_cutAll _ (fun n unknown resolutions known => ?_) tree.kids
    -- What is below a node is nothing to whether it is known.
    have found : resolutions? lookup n = some resolutions := resolutions?_eq_some_iff.2 known
    rw [replacement?_eq_none_iff.1 unknown] at found
    cases found
  · obtain ⟨n, found⟩ := Template.exists_of_mem_gapsIn_cutAll mem
    obtain ⟨resolutions, known, rfl⟩ := replacement?_eq_some_iff.1 found
    exact ⟨resolutions, resolutions?_eq_some_iff.1 known, spellsOut_expansion resolutions⟩
  · rw [filled] at none ⊢
    have noGap := List.eq_nil_of_length_eq_zero none
    rw [Template.fillAll_congr (g := fun mark => [mark.1]), ← kept]
    · exact mapChildren_of_eq_self rfl
    · rw [noGap]
      exact List.forall_mem_nil _

/-- Two citations that stand for each other change places, and that is all. -/
example :
    let lookup := Dict.ofList [("a", [.cite "b"]), ("b", [.cite "a"])]
    let paragraph := Node.branch "paragraph" [pointer "cite" "a", pointer "cite" "b"]
    (resolveBelow lookup paragraph).nodes.filterMap (·.attrText? "label") = ["b", "a"] := by
  decide +kernel

end Manuscript.Myst.Citation
