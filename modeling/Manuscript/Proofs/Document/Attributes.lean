import Manuscript.Proofs.Document.WellFormed
import Manuscript.Proofs.Tree.Flat

/-!
The attributes of a document. All that an element is rendered as, and all that citing and cleaning
make, has attributes of known names, and none of these is one of the names that the flat form of a
node uses for the node itself. So the flat form of a document determines the document.
-/

set_option autoImplicit false

namespace Manuscript

open Node Myst Myst.Citation Reference

/-! ### Names -/

section
variable {attrs : Attrs}

theorem unreserved_empty : Unreserved .empty := List.forall_mem_nil _

theorem Node.Unreserved.insert (own : Unreserved attrs) {name : String}
    (free : isReserved name = false) (value : Json) : Unreserved (attrs.insert name value) := by
  intro entry mem
  rcases Dict.mem_put mem with rfl | mem
  · exact free
  · exact own entry mem

theorem Node.Unreserved.insert? (own : Unreserved attrs) {name : String}
    (free : isReserved name = false) (value : Option Json) :
    Unreserved (attrs.insert? name value) := by
  cases value with
  | none => exact own
  | some value => exact own.insert free value

theorem unreserved_attrsOf {entries : List (String × Option Json)}
    (free : entries.any (isReserved ·.1) = false) : Unreserved (attrsOf entries) := by
  have grow : ∀ (entries : List (String × Option Json)) (attrs : Attrs),
      (∀ entry ∈ entries, isReserved entry.1 = false) → Unreserved attrs →
        Unreserved (entries.foldl (fun attrs entry => attrs.insert? entry.1 entry.2) attrs) := by
    intro entries
    induction entries with
    | nil => exact fun _ _ own => own
    | cons entry entries ih =>
      intro attrs free own
      obtain ⟨first, rest⟩ := List.forall_mem_cons.1 free
      exact ih _ rest (own.insert? first entry.2)
  refine grow entries .empty (fun entry mem => ?_) unreserved_empty
  rw [← Bool.not_eq_true]
  exact List.any_eq_false.1 free entry mem

theorem Node.Unreserved.of_erase {others : Attrs}
    (same : others.erase "kind" = attrs.erase "kind") (own : Unreserved attrs) :
    Unreserved others := by
  intro entry mem
  by_cases kind : entry.1 = "kind"
  · rw [kind]
    rfl
  · have kept : entry ∈ (others.erase "kind").entries :=
      List.mem_filter.2 ⟨mem, decide_eq_true kind⟩
    rw [same] at kept
    exact own entry (List.mem_filter.1 kept).1

end

/-! ### Rendering -/

/-- Whether the node that a rule makes has unreserved attributes. -/
def Myst.Rule.Encodable : Rule → Prop
  | .wrap _ attrs _ | .leaf _ attrs => Unreserved attrs
  | _ => True

theorem encodable_ruleOf (n : Node) : (ruleOf n).Encodable := by
  have reference : (referenceRule n).Encodable := by
    unfold referenceRule
    simp only
    split <;> exact unreserved_attrsOf rfl
  unfold ruleOf
  split
  all_goals first
    | exact trivial
    | exact reference
    | exact unreserved_empty
    | exact unreserved_attrsOf rfl

theorem unreserved_targetAttrs (n : Node) : Unreserved (targetAttrs n) := unreserved_attrsOf rfl

theorem contributes_unreserved :
    Contributes (fun _ => True) (Emission.All fun m => Unreserved m.attrs) where
  free _ here := here
  empty := all_empty
  ofReport := all_ofReport
  ofText s := by
    unfold Emission.ofText
    split
    · exact all_empty
    · exact all_ofNode unreserved_empty rfl
  join left right m mem := by
    rcases mem_joinForests mem with place | place | ⟨x, place, s, -, rfl⟩
    · exact left m place
    · exact right m place
    · exact everywhere_iff.2 (everywhere_iff.1 (left x place))
  rule {n} _ := by
    have encodable := encodable_ruleOf n
    cases same : ruleOf n with
    | wrap kind attrs report => rw [same] at encodable; exact fun _ => all_wrap fun _ => encodable
    | leaf kind attrs => rw [same] at encodable; exact all_ofNode encodable rfl
    | formula kind => exact fun _ => all_ofNode (unreserved_targetAttrs n) rfl
    | _ => trivial
  bare _ := all_wrap fun _ => unreserved_empty
  tab _ _ := all_wrap fun _ => unreserved_attrsOf rfl
  container _ n _ := all_wrap fun _ => (unreserved_targetAttrs n).insert rfl _
  thematicBreak := all_ofNode unreserved_empty rfl
  image _ := all_ofNode (unreserved_attrsOf rfl) rfl
  code _ := all_ofNode (unreserved_attrsOf rfl) rfl

theorem encodable_emit (formulas : Formula.Converter) (tree : Node) :
    (emit formulas tree).1.Encodable := by
  rw [emit_fst]
  refine everywhere_iff.2 ⟨unreserved_empty, ?_⟩
  exact contributes_unreserved.renderAll fun _ _ _ _ => trivial

/-! ### Citing -/

theorem unreserved_pointer (kind label : String) : Unreserved (pointer kind label).attrs := by
  unfold pointer
  split
  · exact (unreserved_empty.insert rfl _).insert rfl _
  · exact unreserved_empty

theorem encodable_resolveBelow (lookup : Lookup) {n : Node} (own : n.Encodable)
    (kept : resolutions? lookup n = none) : (resolveBelow lookup n).Encodable := by
  refine everywhere_resolveBelow (fun _ here => here) (fun c resolutions _ => ?_)
    (Everywhere.imp own fun _ here _ => here) kept
  apply everywhere_expansion
  · exact fun number _ => unreserved_pointer "footnoteReference" number
  · exact fun labels => unreserved_empty.insert rfl _
  · exact fun label _ => (unreserved_pointer "cite" label).insert rfl _

theorem lasting_unreserved (order : List String) :
    Lasting order fun n => Unreserved n.attrs := by
  constructor
  case children => exact fun _ here => here
  case stripped => exact fun here => here
  case retexted => exact fun _ _ _ here => here
  case marked => exact fun _ here => here.insert rfl _
  case grouped => exact fun _ _ => unreserved_empty.insert? rfl _
  case regrouped => exact fun _ _ _ same here => here.of_erase same
  case listed =>
    intro kind _ _ _ _ label _ _ _ _ _ _ _
    unfold citeOf
    split
    · exact ((unreserved_empty.insert? rfl kind).insert rfl _).insert rfl _
    · exact unreserved_empty.insert? rfl kind

/-! ### The whole conversion -/

theorem encodable_removeWhere (removed : Node → Bool) {n : Node} (own : n.Encodable) :
    (removeWhere removed n).Encodable := by
  refine everywhere_removeWhere (fun m all => ?_) own
  rw [removeWhere_eq]
  exact all.here

theorem encodable_clean {tree : Node} (own : tree.Encodable) : (clean tree).Encodable :=
  everywhere_clean (fun _ here => here) (fun _ => unreserved_empty) (fun _ _ _ here => here) own

theorem encodable_of_convert {a : Article} {options : Conversion.Options} {c : Conversion}
    (converted : a.convert options = .ok c) : c.tree.Encodable := by
  unfold Article.convert at converted
  cases registered : Registry.ofReferences options.sources a.references with
  | error fault =>
    rw [registered] at converted
    cases converted
  | ok registry =>
    rw [registered] at converted
    cases converted
    have root : resolutions? registry.lookup (emit options.formulas
        (Conversion.prepare a registry.footnoteGroup?)).1 = none := by
      rw [emit_fst]
      rfl
    -- Backwards through what is done to the rendered article.
    refine encodable_clean (encodable_removeWhere _ (encodable_removeWhere _ ?_))
    apply (lasting_unreserved _).everywhere_groupCitations
    exact encodable_resolveBelow registry.lookup (encodable_emit _ _) root

/-- The flat form of a tree determines the tree where no attribute is named like a field of its
node, and so that of every document. The sorted form does so up to the order of the fields that
values of attributes have inside. -/
theorem flat_determines_tree :
    (∀ n : Node, n.Encodable →
      Node.ofJson? n.flat = some n ∧ Node.ofJson? n.toJson = some n.canonical) ∧
    ∀ (a : Article) (options : Conversion.Options) (c : Conversion), a.convert options = .ok c →
      Node.ofJson? c.tree.flat = some c.tree ∧
        Node.ofJson? c.tree.toJson = some c.tree.canonical := by
  have determines (n : Node) (own : n.Encodable) :
      Node.ofJson? n.flat = some n ∧ Node.ofJson? n.toJson = some n.canonical :=
    ⟨ofJson?_flat own, ofJson?_toJson own⟩
  refine ⟨determines, fun a options c converted => ?_⟩
  exact determines c.tree (encodable_of_convert converted)

/-- A leaf without a child list and one with an empty child list are read back as they are. -/
theorem flat_determines_tree_brief :
    let image := Node.leaf "image" (Dict.empty.insert "url" (.string "a.png"))
    let empty := Node.branch "figure" [image, .branch "caption" []]
    empty.Encodable ∧ Node.ofJson? empty.flat = some empty ∧
      ∃ c, brief.convert {} = .ok c ∧ Node.ofJson? c.tree.flat = some c.tree := by
  intro image empty
  obtain ⟨trees, documents⟩ := flat_determines_tree
  have own : empty.Encodable := by decide +kernel
  obtain ⟨c, converted⟩ : ∃ c, brief.convert {} = .ok c := ⟨_, rfl⟩
  exact ⟨own, (trees empty own).1, c, converted, (documents brief {} c converted).1⟩

end Manuscript
