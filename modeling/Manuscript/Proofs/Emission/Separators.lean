import Manuscript.Proofs.Body.Headings
import Manuscript.Proofs.Document.Rendering
import Manuscript.Proofs.Emission.Composition

/-!
Thematic breaks. A separator becomes one unless it is inside of a figure or a table; groups of
figures and all other elements leave it as it is.
-/

set_option autoImplicit false

namespace Manuscript.Myst

open Manuscript.Node Manuscript.Body

/-! ### Inside of containers -/

/-- Whether a node is no thematic break. -/
def Unbroken (n : Node) : Prop := n.kind ≠ "thematicBreak"

/-- Whether a node has no thematic break below it, if it is a container. -/
def Sealed (n : Node) : Prop := n.kind = "container" → ∀ m ∈ n.descendants, Unbroken m

/-- Whether a contribution has breaks only where they may be, which inside of a container is
nowhere. -/
def Emission.Separates (inside : Bool) (e : Emission) : Prop :=
  (inside = true → e.All Unbroken) ∧ e.All Sealed

theorem all_join_of {q : Node → Prop} (alike : ∀ {n : Node} (s : String), q n → q (extendText n s))
    {a b : Emission} (left : a.All q) (right : b.All q) : (a.join b).All q := by
  intro m mem
  rcases mem_joinForests mem with place | place | ⟨x, place, s, -, rfl⟩
  · exact left m place
  · exact right m place
  · exact everywhere_iff.2 ⟨alike s (left x place).here, (left x place).below⟩

theorem sealed_extendText {n : Node} (s : String) (tight : Sealed n) : Sealed (extendText n s) := by
  intro kind
  have below := forall_mem_descendants_iff.1 (tight kind)
  exact forall_mem_descendants_iff.2 below

theorem separates_leaf {inside : Bool} {n : Node} (unbroken : inside = true → Unbroken n)
    (leaf : n.kids = []) : (Emission.ofNode n).Separates inside := by
  refine ⟨fun within => all_ofNode (unbroken within) leaf, all_ofNode (fun _ => ?_) leaf⟩
  rw [forall_mem_descendants_iff, leaf]
  exact List.forall_mem_nil _

theorem separates_wrap {inside : Bool} {kind : String} {attrs : Attrs} {e : Emission}
    (other : kind ≠ "thematicBreak" ∧ kind ≠ "container") (inner : e.Separates inside) :
    (Emission.wrap kind attrs e).Separates inside :=
  ⟨fun within => all_wrap (fun _ => other.1) (inner.1 within),
    all_wrap (fun _ same => absurd same other.2) inner.2⟩

theorem separates_ruleOf {inside : Bool} (n : Node) :
    (ruleOf n).Gives (Emission.Separates inside) n := by
  have other : ∀ kind ∈ ruleKinds, kind ≠ "thematicBreak" ∧ kind ≠ "container" := by decide
  have makes := makesKind_ruleOf other n
  cases same : ruleOf n with
  | wrap kind attrs report => rw [same] at makes; exact fun _ => separates_wrap makes
  | leaf kind attrs => rw [same] at makes; exact separates_leaf (fun _ => makes.1) rfl
  | formula kind => rw [same] at makes; exact fun _ => separates_leaf (fun _ => makes.1) rfl
  | _ => trivial

theorem contributes_separates : ContributesIn (fun _ => True) Emission.Separates where
  free _ here := here
  empty := ⟨fun _ => all_empty, all_empty⟩
  ofReport r := ⟨fun _ => all_ofReport r, all_ofReport r⟩
  ofText s := by
    unfold Emission.ofText
    split
    · exact ⟨fun _ => all_empty, all_empty⟩
    · exact separates_leaf (fun _ => by simp [Unbroken, text, scalar]) rfl
  join left right :=
    ⟨fun within => all_join_of (fun _ here => here) (left.1 within) (right.1 within),
      all_join_of sealed_extendText left.2 right.2⟩
  rule _ := separates_ruleOf _
  bare known := separates_wrap (by
    have other : ∀ kind ∈ bareKinds, kind ≠ "thematicBreak" ∧ kind ≠ "container" := by decide
    exact other _ known)
  tab _ _ := separates_wrap (by decide)
  container kind n e inner := by
    refine ⟨fun _ => all_wrap (fun _ => by simp [Unbroken, branch]) (inner.1 rfl), ?_⟩
    refine List.forall_mem_singleton.2 (everywhere_iff.2 ⟨fun _ => ?_, inner.2⟩)
    exact forall_mem_descendants_iff.2 (inner.1 rfl)
  thematicBreak := separates_leaf (fun within => absurd within (by decide)) rfl
  image _ := separates_leaf (fun _ => by simp [Unbroken, leaf]) rfl
  code _ := separates_leaf (fun _ => by simp [Unbroken, scalar]) rfl

/-! ### Elsewhere -/

/-- The number of breaks in a forest, at any depth. -/
def breaks (ns : List Node) : Nat := (forestNodes ns).countP (·.is "thematicBreak")

theorem breaks_append (xs ys : List Node) : breaks (xs ++ ys) = breaks xs + breaks ys := by
  rw [breaks, forestNodes_append, List.countP_append]
  rfl

theorem breaks_cons (n : Node) (ns : List Node) : breaks (n :: ns) = breaks [n] + breaks ns :=
  breaks_append [n] ns

theorem breaks_singleton (n : Node) :
    breaks [n] = (if n.is "thematicBreak" then 1 else 0) + breaks n.kids := by
  rw [breaks, forestNodes_singleton, List.countP_cons, Nat.add_comm]
  rfl

theorem forest_ofReport_join (r : Report) (e : Emission) :
    ((Emission.ofReport r).join e).forest = e.forest :=
  joinForests_nil_left e.forest

theorem breaks_join {a b : Emission} (left : a.Plain) (right : b.Plain) :
    breaks (a.join b).forest = breaks a.forest + breaks b.forest := by
  have text (s : String) : breaks [text s] = 0 := rfl
  rcases joinForests_plain left right with ⟨front, s, t, back, before, behind, seam⟩ | ⟨-, seam⟩
  · rw [Emission.join, seam, before, behind, breaks_append, breaks_append, breaks_cons,
      breaks_cons (Node.text t), text, text, text]
    omega
  · rw [Emission.join, seam, breaks_append]

theorem breaks_wrap {kind : String} (other : kind ≠ "thematicBreak") (attrs : Attrs)
    (e : Emission) : breaks (Emission.wrap kind attrs e).forest = breaks e.forest := by
  have same : (branch kind e.forest attrs).is "thematicBreak" = false := beq_false_of_ne other
  rw [Emission.wrap, breaks_singleton, same, if_neg Bool.false_ne_true, Nat.zero_add]
  rfl

theorem breaks_ofText (s : String) : breaks (Emission.ofText s).forest = 0 := by
  unfold Emission.ofText
  split <;> rfl

theorem breaks_eq_zero {ns : List Node} (all : ∀ n ∈ ns, Everywhere Unbroken n) :
    breaks ns = 0 := by
  refine List.countP_eq_zero.2 fun m mem isOne => ?_
  obtain ⟨n, place, mem⟩ := mem_forestNodes_iff.1 mem
  exact all n place m mem (beq_iff_eq.1 isOne)

theorem breaks_renderTabs (s : Setting) (ns : List Node) :
    breaks (renderTabs s ns).forest = breaks (renderAll s ns).forest := by
  induction ns with
  | nil => rw [renderTabs, renderAll]
  | cons n ns ih =>
    rw [renderTabs, renderAll, breaks_join (.wrap (by decide) _ _) (plain_renderTabs s ns),
      breaks_wrap (by decide), ih, breaks_join plain_render plain_renderAll]

theorem breaks_content (s : Setting) (n : Node) :
    breaks (content s n).forest = breaks (renderAll s n.kids).forest := by
  rw [content]
  cases children : n.children with
  | some cs => rfl
  | none =>
    have none : n.kids = [] := by rw [kids, children]; rfl
    rw [none, renderAll]
    exact breaks_ofText _

/-- A separator, with what is around it, that no figure or table is around. -/
def isFree (place : Node × List Node) : Bool :=
  place.1.is "hr" && place.2.all fun m => !m.isOneOf ["fig", "table-wrap"]

/-- The kinds of figures and tables, of what they consist of, and of what stands around them. -/
def panelKinds : List String :=
  ["fig", "table-wrap", "fig-group", "p", "block", "caption", "table", "thead", "tbody", "tfoot",
    "tr", "th", "td", "hr", "text"]

/-- Whether a node is of such a kind, and has nothing below if it is a separator or a text. -/
def IsPanel (n : Node) : Prop := n.kind ∈ panelKinds ∧ (n.kind ∈ ["hr", "text"] → n.kids = [])

def Rule.Panel (n : Node) : Rule → Prop
  | .children | .tabs => n.is "hr" = false ∧ n.isOneOf ["fig", "table-wrap"] = false
  | .wrap kind _ _ => kind ≠ "thematicBreak" ∧ n.is "hr" = false ∧
      n.isOneOf ["fig", "table-wrap"] = false
  | .text => n.kind = "text"
  | .separator => n.kind = "hr"
  | .figure | .table => n.isOneOf ["fig", "table-wrap"] = true
  | _ => False

theorem panel_ruleOf {n : Node} (known : n.kind ∈ panelKinds) : (ruleOf n).Panel n := by
  unfold ruleOf
  split
  all_goals first
    | next same => rw [same] at known; exact absurd known (by decide)
    | next same => exact same
    | next same => simp [Rule.Panel, plain, is, isOneOf, same]
    | simp_all [panelKinds]

/-! ### Separators that are counted -/

section
variable {s : Setting}

theorem countP_isFree_cons (around : List Node) (n : Node) (ns : List Node) :
    (placedIn around (n :: ns)).countP isFree =
      (placedIn around [n]).countP isFree + (placedIn around ns).countP isFree := by
  rw [placedIn_cons, placedIn_cons around n [], placedIn, List.append_nil, ← List.cons_append,
    List.countP_append]

theorem countP_isFree_of_mem {around : List Node} {m : Node} (mem : m ∈ around)
    (container : m.isOneOf ["fig", "table-wrap"] = true) (ns : List Node) :
    (placedIn around ns).countP isFree = 0 := by
  refine List.countP_eq_zero.2 fun place inside free => ?_
  have around : m ∈ place.2 := (suffix_of_mem_placedIn inside).mem mem
  have apart := List.all_eq_true.1 (Bool.and_eq_true_iff.1 free).2 m around
  rw [container] at apart
  exact absurd apart (by decide)

theorem countP_isFree_of_other {around : List Node} {n : Node} (other : n.is "hr" = false) :
    (placedIn around [n]).countP isFree = (placedIn (n :: around) n.kids).countP isFree := by
  rw [placedIn_cons, placedIn, List.append_nil, List.countP_cons_of_neg]
  simp [isFree, other]

theorem breaks_renderAll_of {around ns : List Node}
    (each : ∀ n ∈ ns, breaks (render s n).forest = (placedIn around [n]).countP isFree) :
    breaks (renderAll s ns).forest = (placedIn around ns).countP isFree := by
  induction ns with
  | nil => rw [renderAll]; rfl
  | cons n ns ih =>
    obtain ⟨first, rest⟩ := List.forall_mem_cons.1 each
    rw [renderAll, breaks_join plain_render plain_renderAll, first, ih rest,
      countP_isFree_cons around n ns]

theorem breaks_container {n : Node} {attrs : Attrs} {inner : Emission}
    (made : render s n = .wrap "container" attrs inner) : breaks (render s n).forest = 0 := by
  have tight : (render s n).All Sealed :=
    (contributes_separates.render fun _ _ => trivial).2
  rw [made] at tight ⊢
  have below := (List.forall_mem_singleton.1 tight).here rfl
  rw [breaks_wrap (by decide)]
  exact breaks_eq_zero (forall_mem_descendants_iff.1 below)

theorem breaks_render {n : Node} (panel : Everywhere IsPanel n) (outside : s.inContainer = false)
    {around : List Node} (clear : ∀ m ∈ around, m.isOneOf ["fig", "table-wrap"] = false) :
    breaks (render s n).forest = (placedIn around [n]).countP isFree := by
  induction n using induction_on_kids generalizing around with
  | node n ih =>
    have rule := panel_ruleOf panel.here.1
    have inside (other : n.is "hr" = false) (open' : n.isOneOf ["fig", "table-wrap"] = false) :
        breaks (renderAll s n.kids).forest = (placedIn around [n]).countP isFree := by
      rw [countP_isFree_of_other other]
      exact breaks_renderAll_of fun c child => ih c child (panel.below c child)
        (List.forall_mem_cons.2 ⟨open', clear⟩)
    have leaf (bare : n.kind ∈ ["hr", "text"]) : (placedIn around [n]).countP isFree =
        if n.is "hr" then 1 else 0 := by
      have free : around.all (fun m => !m.isOneOf ["fig", "table-wrap"]) = true :=
        List.all_eq_true.2 fun m mem => by rw [clear m mem]; rfl
      rw [placedIn_cons, panel.here.2 bare, placedIn, placedIn]
      simp [isFree, free]
    -- In a container no separator is free, and none becomes a break.
    have container (isOne : n.isOneOf ["fig", "table-wrap"] = true) :
        (placedIn around [n]).countP isFree = 0 := by
      rw [countP_isFree_of_other]
      · exact countP_isFree_of_mem List.mem_cons_self isOne _
      · rw [← Bool.not_eq_true]
        intro same
        rw [isOneOf, beq_iff_eq.1 same] at isOne
        exact absurd isOne (by decide)
    cases same : ruleOf n <;> rw [same] at rule
    case children =>
      rw [render, same]
      exact inside rule.1 rule.2
    case tabs =>
      rw [render, same]
      refine (breaks_wrap (by decide) _ _).trans ?_
      rw [breaks_renderTabs]
      exact inside rule.1 rule.2
    case wrap kind attrs report =>
      obtain ⟨other, here, open'⟩ := rule
      rw [render, same]
      rw [forest_ofReport_join, breaks_wrap other, breaks_content, inside here open']
    case text =>
      rw [leaf (by rw [rule]; decide), render, same, is, rule]
      exact breaks_ofText _
    case separator =>
      rw [leaf (by rw [rule]; decide), render, same, is, rule]
      simp only [outside]
      rfl
    case figure => rw [container rule, breaks_container (render_figure s same)]
    case table => rw [container rule, breaks_container (render_table s same)]
    all_goals exact rule.elim

end

/-- A document has no break below a container. Where a tree consists of figures and tables, of what
they consist of and of what stands around them, every separator that no figure or table is around
becomes a break, and there are no others. -/
theorem separators_outside_containers (formulas : Formula.Converter) (tree : Node) :
    (∀ n ∈ (emit formulas tree).1.nodes, n.kind = "container" →
      ∀ m ∈ n.descendants, m.kind ≠ "thematicBreak") ∧
    ((∀ n ∈ tree.descendants, n.kind ∈ panelKinds ∧ (n.kind ∈ ["hr", "text"] → n.kids = [])) →
      (emit formulas tree).1.count (·.is "thematicBreak") =
        ((placedIn [] tree.kids).filter fun place =>
          place.1.is "hr" && place.2.all fun m => !m.isOneOf ["fig", "table-wrap"]).length) := by
  rw [emit_fst]
  constructor
  · intro n mem container
    have tight : (renderAll ⟨formulas, false⟩ tree.kids).All Sealed :=
      (contributes_separates.renderAll fun _ _ _ _ => trivial).2
    rcases mem_nodes_iff.1 mem with rfl | ⟨c, child, mem⟩
    · exact absurd container (by simp [branch])
    · exact tight c child n mem container
  · intro panels
    have all : ∀ c ∈ tree.kids, Everywhere IsPanel c := forall_mem_descendants_iff.1 panels
    rw [count, findAll, descendants_eq, ← List.countP_eq_length_filter,
      ← List.countP_eq_length_filter]
    exact breaks_renderAll_of fun c child => breaks_render (all c child) rfl (List.forall_mem_nil _)

/-- Separators before, in, between and behind containers, one of them in a tab of its own. -/
def parted : Node :=
  .branch "body" [
    .leaf "hr", .branch "fig" [.branch "caption" [.branch "p" [.leaf "hr", .text "x"]]],
    .branch "fig-group" [.branch "fig" [.leaf "hr"], .leaf "hr"],
    .branch "table-wrap" [.branch "table" [.branch "td" [.branch "fig" [], .leaf "hr"]]],
    .branch "p" [.text "y", .leaf "hr"]]

theorem separators_outside_containers_parted :
    (emit (fun _ => none) parted).1.count (·.is "thematicBreak") = 3 :=
  (separators_outside_containers (fun _ => none) parted).2 (by decide)

end Manuscript.Myst
