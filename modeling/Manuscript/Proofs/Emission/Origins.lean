import Manuscript.Proofs.Emission.Composition

/-!
Where the nodes of a document come from. Rendering an element makes at most one node for the element
itself and renders its parts one by one; all other nodes are the paragraphs, captions, images and
texts around them. So a node of any other kind stands for one element that rendering gets to, and
every element that it gets to has its node in the document.
-/

set_option autoImplicit false

namespace Manuscript.Myst

open Manuscript.Node

/-! ### Nodes of contributions -/

def Emission.nodes (e : Emission) : List Node := forestNodes e.forest

/-- The kinds of nodes that may be there without an element that they stand for. -/
def scaffoldKinds : List String := ["text", "paragraph", "strong", "caption", "image", "tabItem"]

section
variable {m : Node}

theorem nodes_empty : Emission.empty.nodes = [] := rfl

theorem nodes_ofReport (r : Report) : (Emission.ofReport r).nodes = [] := rfl

theorem nodes_ofNode {n : Node} (leaf : n.kids = []) : (Emission.ofNode n).nodes = [n] := by
  rw [Emission.nodes, Emission.ofNode, forestNodes, descendants_eq, leaf]
  rfl

theorem mem_nodes_wrap_iff {kind : String} {attrs : Attrs} {e : Emission} :
    m ∈ (Emission.wrap kind attrs e).nodes ↔ m = .branch kind e.forest attrs ∨ m ∈ e.nodes := by
  rw [Emission.nodes, Emission.wrap, forestNodes, forestNodes, List.append_nil, List.mem_cons]
  exact Iff.rfl

theorem mem_nodes_leaf_iff {n : Node} (leaf : n.kids = []) :
    m ∈ (Emission.ofNode n).nodes ↔ (Emission.ofNode n).forest.head? = some m := by
  rw [nodes_ofNode leaf, List.mem_singleton, Emission.ofNode, List.head?_cons, Option.some.injEq,
    eq_comm]

theorem mem_nodes_around_iff {kind : String} {attrs : Attrs} {e : Emission} {inner : Prop}
    (inside : m ∈ e.nodes ↔ inner) : m ∈ (Emission.wrap kind attrs e).nodes ↔
      (Emission.wrap kind attrs e).forest.head? = some m ∨ inner := by
  rw [mem_nodes_wrap_iff, inside, Emission.wrap, List.head?_cons, Option.some.injEq, eq_comm]

section
variable (solid : m.kind ∉ scaffoldKinds)
include solid

theorem ne_of_scaffold {n : Node} (scaffold : n.kind ∈ scaffoldKinds) : m ≠ n :=
  fun same => solid (same ▸ scaffold)

theorem mem_nodes_wrap_scaffold {kind : String} (scaffold : kind ∈ scaffoldKinds) {attrs : Attrs}
    {e : Emission} : m ∈ (Emission.wrap kind attrs e).nodes ↔ m ∈ e.nodes := by
  rw [mem_nodes_wrap_iff]
  exact or_iff_right (ne_of_scaffold solid scaffold)

theorem not_mem_nodes_ofText (t : String) : m ∉ (Emission.ofText t).nodes := by
  unfold Emission.ofText
  split
  · exact List.not_mem_nil
  · rw [nodes_ofNode rfl, List.mem_singleton]
    exact ne_of_scaffold solid (by simp [text, scalar, scaffoldKinds])

theorem not_mem_nodes_figureImage (n : Node) : m ∉ (figureImage n).nodes := by
  unfold figureImage
  split
  · rw [nodes_ofNode rfl, List.mem_singleton]
    exact ne_of_scaffold solid (by simp [leaf, scaffoldKinds])
  · exact List.not_mem_nil

theorem mem_nodes_join_iff {a b : Emission} (left : a.Plain) (right : b.Plain) :
    m ∈ (a.join b).nodes ↔ m ∈ a.nodes ∨ m ∈ b.nodes := by
  have other (t : String) (ns : List Node) :
      m ∈ forestNodes (.text t :: ns) ↔ m ∈ forestNodes ns := by
    have first : forestNodes (.text t :: ns) = .text t :: forestNodes ns := rfl
    rw [first, List.mem_cons]
    exact or_iff_right (ne_of_scaffold solid (by simp [text, scalar, scaffoldKinds]))
  simp only [Emission.nodes, Emission.join]
  rcases joinForests_plain left right with ⟨front, s, t, back, before, behind, seam⟩ | ⟨-, apart⟩
  · rw [seam, before, behind]
    have none : m ∉ forestNodes [] := List.not_mem_nil
    simp only [forestNodes_append, List.mem_append, other, none, or_false]
  · rw [apart, forestNodes_append, List.mem_append]

theorem mem_nodes_renderAll_iff {s : Setting} {ns : List Node} :
    m ∈ (renderAll s ns).nodes ↔ ∃ n ∈ ns, m ∈ (render s n).nodes := by
  induction ns with
  | nil =>
    rw [renderAll, nodes_empty]
    simp
  | cons n ns ih =>
    rw [renderAll, mem_nodes_join_iff solid plain_render plain_renderAll, ih]
    simp

theorem mem_nodes_content_iff {s : Setting} {n : Node} :
    m ∈ (content s n).nodes ↔ ∃ c ∈ n.kids, m ∈ (render s c).nodes := by
  rw [content]
  split
  · exact mem_nodes_renderAll_iff solid
  · next leaf =>
    rw [kids, leaf]
    simpa using not_mem_nodes_ofText solid _

theorem mem_nodes_renderTabs_iff {s : Setting} {ns : List Node} :
    m ∈ (renderTabs s ns).nodes ↔ ∃ n ∈ ns, m ∈ (render s n).nodes := by
  induction ns with
  | nil =>
    rw [renderTabs, nodes_empty]
    simp
  | cons n ns ih =>
    rw [renderTabs, mem_nodes_join_iff solid (.wrap (by decide) _ _) (plain_renderTabs s ns), ih,
      mem_nodes_wrap_scaffold solid (by decide)]
    simp

theorem mem_nodes_boldParagraph_iff {e : Emission} :
    m ∈ (boldParagraph e).nodes ↔ m ∈ e.nodes := by
  rw [boldParagraph, mem_nodes_wrap_scaffold solid (by decide),
    mem_nodes_wrap_scaffold solid (by decide)]

theorem mem_nodes_captionOf_iff {title caption : Option Emission} (titled : ∀ e ∈ title, e.Plain)
    (captioned : ∀ e ∈ caption, e.Plain) : m ∈ (captionOf [title, caption]).nodes ↔
      (∃ e ∈ title, m ∈ e.nodes) ∨ ∃ e ∈ caption, m ∈ e.nodes := by
  have inside (e : Emission) : m ∈ (Emission.wrap "caption" .empty e).nodes ↔ m ∈ e.nodes :=
    mem_nodes_wrap_scaffold solid (by decide)
  have last {e : Emission} (plain : e.Plain) : m ∈ (e.join .empty).nodes ↔ m ∈ e.nodes := by
    rw [mem_nodes_join_iff solid plain .empty, nodes_empty]
    simp
  cases title with
  | none =>
    cases caption with
    | none => simp [captionOf, nodes_empty]
    | some part =>
      rw [show captionOf [none, some part] = .wrap "caption" .empty (part.join .empty) from rfl,
        inside, last (captioned part rfl)]
      simp
  | some first =>
    cases caption with
    | none =>
      rw [show captionOf [some first, none] = .wrap "caption" .empty (first.join .empty) from rfl,
        inside, last (titled first rfl)]
      simp
    | some part =>
      rw [show captionOf [some first, some part] =
          .wrap "caption" .empty (first.join (part.join .empty)) from rfl, inside,
        mem_nodes_join_iff solid (titled first rfl) (.join (captioned part rfl) .empty),
        last (captioned part rfl)]
      simp

end

end

/-! ### An element and its parts -/

/-- The children of some elements, in the setting where they are rendered. -/
def below (s : Setting) (ns : List Node) : List (Setting × Node) :=
  ns.flatMap fun n => n.kids.map (s, ·)

/-- The parts of an element: the elements that are rendered one by one when it is. A figure and a
table have those that their captions show, and a table has all the others as well. -/
def parts (s : Setting) (n : Node) : List (Setting × Node) :=
  let title := (n.findKind? "title").toList
  match ruleOf n with
  | .children | .wrap .. | .title | .tabs => below s [n]
  | .formula _ => if (formulaTex? s.formulas n).isSome then [] else below s [n]
  | .figure => below s.inside (title ++ (n.findKind? "caption").toList)
  | .table =>
    let caption := (n.findKind? "caption").or (n.findKind? "label")
    below s.inside (title ++ caption.toList ++ [withoutCaptionParts n])
  | .text | .leaf .. | .separator | .code | .nothing | .unknown => []

/-- The node that stands for an element itself, around what its parts are rendered as. -/
def own? (s : Setting) (n : Node) : Option Node :=
  let single := (render s n).forest.head?
  match ruleOf n with
  | .wrap .. | .leaf .. | .separator | .title | .tabs | .figure | .table | .code => single
  | .formula _ => if (formulaTex? s.formulas n).isSome then single else none
  | .children | .text | .nothing | .unknown => none

@[simp] theorem mem_below_iff {s t : Setting} {ns : List Node} {c : Node} :
    (t, c) ∈ below s ns ↔ t = s ∧ ∃ n ∈ ns, c ∈ n.kids := by
  simp only [below, List.mem_flatMap, List.mem_map, Prod.mk.injEq]
  constructor
  · rintro ⟨n, mem, c, child, rfl, rfl⟩
    exact ⟨rfl, n, mem, child⟩
  · rintro ⟨rfl, n, mem, child⟩
    exact ⟨n, mem, c, child, rfl, rfl⟩

theorem below_append (s : Setting) (xs ys : List Node) :
    below s (xs ++ ys) = below s xs ++ below s ys :=
  List.flatMap_append

theorem exists_mem_below_iff {s : Setting} {ns : List Node} {p : Setting × Node → Prop} :
    (∃ part ∈ below s ns, p part) ↔ ∃ n ∈ ns, ∃ c ∈ n.kids, p (s, c) := by
  constructor
  · rintro ⟨⟨t, c⟩, mem, here⟩
    obtain ⟨rfl, n, mem, child⟩ := mem_below_iff.1 mem
    exact ⟨n, mem, c, child, here⟩
  · rintro ⟨n, mem, c, child, here⟩
    exact ⟨(s, c), mem_below_iff.2 ⟨rfl, n, mem, child⟩, here⟩

theorem mem_nodes_shown_iff {s : Setting} {m : Node} {shown : Option Node} {f : Node → Emission}
    (each : ∀ n, m ∈ (f n).nodes ↔ ∃ c ∈ n.kids, m ∈ (render s c).nodes) :
    (∃ e ∈ shown.map f, m ∈ e.nodes) ↔
      ∃ part ∈ below s shown.toList, m ∈ (render part.1 part.2).nodes := by
  rw [exists_mem_below_iff]
  cases shown <;> simp [each]

theorem mem_nodes_shown_or_iff {s : Setting} {m : Node} {shown other : Option Node}
    {f g : Node → Emission}
    (each : ∀ n, m ∈ (f n).nodes ↔ ∃ c ∈ n.kids, m ∈ (render s c).nodes)
    (instead : ∀ n, m ∈ (g n).nodes ↔ ∃ c ∈ n.kids, m ∈ (render s c).nodes) :
    (∃ e ∈ (shown.map f).or (other.map g), m ∈ e.nodes) ↔
      ∃ part ∈ below s (shown.or other).toList, m ∈ (render part.1 part.2).nodes := by
  cases shown with
  | some n => exact @mem_nodes_shown_iff s m (some n) f each
  | none => exact mem_nodes_shown_iff instead

theorem mem_nodes_below_iff (s : Setting) (n m : Node) :
    (∃ part ∈ below s [n], m ∈ (render part.1 part.2).nodes) ↔
      ∃ c ∈ n.kids, m ∈ (render s c).nodes := by
  rw [exists_mem_below_iff]
  simp

section
variable {s : Setting} {m : Node} (solid : m.kind ∉ scaffoldKinds)
include solid

theorem mem_nodes_titlePart_iff (n : Node) : (∃ e ∈ titlePart s n, m ∈ e.nodes) ↔
    ∃ part ∈ below s.inside (n.findKind? "title").toList, m ∈ (render part.1 part.2).nodes :=
  mem_nodes_shown_iff fun _ =>
    (mem_nodes_boldParagraph_iff solid).trans (mem_nodes_content_iff solid)

theorem mem_nodes_captionPart_iff (n : Node) : (∃ e ∈ captionPart s n, m ∈ e.nodes) ↔
    ∃ part ∈ below s.inside (n.findKind? "caption").toList, m ∈ (render part.1 part.2).nodes :=
  mem_nodes_shown_iff fun _ => mem_nodes_renderAll_iff solid

theorem mem_nodes_captionPart_or_iff (n : Node) :
    (∃ e ∈ (captionPart s n).or (labelPart s n), m ∈ e.nodes) ↔
      ∃ part ∈ below s.inside ((n.findKind? "caption").or (n.findKind? "label")).toList,
        m ∈ (render part.1 part.2).nodes :=
  mem_nodes_shown_or_iff (fun _ => mem_nodes_renderAll_iff solid) fun _ =>
    (mem_nodes_wrap_scaffold solid (by decide)).trans (mem_nodes_content_iff solid)

theorem mem_nodes_render_figure_iff {n : Node} (rule : ruleOf n = .figure) :
    m ∈ (render s n).nodes ↔
      own? s n = some m ∨ ∃ part ∈ parts s n, m ∈ (render part.1 part.2).nodes := by
  rw [own?, parts, rule, render_figure s rule]
  apply mem_nodes_around_iff
  rw [mem_nodes_join_iff solid (plain_figureImage n) (plain_captionOf _),
    mem_nodes_captionOf_iff solid plain_titlePart plain_captionPart, mem_nodes_titlePart_iff solid,
    mem_nodes_captionPart_iff solid, or_iff_right (not_mem_nodes_figureImage solid n)]
  simp only [below_append, List.mem_append, or_and_right, exists_or]

theorem mem_nodes_render_table_iff {n : Node} (rule : ruleOf n = .table) :
    m ∈ (render s n).nodes ↔
      own? s n = some m ∨ ∃ part ∈ parts s n, m ∈ (render part.1 part.2).nodes := by
  rw [own?, parts, rule, render_table s rule]
  apply mem_nodes_around_iff
  rw [mem_nodes_join_iff solid (plain_captionOf _) plain_renderAll,
    mem_nodes_captionOf_iff solid plain_titlePart plain_captionPart_or,
    mem_nodes_titlePart_iff solid, mem_nodes_captionPart_or_iff solid,
    mem_nodes_renderAll_iff solid]
  simp only [below_append, List.mem_append, or_and_right, exists_or]
  rw [mem_nodes_below_iff]

/-- The nodes that an element is rendered as are its own one and those of its parts. -/
theorem mem_nodes_render_iff {n : Node} : m ∈ (render s n).nodes ↔
    own? s n = some m ∨ ∃ part ∈ parts s n, m ∈ (render part.1 part.2).nodes := by
  cases rule : ruleOf n with
  | figure => exact mem_nodes_render_figure_iff solid rule
  | table => exact mem_nodes_render_table_iff solid rule
  | children =>
    rw [own?, parts, render, rule]
    refine (mem_nodes_renderAll_iff solid).trans ?_
    simpa only [reduceCtorEq, false_or] using (mem_nodes_below_iff s n m).symm
  | text =>
    rw [own?, parts, render, rule]
    simpa using not_mem_nodes_ofText solid _
  | wrap kind attrs report =>
    rw [own?, parts, render, rule]
    exact mem_nodes_around_iff
      ((mem_nodes_content_iff solid).trans (mem_nodes_below_iff s n m).symm)
  | leaf kind attrs =>
    rw [own?, parts, render, rule]
    simpa using mem_nodes_leaf_iff rfl
  | separator =>
    rw [own?, parts, render, rule]
    cases s.inContainer with
    | true => simp [Emission.empty, Emission.nodes, forestNodes]
    | false => simpa using mem_nodes_leaf_iff rfl
  | title =>
    rw [own?, parts, render, rule]
    apply mem_nodes_around_iff
    rw [mem_nodes_wrap_scaffold solid (by decide), mem_nodes_content_iff solid,
      mem_nodes_below_iff]
  | formula kind =>
    rw [own?, parts, render, rule]
    cases formulaTex? s.formulas n with
    | some tex => simpa using mem_nodes_leaf_iff rfl
    | none =>
      refine (mem_nodes_renderAll_iff solid).trans ?_
      simpa using (mem_nodes_below_iff s n m).symm
  | tabs =>
    rw [own?, parts, render, rule]
    exact mem_nodes_around_iff
      ((mem_nodes_renderTabs_iff solid).trans (mem_nodes_below_iff s n m).symm)
  | code =>
    rw [own?, parts, render, rule]
    simpa using mem_nodes_leaf_iff rfl
  | nothing =>
    rw [own?, parts, render, rule]
    simp [nodes_empty]
  | unknown =>
    rw [own?, parts, render, rule]
    simp [nodes_ofReport]

end

/-! ### The elements that rendering gets to -/

/-- Whether rendering one element gets to another: by way of parts, and in which setting. -/
inductive Reaches : Setting → Node → Setting → Node → Prop
  | here (s : Setting) (n : Node) : Reaches s n s n
  | part {s t u : Setting} {n c e : Node} (isPart : (t, c) ∈ parts s n)
    (below : Reaches t c u e) : Reaches s n u e

/-- Whether rendering the children of a tree gets to an element. -/
def Reached (formulas : Formula.Converter) (tree : Node) (s : Setting) (e : Node) : Prop :=
  ∃ c ∈ tree.kids, Reaches ⟨formulas, false⟩ c s e

/-- Whether an element is emitted as a node of the document of a tree. -/
def EmittedAs (formulas : Formula.Converter) (tree e m : Node) : Prop :=
  ∃ s, Reached formulas tree s e ∧ own? s e = some m

/-- A part is a child of the element, of one below it, or of what a caption leaves of a table. -/
theorem exists_holder {s t : Setting} {n c : Node} (isPart : (t, c) ∈ parts s n) :
    ∃ holder, c ∈ holder.kids ∧
      (holder = n ∨ holder ∈ n.descendants ∨ holder = withoutCaptionParts n) := by
  have among {u : Setting} {ns : List Node} (isPart : (t, c) ∈ below u ns) :
      ∃ holder ∈ ns, c ∈ holder.kids := (mem_below_iff.1 isPart).2
  have own {u : Setting} (isPart : (t, c) ∈ below u [n]) : c ∈ n.kids := by
    simpa using among isPart
  have found {kind : String} {m : Node} (found : n.findKind? kind = some m) : m ∈ n.descendants :=
    List.mem_of_find?_eq_some found
  unfold parts at isPart
  cases rule : ruleOf n with
  | children | wrap _ _ _ | title | tabs =>
    rw [rule] at isPart
    exact ⟨n, own isPart, .inl rfl⟩
  | formula kind =>
    simp only [rule] at isPart
    split at isPart
    · cases isPart
    · exact ⟨n, own isPart, .inl rfl⟩
  | figure =>
    simp only [rule] at isPart
    obtain ⟨holder, shown, child⟩ := among isPart
    simp only [List.mem_append, Option.mem_toList] at shown
    exact ⟨holder, child, .inr (.inl (shown.elim found found))⟩
  -- A table has parts below the nodes that its caption shows, and in what is left without these.
  | table =>
    simp only [rule] at isPart
    obtain ⟨holder, shown, child⟩ := among isPart
    simp only [List.mem_append, Option.mem_toList, List.mem_singleton] at shown
    refine ⟨holder, child, .inr ?_⟩
    rcases shown with (title | shown) | rest
    · exact .inl (found title)
    · rcases Option.or_eq_some_iff.1 shown with caption | ⟨-, label⟩
      · exact .inl (found caption)
      · exact .inl (found label)
    · exact .inr rest
  | text | leaf _ _ | separator | code | nothing | unknown =>
    rw [rule] at isPart
    cases isPart

theorem size_lt_of_mem_parts {s t : Setting} {n c : Node} (isPart : (t, c) ∈ parts s n) :
    c.size < n.size := by
  obtain ⟨holder, child, place⟩ := exists_holder isPart
  refine Nat.lt_of_lt_of_le (size_lt_of_mem_kids child) ?_
  rcases place with rfl | below | rfl
  · exact Nat.le_refl _
  · exact Nat.le_of_lt (size_lt_of_mem_descendants below)
  · exact size_withoutCaptionParts_le n

theorem mem_nodes_render_iff_reaches {s : Setting} {n m : Node} (solid : m.kind ∉ scaffoldKinds) :
    m ∈ (render s n).nodes ↔ ∃ t e, Reaches s n t e ∧ own? t e = some m := by
  constructor
  · intro mem
    induction size : n.size using Nat.strongRecOn generalizing s n with
    | ind k ih =>
      rcases (mem_nodes_render_iff solid).1 mem with own | ⟨⟨t, c⟩, isPart, mem⟩
      · exact ⟨s, n, .here s n, own⟩
      · obtain ⟨u, e, below, own⟩ := ih _ (size ▸ size_lt_of_mem_parts isPart) mem rfl
        exact ⟨u, e, .part isPart below, own⟩
  · rintro ⟨t, e, reaches, own⟩
    induction reaches with
    | here s n => exact (mem_nodes_render_iff solid).2 (.inl own)
    | part isPart _ ih => exact (mem_nodes_render_iff solid).2 (.inr ⟨_, isPart, ih own⟩)

/-- The nodes of a document that are not there around others are those that elements of the tree
are emitted as. -/
theorem mem_descendants_emit_iff {formulas : Formula.Converter} {tree m : Node}
    (solid : m.kind ∉ scaffoldKinds) :
    m ∈ (emit formulas tree).1.descendants ↔ ∃ e, EmittedAs formulas tree e m := by
  rw [emit_eq, descendants_eq]
  show m ∈ (renderAll ⟨formulas, false⟩ tree.kids).nodes ↔ _
  simp only [mem_nodes_renderAll_iff solid, mem_nodes_render_iff_reaches solid]
  constructor
  · rintro ⟨c, child, t, e, reaches, own⟩
    exact ⟨e, t, ⟨c, child, reaches⟩, own⟩
  · rintro ⟨e, t, ⟨c, child, reaches⟩, own⟩
    exact ⟨c, child, t, e, reaches, own⟩

end Manuscript.Myst
