import Manuscript.Conversion.Basic
import Manuscript.Proofs.Citation.CleanPass
import Manuscript.Proofs.Citation.Lasting
import Manuscript.Proofs.Citation.Resolution
import Manuscript.Proofs.Document.Rendering

/-!
The shape of a document, and how citing brings it about. Resolving puts citations into groups; the
first two rules of grouping strip the rest of the citations and put them into groups as well; no
rule takes back what is reached, so that it holds after every pass, also where the passes are used
up before the tree is settled.
-/

set_option autoImplicit false

namespace Manuscript.Myst.Citation

open Manuscript.Node Manuscript.Body Manuscript.Reference

/-- The kinds of the nodes of a document below its root. -/
def documentKinds : List String := "citeGroup" :: renderedKinds

/-- A node of one of some kinds with children of these kinds: a root holds blocks, no other node
does unless blocks are allowed there, and a group holds one citation at least and nothing else. -/
structure Shaped (kinds : List String) (allowed : Prop) (n : Node) : Prop where
  own : n.kind = "root" ∨ n.kind ∈ kinds
  below : ∀ c ∈ n.kids, c.kind ∈ kinds
  top : n.kind = "root" → ∀ c ∈ n.kids, c.kind = "block"
  inner : n.kind ≠ "root" → ∀ c ∈ n.kids, BlocksIf allowed c.kind
  group : isGroup n = true → n.kids ≠ [] ∧ ∀ c ∈ n.kids, isCite c = true

/-- A node of a document in which every citation is a leaf. -/
structure Stripped (allowed : Prop) (n : Node) : Prop extends Shaped documentKinds allowed n where
  bare : isCite n = true → n.children = none

/-- A node of a document in which every citation is a leaf in a group. -/
structure Tidy (allowed : Prop) (n : Node) : Prop extends Stripped allowed n where
  grouped : isGroup n = false → ∀ c ∈ n.kids, isCite c = false

section
variable {allowed : Prop} {kinds : List String}

/-- What a node of a kind may be depends on the kinds of its children alone, and on there being any
where it is a group. -/
theorem Shaped.of_kids {n m : Node} (shaped : Shaped kinds allowed n) (kind : m.kind = n.kind)
    (source : ∀ c ∈ m.kids, ∃ d ∈ n.kids, c.kind = d.kind)
    (some : isGroup n = true → m.kids ≠ []) : Shaped kinds allowed m := by
  constructor
  case own => exact kind ▸ shaped.own
  case below =>
    intro c mem
    obtain ⟨d, child, same⟩ := source c mem
    exact same ▸ shaped.below d child
  case top =>
    intro root c mem
    obtain ⟨d, child, same⟩ := source c mem
    exact same.trans (shaped.top (kind ▸ root) d child)
  case inner =>
    intro other c mem
    obtain ⟨d, child, same⟩ := source c mem
    exact same ▸ shaped.inner (kind ▸ other) d child
  case group =>
    intro isOne
    rw [isGroup_congr kind] at isOne
    refine ⟨some isOne, fun c mem => ?_⟩
    obtain ⟨d, child, same⟩ := source c mem
    rw [isCite_congr same]
    exact (shaped.group isOne).2 d child

theorem Stripped.of_kids {n m : Node} (stripped : Stripped allowed n) (kind : m.kind = n.kind)
    (leaf : n.children = none → m.children = none)
    (source : ∀ c ∈ m.kids, ∃ d ∈ n.kids, c.kind = d.kind)
    (some : isGroup n = true → m.kids ≠ []) : Stripped allowed m := by
  refine ⟨stripped.toShaped.of_kids kind source some, fun cite => ?_⟩
  rw [isCite_congr kind] at cite
  exact leaf (stripped.bare cite)

theorem Tidy.of_kids {n m : Node} (tidy : Tidy allowed n) (kind : m.kind = n.kind)
    (leaf : n.children = none → m.children = none)
    (source : ∀ c ∈ m.kids, ∃ d ∈ n.kids, c.kind = d.kind)
    (some : isGroup n = true → m.kids ≠ []) : Tidy allowed m := by
  refine ⟨tidy.toStripped.of_kids kind leaf source some, fun single c mem => ?_⟩
  rw [isGroup_congr kind] at single
  obtain ⟨d, child, same⟩ := source c mem
  rw [isCite_congr same]
  exact tidy.grouped single d child

theorem children_mapChildren_of_leaf {n : Node} {f : List Node → List Node}
    (leaf : n.children = none) : (n.mapChildren f).children = none := by
  rw [mapChildren, leaf]
  rfl

/-- The citations in groups are leaves, so that a change that leaves these alone changes none. -/
theorem kids_eq_of_isGroup {f : Node → Node} {g : Node} (tidy : Everywhere (Tidy allowed) g)
    (isOne : isGroup g = true) (leaf : ∀ c, isCite c = true → c.children = none → f c = c) :
    g.kids.map f = g.kids := by
  have same : g.kids.map f = g.kids.map id := by
    refine List.map_congr_left fun c child => ?_
    have cite := (tidy.here.group isOne).2 c child
    exact leaf c cite ((tidy.below c child).here.bare cite)
  rw [same, List.map_id]

/-- A change of each child that leaves its kind alone gives no child a kind that is new there. -/
theorem exists_kind_of_alike {n : Node} {f : Node → Node}
    (alike : ∀ c ∈ n.kids, (f c).kind = c.kind ∧ (f c).value = c.value) :
    ∀ c ∈ (n.mapChildren (List.map f)).kids, ∃ d ∈ n.kids, c.kind = d.kind := by
  rw [kids_mapChildren_map]
  exact List.forall_mem_map.2 fun c mem => ⟨c, mem, (alike c mem).1⟩

theorem map_kids_ne_nil {n : Node} {f : Node → Node} (some : n.kids ≠ []) :
    (n.mapChildren (List.map f)).kids ≠ [] := by
  rw [kids_mapChildren_map]
  exact fun none => some (List.map_eq_nil_iff.1 none)

theorem local_stripped : Local (Stripped allowed) := by
  intro n f alike stripped
  apply stripped.of_kids (kind_mapChildren _ n) children_mapChildren_of_leaf
  · exact exists_kind_of_alike alike
  · exact fun isOne => map_kids_ne_nil (stripped.group isOne).1

theorem local_tidy : Local (Tidy allowed) := by
  intro n f alike tidy
  apply tidy.of_kids (kind_mapChildren _ n) children_mapChildren_of_leaf
  · exact exists_kind_of_alike alike
  · exact fun isOne => map_kids_ne_nil (tidy.group isOne).1

/-! ### Rendered documents -/

theorem shaped_of_rendered {n : Node} (known : n.kind ∈ renderedKinds)
    (all : ∀ c ∈ n.kids, OfKinds (Rendered allowed) c) : Shaped renderedKinds allowed n := by
  have kids := fun c child => (ofKinds_iff.1 (all c child)).1
  constructor
  case own => exact .inr known
  case below => exact fun c child => (kids c child).1
  case top =>
    intro root
    rw [root] at known
    exact absurd known (by decide)
  case inner => exact fun _ c child => (kids c child).2
  case group =>
    intro isOne
    rw [beq_iff_eq.1 isOne] at known
    exact absurd known (by decide)

theorem everywhere_shaped_of_rendered {n : Node} (known : n.kind ∈ renderedKinds)
    (all : ∀ c ∈ n.kids, OfKinds (Rendered allowed) c) :
    Everywhere (Shaped renderedKinds allowed) n := by
  refine everywhere_iff.2 ⟨shaped_of_rendered known all, fun c child m mem => ?_⟩
  have fits : OfKinds (Rendered allowed) m := (all c child).of_mem_nodes mem
  exact shaped_of_rendered (ofKinds_iff.1 fits).1.1 fits.below

theorem shaped_emit (formulas : Formula.Converter) {tree : Node}
    (outlined : Outlined allowed tree) :
    Everywhere (Shaped renderedKinds allowed) (emit formulas tree).1 := by
  rw [emit_fst, renderAll_blocks outlined.blocks, everywhere_iff]
  have block : "block" ∈ renderedKinds := by decide
  constructor
  · constructor
    case own => exact .inl rfl
    case below => exact List.forall_mem_map.2 fun c _ => block
    case top => exact fun _ => List.forall_mem_map.2 fun c _ => rfl
    case inner => exact fun other => absurd rfl other
    case group => exact nofun
  · refine List.forall_mem_map.2 fun c child => everywhere_shaped_of_rendered block ?_
    exact fits_content (outlined.shallow c child)

/-! ### Resolved citations -/

theorem shaped_leaf {n : Node} (known : n.kind ∈ renderedKinds) (leaf : n.children = none) :
    Everywhere (Shaped documentKinds allowed) n := by
  have bare : n.kids = [] := by rw [kids, leaf]; rfl
  have shaped : Shaped renderedKinds allowed n :=
    shaped_of_rendered known (by rw [bare]; exact List.forall_mem_nil _)
  rw [everywhere_iff, bare]
  refine ⟨?_, List.forall_mem_nil _⟩
  exact { shaped with
    own := .inr (List.mem_cons_of_mem _ known)
    below := fun c child => List.mem_cons_of_mem _ (shaped.below c child) }

theorem shaped_group {g : Node} (isOne : isGroup g = true) (some : g.kids ≠ [])
    (cites : ∀ c ∈ g.kids, isCite c = true) : Shaped documentKinds allowed g := by
  have kind : g.kind = "citeGroup" := beq_iff_eq.1 isOne
  have citeKind : ∀ c ∈ g.kids, c.kind = "cite" := fun c child => beq_iff_eq.1 (cites c child)
  constructor
  case own => exact .inr (by rw [kind]; decide)
  case below => exact fun c child => by rw [citeKind c child]; decide
  case top =>
    intro root
    rw [kind] at root
    exact absurd root (by decide)
  case inner => exact fun _ c child => blocksIf_of_ne _ (by rw [citeKind c child]; decide)
  case group => exact fun _ => ⟨some, cites⟩

/-- A node that is neither a root nor a group may get references to footnotes and groups for
children of its own. -/
theorem Shaped.of_replaced {n m : Node} (shaped : Shaped kinds allowed n)
    (known : ∀ k ∈ kinds, k ∈ documentKinds) (kind : m.kind = n.kind) (single : isGroup n = false)
    (source : ∀ c ∈ m.kids, (∃ d ∈ n.kids, c.kind = d.kind) ∨
      n.kind ≠ "root" ∧ (c.kind = "footnoteReference" ∨ c.kind = "citeGroup")) :
    Shaped documentKinds allowed m := by
  constructor
  case own => exact kind ▸ shaped.own.imp_right (known _)
  case below =>
    intro c mem
    rcases source c mem with ⟨d, child, same⟩ | ⟨_, same | same⟩
    · exact same ▸ known _ (shaped.below d child)
    · rw [same]; decide
    · rw [same]; decide
  case top =>
    intro root c mem
    rcases source c mem with ⟨d, child, same⟩ | ⟨other, _⟩
    · exact same.trans (shaped.top (kind ▸ root) d child)
    · exact absurd (kind ▸ root) other
  case inner =>
    intro other c mem
    rcases source c mem with ⟨d, child, same⟩ | ⟨_, same | same⟩
    · exact same ▸ shaped.inner (kind ▸ other) d child
    · exact blocksIf_of_ne _ (by rw [same]; decide)
    · exact blocksIf_of_ne _ (by rw [same]; decide)
  case group =>
    intro isOne
    rw [isGroup_congr kind, single] at isOne
    cases isOne

/-- What stands for a citation is a reference to a footnote or a group. -/
theorem shaped_expansion {resolutions : List Resolution} {m : Node}
    (mem : m ∈ expansion resolutions) : Everywhere (Shaped documentKinds allowed) m ∧
      (m.kind = "footnoteReference" ∨ m.kind = "citeGroup") := by
  rcases mem_expansion_iff.1 mem with ⟨number, -, rfl⟩ | ⟨some, rfl⟩
  · have kind := kind_pointer "footnoteReference" number
    exact ⟨shaped_leaf (by rw [kind]; decide) (children_pointer _ _), .inl kind⟩
  · have cites : ∀ c ∈ (citing (resolutions.filterMap Resolution.cite?)).kids,
        isCite c = true ∧ Everywhere (Shaped documentKinds allowed) c := by
      rw [kids_citing]
      refine List.forall_mem_map.2 fun label _ => ?_
      have kind : ((pointer "cite" label).setAttr "kind" (.string "parenthetical")).kind =
          "cite" := kind_pointer "cite" label
      refine ⟨beq_iff_eq.2 kind, shaped_leaf ?_ (children_pointer "cite" label)⟩
      rw [kind]
      decide
    refine ⟨everywhere_iff.2 ⟨shaped_group rfl ?_ fun c mem => (cites c mem).1, ?_⟩, .inr rfl⟩
    · rw [kids_citing]
      exact fun none => some (List.map_eq_nil_iff.1 none)
    · exact fun c mem => (cites c mem).2

theorem shaped_resolveBelow {lookup : Lookup} {n : Node}
    (all : Everywhere (Shaped renderedKinds allowed) n) :
    Everywhere (Shaped documentKinds allowed) (resolveBelow lookup n) := by
  induction n using induction_on_kids with
  | node n ih =>
    have here := all.here
    have single : isGroup n = false := by
      rw [isGroup, is, beq_eq_false_iff_ne]
      intro isOne
      rcases here.own with root | known
      · exact absurd (isOne.symm.trans root) (by decide)
      · rw [isOne] at known
        exact absurd known (by decide)
    -- A child stays, or it is a citation, which no root has for a child.
    have members : ∀ m ∈ (resolveBelow lookup n).kids,
        Everywhere (Shaped documentKinds allowed) m ∧ ((∃ c ∈ n.kids, m.kind = c.kind) ∨
          n.kind ≠ "root" ∧ (m.kind = "footnoteReference" ∨ m.kind = "citeGroup")) := by
      intro m mem
      rw [resolveBelow_eq, kids_mapChildren rfl, resolveForest_eq] at mem
      obtain ⟨c, child, mem⟩ := List.mem_flatMap.1 mem
      split at mem
      · next resolutions found =>
        have cite := beq_iff_eq.1 (isCite_of_resolutions? found)
        obtain ⟨shaped, kind⟩ : Everywhere (Shaped documentKinds allowed) m ∧ _ :=
          shaped_expansion mem
        refine ⟨shaped, .inr ⟨fun root => ?_, kind⟩⟩
        exact absurd ((here.top root c child).symm.trans cite) (by decide)
      · rw [List.mem_singleton.1 mem]
        exact ⟨ih c child (all.below c child), .inl ⟨c, child, by rw [resolveBelow_eq]; rfl⟩⟩
    have kind : (resolveBelow lookup n).kind = n.kind := by rw [resolveBelow_eq]; rfl
    refine everywhere_iff.2 ⟨?_, fun m mem => (members m mem).1⟩
    exact here.of_replaced (fun _ => List.mem_cons_of_mem _) kind single
      fun m mem => (members m mem).2

/-! ### Citations on their own -/

theorem stripped_run_bareCites {n : Node} (all : Everywhere (Shaped documentKinds allowed) n) :
    Everywhere (Stripped allowed) (bareCites.run n).1 := by
  apply everywhere_run local_stripped _ all
  intro m all
  have shaped := all.here
  cases changed : (bareCites.onKids m).2 with
  | false =>
    rw [bareCites.here_eq_self changed]
    refine ⟨⟨shaped, ?_⟩, all.below⟩
    intro cite
    simp only [bareCites, cite, Bool.true_and] at changed
    split at changed
    · cases changed
    · next leaf => simpa using leaf
  | true =>
    -- Without children a citation has nothing below it that could be out of shape.
    have stripped : (bareCites.onKids m).1 = none ∧ isCite m = true := by
      simp only [bareCites] at changed ⊢
      split at changed
      · next cite =>
        rw [if_pos cite]
        exact ⟨rfl, (Bool.and_eq_true_iff.1 cite).1⟩
      · cases changed
    have bare : (bareCites.here m).kids = [] := by
      rw [Edit.here, kids, stripped.1]
      rfl
    have kind : m.kind = "cite" := beq_iff_eq.1 stripped.2
    refine ⟨⟨shaped.of_kids rfl ?_ fun isOne => ?_, fun _ => stripped.1⟩, ?_⟩
    · rw [bare]
      exact List.forall_mem_nil _
    · exact absurd (kind.symm.trans (beq_iff_eq.1 isOne)) (by decide)
    · rw [bare]
      exact List.forall_mem_nil _

theorem tidy_run_groupCites {n : Node} (all : Everywhere (Stripped allowed) n) :
    Everywhere (Tidy allowed) (groupCites.run n).1 := by
  apply everywhere_run local_tidy _ all
  intro m all
  have here := all.here
  have scans : groupCites.onKids = wrapCite.onKids (· != "citeGroup") := rfl
  have kids := groupCites.kids_here_of_step scans m
  cases isOne : isGroup m with
  | true =>
    have inside : (m.kind != "citeGroup") = false := by rw [beq_iff_eq.1 isOne]; rfl
    rw [inside, if_neg Bool.false_ne_true] at kids
    have same : groupCites.here m = m := groupCites.here_eq_self <|
      (wrapCite.onKids_changed_eq_false_iff _).2 fun selected => absurd selected (by simp [inside])
    rw [same]
    exact ⟨⟨here, fun single => absurd (isOne.symm.trans single) (by decide)⟩, all.below⟩
  | false =>
    have outside : (m.kind != "citeGroup") = true := by
      rw [isGroup, is] at isOne
      rw [bne, isOne]
      rfl
    rw [outside, if_pos rfl] at kids
    -- What stands outside of groups now: no citations, but the groups that they were put into.
    have members : ∀ c ∈ (groupCites.here m).kids, isCite c = false ∧
        Everywhere (Stripped allowed) c ∧ ((∃ d ∈ m.kids, c.kind = d.kind) ∨
          m.kind ≠ "root" ∧ (c.kind = "footnoteReference" ∨ c.kind = "citeGroup")) := by
      intro c mem
      rw [kids] at mem
      rcases mem_scan_wrapCite mem with ⟨child, other⟩ | ⟨d, child, cite, rfl⟩
      · exact ⟨other, all.below c child, .inl ⟨c, child, rfl⟩⟩
      · have citeKind : d.kind = "cite" := beq_iff_eq.1 cite
        have shaped : Shaped documentKinds allowed (group (d.attr? "kind") [d]) :=
          shaped_group rfl (List.cons_ne_nil _ _) (List.forall_mem_singleton.2 cite)
        refine ⟨rfl, everywhere_iff.2 ⟨⟨shaped, nofun⟩, ?_⟩, .inr ⟨fun root => ?_, .inr rfl⟩⟩
        · exact List.forall_mem_singleton.2 (all.below d child)
        · exact absurd (citeKind.symm.trans (here.top root d child)) (by decide)
    have shaped : Shaped documentKinds allowed (groupCites.here m) :=
      here.toShaped.of_replaced (fun _ => id) rfl isOne fun c mem => (members c mem).2.2
    refine ⟨⟨⟨shaped, fun cite => ?_⟩, fun _ c mem => (members c mem).1⟩,
      fun c mem => (members c mem).2.1⟩
    exact groupCites.children_here_of_step scans (here.bare cite)

/-! ### Groups and what is around them -/

/-- What stands in a tidy node other than a root or a group. -/
structure Part (allowed : Prop) (c : Node) : Prop where
  tidy : Everywhere (Tidy allowed) c
  known : c.kind ∈ documentKinds
  plain : BlocksIf allowed c.kind
  other : isCite c = false

theorem parts_of_tidy {n : Node} (all : Everywhere (Tidy allowed) n) (below : n.kind ≠ "root")
    (single : isGroup n = false) : ∀ c ∈ n.kids, Part allowed c :=
  fun c child => ⟨all.below c child, all.here.below c child, all.here.inner below c child,
    all.here.grouped single c child⟩

theorem tidy_of_parts {n : Node} (own : n.kind = "root" ∨ n.kind ∈ documentKinds)
    (below : n.kind ≠ "root") (single : isGroup n = false)
    (bare : isCite n = true → n.children = none) (parts : ∀ c ∈ n.kids, Part allowed c) :
    Everywhere (Tidy allowed) n := by
  refine everywhere_iff.2 ⟨⟨⟨⟨own, fun c child => (parts c child).known, fun root => ?_,
    fun _ c child => (parts c child).plain, fun isOne => ?_⟩, bare⟩,
    fun _ c child => (parts c child).other⟩, fun c child => (parts c child).tidy⟩
  · exact absurd root below
  · exact absurd (single.symm.trans isOne) (by decide)

/-- A root holds blocks and a group holds citations, so that a node with a group or a superscript in
it is neither. -/
theorem Tidy.plain_of_mem {n c : Node} (tidy : Tidy allowed n) (child : c ∈ n.kids)
    (sort : isGroup c = true ∨ c.kind = "superscript") : n.kind ≠ "root" ∧ isGroup n = false := by
  constructor
  · intro root
    have block := tidy.top root c child
    rcases sort with isOne | raised
    · exact absurd (block.symm.trans (beq_iff_eq.1 isOne)) (by decide)
    · exact absurd (block.symm.trans raised) (by decide)
  · rw [← Bool.not_eq_true]
    intro group
    have cite := beq_iff_eq.1 ((tidy.group group).2 c child)
    rcases sort with isOne | raised
    · exact absurd (cite.symm.trans (beq_iff_eq.1 isOne)) (by decide)
    · exact absurd (cite.symm.trans raised) (by decide)

/-- A rule keeps a document tidy if its step applies to no list without a group or a superscript and
leaves parts where it finds parts. -/
theorem tidy_run_ofStep {s : Step} {applies : String → Bool} {lowers : s.Lowers}
    (needs : ∀ {ns done rest : List Node}, s.next? ns = some (done, rest) →
      ∃ c ∈ ns, isGroup c = true ∨ c.kind = "superscript")
    (keeps : s.Keeps (Part allowed)) {n : Node} (all : Everywhere (Tidy allowed) n) :
    Everywhere (Tidy allowed) ((Edit.ofStep s applies lowers).run n).1 := by
  apply everywhere_run local_tidy _ all
  intro m all
  have here := all.here
  have scans : (Edit.ofStep s applies lowers).onKids = s.onKids applies := rfl
  generalize Edit.ofStep s applies lowers = e at scans
  cases changed : (e.onKids m).2 with
  | false =>
    rw [e.here_eq_self changed]
    exact ⟨here, all.below⟩
  | true =>
    rw [scans] at changed
    obtain ⟨selected, after, done, rest, suffix, found⟩ := s.exists_next?_of_changed changed
    -- Roots and groups have no children that the step applies to, so all that is left are parts.
    obtain ⟨c, mem, sort⟩ := needs found
    obtain ⟨below, single⟩ := here.plain_of_mem (suffix.mem mem) sort
    have left : ∀ c ∈ (e.here m).kids, Part allowed c := by
      rw [e.kids_here_of_step scans, if_pos selected]
      exact s.forall_mem_scan keeps (parts_of_tidy all below single)
    have tidy : Everywhere (Tidy allowed) (e.here m) := tidy_of_parts here.own below single
      (fun cite => e.children_here_of_step scans (here.bare cite)) left
    exact ⟨tidy.here, tidy.below⟩

/-- A node is as good as another one of its kind with the same children. -/
theorem everywhere_tidy_of_same {m n : Node} (kind : m.kind = n.kind)
    (children : m.children = n.children) (tidy : Everywhere (Tidy allowed) n) :
    Everywhere (Tidy allowed) m := by
  have kids : m.kids = n.kids := by rw [Node.kids, children]; rfl
  rw [everywhere_iff, kids]
  refine ⟨tidy.here.of_kids kind children.trans ?_ ?_, tidy.below⟩
  · rw [kids]
    exact fun c mem => ⟨c, mem, rfl⟩
  · rw [kids]
    exact fun isOne => (tidy.here.group isOne).1

theorem part_of_same {m n : Node} (kind : m.kind = n.kind) (children : m.children = n.children)
    (part : Part allowed n) : Part allowed m :=
  ⟨everywhere_tidy_of_same kind children part.tidy, kind ▸ part.known, kind ▸ part.plain, by
    rw [isCite_congr kind]
    exact part.other⟩

theorem part_group {g : Node} (isOne : isGroup g = true) (some : g.kids ≠ [])
    (cites : ∀ c ∈ g.kids, isCite c = true ∧ Everywhere (Tidy allowed) c) : Part allowed g := by
  have kind : g.kind = "citeGroup" := beq_iff_eq.1 isOne
  have other : isCite g = false := by rw [isCite, is, kind]; rfl
  constructor
  case tidy =>
    refine everywhere_iff.2 ⟨⟨⟨shaped_group isOne some fun c mem => (cites c mem).1, ?_⟩, ?_⟩,
      fun c mem => (cites c mem).2⟩
    · exact fun cite => absurd (other.symm.trans cite) (by decide)
    · exact fun single => absurd (isOne.symm.trans single) (by decide)
  case known => rw [kind]; decide
  case plain => exact blocksIf_of_ne _ (by rw [kind]; decide)
  case other => exact other

theorem Part.cites {g : Node} (part : Part allowed g) (isOne : isGroup g = true) :
    g.kids ≠ [] ∧ ∀ c ∈ g.kids, isCite c = true ∧ Everywhere (Tidy allowed) c := by
  obtain ⟨some, cites⟩ := part.tidy.here.group isOne
  exact ⟨some, fun c child => ⟨cites c child, part.tidy.below c child⟩⟩

theorem part_mergeGroups {g h : Node} (left : isGroup g = true) (right : isGroup h = true)
    (first : Part allowed g) (second : Part allowed h) : Part allowed (mergeGroups g h) := by
  apply part_group (g := mergeGroups g h) right
  · exact fun none => (first.cites left).1 (List.append_eq_nil_iff.1 none).1
  · exact List.forall_mem_append.2 ⟨(first.cites left).2, (second.cites right).2⟩

theorem keeps_mergeTouching : mergeTouching.Keeps (Part allowed) := by
  intro ns done rest found parts
  obtain ⟨g, h, tail, rfl, left, right, rfl, rfl⟩ := mergeFront?_eq_some_iff.1 found
  simp only [List.forall_mem_cons] at parts
  obtain ⟨first, second, others⟩ := parts
  refine ⟨List.forall_mem_nil _, List.forall_mem_cons.2 ⟨?_, others⟩⟩
  exact part_mergeGroups left right first second

theorem keeps_mergeSeparated : mergeSeparated.Keeps (Part allowed) := by
  intro ns done rest found parts
  obtain ⟨g, t, h, tail, rfl, left, _, right, rfl, rfl⟩ := joinFront?_eq_some_iff.1 found
  simp only [List.forall_mem_cons] at parts
  obtain ⟨first, _, second, others⟩ := parts
  refine ⟨List.forall_mem_nil _, List.forall_mem_cons.2 ⟨?_, others⟩⟩
  exact part_mergeGroups left right first second

theorem tidy_cite {c : Node} (cite : isCite c = true) (leaf : c.children = none) :
    Everywhere (Tidy allowed) c := by
  have bare : c.kids = [] := by rw [kids, leaf]; rfl
  have known : c.kind ∈ renderedKinds := by rw [beq_iff_eq.1 cite]; decide
  rw [everywhere_iff, bare]
  refine ⟨⟨⟨(shaped_leaf known leaf).here, fun _ => leaf⟩, fun _ => ?_⟩, List.forall_mem_nil _⟩
  rw [bare]
  exact List.forall_mem_nil _

theorem keeps_expandRange (order : List String) : (expandRange order).Keeps (Part allowed) := by
  intro ns done rest found parts
  obtain ⟨g, dash, h, range, rfl, isRange, rfl⟩ := expandFront?_eq_some_iff.1 found
  obtain ⟨_, _, _, first, _, i, j, _, _, start, _, _, rfl⟩ := rangeGroup?_eq_some_iff.1 isRange
  simp only [List.forall_mem_cons] at parts
  refine ⟨List.forall_mem_singleton.2 (part_group rfl ?_ ?_), parts.2.2.2⟩
  · -- The label that starts the range stands in the order, so the range is not empty.
    have inside : i < order.length := by
      obtain ⟨label, _, found⟩ := Option.bind_eq_some_iff.1 start
      exact (List.findIdx?_eq_some_iff_findIdx_eq.1 found).1
    intro none
    have empty := congrArg List.length none
    rw [show (group _ _).kids = List.map _ _ from rfl, List.length_map, List.length_take,
      List.length_drop, List.length_nil] at empty
    omega
  · intro c mem
    obtain ⟨label, _, rfl⟩ := List.mem_map.1 mem
    obtain ⟨cite, leaf⟩ := isCite_citeOf (first.attr? "kind") label
    exact ⟨cite, tidy_cite cite leaf⟩

theorem part_parenthetical {g : Node} (isOne : isGroup g = true) (part : Part allowed g) :
    Part allowed (parenthetical g) := by
  obtain ⟨some, cites⟩ := part.cites isOne
  have kids : (parenthetical g).kids =
      g.kids.map (·.setAttr "kind" (.string "parenthetical")) := rfl
  apply part_group (g := parenthetical g) isOne
  · rw [kids]
    exact fun none => some (List.map_eq_nil_iff.1 none)
  · rw [kids]
    refine List.forall_mem_map.2 fun c mem => ?_
    obtain ⟨cite, tidy⟩ := cites c mem
    exact ⟨cite, tidy_cite cite (tidy.here.bare cite)⟩

theorem part_retext {t : Node} (part : Part allowed t) (cs : List Char) :
    ∀ c ∈ retext t cs, Part allowed c := by
  intro c mem
  rw [mem_retext mem]
  exact part_of_same (n := t) rfl rfl part

theorem keeps_unbracket : unbracket.Keeps (Part allowed) := by
  intro ns done rest found parts
  obtain ⟨before, g, after, tail, rfl, flanked, rfl, rfl⟩ := unbracketFront?_eq_some_iff.1 found
  have isOne := (isBracketed_iff.1 flanked).1
  simp only [List.forall_mem_cons] at parts
  obtain ⟨left, middle, right, others⟩ := parts
  constructor
  · exact List.forall_mem_append.2 ⟨part_retext left _,
      List.forall_mem_singleton.2 (part_parenthetical isOne middle)⟩
  · exact List.forall_mem_append.2 ⟨part_retext right _, others⟩

theorem keeps_lowerGroup : lowerGroup.Keeps (Part allowed) := by
  intro ns done rest found parts
  obtain ⟨n, g, rfl, raised, rfl⟩ := lowerFront?_eq_some_iff.1 found
  obtain ⟨_, only, isOne⟩ := raisedGroup?_eq_some_iff.1 raised
  obtain ⟨first, others⟩ := List.forall_mem_cons.1 parts
  have tidy := first.tidy.below g (by rw [only]; exact List.mem_singleton_self g)
  refine ⟨List.forall_mem_singleton.2 (part_group isOne (tidy.here.group isOne).1 ?_), others⟩
  exact fun c mem => ⟨(tidy.here.group isOne).2 c mem, tidy.below c mem⟩

theorem keeps_addSpace : addSpace.Keeps (Part allowed) := by
  intro ns done rest found parts
  obtain ⟨t, g, tail, rfl, _, _, rfl, rfl⟩ := spaceFront?_eq_some_iff.1 found
  obtain ⟨first, others⟩ := List.forall_mem_cons.1 parts
  exact ⟨List.forall_mem_singleton.2 (part_of_same (n := t) rfl rfl first), others⟩

/-! ### Rules and passes -/

theorem run_flattenGroups_eq_self {n : Node} (all : Everywhere (Tidy allowed) n) :
    (flattenGroups.run n).1 = n := by
  apply flattenGroups.run_eq_self
  rw [flattenGroups.run_changed_eq_false_iff]
  intro m mem
  refine (unwrapGroup.onKids_changed_eq_false_iff _).2 fun isOne => ?_
  rw [scan_unwrapGroup_idle_iff]
  intro c child
  rw [isGroup, is, beq_iff_eq.1 (((all m mem).group isOne).2 c child)]
  rfl

theorem tidy_run (order : List String) {rule : Edit} {n : Node}
    (mem : rule ∈ [flattenGroups, joinGroups, dropSeparators, expandRanges order, dropBrackets,
      lowerGroups, spaceGroups]) (all : Everywhere (Tidy allowed) n) :
    Everywhere (Tidy allowed) (rule.run n).1 := by
  simp only [List.mem_cons, List.not_mem_nil, or_false] at mem
  rcases mem with rfl | rfl | rfl | rfl | rfl | rfl | rfl
  · rw [run_flattenGroups_eq_self all]
    exact all
  · refine tidy_run_ofStep (fun found => ?_) keeps_mergeTouching all
    obtain ⟨g, h, _, rfl, isOne, _⟩ := mergeFront?_eq_some_iff.1 found
    exact ⟨g, List.mem_cons_self, .inl isOne⟩
  · refine tidy_run_ofStep (fun found => ?_) keeps_mergeSeparated all
    obtain ⟨g, t, h, _, rfl, isOne, _⟩ := joinFront?_eq_some_iff.1 found
    exact ⟨g, List.mem_cons_self, .inl isOne⟩
  · refine tidy_run_ofStep (fun found => ?_) (keeps_expandRange order) all
    obtain ⟨g, dash, h, _, rfl, isRange, _⟩ := expandFront?_eq_some_iff.1 found
    exact ⟨g, List.mem_cons_self, .inl (rangeGroup?_eq_some_iff.1 isRange).1⟩
  · refine tidy_run_ofStep (fun found => ?_) keeps_unbracket all
    obtain ⟨_, g, _, _, rfl, flanked, _⟩ := unbracketFront?_eq_some_iff.1 found
    exact ⟨g, List.mem_cons_of_mem _ List.mem_cons_self, .inl (isBracketed_iff.1 flanked).1⟩
  · refine tidy_run_ofStep (fun found => ?_) keeps_lowerGroup all
    obtain ⟨c, g, rfl, raised, _⟩ := lowerFront?_eq_some_iff.1 found
    exact ⟨c, List.mem_cons_self, .inr (beq_iff_eq.1 (raisedGroup?_eq_some_iff.1 raised).1)⟩
  · refine tidy_run_ofStep (fun found => ?_) keeps_addSpace all
    obtain ⟨t, g, _, rfl, isOne, _⟩ := spaceFront?_eq_some_iff.1 found
    exact ⟨g, List.mem_cons_of_mem _ List.mem_cons_self, .inl isOne⟩

theorem tidy_pass (order : List String) {tree : Node}
    (all : Everywhere (Shaped documentKinds allowed) tree) :
    Everywhere (Tidy allowed) (pass order tree).1 := by
  have tidy := tidy_run_groupCites (stripped_run_bareCites all)
  exact runRules_keeps (fun rule mem _ => tidy_run order mem) tidy

theorem tidy_settle (order : List String) (limit : Nat) {tree : Node}
    (all : Everywhere (Shaped documentKinds allowed) tree) :
    Everywhere (Tidy allowed) (settle order (limit + 1) tree).1 := by
  have first := tidy_pass order all
  simp only [settle]
  split
  · cases limit with
    -- The passes are used up, perhaps before the tree is settled.
    | zero => exact first
    | succ limit => exact tidy_settle order limit (first.imp fun _ tidy => tidy.toShaped)
  · exact first

theorem kind_run (e : Edit) (n : Node) : (e.run n).1.kind = n.kind := by
  rw [e.run_fst]
  rfl

theorem kind_settle (order : List String) (limit : Nat) (tree : Node) :
    (settle order limit tree).1.kind = tree.kind :=
  settle_keeps (p := fun n => n.kind = tree.kind)
    (fun _ => runRules_keeps fun rule _ n same => (kind_run rule n).trans same) rfl

/-- A cited document is tidy, also if it is not settled. -/
theorem tidy_cite_document (registry : Registry) (order : List String) {tree : Node}
    (all : Everywhere (Shaped renderedKinds allowed) tree) :
    Everywhere (Tidy allowed) (Conversion.cite registry order tree) :=
  tidy_settle order 63 (shaped_resolveBelow all)

theorem kind_cite_document (registry : Registry) (order : List String) (tree : Node) :
    (Conversion.cite registry order tree).kind = tree.kind := by
  rw [Conversion.cite, groupCitations, kind_settle, resolveBelow_eq]
  rfl

end

end Manuscript.Myst.Citation
