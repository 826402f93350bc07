import Mathlib.Data.List.Forall2
import Mathlib.Data.List.Infix
import Manuscript.Proofs.Citation.Neighbours
import Manuscript.Proofs.Document.Neat

/-!
What merging texts does to a settled tree. A merged text starts and ends as texts did that were
there before, so that a group meets no new bracket and lacks no space; only a text between two
groups may come to be a separator or a dash.
-/

set_option autoImplicit false

namespace Manuscript.Myst

open Manuscript.Node

/-- Whether a node is no empty text. -/
def Filled (n : Node) : Prop := isEmptyText n = false

/-- Nodes that merging makes one: a node alone, or texts. -/
inductive Joined : List Node → Node → Prop
  | alone (n : Node) : Joined [n] n
  | more {t u : Node} {ts : List Node} (left : t.isText = true) (right : u.isText = true)
      (rest : Joined ts u) : Joined (t :: ts) (extendText t (u.value.getD ""))

def joinedText (ts : List Node) : String := String.join (ts.map fun t => t.value.getD "")

section
variable {ts : List Node} {n : Node}

theorem Joined.eq_of_not_isText (joined : Joined ts n) (other : n.isText = false) : ts = [n] := by
  cases joined with
  | alone => rfl
  | more left _ _ => exact absurd (other.symm.trans left) (by decide)

theorem Joined.forall_isText (joined : Joined ts n) (text : n.isText = true) :
    ∀ t ∈ ts, t.isText = true := by
  induction joined with
  | alone n => exact List.forall_mem_singleton.2 text
  | more left right _ ih => exact List.forall_mem_cons.2 ⟨left, ih right⟩

theorem Joined.value (joined : Joined ts n) : n.value.getD "" = joinedText ts := by
  induction joined with
  | alone n => simp [joinedText]
  | more left right _ ih => simp [joinedText, extendText, ih]

theorem Joined.ne_nil (joined : Joined ts n) : ts ≠ [] := by
  cases joined <;> exact List.cons_ne_nil _ _

theorem toList_ne_nil_of_filled {t : Node} (text : t.isText = true) (filled : Filled t) :
    (t.value.getD "").toList ≠ [] := by
  simpa [Filled, isEmptyText, text] using filled

theorem Joined.exists_last (joined : Joined ts n) (text : n.isText = true)
    (filled : ∀ t ∈ ts, Filled t) : ∃ front t, ts = front ++ [t] ∧ t.isText = true ∧
      (n.value.getD "").toList.getLast? = (t.value.getD "").toList.getLast? := by
  obtain ⟨front, t, rfl⟩ := (List.eq_nil_or_concat' ts).resolve_left joined.ne_nil
  have mem : t ∈ front ++ [t] := List.mem_append_right _ (List.mem_singleton_self t)
  have isText := joined.forall_isText text t mem
  refine ⟨front, t, rfl, isText, ?_⟩
  rw [joined.value, joinedText, List.map_append, String.join_append, String.toList_append]
  exact List.getLast?_append_of_ne_nil _ (toList_ne_nil_of_filled isText (filled t mem))

theorem Joined.exists_first (joined : Joined ts n) (text : n.isText = true)
    (filled : ∀ t ∈ ts, Filled t) : ∃ t back, ts = t :: back ∧ t.isText = true ∧
      (n.value.getD "").toList.head? = (t.value.getD "").toList.head? := by
  obtain ⟨t, back, rfl⟩ := List.exists_cons_of_ne_nil joined.ne_nil
  have isText := joined.forall_isText text t List.mem_cons_self
  refine ⟨t, back, rfl, isText, ?_⟩
  rw [joined.value, joinedText, List.map_cons, String.join_cons, String.toList_append]
  exact List.head?_append_of_ne_nil _ (toList_ne_nil_of_filled isText (filled t List.mem_cons_self))

end

/-! ### Merged lists -/

theorem exists_blocks (ns : List Node) :
    ∃ blocks : List (List Node), blocks.flatten = ns ∧
      List.Forall₂ Joined blocks (mergeTexts ns) := by
  induction ns with
  | nil => exact ⟨[], rfl, .nil⟩
  | cons n ns ih =>
    obtain ⟨blocks, rfl, joined⟩ := ih
    rw [mergeTexts]
    generalize mergeTexts blocks.flatten = merged at joined
    cases joined with
    | nil => exact ⟨[[n]], rfl, .cons (.alone n) .nil⟩
    | @cons block m blocks ms first rest =>
      dsimp only
      split
      · next texts =>
        obtain ⟨left, right⟩ := Bool.and_eq_true_iff.1 texts
        exact ⟨(n :: block) :: blocks, rfl, .cons (.more left right first) rest⟩
      · exact ⟨[n] :: block :: blocks, rfl, .cons (.alone n) (.cons first rest)⟩

section
variable {ns : List Node}

theorem exists_blocks_of_infix {run : List Node} (inside : run <:+: mergeTexts ns) :
    ∃ blocks : List (List Node), blocks.flatten <:+: ns ∧ List.Forall₂ Joined blocks run := by
  obtain ⟨before, after, same⟩ := inside
  obtain ⟨blocks, flat, joined⟩ := exists_blocks ns
  rw [← same] at joined
  have front := List.forall₂_take_append _ _ _ joined
  refine ⟨(blocks.take (before ++ run).length).drop before.length, ?_,
    List.forall₂_drop_append _ _ _ front⟩
  rw [← flat]
  exact List.IsInfix.flatten
    ((List.drop_suffix _ _).isInfix.trans (List.take_prefix _ _).isInfix)

theorem exists_joined_pair {x y : Node} (next : [x, y] <:+: mergeTexts ns) :
    ∃ xs ys, xs ++ ys <:+: ns ∧ Joined xs x ∧ Joined ys y := by
  obtain ⟨blocks, inside, joined⟩ := exists_blocks_of_infix next
  cases joined with
  | cons first rest =>
    cases rest with
    | cons second none =>
      cases none
      rw [List.flatten_cons, List.flatten_cons, List.flatten_nil, List.append_nil] at inside
      exact ⟨_, _, inside, first, second⟩

theorem exists_joined_triple {x y z : Node} (next : [x, y, z] <:+: mergeTexts ns) :
    ∃ xs ys zs, xs ++ (ys ++ zs) <:+: ns ∧ Joined xs x ∧ Joined ys y ∧ Joined zs z := by
  obtain ⟨blocks, inside, joined⟩ := exists_blocks_of_infix next
  cases joined with
  | cons first rest =>
    cases rest with
    | cons second rest =>
      cases rest with
      | cons third none =>
        cases none
        rw [List.flatten_cons, List.flatten_cons, List.flatten_cons, List.flatten_nil,
          List.append_nil] at inside
        exact ⟨_, _, _, inside, first, second, third⟩

end

theorem mergeTexts_eq_self {ns : List Node} (apart : TextsApart ns) : mergeTexts ns = ns := by
  induction ns with
  | nil => rfl
  | cons n ns ih =>
    rw [mergeTexts, ih fun t u next => apart t u (List.infix_cons_iff.2 (.inr next))]
    cases ns with
    | nil => rfl
    | cons m ms =>
      refine if_neg fun texts => ?_
      obtain ⟨left, right⟩ := Bool.and_eq_true_iff.1 texts
      exact absurd ((apart n m ⟨[], ms, rfl⟩ left).symm.trans right) (by decide)

/-- It is the same whether texts are merged before or after changes that leave texts alone. -/
theorem mergeTexts_map {f : Node → Node} (kind : ∀ n, (f n).kind = n.kind)
    (value : ∀ n, (f n).value = n.value) (grown : ∀ n s, f (extendText n s) = extendText (f n) s)
    (ns : List Node) : mergeTexts (ns.map f) = (mergeTexts ns).map f := by
  have text (n : Node) : (f n).isText = n.isText := congrArg (· == "text") (kind n)
  induction ns with
  | nil => rfl
  | cons n ns ih =>
    rw [List.map_cons, mergeTexts, mergeTexts, ih]
    cases mergeTexts ns with
    | nil => rfl
    | cons m ms =>
      simp only [List.map_cons, text, value]
      split
      · rw [List.map_cons, grown]
      · rfl

theorem kind_joinTexts (n : Node) : (joinTexts n).kind = n.kind := by
  rw [joinTexts_eq, kind_mapChildren, kind_mapChildren]

theorem value_joinTexts (n : Node) : (joinTexts n).value = n.value := by
  rw [joinTexts_eq, value_mapChildren, value_mapChildren]

theorem joinTexts_extendText (n : Node) (s : String) :
    joinTexts (extendText n s) = extendText (joinTexts n) s := by
  rw [joinTexts_eq, joinTexts_eq]
  rfl

theorem kids_joinTexts (n : Node) : (joinTexts n).kids = (mergeTexts n.kids).map joinTexts := by
  rw [joinTexts_eq, kids_mapChildren rfl, kids_mapChildren_map,
    mergeTexts_map kind_joinTexts value_joinTexts joinTexts_extendText]

theorem joinTexts_of_leaf {n : Node} (leaf : n.children = none) : joinTexts n = n := by
  obtain ⟨k, children, v, a⟩ := n
  obtain rfl : children = none := leaf
  rfl

theorem joinTexts_eq_self {n : Node} (neat : NeatTree n) : joinTexts n = n := by
  induction n using induction_on_kids with
  | node n ih =>
    have below : n.kids.map joinTexts = n.kids := by
      rw [List.map_congr_left fun c child => ih c child (neat.below c child), List.map_id']
    rw [joinTexts_eq, mapChildren_of_eq_self below]
    exact mapChildren_of_eq_self (mergeTexts_eq_self neat.here.apart)

/-! ### Settled trees -/

namespace Citation

/-- Whether merging texts makes no separator of several texts between two groups, and no dash of a
range that the two bound. -/
def JoinsNothing (order : List String) (n : Node) : Prop :=
  ∀ s ∈ spans isText n.kids, isGroup s.first = true → isGroup s.last = true →
    2 ≤ s.between.length → isSeparator (joinedText s.between) = false ∧
      rangeGroup? order s.first (.text (joinedText s.between)) s.last = none

instance (order : List String) (n : Node) : Decidable (JoinsNothing order n) :=
  inferInstanceAs (Decidable (∀ s ∈ spans isText n.kids, _))

section
variable {ns : List Node} {g h t u : Node}

theorem mem_of_mem_mergeTexts {c : Node} (mem : c ∈ mergeTexts ns) (other : c.isText = false) :
    c ∈ ns := by
  rcases mem_mergeTexts mem with place | ⟨t, _, s, text, rfl⟩
  · exact place
  · exact absurd (other.symm.trans text) (by decide)

theorem groups_of_mergeTexts (next : [g, h] <:+: mergeTexts ns) (left : isGroup g = true)
    (right : isGroup h = true) : [g, h] <:+: ns := by
  obtain ⟨gs, hs, inside, first, last⟩ := exists_joined_pair next
  rwa [first.eq_of_not_isText (isText_of_isGroup left),
    last.eq_of_not_isText (isText_of_isGroup right)] at inside

/-- A text between two groups is an old one, or several that nothing else kept from these. -/
theorem between_groups (next : [g, t, h] <:+: mergeTexts ns) (left : isGroup g = true)
    (right : isGroup h = true) (text : t.isText = true) :
    [g, t, h] <:+: ns ∨ ∃ s ∈ spans isText ns, s.first = g ∧ s.last = h ∧
      2 ≤ s.between.length ∧ t.value.getD "" = joinedText s.between := by
  obtain ⟨gs, ts, hs, inside, first, mid, last⟩ := exists_joined_triple next
  rw [first.eq_of_not_isText (isText_of_isGroup left),
    last.eq_of_not_isText (isText_of_isGroup right)] at inside
  rcases Nat.lt_or_ge ts.length 2 with short | long
  · cases mid with
    | alone => exact .inl inside
    | more _ _ rest =>
      have some := List.length_pos_iff.2 rest.ne_nil
      rw [List.length_cons] at short
      omega
  · exact .inr ⟨⟨g, ts, h⟩, mem_spans inside (mid.forall_isText text) (isText_of_isGroup right), rfl,
      rfl, long, mid.value⟩

theorem before_group (filled : ∀ c ∈ ns, Filled c) (next : [t, g] <:+: mergeTexts ns)
    (isOne : isGroup g = true) (text : t.isText = true) :
    ∃ t', [t', g] <:+: ns ∧ t'.isText = true ∧
      (t.value.getD "").toList.getLast? = (t'.value.getD "").toList.getLast? := by
  obtain ⟨ts, gs, inside, first, mid⟩ := exists_joined_pair next
  rw [mid.eq_of_not_isText (isText_of_isGroup isOne)] at inside
  obtain ⟨front, t', rfl, text', ends⟩ := first.exists_last text
    fun c place => filled c (inside.subset (List.mem_append_left _ place))
  exact ⟨t', .trans ⟨front, [], by simp⟩ inside, text', ends⟩

theorem around_group (filled : ∀ c ∈ ns, Filled c)
    (next : [t, g, u] <:+: mergeTexts ns) (isOne : isGroup g = true) (before : t.isText = true)
    (after : u.isText = true) :
    ∃ t' u', [t', g, u'] <:+: ns ∧ t'.isText = true ∧ u'.isText = true ∧
      (t.value.getD "").toList.getLast? = (t'.value.getD "").toList.getLast? ∧
      (u.value.getD "").toList.head? = (u'.value.getD "").toList.head? := by
  obtain ⟨ts, gs, us, inside, first, mid, last⟩ := exists_joined_triple next
  rw [mid.eq_of_not_isText (isText_of_isGroup isOne)] at inside
  obtain ⟨front, t', rfl, text, ends⟩ := first.exists_last before
    fun c place => filled c (inside.subset (List.mem_append_left _ place))
  obtain ⟨u', back, rfl, text', starts⟩ := last.exists_first after
    fun c place => filled c (inside.subset (by simp [place]))
  exact ⟨t', u', .trans ⟨front, back, by simp⟩ inside, text, text', ends, starts⟩

end

section
variable {order : List String} {n : Node}

theorem Settled.mergeTexts (settled : Settled order n)
    (filled : ∀ c ∈ n.kids, Filled c) (nothing : JoinsNothing order n) :
    Settled order (n.mapChildren mergeTexts) := by
  have kids : (n.mapChildren Myst.mergeTexts).kids = Myst.mergeTexts n.kids :=
    kids_mapChildren rfl n
  constructor
  case bare =>
    intro cite
    rw [mapChildren, settled.bare cite]
    rfl
  case grouped =>
    rw [kids]
    intro single c mem
    cases text : c.isText with
    | true => exact isCite_of_text (beq_iff_eq.1 text)
    | false => exact settled.grouped single c (mem_of_mem_mergeTexts mem text)
  case flat =>
    rw [kids]
    intro isOne c mem
    cases text : c.isText with
    | true => rw [isGroup, is, beq_iff_eq.1 text]; rfl
    | false => exact settled.flat isOne c (mem_of_mem_mergeTexts mem text)
  case apart =>
    rw [kids]
    intro g h next left
    rw [← Bool.not_eq_true]
    intro right
    have inside := groups_of_mergeTexts next left right
    exact absurd ((settled.apart g h inside left).symm.trans right) (by decide)
  -- The text between two groups is an old one, or a joined one, for which `nothing` speaks.
  case unseparated =>
    rw [kids]
    intro g t h next left right text separator
    rcases between_groups next left right (beq_iff_eq.2 text) with
      inside | ⟨s, mem, rfl, rfl, long, same⟩
    · exact settled.unseparated g t h inside left right text separator
    · have none := (nothing s mem left right long).1
      rw [← same, isSeparator_iff.2 separator] at none
      cases none
  case unbound =>
    rw [kids]
    intro g t h first last next left right text dash only only' cite cite'
    rcases between_groups next left right (beq_iff_eq.2 text) with
      inside | ⟨s, mem, rfl, rfl, long, same⟩
    · exact settled.unbound g t h first last inside left right text dash only only' cite cite'
    · have none := (nothing s mem left right long).2
      refine rangeGroup?_eq_none_iff.1 none first last left right rfl ?_ only only' cite cite'
      rw [← same]
      exact dash
  -- Of a text beside a group only the end towards the group counts, and that is an old end.
  case unbracketed =>
    rw [kids]
    intro t g u next isOne before after
    obtain ⟨t', u', inside, text, text', ends, starts⟩ :=
      around_group filled next isOne (beq_iff_eq.2 before) (beq_iff_eq.2 after)
    rw [Closes, ends, starts]
    exact settled.unbracketed t' g u' inside isOne (beq_iff_eq.1 text) (beq_iff_eq.1 text')
  case low =>
    rw [kids]
    intro c mem raised
    exact settled.low c (mem_of_mem_mergeTexts mem (by rw [isText, raised]; rfl)) raised
  case spaced =>
    rw [kids]
    intro t g c next text isOne last
    obtain ⟨t', inside, text', ends⟩ := before_group filled next isOne (beq_iff_eq.2 text)
    exact settled.spaced t' g c inside (beq_iff_eq.1 text') isOne (ends ▸ last)

variable {allowed : Prop}

theorem children_joinTexts_of_leaf (leaf : n.children = none) : (joinTexts n).children = none := by
  rw [joinTexts_of_leaf leaf, leaf]

/-- Texts are merged in groups to no effect, as these hold citations alone. -/
theorem resembles_joinTexts (tidy : Everywhere (Tidy allowed) n) : Resembles n (joinTexts n) := by
  refine ⟨kind_joinTexts n, value_joinTexts n, fun isOne => ?_, fun raised g only isOne => ?_⟩
  · have cites := (tidy.here.group isOne).2
    have merged : mergeTexts n.kids = n.kids := by
      refine mergeTexts_eq_self fun t u next text => ?_
      exact isText_of_isCite (cites u (next.subset (by simp)))
    rw [kids_joinTexts, merged]
    exact kids_eq_of_isGroup tidy isOne fun c _ => joinTexts_of_leaf
  · rw [kids_joinTexts] at only
    obtain ⟨h, single, rfl⟩ := List.map_eq_singleton_iff.1 only
    rw [isGroup_congr (kind_joinTexts h)] at isOne
    obtain ⟨blocks, same, joined⟩ := exists_blocks n.kids
    rw [single] at joined
    cases joined with
    | cons first none =>
      cases none
      rw [first.eq_of_not_isText (isText_of_isGroup isOne)] at same
      exact ⟨h, same.symm, isOne⟩

theorem settled_joinTexts (tidy : Everywhere (Tidy allowed) n)
    (filled : Everywhere Filled n)
    (nothing : Everywhere (JoinsNothing order) n) (settled : Everywhere (Settled order) n) :
    Everywhere (Settled order) (joinTexts n) := by
  induction n using induction_on_kids with
  | node n ih =>
    have kids := kids_joinTexts n
    have below : ∀ c ∈ n.kids, Everywhere (Settled order) (joinTexts c) := fun c child =>
      ih c child (tidy.below c child) (filled.below c child) (nothing.below c child)
        (settled.below c child)
    refine everywhere_iff.2 ⟨?_, ?_⟩
    · have merged := settled.here.mergeTexts (fun c child => (filled.below c child).here) nothing.here
      refine merged.of_echoes (kind_joinTexts n) (fun cite => ?_) ?_
      · rw [isCite_congr (kind_joinTexts n)] at cite
        exact children_joinTexts_of_leaf (settled.here.bare cite)
      · rw [kids, kids_mapChildren rfl]
        refine echoes_map fun d mem _ => ?_
        rcases mem_mergeTexts mem with child | ⟨t, child, s, text, rfl⟩
        · exact resembles_joinTexts (tidy.below d child)
        · exact .of_isText text (kind_joinTexts _) (value_joinTexts _)
    · rw [kids]
      refine List.forall_mem_map.2 fun d mem => ?_
      rcases mem_mergeTexts mem with child | ⟨t, child, s, text, rfl⟩
      · exact below d child
      · rw [joinTexts_extendText]
        have inside := below t child
        exact everywhere_iff.2 ⟨{ inside.here with }, inside.below⟩

end

end Citation

end Manuscript.Myst
