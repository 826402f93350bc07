import Mathlib.Data.List.Chain
import Manuscript.Proofs.Citation.CleanPass
import Manuscript.Proofs.Tree.Everywhere

/-!
When other children give the rules for citations no more to do. A rule looks at a citation, at a
superscript, or at two or three neighbours of which every second one is a group, so that other
neighbours may come together as they like.
-/

set_option autoImplicit false

namespace Manuscript.Node

/-- Two nodes of a list with the nodes between them. -/
structure Span where
  first : Node
  between : List Node
  last : Node

def Span.nodes (s : Span) : List Node := s.first :: (s.between ++ [s.last])

/-- All that is skipped between two nodes of a list, of which the second one is not skipped. -/
def spans (skipped : Node → Bool) : List Node → List Span
  | [] => []
  | n :: ns =>
    match ns.dropWhile skipped with
    | m :: _ => ⟨n, ns.takeWhile skipped, m⟩ :: spans skipped ns
    | [] => spans skipped ns

theorem mem_spans {skipped : Node → Bool} {ns : List Node} {s : Span} (inside : s.nodes <:+: ns)
    (between : ∀ c ∈ s.between, skipped c = true) (last : skipped s.last = false) :
    s ∈ spans skipped ns := by
  induction ns with
  | nil => exact absurd (List.infix_nil.1 inside) (List.cons_ne_nil _ _)
  | cons n ns ih =>
    have stop : ¬skipped s.last = true := Bool.not_eq_true _ ▸ last
    rw [spans]
    rcases List.infix_cons_iff.1 inside with ⟨rest, front⟩ | later
    · obtain ⟨rfl, rfl⟩ := List.cons.inj front
      rw [List.append_eq, List.append_assoc, List.takeWhile_append_of_pos between,
        List.dropWhile_append_of_pos between, List.singleton_append, List.dropWhile_cons_of_neg stop,
        List.takeWhile_cons_of_neg stop, List.append_nil]
      exact List.mem_cons_self
    · split
      · exact List.mem_cons_of_mem _ (ih later)
      · exact ih later

theorem of_mem_spans {skipped : Node → Bool} {ns : List Node} {s : Span}
    (mem : s ∈ spans skipped ns) : s.nodes <:+: ns ∧ ∀ c ∈ s.between, skipped c = true := by
  induction ns with
  | nil => cases mem
  | cons n ns ih =>
    have later (mem : s ∈ spans skipped ns) :
        s.nodes <:+: n :: ns ∧ ∀ c ∈ s.between, skipped c = true :=
      (ih mem).imp_left fun inside => List.infix_cons_iff.2 (.inr inside)
    rw [spans] at mem
    split at mem
    · next m ms rest =>
      rcases List.mem_cons.1 mem with rfl | mem
      · refine ⟨⟨[], ms, ?_⟩, List.all_eq_true.1 List.all_takeWhile⟩
        simp [Span.nodes, ← rest, List.takeWhile_append_dropWhile]
      · exact later mem
    · exact later mem

theorem spans_suffix {skipped : Node → Bool} {ns ms : List Node} (suffix : ms <:+ ns) :
    spans skipped ms ⊆ spans skipped ns := by
  induction ns with
  | nil => rw [List.suffix_nil.1 suffix]; exact List.Subset.refl _
  | cons n ns ih =>
    rcases List.suffix_cons_iff.1 suffix with rfl | later
    · exact List.Subset.refl _
    · intro s mem
      rw [spans]
      split
      · exact List.mem_cons_of_mem _ (ih later mem)
      · exact ih later mem

end Manuscript.Node

namespace Manuscript.Myst.Citation

open Manuscript.Node

/-- Whether a node is a text or a group. -/
def isRunning (n : Node) : Bool := n.isText || isGroup n

/-- Whether rules look at two nodes when they are neighbours: texts or groups, but not two texts. -/
def isLinked (n m : Node) : Bool := isRunning n && isRunning m && (isGroup n || isGroup m)

/-- Whether removal brings no group next to a text or another group, and leaves no superscript with
a group alone that held more. -/
structure KeepsGroups (removed : Node → Bool) (n : Node) : Prop where
  beside : ∀ s ∈ spans removed n.kids, removed s.first = false → isLinked s.first s.last = true →
    s.between = []
  raised : n.kind = "superscript" → (n.kids.filter (!removed ·)).length = 1 →
    (∀ g ∈ n.kids.filter (!removed ·), isGroup g = true) → n.kids.length = 1

instance (removed : Node → Bool) (n : Node) : Decidable (KeepsGroups removed n) :=
  decidable_of_iff
    ((∀ s ∈ spans removed n.kids, removed s.first = false → isLinked s.first s.last = true →
        s.between = []) ∧
      (n.kind = "superscript" → (n.kids.filter (!removed ·)).length = 1 →
        (∀ g ∈ n.kids.filter (!removed ·), isGroup g = true) → n.kids.length = 1))
    ⟨fun ⟨beside, raised⟩ => ⟨beside, raised⟩, fun keeps => ⟨keeps.beside, keeps.raised⟩⟩

/-- Whether a rule for citations looks at nodes of this kind. -/
def isMarked (n : Node) : Bool := n.isOneOf ["text", "citeGroup", "cite", "superscript"]

/-- Whether a node may come in the place of a child without giving a rule more to do. -/
structure Resembles (d c : Node) : Prop where
  kind : c.kind = d.kind
  value : c.value = d.value
  group : isGroup d = true → c.kids = d.kids
  raised : d.kind = "superscript" → ∀ g, c.kids = [g] → isGroup g = true →
    ∃ h, d.kids = [h] ∧ isGroup h = true

/-- Whether all that rules look at in the second list was in the first one. -/
structure Echoes (ns ms : List Node) : Prop where
  marked : ∀ c ∈ ms, isMarked c = true → ∃ d ∈ ns, Resembles d c
  pair : ∀ x y, [x, y] <:+: ms → isLinked x y = true →
    ∃ d e, [d, e] <:+: ns ∧ Resembles d x ∧ Resembles e y
  triple : ∀ x y z, [x, y, z] <:+: ms → isLinked x y = true → isLinked y z = true →
    ∃ d e k, [d, e, k] <:+: ns ∧ Resembles d x ∧ Resembles e y ∧ Resembles k z

section
variable {n m : Node}

theorem isText_of_isCite (cite : isCite n = true) : n.isText = false := by
  rw [isText, beq_iff_eq.1 cite]
  rfl

theorem isText_of_isGroup (isOne : isGroup n = true) : n.isText = false := by
  rw [isText, kind_of_isGroup isOne]
  rfl

theorem isRunning_of_isText (text : n.isText = true) : isRunning n = true :=
  Bool.or_eq_true_iff.2 (.inl text)

theorem isRunning_of_isGroup (isOne : isGroup n = true) : isRunning n = true :=
  Bool.or_eq_true_iff.2 (.inr isOne)

theorem isMarked_of_isRunning (running : isRunning n = true) : isMarked n = true := by
  rcases Bool.or_eq_true_iff.1 running with text | isOne
  · rw [isMarked, isOneOf, beq_iff_eq.1 text]; rfl
  · rw [isMarked, isOneOf, kind_of_isGroup isOne]; rfl

theorem isMarked_of_isCite (cite : isCite n = true) : isMarked n = true := by
  rw [isMarked, isOneOf, beq_iff_eq.1 cite]; rfl

theorem isMarked_of_raised (raised : n.kind = "superscript") : isMarked n = true := by
  rw [isMarked, isOneOf, raised]; rfl

theorem isLinked_iff : isLinked n m = true ↔
    isRunning n = true ∧ isRunning m = true ∧ (isGroup n = true ∨ isGroup m = true) := by
  rw [isLinked, Bool.and_eq_true, Bool.and_eq_true, Bool.or_eq_true, and_assoc]

theorem isLinked_of_isGroup_left (left : isGroup n = true) (right : isRunning m = true) :
    isLinked n m = true :=
  isLinked_iff.2 ⟨isRunning_of_isGroup left, right, .inl left⟩

theorem isLinked_of_isGroup_right (left : isRunning n = true) (right : isGroup m = true) :
    isLinked n m = true :=
  isLinked_iff.2 ⟨left, isRunning_of_isGroup right, .inr right⟩

theorem isRunning_of_text (text : n.kind = "text") : isRunning n = true :=
  isRunning_of_isText (beq_iff_eq.2 text)

end

/-! ### Resemblance -/

section
variable {d c : Node}

theorem Resembles.refl (n : Node) : Resembles n n :=
  ⟨rfl, rfl, fun _ => rfl, fun _ g only isOne => ⟨g, only, isOne⟩⟩

theorem Resembles.of_isText (text : d.isText = true) (kind : c.kind = d.kind)
    (value : c.value = d.value) : Resembles d c := by
  have text : d.kind = "text" := beq_iff_eq.1 text
  refine ⟨kind, value, fun isOne => ?_, fun raised => ?_⟩
  · rw [isGroup, is, text] at isOne
    cases isOne
  · exact absurd (text.symm.trans raised) (by decide)

theorem Resembles.trans {e : Node} (first : Resembles d c) (second : Resembles c e) :
    Resembles d e := by
  refine ⟨second.kind.trans first.kind, second.value.trans first.value, fun isOne => ?_, ?_⟩
  · rw [second.group ((isGroup_congr first.kind).trans isOne), first.group isOne]
  · intro raised g only isOne
    obtain ⟨h, only, isOne⟩ := second.raised (first.kind.trans raised) g only isOne
    exact first.raised raised h only isOne

theorem Resembles.isRunning_eq (alike : Resembles d c) : isRunning c = isRunning d := by
  rw [isRunning, isRunning, isText, isText, isGroup_congr alike.kind, alike.kind]

theorem Resembles.isLinked_eq {e k : Node} (first : Resembles d c) (second : Resembles e k) :
    isLinked c k = isLinked d e := by
  rw [isLinked, isLinked, first.isRunning_eq, second.isRunning_eq, isGroup_congr first.kind,
    isGroup_congr second.kind]

end

/-! ### Lists that echo another one -/

section
variable {ns ms ks : List Node}

theorem Echoes.trans (first : Echoes ns ms) (second : Echoes ms ks) : Echoes ns ks := by
  constructor
  case marked =>
    intro c mem marked
    obtain ⟨d, place, alike⟩ := second.marked c mem marked
    have marked : isMarked d = true := by rwa [isMarked, isOneOf, alike.kind] at marked
    obtain ⟨e, source, same⟩ := first.marked d place marked
    exact ⟨e, source, same.trans alike⟩
  case pair =>
    intro x y next link
    obtain ⟨d, e, inside, alike, alike'⟩ := second.pair x y next link
    rw [alike.isLinked_eq alike'] at link
    obtain ⟨d', e', source, same, same'⟩ := first.pair d e inside link
    exact ⟨d', e', source, same.trans alike, same'.trans alike'⟩
  case triple =>
    intro x y z next link link'
    obtain ⟨d, e, k, inside, alike, alike', alike''⟩ := second.triple x y z next link link'
    rw [alike.isLinked_eq alike'] at link
    rw [alike'.isLinked_eq alike''] at link'
    obtain ⟨d', e', k', source, same, same', same''⟩ := first.triple d e k inside link link'
    exact ⟨d', e', k', source, same.trans alike, same'.trans alike', same''.trans alike''⟩

/-- Nodes may give way to others if those that a rule looks at resemble what they stand for. -/
theorem echoes_map {f : Node → Node}
    (alike : ∀ d ∈ ns, isMarked (f d) = true → Resembles d (f d)) : Echoes ns (ns.map f) := by
  have running {d : Node} (mem : d ∈ ns) (run : isRunning (f d) = true) : Resembles d (f d) :=
    alike d mem (isMarked_of_isRunning run)
  constructor
  case marked =>
    intro c mem marked
    obtain ⟨d, place, rfl⟩ := List.mem_map.1 mem
    exact ⟨d, place, alike d place marked⟩
  case pair =>
    intro x y next link
    obtain ⟨ds, part, same⟩ := List.infix_map_iff.1 next
    obtain ⟨d, ds, rfl, rfl, tail⟩ := List.map_eq_cons_iff.1 same.symm
    obtain ⟨e, rfl, rfl⟩ := List.map_eq_singleton_iff.1 tail
    obtain ⟨left, right, -⟩ := isLinked_iff.1 link
    exact ⟨d, e, part, running (part.subset (by simp)) left, running (part.subset (by simp)) right⟩
  case triple =>
    intro x y z next link link'
    obtain ⟨ds, part, same⟩ := List.infix_map_iff.1 next
    obtain ⟨d, ds, rfl, rfl, tail⟩ := List.map_eq_cons_iff.1 same.symm
    obtain ⟨e, ds, rfl, rfl, rest⟩ := List.map_eq_cons_iff.1 tail
    obtain ⟨k, rfl, rfl⟩ := List.map_eq_singleton_iff.1 rest
    obtain ⟨left, mid, -⟩ := isLinked_iff.1 link
    obtain ⟨-, right, -⟩ := isLinked_iff.1 link'
    exact ⟨d, e, k, part, running (part.subset (by simp)) left,
      running (part.subset (by simp)) mid, running (part.subset (by simp)) right⟩

section
variable {removed : Node → Bool}

/-- Between linked nodes there is nothing that goes, so that a run of them goes on without a gap. -/
theorem run_of_filter {x : Node} {run tail : List Node} (stays : removed x = false)
    (beside : ∀ s ∈ spans removed (x :: ns), removed s.first = false →
      isLinked s.first s.last = true → s.between = [])
    (same : ns.filter (!removed ·) = run ++ tail)
    (linked : (x :: run).IsChain (isLinked · · = true)) : run <+: ns := by
  induction run generalizing x ns with
  | nil => exact List.nil_prefix
  | cons y run ih =>
    obtain ⟨link, linked⟩ := List.isChain_cons_cons.1 linked
    obtain ⟨gone, rest, rfl, dropped, kept, later⟩ := List.filter_eq_cons_iff.1 same
    have stays' : removed y = false := by simpa using kept
    have between : gone = [] := by
      refine beside ⟨x, gone, y⟩ (mem_spans ?_ (fun c mem => ?_) stays') stays link
      · exact ⟨[], rest, by simp [Span.nodes]⟩
      · simpa using dropped c mem
    subst between
    refine List.cons_prefix_cons.2 ⟨rfl, ih stays' (fun s mem => beside s ?_) later linked⟩
    exact spans_suffix (List.suffix_cons x _) mem

theorem infix_of_filter (beside : ∀ s ∈ spans removed ns, removed s.first = false →
      isLinked s.first s.last = true → s.between = [])
    {run : List Node} (inside : run <:+: ns.filter (!removed ·))
    (linked : run.IsChain (isLinked · · = true)) : run <:+: ns := by
  cases run with
  | nil => exact List.nil_infix
  | cons x run =>
    obtain ⟨before, after, same⟩ := inside
    rw [List.append_assoc] at same
    obtain ⟨front, back, rfl, -, same⟩ := List.filter_eq_append_iff.1 same.symm
    obtain ⟨gone, rest, rfl, -, kept, same⟩ := List.filter_eq_cons_iff.1 same
    have stays : removed x = false := by simpa using kept
    have suffix : x :: rest <:+ front ++ (gone ++ x :: rest) :=
      (List.suffix_append gone _).trans (List.suffix_append front _)
    have run := run_of_filter stays (fun s mem => beside s (spans_suffix suffix mem)) same linked
    exact (List.cons_prefix_cons.2 ⟨rfl, run⟩).isInfix.trans suffix.isInfix

/-- What is left by a removal that brings no two linked nodes together echoes what there was. -/
theorem echoes_filter (beside : ∀ s ∈ spans removed ns, removed s.first = false →
    isLinked s.first s.last = true → s.between = []) : Echoes ns (ns.filter (!removed ·)) := by
  constructor
  case marked => exact fun c mem _ => ⟨c, List.mem_of_mem_filter mem, .refl c⟩
  case pair =>
    intro x y next link
    refine ⟨x, y, infix_of_filter beside next ?_, .refl x, .refl y⟩
    exact List.isChain_pair.2 link
  case triple =>
    intro x y z next link link'
    refine ⟨x, y, z, infix_of_filter beside next ?_, .refl x, .refl y, .refl z⟩
    exact List.isChain_cons_cons.2 ⟨link, List.isChain_pair.2 link'⟩

end

/-! ### Rules -/

namespace Echoes

variable {order : List String}

theorem eq_false_of_kind {p : Node → Bool} (echo : Echoes ns ms)
    (kind : ∀ {d c : Node}, c.kind = d.kind → p c = p d)
    (marks : ∀ {c : Node}, p c = true → isMarked c = true) (none : ∀ d ∈ ns, p d = false) :
    ∀ c ∈ ms, p c = false := by
  intro c mem
  rw [← Bool.not_eq_true]
  intro holds
  obtain ⟨d, place, alike⟩ := echo.marked c mem (marks holds)
  exact absurd ((kind alike.kind).symm.trans holds) (by rw [none d place]; exact Bool.false_ne_true)

theorem apart (echo : Echoes ns ms)
    (apart : ∀ g h, [g, h] <:+: ns → isGroup g = true → isGroup h = false) :
    ∀ g h, [g, h] <:+: ms → isGroup g = true → isGroup h = false := by
  intro g h next left
  rw [← Bool.not_eq_true]
  intro right
  obtain ⟨d, e, inside, first, second⟩ :=
    echo.pair g h next (isLinked_of_isGroup_left left (isRunning_of_isGroup right))
  rw [isGroup_congr first.kind] at left
  rw [isGroup_congr second.kind, apart d e inside left] at right
  cases right

/-- A text between groups was there before, between groups that had the same children. -/
theorem between (echo : Echoes ns ms) {g t h : Node} (next : [g, t, h] <:+: ms)
    (left : isGroup g = true) (right : isGroup h = true) (text : t.kind = "text") :
    ∃ d u e, [d, u, e] <:+: ns ∧ isGroup d = true ∧ isGroup e = true ∧ u.kind = "text" ∧
      u.value = t.value ∧ d.kids = g.kids ∧ e.kids = h.kids := by
  obtain ⟨d, u, e, inside, first, mid, last⟩ := echo.triple g t h next
    (isLinked_of_isGroup_left left (isRunning_of_text text))
    (isLinked_of_isGroup_right (isRunning_of_text text) right)
  have left' : isGroup d = true := isGroup_congr first.kind ▸ left
  have right' : isGroup e = true := isGroup_congr last.kind ▸ right
  exact ⟨d, u, e, inside, left', right', mid.kind ▸ text, mid.value.symm, (first.group left').symm,
    (last.group right').symm⟩

theorem unbracketed (echo : Echoes ns ms)
    (free : ∀ t g u, [t, g, u] <:+: ns → isGroup g = true → t.kind = "text" → u.kind = "text" →
      ¬Closes (t.value.getD "").toList (u.value.getD "").toList) :
    ∀ t g u, [t, g, u] <:+: ms → isGroup g = true → t.kind = "text" → u.kind = "text" →
      ¬Closes (t.value.getD "").toList (u.value.getD "").toList := by
  intro t g u next isOne before after
  obtain ⟨d, e, k, inside, first, second, third⟩ := echo.triple t g u next
    (isLinked_of_isGroup_right (isRunning_of_text before) isOne)
    (isLinked_of_isGroup_left isOne (isRunning_of_text after))
  rw [first.value, third.value]
  exact free d e k inside (isGroup_congr second.kind ▸ isOne) (first.kind ▸ before)
    (third.kind ▸ after)

theorem low (echo : Echoes ns ms)
    (low : ∀ c ∈ ns, c.kind = "superscript" → ∀ g, c.kids = [g] → isGroup g = false) :
    ∀ c ∈ ms, c.kind = "superscript" → ∀ g, c.kids = [g] → isGroup g = false := by
  intro c mem raised g only
  rw [← Bool.not_eq_true]
  intro isOne
  obtain ⟨d, place, alike⟩ := echo.marked c mem (isMarked_of_raised raised)
  have raised' : d.kind = "superscript" := alike.kind ▸ raised
  obtain ⟨h, only', inner⟩ := alike.raised raised' g only isOne
  exact absurd ((low d place raised' h only').symm.trans inner) (by decide)

theorem spaced (echo : Echoes ns ms)
    (spaced : ∀ t g c, [t, g] <:+: ns → t.kind = "text" → isGroup g = true →
      (t.value.getD "").toList.getLast? = some c → Text.isBlank c = true ∨ c = '(' ∨ c = '[') :
    ∀ t g c, [t, g] <:+: ms → t.kind = "text" → isGroup g = true →
      (t.value.getD "").toList.getLast? = some c → Text.isBlank c = true ∨ c = '(' ∨ c = '[' := by
  intro t g c next text isOne last
  obtain ⟨d, e, inside, first, second⟩ :=
    echo.pair t g next (isLinked_of_isGroup_right (isRunning_of_text text) isOne)
  exact spaced d e c inside (first.kind ▸ text) (isGroup_congr second.kind ▸ isOne)
    (first.value ▸ last)

end Echoes

/-- A node stays settled with children that echo those that it had. -/
theorem Settled.of_echoes {order : List String} {n m : Node} (settled : Settled order n)
    (kind : m.kind = n.kind) (bare : isCite m = true → m.children = none)
    (echo : Echoes n.kids m.kids) : Settled order m where
  bare := bare
  grouped single := echo.eq_false_of_kind isCite_congr isMarked_of_isCite
    (settled.grouped ((isGroup_congr kind).symm.trans single))
  flat isOne := echo.eq_false_of_kind isGroup_congr
    (fun inner => isMarked_of_isRunning (isRunning_of_isGroup inner))
    (settled.flat ((isGroup_congr kind).symm.trans isOne))
  apart := echo.apart settled.apart
  unseparated := by
    intro g t h next left right text
    obtain ⟨d, u, e, inside, left, right, text, value, -, -⟩ := echo.between next left right text
    exact value ▸ settled.unseparated d u e inside left right text
  unbound := by
    intro g t h first last next left right text dash only only'
    obtain ⟨d, u, e, inside, left, right, text, value, kids, kids'⟩ :=
      echo.between next left right text
    exact settled.unbound d u e first last inside left right text (value ▸ dash)
      (kids.trans only) (kids'.trans only')
  unbracketed := echo.unbracketed settled.unbracketed
  low := echo.low settled.low
  spaced := echo.spaced settled.spaced

end

end Manuscript.Myst.Citation
