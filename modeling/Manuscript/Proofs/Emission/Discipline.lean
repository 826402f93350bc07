import Manuscript.Proofs.Emission.Machine
import Manuscript.Proofs.Tree.Place

/-!
The discipline of the stack of open nodes. Rendering leaves the stack as it was, but for what it
adds behind the children of the innermost open node; and in the finished document every node that
was opened stands at one place of its own, below the node that was innermost then.
-/

set_option autoImplicit false

namespace Manuscript.Myst

open Manuscript.Node

namespace Emitter

/-- All nodes that are open, innermost first; the last one is the root. -/
def stack (e : Emitter) : List Frame := e.frames ++ [e.root]

def top (e : Emitter) : Frame := e.frames.headD e.root

theorem length_stack (e : Emitter) : e.stack.length = e.depth := by
  simp [stack, depth, Nat.add_comm]

/-- Whether an emitter is another one with something more in its innermost open node. A text that
stood last there may have become longer. -/
structure Grown (e e' : Emitter) : Prop where
  depth : e'.depth = e.depth
  inContainer : e'.inContainer = e.inContainer
  below : e'.stack.tail = e.stack.tail
  kind : e'.top.kind = e.top.kind
  attrs : e'.top.attrs = e.top.attrs
  isLeaf : e'.top.isLeaf = e.top.isLeaf
  kids : e.top.kids <+: e'.top.kids ∨ ∃ front last s, e.top.kids = front ++ [last] ∧
    last.isText = true ∧ front ++ [extendText last s] <+: e'.top.kids

theorem grown_add (e : Emitter) (c : Emission) : e.Grown (e.add c) := by
  have top : (e.add c).top = e.top.extend c.forest := by
    obtain ⟨root, frames, inContainer, report⟩ := e
    cases frames <;> rfl
  constructor
  case depth =>
    obtain ⟨root, frames, inContainer, report⟩ := e
    cases frames <;> rfl
  case inContainer => exact e.inContainer_add c
  case below =>
    obtain ⟨root, frames, inContainer, report⟩ := e
    cases frames <;> rfl
  case kind => rw [top]; rfl
  case attrs => rw [top]; rfl
  case isLeaf => rw [top]; rfl
  case kids =>
    rw [top, Frame.kids_extend]
    rcases joinForests_cases e.top.kids c.forest with
      apart | ⟨front, last, first, back, before, -, text, -, joined⟩
    · exact .inl ⟨c.forest, apart.symm⟩
    · exact .inr ⟨front, last, first.value.getD "", before, text, back, by rw [joined]; simp⟩

/-! ### Spots of open nodes -/

/-- The place of the next child of the innermost of some open nodes. -/
def site (root : Frame) : List Frame → List Nat
  | [] => [root.kids.length]
  | top :: outer => site root outer ++ [top.kids.length]

def place (e : Emitter) : List Nat :=
  match e.frames with
  | [] => []
  | _ :: outer => site e.root outer

theorem site_eq (e : Emitter) : site e.root e.frames = e.place ++ [e.top.kids.length] := by
  obtain ⟨root, frames, inContainer, report⟩ := e
  cases frames <;> rfl

def entered (e : Emitter) : Action → List Spot
  | .openNode kind attrs _ | .scalar kind _ attrs => [⟨site e.root e.frames, kind, attrs⟩]
  | .separator =>
    if e.inContainer then [] else [⟨site e.root e.frames, "thematicBreak", .empty⟩]
  | .closeNode | .text _ | .setContainer _ | .report _ => []

/-- The spots that a list of actions puts into the document. -/
def journal (e : Emitter) : List Action → List Spot
  | [] => []
  | a :: as => e.entered a ++ (e.act a).journal as

end Emitter

namespace Frame

@[simp] theorem kids_node (f : Frame) : f.node.kids = f.kids := by
  unfold node
  split
  · next leaf =>
    simp only [Bool.and_eq_true, List.isEmpty_iff] at leaf
    simp [Node.leaf, Node.kids, kids, leaf.2]
  · rfl

@[simp] theorem kind_node (f : Frame) : f.node.kind = f.kind := by
  unfold node
  split <;> rfl

@[simp] theorem attrs_node (f : Frame) : f.node.attrs = f.attrs := by
  unfold node
  split <;> rfl

theorem hasLast_add (f : Frame) (n : Node) : (f.add n).node.HasLast f.node n := by
  constructor <;> simp [add, kids]

end Frame

namespace Emitter

theorem finish_append (e : Emitter) (n : Node) :
    (e.append n).finish = closeInto e.root n e.frames := by
  obtain ⟨root, frames, inContainer, report⟩ := e
  cases frames <;> rfl

theorem finish_closeNode (e : Emitter) : e.closeNode.finish = e.finish := by
  obtain ⟨root, frames, inContainer, report⟩ := e
  cases frames with
  | nil => rfl
  | cons top outer => exact finish_append ⟨root, outer, inContainer, report⟩ top.node

theorem at?_closeInto (root : Frame) (n : Node) (outer : List Frame) (path : List Nat) :
    (closeInto root n outer).at? (site root outer ++ path) = n.at? path := by
  induction outer generalizing n path with
  | nil =>
    rw [closeInto, site, List.singleton_append, ← Frame.kids_node root]
    exact (root.hasLast_add n).at?_last path
  | cons top outer ih =>
    rw [closeInto, site, List.append_assoc, ih, List.singleton_append, ← Frame.kids_node top]
    exact (top.hasLast_add n).at?_last path

theorem in_finish (e : Emitter) : Spot.In ⟨e.place, e.top.kind, e.top.attrs⟩ e.finish := by
  obtain ⟨root, frames, inContainer, report⟩ := e
  cases frames with
  | nil => exact ⟨root.node, rfl, root.kind_node, root.attrs_node⟩
  | cons top outer =>
    refine ⟨top.node, ?_, top.kind_node, top.attrs_node⟩
    have found := at?_closeInto root top.node outer []
    rwa [List.append_nil] at found

/-- What a node gains before it is put into the open nodes is gained by the document. -/
theorem gains_closeInto {x y : Node} {new : List Spot} (gains : Gains x y new) (root : Frame)
    (outer : List Frame) : Gains (closeInto root x outer) (closeInto root y outer)
      (new.map (Spot.under (site root outer))) := by
  induction outer generalizing x y new with
  | nil =>
    have last := gains.of_last (root.hasLast_add x) (root.hasLast_add y)
    rwa [Frame.kids_node] at last
  | cons top outer ih =>
    have last := gains.of_last (top.hasLast_add x) (top.hasLast_add y)
    rw [Frame.kids_node] at last
    have whole := ih last
    simp only [List.map_map, Function.comp_def, Spot.under_under] at whole
    exact whole

theorem gains_updateTop (e : Emitter) {f : Frame → Frame} {new : List Spot}
    (gains : Gains e.top.node (f e.top).node new) :
    Gains e.finish (e.updateTop f).finish (new.map (Spot.under e.place)) := by
  obtain ⟨root, frames, inContainer, report⟩ := e
  cases frames with
  | nil =>
    have same : new.map (Spot.under []) = new := List.map_id'' Spot.under_nil new
    rw [place, same]
    exact gains
  | cons top outer => exact gains_closeInto gains root outer

theorem gains_append (e : Emitter) {n : Node} (leaf : n.kids = []) :
    Gains e.finish (e.append n).finish [⟨site e.root e.frames, n.kind, n.attrs⟩] := by
  have gains := Gains.of_leaf (e.top.hasLast_add n) leaf
  rw [Frame.kids_node] at gains
  have whole := gains_updateTop e (f := fun top => top.add n) gains
  rwa [List.map_singleton, Spot.under, ← site_eq] at whole

theorem gains_text (e : Emitter) (s : String) : Gains e.finish (e.text s).finish [] := by
  unfold text
  split
  · exact .refl _
  · suffices gains : Gains e.top.node (e.top.addText s).node [] from
      gains_updateTop e (f := fun top => top.addText s) gains
    generalize e.top = top
    have added := Gains.of_leaf (top.hasLast_add (.text s)) rfl
    have extended := added.of_text (List.forall_mem_singleton.2 rfl)
    obtain ⟨kind, attrs, isLeaf, newest⟩ := top
    cases newest with
    | nil => exact extended
    | cons last older =>
      simp only [Frame.addText]
      split
      -- A text that becomes longer keeps its kind and its attributes, so no spot is lost.
      · have same : Gains last (extendText last s) [] := .of_same rfl rfl rfl
        exact same.of_last (Frame.hasLast_add ⟨kind, attrs, isLeaf, older⟩ last)
          (Frame.hasLast_add ⟨kind, attrs, isLeaf, older⟩ (extendText last s))
      · exact extended

theorem gains_openNode (e : Emitter) (kind : String) (attrs : Attrs) (isLeaf : Bool) :
    Gains e.finish (e.openNode kind attrs isLeaf).finish [⟨site e.root e.frames, kind, attrs⟩] := by
  have gains := gains_append e (n := Frame.node ⟨kind, attrs, isLeaf, []⟩) (Frame.kids_node _)
  rwa [finish_append, Frame.kind_node, Frame.attrs_node] at gains

theorem gains_act (e : Emitter) (a : Action) : Gains e.finish (e.act a).finish (e.entered a) := by
  cases a with
  | openNode kind attrs isLeaf => exact gains_openNode e kind attrs isLeaf
  | closeNode =>
    rw [act, finish_closeNode]
    exact .refl _
  | scalar kind value attrs => exact gains_append e rfl
  | text s => exact gains_text e s
  | separator =>
    rw [act, entered]
    split
    · exact .refl _
    · rw [leaf, finish_closeNode]
      exact gains_openNode e "thematicBreak" .empty true
  | setContainer inContainer => exact .refl _
  | report r => exact .refl _

theorem gains_run (e : Emitter) (as : List Action) :
    Gains e.finish (e.run as).finish (e.journal as) := by
  -- The document is the one that would be finished now: closing nodes does not change it.
  induction as generalizing e with
  | nil => exact .refl _
  | cons a as ih => exact (gains_act e a).trans (ih (e.act a))

/-! ### Runs of an emitter -/

inductive Step where
  | openNode (kind : String) (attrs : Attrs) (isLeaf : Bool)
  | closeNode
  | leaf (kind : String) (attrs : Attrs)
  | text (s : String)
  | render (n : Node)
  | renderChildren (n : Node)

def step (formulas : Formula.Converter) (e : Emitter) : Step → Emitter
  | .openNode kind attrs isLeaf => e.openNode kind attrs isLeaf
  | .closeNode => e.closeNode
  | .leaf kind attrs => e.leaf kind attrs
  | .text s => e.text s
  | .render n => e.render formulas n
  | .renderChildren n => e.renderChildren formulas n

def follow (formulas : Formula.Converter) (e : Emitter) (steps : List Step) : Emitter :=
  steps.foldl (step formulas) e

def actionsOf (formulas : Formula.Converter) (e : Emitter) : Step → List Action
  | .openNode kind attrs isLeaf => [.openNode kind attrs isLeaf]
  | .closeNode => [.closeNode]
  | .leaf kind attrs => leafScript kind attrs
  | .text s => [.text s]
  | .render n => script ⟨formulas, e.inContainer⟩ n
  | .renderChildren n => scriptAll ⟨formulas, e.inContainer⟩ n.kids

def actions (formulas : Formula.Converter) (e : Emitter) : List Step → List Action
  | [] => []
  | s :: steps => e.actionsOf formulas s ++ (e.step formulas s).actions formulas steps

theorem step_eq_run (formulas : Formula.Converter) (e : Emitter) (s : Step) :
    e.step formulas s = e.run (e.actionsOf formulas s) := by
  cases s <;> rfl

theorem follow_eq_run (formulas : Formula.Converter) (e : Emitter) (steps : List Step) :
    e.follow formulas steps = e.run (e.actions formulas steps) := by
  induction steps generalizing e with
  | nil => rfl
  | cons s steps ih =>
    rw [actions, run_append, ← step_eq_run, ← ih]
    rfl

/-! ### The root -/

theorem root_updateTop (e : Emitter) {f : Frame → Frame}
    (same : ∀ top, (f top).kind = top.kind ∧ (f top).attrs = top.attrs) :
    (e.updateTop f).root.kind = e.root.kind ∧ (e.updateTop f).root.attrs = e.root.attrs := by
  obtain ⟨root, frames, inContainer, report⟩ := e
  cases frames with
  | nil => exact same root
  | cons top outer => exact ⟨rfl, rfl⟩

theorem root_closeNode (e : Emitter) :
    e.closeNode.root.kind = e.root.kind ∧ e.closeNode.root.attrs = e.root.attrs := by
  obtain ⟨root, frames, inContainer, report⟩ := e
  cases frames with
  | nil => exact ⟨rfl, rfl⟩
  | cons top outer => exact root_updateTop _ fun _ => ⟨rfl, rfl⟩

theorem root_text (e : Emitter) (s : String) :
    (e.text s).root.kind = e.root.kind ∧ (e.text s).root.attrs = e.root.attrs := by
  unfold text
  split
  · exact ⟨rfl, rfl⟩
  · refine root_updateTop e fun top => ?_
    unfold Frame.addText
    split
    · split <;> exact ⟨rfl, rfl⟩
    · exact ⟨rfl, rfl⟩

theorem root_act (e : Emitter) (a : Action) :
    (e.act a).root.kind = e.root.kind ∧ (e.act a).root.attrs = e.root.attrs := by
  cases a with
  | openNode kind attrs isLeaf => exact ⟨rfl, rfl⟩
  | closeNode => exact root_closeNode e
  | scalar kind value attrs => exact root_updateTop e fun _ => ⟨rfl, rfl⟩
  | text s => exact root_text e s
  | separator =>
    rw [act]
    split
    · exact ⟨rfl, rfl⟩
    · exact root_closeNode (e.openNode "thematicBreak" .empty true)
  | setContainer inContainer => exact ⟨rfl, rfl⟩
  | report r => exact ⟨rfl, rfl⟩

theorem root_run (e : Emitter) (as : List Action) :
    (e.run as).root.kind = e.root.kind ∧ (e.run as).root.attrs = e.root.attrs := by
  induction as generalizing e with
  | nil => exact ⟨rfl, rfl⟩
  | cons a as ih =>
    obtain ⟨kind, attrs⟩ := ih (e.act a)
    exact ⟨kind.trans (root_act e a).1, attrs.trans (root_act e a).2⟩

/-! ### The finished document -/

/-- Whether a document accounts for a run: each node that was put in has a place of its own, one
step below the place of the node that was innermost then, and the document has nothing else but its
root and texts. -/
structure Accounts (tree : Node) (e : Emitter) (as : List Action) : Prop where
  distinct : ((e.journal as).map (·.place)).Nodup
  below : ∀ before a after, as = before ++ a :: after → ∀ s ∈ (e.run before).entered a,
    s.In tree ∧ ∃ i, s.place = (e.run before).place ++ [i] ∧
      Spot.In ⟨(e.run before).place, (e.run before).top.kind, (e.run before).top.attrs⟩ tree
  only : ∀ s : Spot, s.In tree → s.place = [] ∨ s.kind = "text" ∨ s ∈ e.journal as

theorem exists_place_of_entered {e : Emitter} {a : Action} {s : Spot} (mem : s ∈ e.entered a) :
    ∃ i, s.place = e.place ++ [i] := by
  have here : s.place = site e.root e.frames := by
    cases a with
    | openNode kind attrs isLeaf => rw [List.mem_singleton.1 mem]
    | scalar kind value attrs => rw [List.mem_singleton.1 mem]
    | separator =>
      rw [entered] at mem
      split at mem
      · exact absurd mem List.not_mem_nil
      · rw [List.mem_singleton.1 mem]
    | _ => exact absurd mem List.not_mem_nil
  exact ⟨_, here.trans e.site_eq⟩

theorem accounts_run (as : List Action) : Accounts (start.run as).finish start as := by
  have whole := gains_run start as
  constructor
  case distinct => exact whole.distinct
  case below =>
    rintro before a after rfl s mem
    -- The node that was innermost stood in the document of that time, and nothing is lost since.
    have rest := gains_run (start.run before) (a :: after)
    rw [← run_append] at rest
    obtain ⟨i, place⟩ := exists_place_of_entered mem
    exact ⟨rest.stands s (List.mem_append_left _ mem), i, place, rest.kept _ (in_finish _)⟩
  case only =>
    rintro ⟨place, kind, attrs⟩ here
    cases place with
    | nil => exact .inl rfl
    | cons i place =>
      rcases whole.only _ here with root | text | mem
      · obtain ⟨c, child, -⟩ := Spot.in_cons_iff.1 root
        exact absurd child (by simp [start, finish, Frame.kids])
      · exact .inr (.inl text)
      · exact .inr (.inr mem)

/-- Whatever is done from the start on, the root is at the bottom of the stack; rendering only adds
to the innermost open node, whatever the stack is; and the finished document is one root that
accounts for everything that was put in. -/
theorem stack_discipline (formulas : Formula.Converter) :
    (∀ steps, let e := start.follow formulas steps
      1 ≤ e.depth ∧ e.stack.getLast? = some e.root ∧ e.root.kind = "root" ∧
        e.root.attrs = .empty) ∧
    (∀ (e : Emitter) (n : Node),
      e.Grown (e.render formulas n) ∧ e.Grown (e.renderChildren formulas n)) ∧
    ∀ steps, (start.follow formulas steps).finish.kind = "root" ∧
      Accounts (start.follow formulas steps).finish start (start.actions formulas steps) := by
  refine ⟨fun steps => ?_, fun e n => ?_, fun steps => ?_⟩
  · obtain ⟨kind, attrs⟩ := root_run start (start.actions formulas steps)
    rw [← follow_eq_run] at kind attrs
    refine ⟨?_, ?_, kind, attrs⟩
    · rw [← length_stack]
      simp [stack]
    · simp [stack]
  · rw [render_eq_add, renderChildren_eq_add]
    exact ⟨grown_add e _, grown_add e _⟩
  · rw [follow_eq_run]
    have root := (gains_run start (start.actions formulas steps)).kept ⟨[], "root", .empty⟩
      ⟨_, rfl, rfl, rfl⟩
    exact ⟨(Spot.in_nil_iff.1 root).1, accounts_run _⟩

end Emitter

end Manuscript.Myst
