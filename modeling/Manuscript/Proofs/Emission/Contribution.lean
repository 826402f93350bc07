import Manuscript.Myst.Render
import Manuscript.Proofs.Tree.Everywhere

/-!
What holds of every contribution because it holds of the few ways in which contributions are put
together. An element contributes by its rule; the parts of a figure or a table are elements below
it, which contribute each by their own.
-/

set_option autoImplicit false

namespace Manuscript.Myst

open Manuscript.Node

/-! ### Figures and tables -/

section
variable (s : Setting) {n : Node}

/-- What a figure or a table shows of its title. -/
def titlePart (n : Node) : Option Emission :=
  (n.findKind? "title").map fun title => boldParagraph (content s.inside title)

/-- What a figure or a table shows of its caption. -/
def captionPart (n : Node) : Option Emission :=
  (n.findKind? "caption").map fun caption => renderAll s.inside caption.kids

/-- What a table without a caption shows of its label. -/
def labelPart (n : Node) : Option Emission :=
  (n.findKind? "label").map fun label => .wrap "paragraph" .empty (content s.inside label)

theorem render_figure (rule : ruleOf n = .figure) : render s n =
    .wrap "container" (containerAttrs "figure" n)
      ((figureImage n).join (captionOf [titlePart s n, captionPart s n])) := by
  rw [render, rule]
  simp only
  congr 4
  · unfold titlePart
    split <;> simp [*]
  · unfold captionPart
    split <;> simp [*]

theorem render_table (rule : ruleOf n = .table) : render s n =
    .wrap "container" (containerAttrs "table" n)
      ((captionOf [titlePart s n, (captionPart s n).or (labelPart s n)]).join
        (renderAll s.inside (withoutCaptionParts n).kids)) := by
  rw [render, rule]
  simp only
  congr 4
  · unfold titlePart
    split <;> simp [*]
  · unfold captionPart labelPart
    split
    · simp [*]
    · split <;> simp [*]

end

/-! ### What the parts make -/

theorem forestSize_kids_lt_of_find? {wanted : Node → Bool} {n m : Node}
    (found : n.find? wanted = some m) : forestSize m.kids + 1 < n.size := by
  have := size_lt_of_find? found
  have := size_eq m
  omega

theorem everywhere_withoutCaptionParts {p : Node → Prop} (free : KidsFree p) {n : Node}
    (all : Everywhere p n) : Everywhere p (withoutCaptionParts n) :=
  everywhere_removeNearest free _ (everywhere_removeNearest free _
    (everywhere_removeNearest free _ all))

/-- The kinds of nodes without attributes that are put around contributions whatever the rule. -/
def bareKinds : List String := ["paragraph", "strong", "tabSet", "caption"]

/-- Whether what the rule of an element makes has `P`, if what is below has. -/
def Rule.Gives (P : Emission → Prop) (n : Node) : Rule → Prop
  | .wrap kind attrs _ => ∀ e, P e → P (.wrap kind attrs e)
  | .leaf kind attrs => P (.ofNode (.leaf kind attrs))
  | .formula kind => ∀ tex, P (.ofNode (.scalar kind tex (targetAttrs n)))
  | _ => True

/-- Whether all that elements with `p` contribute has `P`, because the parts of it do. What is asked
of a contribution may hang on whether it is made inside of a container. -/
structure ContributesIn (p : Node → Prop) (P : Bool → Emission → Prop) : Prop where
  free : KidsFree p
  empty : ∀ {inside : Bool}, P inside .empty
  ofReport : ∀ {inside : Bool} (r : Report), P inside (.ofReport r)
  ofText : ∀ {inside : Bool} (s : String), P inside (.ofText s)
  join : ∀ {inside : Bool} {a b : Emission}, P inside a → P inside b → P inside (a.join b)
  rule : ∀ {inside : Bool} {n : Node}, p n → (ruleOf n).Gives (P inside) n
  bare : ∀ {inside : Bool} {kind : String} {e : Emission}, kind ∈ bareKinds → P inside e →
    P inside (.wrap kind .empty e)
  tab : ∀ {inside : Bool} (n : Node) {e : Emission}, P inside e →
    P inside (.wrap "tabItem" (tabAttrs n) e)
  container : ∀ {inside : Bool} (kind : String) (n : Node) {e : Emission}, P true e →
    P inside (.wrap "container" (containerAttrs kind n) e)
  thematicBreak : P false (.ofNode (.leaf "thematicBreak"))
  image : ∀ {inside : Bool} (address : String),
    P inside (.ofNode (.leaf "image" (attrsOf [("url", some (.string address))])))
  code : ∀ {inside : Bool} (n : Node),
    P inside (.ofNode (.scalar "code" n.toText (attrsOf [("lang", textEntry n "language")])))

namespace ContributesIn

variable {p : Node → Prop} {P : Bool → Emission → Prop} (parts : ContributesIn p P)
include parts

theorem boldParagraph {inside : Bool} {inner : Emission} (here : P inside inner) :
    P inside (boldParagraph inner) :=
  parts.bare (by decide) (parts.bare (by decide) here)

theorem foldr {inside : Bool} {es : List Emission} (all : ∀ e ∈ es, P inside e) :
    P inside (es.foldr Emission.join .empty) := by
  induction es with
  | nil => exact parts.empty
  | cons e es ih =>
    obtain ⟨first, rest⟩ := List.forall_mem_cons.1 all
    exact parts.join first (ih rest)

theorem captionOf {inside : Bool} {title caption : Option Emission}
    (titled : ∀ e ∈ title, P inside e) (captioned : ∀ e ∈ caption, P inside e) :
    P inside (captionOf [title, caption]) := by
  unfold Myst.captionOf
  split
  · exact parts.empty
  · refine parts.bare (by decide) (parts.foldr fun e mem => ?_)
    obtain ⟨part, mem, found⟩ := List.mem_filterMap.1 mem
    simp only [List.mem_cons, List.not_mem_nil, or_false] at mem
    rcases mem with rfl | rfl
    · exact titled e found
    · exact captioned e found

theorem figureImage {inside : Bool} (n : Node) : P inside (figureImage n) := by
  unfold Myst.figureImage
  split
  · exact parts.image _
  · exact parts.empty

theorem content_of {s : Setting} {n : Node} (below : P s.inContainer (renderAll s n.kids)) :
    P s.inContainer (content s n) := by
  rw [Myst.content]
  split
  · exact below
  · exact parts.ofText _

section
variable {s : Setting} {n : Node} (shown : ∀ {kind : String} {m : Node},
  n.findKind? kind = some m → P true (renderAll s.inside m.kids))
include shown

theorem titlePart : ∀ e ∈ titlePart s n, P true e := by
  intro e mem
  obtain ⟨title, found, rfl⟩ := Option.map_eq_some_iff.1 mem
  exact parts.boldParagraph (parts.content_of (s := s.inside) (shown found))

omit parts in
theorem captionPart : ∀ e ∈ captionPart s n, P true e := by
  intro e mem
  obtain ⟨caption, found, rfl⟩ := Option.map_eq_some_iff.1 mem
  exact shown found

theorem labelPart : ∀ e ∈ labelPart s n, P true e := by
  intro e mem
  obtain ⟨label, found, rfl⟩ := Option.map_eq_some_iff.1 mem
  exact parts.bare (by decide) (parts.content_of (s := s.inside) (shown found))

theorem figure (rule : ruleOf n = .figure) : P s.inContainer (render s n) := by
  rw [render_figure s rule]
  exact parts.container _ n (parts.join (parts.figureImage n)
    (parts.captionOf (parts.titlePart shown) (captionPart shown)))

theorem table (rule : ruleOf n = .table)
    (rest : P true (renderAll s.inside (withoutCaptionParts n).kids)) :
    P s.inContainer (render s n) := by
  rw [render_table s rule]
  refine parts.container _ n (parts.join (parts.captionOf (parts.titlePart shown) ?_) rest)
  intro e mem
  rcases Option.or_eq_some_iff.1 mem with caption | ⟨-, label⟩
  · exact captionPart shown e caption
  · exact parts.labelPart shown e label

end

mutual
theorem render {s : Setting} {n : Node} (all : Everywhere p n) :
    P s.inContainer (render s n) := by
  have gives : (ruleOf n).Gives (P s.inContainer) n := parts.rule all.here
  have below : P s.inContainer (Myst.renderAll s n.kids) := renderAll all.below
  -- The parts that a figure or a table shows by itself are found somewhere below it.
  have shown {kind : String} {m : Node} (found : n.findKind? kind = some m) :
      P s.inside.inContainer (Myst.renderAll s.inside m.kids) :=
    renderAll (Everywhere.below (all.of_find? found))
  cases rule : ruleOf n
  case figure => exact parts.figure shown rule
  case table =>
    have rest := (everywhere_withoutCaptionParts parts.free all).below
    exact parts.table shown rule (renderAll (s := s.inside) rest)
  all_goals
    rw [Myst.render, rule]
    rw [rule] at gives
  case children => exact below
  case text => exact parts.ofText _
  case wrap kind attrs report =>
    exact parts.join (parts.ofReport report) (gives _ (parts.content_of below))
  case leaf kind attrs => exact gives
  case separator =>
    dsimp only
    split
    · exact parts.empty
    · next outside =>
      rw [Bool.not_eq_true] at outside
      rw [outside]
      exact parts.thematicBreak
  case title => exact parts.boldParagraph (parts.content_of below)
  case formula kind =>
    dsimp only
    split
    · exact gives _
    · exact below
  case tabs => exact parts.bare (by decide) (renderTabs all.below)
  case code => exact parts.code n
  case nothing => exact parts.empty
  case unknown => exact parts.ofReport _
termination_by 2 * n.size
decreasing_by
  all_goals have := size_eq n
  · omega
  · have := forestSize_kids_lt_of_find? found
    omega
  · omega
  · have := size_withoutCaptionParts_le n
    have := size_eq (withoutCaptionParts n)
    omega

theorem renderAll {s : Setting} : {ns : List Node} → (∀ n ∈ ns, Everywhere p n) →
    P s.inContainer (renderAll s ns)
  | [], _ => by
    rw [Myst.renderAll]
    exact parts.empty
  | n :: ns, all => by
    obtain ⟨first, rest⟩ := List.forall_mem_cons.1 all
    rw [Myst.renderAll]
    exact parts.join (render first) (renderAll rest)
termination_by ns => 2 * forestSize ns + 1
decreasing_by
  all_goals simp only [forestSize]
  · omega
  · have := size_pos n; omega

theorem renderTabs {s : Setting} : {ns : List Node} → (∀ n ∈ ns, Everywhere p n) →
    P s.inContainer (renderTabs s ns)
  | [], _ => by
    rw [Myst.renderTabs]
    exact parts.empty
  | n :: ns, all => by
    obtain ⟨first, rest⟩ := List.forall_mem_cons.1 all
    rw [Myst.renderTabs]
    exact parts.join (parts.tab n (render first)) (renderTabs rest)
termination_by ns => 2 * forestSize ns + 1
decreasing_by
  all_goals simp only [forestSize]
  · omega
  · have := size_pos n; omega
end

theorem content {s : Setting} {n : Node} (below : ∀ c ∈ n.kids, Everywhere p c) :
    P s.inContainer (content s n) :=
  parts.content_of (parts.renderAll below)

end ContributesIn

/-- Whether all that elements with `p` contribute has `P`, inside of a container and elsewhere. -/
structure Contributes (p : Node → Prop) (P : Emission → Prop) : Prop where
  free : KidsFree p
  empty : P .empty
  ofReport : ∀ r, P (.ofReport r)
  ofText : ∀ s, P (.ofText s)
  join : ∀ {a b : Emission}, P a → P b → P (a.join b)
  rule : ∀ {n : Node}, p n → (ruleOf n).Gives P n
  bare : ∀ {kind : String} {e : Emission}, kind ∈ bareKinds → P e → P (.wrap kind .empty e)
  tab : ∀ (n : Node) {e : Emission}, P e → P (.wrap "tabItem" (tabAttrs n) e)
  container : ∀ (kind : String) (n : Node) {e : Emission}, P e →
    P (.wrap "container" (containerAttrs kind n) e)
  thematicBreak : P (.ofNode (.leaf "thematicBreak"))
  image : ∀ address, P (.ofNode (.leaf "image" (attrsOf [("url", some (.string address))])))
  code : ∀ n : Node,
    P (.ofNode (.scalar "code" n.toText (attrsOf [("lang", textEntry n "language")])))

namespace Contributes

variable {p : Node → Prop} {P : Emission → Prop} (parts : Contributes p P)
include parts

theorem within : ContributesIn p fun _ => P where
  free := parts.free
  empty := parts.empty
  ofReport := parts.ofReport
  ofText := parts.ofText
  join := parts.join
  rule := parts.rule
  bare := parts.bare
  tab := parts.tab
  container := parts.container
  thematicBreak := parts.thematicBreak
  image := parts.image
  code := parts.code

theorem content {s : Setting} {n : Node} (below : ∀ c ∈ n.kids, Everywhere p c) :
    P (content s n) :=
  parts.within.content below

theorem render {s : Setting} {n : Node} (all : Everywhere p n) : P (render s n) :=
  parts.within.render all

theorem renderAll {s : Setting} {ns : List Node} (all : ∀ n ∈ ns, Everywhere p n) :
    P (renderAll s ns) :=
  parts.within.renderAll all

end Contributes

end Manuscript.Myst
