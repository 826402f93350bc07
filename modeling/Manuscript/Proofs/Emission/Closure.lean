import Manuscript.Proofs.Emission.Contribution
import Manuscript.Proofs.Emission.Rules

/-!
What holds of every contribution because texts are told from all other nodes, which are made with
kinds of their own.
-/

set_option autoImplicit false

namespace Manuscript.Myst

open Manuscript.Node

/-- Whether a property is one of all contributions, however they are put together. -/
structure Emission.Closed (P : Emission → Prop) : Prop where
  empty : P .empty
  ofReport : ∀ r, P (.ofReport r)
  ofText : ∀ s, P (.ofText s)
  ofNode : ∀ {n : Node}, n.kind ≠ "text" → n.children = none → P (.ofNode n)
  wrap : ∀ {kind : String} {attrs : Attrs} {e : Emission}, kind ≠ "text" → P e →
    P (.wrap kind attrs e)
  join : ∀ {a b : Emission}, P a → P b → P (a.join b)

/-- Whether the node that a rule makes is no text. -/
def Rule.Solid : Rule → Prop
  | .wrap kind _ _ | .leaf kind _ | .formula kind => kind ≠ "text"
  | _ => True

theorem solid_ruleOf (n : Node) : (ruleOf n).Solid := by
  have other : ∀ kind ∈ ruleKinds, kind ≠ "text" := by decide
  exact makesKind_ruleOf other n

namespace Emission.Closed

variable {P : Emission → Prop} (closed : Closed P)
include closed

theorem gives (n : Node) : (ruleOf n).Gives P n := by
  have solid := solid_ruleOf n
  cases same : ruleOf n with
  | wrap kind attrs report => rw [same] at solid; exact fun _ => closed.wrap solid
  | leaf kind attrs => rw [same] at solid; exact closed.ofNode solid rfl
  | formula kind => rw [same] at solid; exact fun _ => closed.ofNode solid rfl
  | _ => trivial

theorem contributes : Contributes (fun _ => True) P where
  free _ here := here
  empty := closed.empty
  ofReport := closed.ofReport
  ofText := closed.ofText
  join := closed.join
  rule _ := closed.gives _
  bare {kind} _ known := closed.wrap (by
    have other : ∀ kind ∈ bareKinds, kind ≠ "text" := by decide
    exact other kind known)
  tab _ _ := closed.wrap (by decide)
  container _ _ _ := closed.wrap (by decide)
  thematicBreak := closed.ofNode (by decide) rfl
  image _ := closed.ofNode (by simp [leaf]) rfl
  code _ := closed.ofNode (by simp [scalar]) rfl

theorem renderAll (s : Setting) (ns : List Node) : P (renderAll s ns) :=
  closed.contributes.renderAll fun _ _ _ _ => trivial

end Emission.Closed

end Manuscript.Myst
