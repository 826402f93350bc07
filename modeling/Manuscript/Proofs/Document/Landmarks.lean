import Manuscript.Conversion.Basic
import Manuscript.Proofs.Citation.Frame
import Manuscript.Proofs.Citation.Resolution
import Manuscript.Proofs.Document.Cleaning
import Manuscript.Proofs.Document.Rendering

/-!
What citing leaves in its place in a document. Headings and footnotes are landmarks: resolving and
grouping pass them by, and make none.
-/

set_option autoImplicit false

namespace Manuscript.Conversion

open Manuscript.Node Manuscript.Myst Manuscript.Myst.Citation

/-! ### Stages -/

/-- A cited document without its lists of abbreviations, and clean. -/
def concluded (f : Frontmatter) (tree : Node) : Node :=
  clean (extractFootnotes (extractSections tree f).tree (extractSections tree f).frontmatter).tree

theorem kind_concluded (f : Frontmatter) (tree : Node) : (concluded f tree).kind = tree.kind := by
  rw [concluded, kind_clean]
  exact (kind_removeWhere _ _).trans (kind_removeWhere _ _)

theorem tree_of_convert {a : Article} {options : Options} {c : Conversion}
    {registry : Reference.Registry}
    (registered : Reference.Registry.ofReferences options.sources a.references = .ok registry)
    (converted : a.convert options = .ok c) :
    c.tree = concluded a.frontmatter (cite registry (registry.order a.references)
      (emit options.formulas (prepare a registry.footnoteGroup?)).1) := by
  unfold Article.convert at converted
  rw [registered] at converted
  cases converted
  rfl

/-! ### Landmarks -/

/-- Whether only headings and footnotes are wanted, and which of them hangs on their identifiers. -/
structure Landmarks (wanted : Node → Bool) : Prop where
  own : ∀ {n : Node}, wanted n = true → n.kind ∈ ["heading", "footnoteDefinition"]
  alike : ∀ {m n : Node}, m.kind = n.kind → m.attr? "identifier" = n.attr? "identifier" →
    wanted m = wanted n

namespace Landmarks

section
variable {wanted : Node → Bool} (landmarks : Landmarks wanted)
include landmarks

theorem inherent : Inherent wanted := fun _ _ => landmarks.alike rfl rfl

theorem unwanted {n : Node} (other : n.kind ∉ ["heading", "footnoteDefinition"]) :
    wanted n = false := by
  rw [← Bool.not_eq_true]
  exact fun isOne => other (landmarks.own isOne)

theorem unwanted_of_contains {n : Node}
    (other : ["heading", "footnoteDefinition"].contains n.kind = false) : wanted n = false := by
  apply landmarks.unwanted
  simpa using other

theorem unwanted_of (kind : String) {n : Node} (same : n.kind = kind)
    (other : kind ∉ ["heading", "footnoteDefinition"]) : wanted n = false :=
  landmarks.unwanted (same ▸ other)

theorem renders {source : Node → Bool} (inherent : Inherent source)
    (heading : ∀ {n : Node}, source n = false → n.kind = "heading" →
      ∀ cs, wanted (.branch "heading" cs (headingAttrs n)) = false)
    (note : ∀ {n : Node}, source n = false → n.kind = "fn" →
      ∀ cs, wanted (.branch "footnoteDefinition" cs (targetAttrs n)) = false) :
    Renders (fun n => source n = false) fun n => wanted n = false := by
  constructor
  case rule =>
    intro n here
    have reference : (referenceRule n).Makes (fun n => wanted n = false) n := by
      unfold referenceRule
      simp only
      split
      all_goals first
        | exact fun _ => landmarks.unwanted_of_contains rfl
        | exact landmarks.unwanted_of_contains rfl
    unfold ruleOf
    split
    -- Only headings and notes have rules that make landmarks.
    all_goals first
      | exact trivial
      | exact reference
      | next same => exact heading here same
      | next same => exact note here same
      | exact fun _ => landmarks.unwanted_of_contains rfl
      | exact landmarks.unwanted_of_contains rfl
  case frame =>
    intro n known
    have all : ∀ kind ∈ frameKinds, kind ∉ ["heading", "footnoteDefinition"] := by decide
    exact landmarks.unwanted (all _ known)
  case free => exact inherent.kidsFree

theorem lasting (order : List String) : Lasting order fun n => wanted n = false := by
  have kept {m n : Node} (here : wanted n = false) (kind : m.kind = n.kind)
      (id : m.attr? "identifier" = n.attr? "identifier") : wanted m = false :=
    (landmarks.alike kind id).trans here
  constructor
  case children => exact fun _ here => kept here rfl rfl
  case stripped => exact fun here => kept here rfl rfl
  case retexted => exact fun _ _ _ here => kept here rfl rfl
  case marked => exact fun value here => kept here rfl (by simp [attr?, setAttr, Dict.find?_insert])
  case grouped =>
    exact fun _ _ => landmarks.unwanted_of "citeGroup" rfl (by decide)
  case regrouped =>
    intro g h isOne kind _ _ _
    exact landmarks.unwanted_of "citeGroup" (kind.trans (kind_of_isGroup isOne)) (by decide)
  case listed =>
    intro kind _ _ _ _ s _ _ _ _ _ _ _
    exact landmarks.unwanted_of "cite" (beq_iff_eq.1 (isCite_citeOf kind s).1) (by decide)

theorem skips_resolveBelow (lookup : Reference.Lookup) :
    Skips wanted Uninvolved (resolveBelow lookup) := by
  have forest := funext (resolveForest_eq lookup)
  refine .of_mapChildren uninvolved_root (fun n _ => resolveBelow_eq lookup n) ?_
  rw [forest]
  refine .flatMap (fun n known => ?_) fun n all => ?_
  · have other : resolutions? lookup n = none := by
      cases found : resolutions? lookup n with
      | none => rfl
      | some resolutions =>
        have cite := beq_iff_eq.1 (isCite_of_resolutions? found)
        exact absurd (show n.kind ∈ involvedKinds by rw [cite]; decide) known
    rw [other, resolveBelow_eq, forest]
  · have replaced (resolutions : List Reference.Resolution) :
        Clear wanted (expansion resolutions) := by
      apply everywhere_expansion
      · exact fun number _ => landmarks.unwanted_of _ (kind_pointer _ number) (by decide)
      · exact fun _ => landmarks.unwanted_of "citeGroup" rfl (by decide)
      · exact fun s _ => landmarks.unwanted_of _ (kind_pointer _ s) (by decide)
    split
    · exact replaced _
    · next kept =>
      refine List.forall_mem_singleton.2
        (everywhere_resolveBelow landmarks.inherent.kidsFree ?_ ?_ kept)
      · exact fun _ resolutions _ => replaced resolutions
      · exact all.imp fun _ here _ => here

theorem skips_cite (registry : Reference.Registry) (order : List String) :
    Skips wanted Uninvolved (cite registry order) := by
  have root (ns : List Node) : wanted (.branch "root" ns) = false :=
    landmarks.unwanted_of "root" rfl (by decide)
  exact (landmarks.skips_resolveBelow registry.lookup).trans uninvolved_root
    (skips_groupCitations (landmarks.lasting order) root)

theorem skips_cleanBy (referenced : Dict Unit) : Skips wanted Undisturbed (cleanBy referenced) :=
  Myst.skips_cleanBy landmarks.inherent
    (fun _ => landmarks.unwanted_of "paragraph" rfl (by decide))
    (fun _ text => landmarks.unwanted_of "text" text (by decide)) referenced

end

end Landmarks

end Manuscript.Conversion
