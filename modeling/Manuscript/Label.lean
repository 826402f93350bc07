import Manuscript.Text.Blank
import Manuscript.Text.Case

/-!
Labels of cross-reference targets. A label is normal when its words stand apart by single spaces;
targets are found by the label in lower case.
-/

set_option autoImplicit false

namespace Manuscript

structure Label where
  label : String
  identifier : String
  deriving DecidableEq

/-- The label that a text gives: its words joined by single spaces. A blank text gives none. -/
def Label.ofText? (s : String) : Option Label :=
  let label := String.intercalate " " (Text.words s)
  if label.isEmpty then none else some ⟨label, Text.lower label⟩

end Manuscript
