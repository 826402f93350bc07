import Manuscript.Body.Caption
import Manuscript.Body.Section
import Manuscript.Body.Typography

/-!
The normal form in which a body is rendered.
-/

set_option autoImplicit false

namespace Manuscript.Body

/-- The body with flat sections, clean markup and titles where they are shown. -/
def normalize (tree : Node) : Node :=
  hoistTitles (entitleBoxes (typography (flattenSections .heading (dropDataTitles tree))))

end Manuscript.Body
