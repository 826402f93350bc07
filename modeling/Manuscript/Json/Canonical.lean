import Manuscript.Data.Dict
import Manuscript.Json.Value

/-!
The canonical form of a JSON value: the fields of every object by increasing name, of a repeated
field the last value only.
-/

set_option autoImplicit false

namespace Manuscript.Json

mutual
def canonical : Json → Json
  | .array items => .array (canonicalItems items)
  | .object fields => .object (Dict.ofList (canonicalFields fields)).entries
  | value => value

def canonicalItems : List Json → List Json
  | [] => []
  | item :: items => canonical item :: canonicalItems items

def canonicalFields : List (String × Json) → List (String × Json)
  | [] => []
  | (name, value) :: fields => (name, canonical value) :: canonicalFields fields
end

end Manuscript.Json
