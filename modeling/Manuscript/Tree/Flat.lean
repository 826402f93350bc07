import Manuscript.Json.Canonical
import Manuscript.Tree.Node

/-!
The flat JSON form of a tree: an object with the fields `type`, `children` and `value`, the last
two only where they are present, and the attributes beside them.
-/

set_option autoImplicit false

namespace Manuscript.Node

mutual
/-- The fields in the order in which they are written. An attribute named like one of the three
first fields stands there as a second field of that name. -/
def flat : Node → Json
  | ⟨k, none, v, a⟩ =>
    .object (("type", .string k) :: (valueField v ++ a.entries))
  | ⟨k, some cs, v, a⟩ =>
    .object
      (("type", .string k) :: ("children", .array (flatAll cs)) :: (valueField v ++ a.entries))

def flatAll : List Node → List Json
  | [] => []
  | n :: ns => flat n :: flatAll ns

def valueField : Option String → List (String × Json)
  | some s => [("value", .string s)]
  | none => []
end

/-- The flat form with sorted fields; of two fields of one name the attribute counts. -/
def toJson (n : Node) : Json := n.flat.canonical

def isReserved (name : String) : Bool := name == "type" || name == "children" || name == "value"

/-- The text of the field `value`: absent and null both mean that there is none. -/
def valueOf? (fields : List (String × Json)) : Option (Option String) :=
  match Dict.lookup "value" fields with
  | none => some none
  | some .null => some none
  | some (.string s) => some (some s)
  | some _ => none

mutual
def ofJson? : Json → Option Node
  | .object fields => do
    let kind ← (Dict.lookup "type" fields).bind Json.asString?
    let children ← childrenOf? fields
    let value ← valueOf? fields
    pure ⟨kind, children, value, Dict.ofList (fields.filter fun field => !isReserved field.1)⟩
  | _ => none

def childrenOf? : List (String × Json) → Option (Option (List Node))
  | [] => some none
  | (name, value) :: fields => if name = "children" then listOf? value else childrenOf? fields

def listOf? : Json → Option (Option (List Node))
  | .null => some none
  | .array items => (ofItems? items).map some
  | _ => none

def ofItems? : List Json → Option (List Node)
  | [] => some []
  | item :: items => do
    let n ← ofJson? item
    let ns ← ofItems? items
    pure (n :: ns)
end

end Manuscript.Node
