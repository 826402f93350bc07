import Manuscript.Json.Value

/-!
YAML documents as values. A mapping keeps the order of its entries, and any value may be a key.
-/

set_option autoImplicit false

namespace Manuscript

inductive Yaml where
  | null
  | bool (b : Bool)
  /-- A number as it is written. -/
  | number (text : String)
  | string (s : String)
  | sequence (items : List Yaml)
  | mapping (entries : List (Yaml × Yaml))
  /-- A value under a tag of its document, of which it has the name. -/
  | tagged (tag : String) (value : Yaml)

namespace Yaml

instance : Inhabited Yaml := ⟨.null⟩

/-- Whether the texts of two numbers denote the same one; zero has two texts with a point. -/
def sameNumber (a b : String) : Bool :=
  let isZero (text : String) : Bool := text == "0.0" || text == "-0.0"
  a == b || (isZero a && isZero b)

mutual
/-- Whether two values are the same in all parts, whatever the order of entries. -/
def same : Yaml → Yaml → Bool
  | .null, .null => true
  | .bool a, .bool b => a == b
  | .number a, .number b => sameNumber a b
  | .string a, .string b => a == b
  | .sequence as, .sequence bs => sameItems as bs
  | .mapping as, .mapping bs => as.length == bs.length && sameEntries as bs
  | .tagged s a, .tagged t b => s == t && same a b
  | _, _ => false

def sameItems : List Yaml → List Yaml → Bool
  | [], [] => true
  | a :: as, b :: bs => same a b && sameItems as bs
  | _, _ => false

def sameEntries : List (Yaml × Yaml) → List (Yaml × Yaml) → Bool
  | [], _ => true
  | (k, a) :: as, bs => bs.any (fun (l, b) => same k l && same a b) && sameEntries as bs
end

instance : BEq Yaml := ⟨same⟩

def lookup (key : Yaml) : List (Yaml × Yaml) → Option Yaml
  | [] => none
  | (k, v) :: rest => if k == key then some v else lookup key rest

def put (key value : Yaml) : List (Yaml × Yaml) → List (Yaml × Yaml)
  | [] => [(key, value)]
  | (k, v) :: rest => if k == key then (k, value) :: rest else (k, v) :: put key value rest

def putAll (entries added : List (Yaml × Yaml)) : List (Yaml × Yaml) :=
  added.foldl (fun entries (key, value) => put key value entries) entries

mutual
def ofJson : Json → Yaml
  | .null => .null
  | .bool b => .bool b
  | .number n => .number (toString n)
  | .string s => .string s
  | .array items => .sequence (ofItems items)
  | .object fields => .mapping (ofFields fields)

def ofItems : List Json → List Yaml
  | [] => []
  | item :: items => ofJson item :: ofItems items

def ofFields : List (String × Json) → List (Yaml × Yaml)
  | [] => []
  | (name, value) :: fields => (.string name, ofJson value) :: ofFields fields
end

end Yaml

end Manuscript
