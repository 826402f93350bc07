/-!
JSON values. Numbers are integers: no attribute, count or time that is written is a fraction. An
object lists its fields in the order in which they are written.
-/

set_option autoImplicit false

namespace Manuscript

inductive Json where
  | null
  | bool (b : Bool)
  | number (n : Int)
  | string (s : String)
  | array (items : List Json)
  | object (fields : List (String × Json))

namespace Json

instance : Inhabited Json := ⟨null⟩

mutual
def same : Json → Json → Bool
  | .null, .null => true
  | .bool a, .bool b => a == b
  | .number a, .number b => a == b
  | .string a, .string b => a == b
  | .array a, .array b => sameItems a b
  | .object a, .object b => sameFields a b
  | _, _ => false

def sameItems : List Json → List Json → Bool
  | [], [] => true
  | a :: as, b :: bs => same a b && sameItems as bs
  | _, _ => false

def sameFields : List (String × Json) → List (String × Json) → Bool
  | [], [] => true
  | (k, a) :: as, (l, b) :: bs => k == l && same a b && sameFields as bs
  | _, _ => false
end

instance : BEq Json := ⟨same⟩

mutual
theorem eq_of_same : {a b : Json} → same a b = true → a = b
  | .null, .null, _ => rfl
  | .bool _, .bool _, h => by simp_all [same]
  | .number _, .number _, h => by simp_all [same]
  | .string _, .string _, h => by simp_all [same]
  | .array _, .array _, h => by
    simp only [same] at h
    rw [eq_of_sameItems h]
  | .object _, .object _, h => by
    simp only [same] at h
    rw [eq_of_sameFields h]
  | .null, .bool _, h | .null, .number _, h | .null, .string _, h | .null, .array _, h
  | .null, .object _, h | .bool _, .null, h | .bool _, .number _, h | .bool _, .string _, h
  | .bool _, .array _, h | .bool _, .object _, h | .number _, .null, h | .number _, .bool _, h
  | .number _, .string _, h | .number _, .array _, h | .number _, .object _, h
  | .string _, .null, h | .string _, .bool _, h | .string _, .number _, h
  | .string _, .array _, h | .string _, .object _, h | .array _, .null, h | .array _, .bool _, h
  | .array _, .number _, h | .array _, .string _, h | .array _, .object _, h
  | .object _, .null, h | .object _, .bool _, h | .object _, .number _, h
  | .object _, .string _, h | .object _, .array _, h => by simp [same] at h

theorem eq_of_sameItems : {as bs : List Json} → sameItems as bs = true → as = bs
  | [], [], _ => rfl
  | a :: as, b :: bs, h => by
    simp only [sameItems, Bool.and_eq_true] at h
    rw [eq_of_same h.1, eq_of_sameItems h.2]
  | [], _ :: _, h | _ :: _, [], h => by simp [sameItems] at h

theorem eq_of_sameFields :
    {as bs : List (String × Json)} → sameFields as bs = true → as = bs
  | [], [], _ => rfl
  | (k, a) :: as, (l, b) :: bs, h => by
    simp only [sameFields, Bool.and_eq_true, beq_iff_eq] at h
    rw [h.1.1, eq_of_same h.1.2, eq_of_sameFields h.2]
  | [], _ :: _, h | _ :: _, [], h => by simp [sameFields] at h
end

mutual
theorem same_self : (a : Json) → same a a = true
  | .null | .bool _ | .number _ | .string _ => by simp [same]
  | .array items => by simpa [same] using sameItems_self items
  | .object fields => by simpa [same] using sameFields_self fields

theorem sameItems_self : (as : List Json) → sameItems as as = true
  | [] => rfl
  | a :: as => by simp [sameItems, same_self a, sameItems_self as]

theorem sameFields_self : (as : List (String × Json)) → sameFields as as = true
  | [] => rfl
  | (k, a) :: as => by simp [sameFields, same_self a, sameFields_self as]
end

instance : LawfulBEq Json where
  eq_of_beq := eq_of_same
  rfl := same_self _

def asString? : Json → Option String
  | .string s => some s
  | _ => none

def asBool? : Json → Option Bool
  | .bool b => some b
  | _ => none

/-- The value of a field; of a repeated field the last one. -/
def field? (name : String) : Json → Option Json
  | .object fields => (fields.reverse.find? fun field => field.1 = name).map (·.2)
  | _ => none

end Json

end Manuscript
