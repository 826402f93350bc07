import Manuscript.Data.Dict
import Manuscript.Json.Value

/-!
The tree that articles are read into and documents are written from. A node has a kind, maybe a
list of children, maybe a text of its own, and named attributes. A leaf, which has no child list,
differs from a node whose child list is empty.
-/

set_option autoImplicit false

namespace Manuscript

abbrev Attrs := Dict Json

structure Node where
  kind : String
  children : Option (List Node)
  value : Option String
  attrs : Attrs

namespace Node

def leaf (kind : String) (attrs : Attrs := .empty) : Node := ⟨kind, none, none, attrs⟩

def branch (kind : String) (children : List Node) (attrs : Attrs := .empty) : Node :=
  ⟨kind, some children, none, attrs⟩

def scalar (kind value : String) (attrs : Attrs := .empty) : Node :=
  ⟨kind, none, some value, attrs⟩

def text (value : String) : Node := scalar "text" value

instance : Inhabited Node := ⟨leaf ""⟩

mutual
def same : Node → Node → Bool
  | ⟨k, none, v, a⟩, ⟨l, none, w, b⟩ => k == l && v == w && a == b
  | ⟨k, some cs, v, a⟩, ⟨l, some ds, w, b⟩ => k == l && v == w && a == b && sameForest cs ds
  | _, _ => false

def sameForest : List Node → List Node → Bool
  | [], [] => true
  | c :: cs, d :: ds => same c d && sameForest cs ds
  | _, _ => false
end

instance : BEq Node := ⟨same⟩

/-- The children; a leaf has none. -/
def kids (n : Node) : List Node := n.children.getD []

def isText (n : Node) : Bool := n.kind == "text"

def is (n : Node) (kind : String) : Bool := n.kind == kind

def isOneOf (n : Node) (kinds : List String) : Bool := kinds.contains n.kind

def withKids (n : Node) (children : List Node) : Node := { n with children := some children }

def mapChildren (f : List Node → List Node) (n : Node) : Node :=
  { n with children := n.children.map f }

def firstChild? (n : Node) : Option Node := n.kids.head?

def attr? (n : Node) (name : String) : Option Json := n.attrs.find? name

def attrText? (n : Node) (name : String) : Option String := (n.attr? name).bind Json.asString?

def attrFlag (n : Node) (name : String) : Bool := ((n.attr? name).bind Json.asBool?).getD false

def setAttr (n : Node) (name : String) (value : Json) : Node :=
  { n with attrs := n.attrs.insert name value }

def eraseAttr (n : Node) (name : String) : Node := { n with attrs := n.attrs.erase name }

mutual
/-- The texts of the node and of all nodes below it, in document order. -/
def toText : Node → String
  | ⟨_, none, v, _⟩ => v.getD ""
  | ⟨_, some cs, v, _⟩ => v.getD "" ++ forestText cs

def forestText : List Node → String
  | [] => ""
  | n :: ns => n.toText ++ forestText ns
end

mutual
def size : Node → Nat
  | ⟨_, none, _, _⟩ => 1
  | ⟨_, some cs, _, _⟩ => 1 + forestSize cs

def forestSize : List Node → Nat
  | [] => 0
  | n :: ns => n.size + forestSize ns
end

theorem toText_eq (n : Node) : n.toText = n.value.getD "" ++ forestText n.kids := by
  obtain ⟨k, cs, v, a⟩ := n
  cases cs <;> simp [toText, kids, forestText]

theorem size_eq (n : Node) : n.size = 1 + forestSize n.kids := by
  obtain ⟨k, cs, v, a⟩ := n
  cases cs <;> simp [size, kids, forestSize]

theorem forestText_append (xs ys : List Node) :
    forestText (xs ++ ys) = forestText xs ++ forestText ys := by
  induction xs with
  | nil => simp [forestText]
  | cons x xs ih => simp [forestText, ih, String.append_assoc]

theorem forestSize_append (xs ys : List Node) :
    forestSize (xs ++ ys) = forestSize xs + forestSize ys := by
  induction xs with
  | nil => simp [forestSize]
  | cons x xs ih => simp [forestSize, ih, Nat.add_assoc]

theorem size_pos (n : Node) : 0 < n.size := by
  rw [size_eq]; omega

theorem size_le_forestSize {n : Node} {ns : List Node} (h : n ∈ ns) :
    n.size ≤ forestSize ns := by
  induction ns with
  | nil => simp at h
  | cons m ms ih =>
    rcases List.mem_cons.1 h with rfl | h
    · simp [forestSize]
    · have := ih h; simp only [forestSize]; omega

theorem size_lt_of_mem_kids {n child : Node} (h : child ∈ n.kids) : child.size < n.size := by
  have := size_le_forestSize h
  rw [size_eq n]; omega

mutual
theorem eq_of_same : {m n : Node} → same m n = true → m = n
  | ⟨_, none, _, _⟩, ⟨_, none, _, _⟩, h => by
    simp only [same, Bool.and_eq_true, beq_iff_eq] at h
    obtain ⟨⟨rfl, rfl⟩, rfl⟩ := h
    rfl
  | ⟨_, some _, _, _⟩, ⟨_, some _, _, _⟩, h => by
    simp only [same, Bool.and_eq_true, beq_iff_eq] at h
    obtain ⟨⟨⟨rfl, rfl⟩, rfl⟩, hcs⟩ := h
    rw [eq_of_sameForest hcs]
  | ⟨_, none, _, _⟩, ⟨_, some _, _, _⟩, h | ⟨_, some _, _, _⟩, ⟨_, none, _, _⟩, h => by
    simp [same] at h

theorem eq_of_sameForest : {ms ns : List Node} → sameForest ms ns = true → ms = ns
  | [], [], _ => rfl
  | m :: ms, n :: ns, h => by
    simp only [sameForest, Bool.and_eq_true] at h
    rw [eq_of_same h.1, eq_of_sameForest h.2]
  | [], _ :: _, h | _ :: _, [], h => by simp [sameForest] at h
end

mutual
theorem same_self : (n : Node) → same n n = true
  | ⟨_, none, _, _⟩ => by simp [same]
  | ⟨_, some cs, _, _⟩ => by simp [same, sameForest_self cs]

theorem sameForest_self : (ns : List Node) → sameForest ns ns = true
  | [] => rfl
  | n :: ns => by simp [sameForest, same_self n, sameForest_self ns]
end

instance : LawfulBEq Node where
  eq_of_beq := eq_of_same
  rfl := same_self _

end Node

end Manuscript
