import Manuscript.Proofs.Tree.Everywhere
import Manuscript.Tree.Flat

/-!
Reading a tree back from its flat form. The attributes stand beside the fields of the node itself,
so a tree can be read back if no attribute is named like one of these. A decoder sees an object by
its lookups alone, and the sorted form has the same lookups as the form that is written, up to the
order of fields inside of values.
-/

set_option autoImplicit false

namespace Manuscript.Node

open Manuscript.Dict (lookup)

/-- Whether no attribute is named like a field of the node itself. -/
def Unreserved (attrs : Attrs) : Prop := ∀ entry ∈ attrs.entries, isReserved entry.1 = false

/-- Whether no node of a tree has an attribute that is named like a field of its own. -/
def Encodable (n : Node) : Prop := Everywhere (fun m => Unreserved m.attrs) n

instance : DecidablePred Encodable := fun n => inferInstanceAs
  (Decidable (∀ m ∈ n.nodes, ∀ entry ∈ m.attrs.entries, isReserved entry.1 = false))

theorem eta (n : Node) : ⟨n.kind, n.children, n.value, n.attrs⟩ = n := by
  cases n
  rfl

/-- The tree with the values of its attributes in canonical form. -/
def canonical (n : Node) : Node := n.mapUp fun m => { m with attrs := m.attrs.map Json.canonical }

theorem canonical_eq (n : Node) : n.canonical =
    ⟨n.kind, n.children.map (List.map canonical), n.value, n.attrs.map Json.canonical⟩ :=
  mapUp_eq _ n

/-! ### Fields -/

/-- The fields of a node besides its attributes, where the flat forms of its children are given. -/
def ownFields (n : Node) (items : Option (List Json)) : List (String × Json) :=
  ("type", .string n.kind) ::
    ((items.map fun items => ("children", .array items)).toList ++ valueField n.value)

def fields (n : Node) (items : Option (List Json)) : List (String × Json) :=
  n.ownFields items ++ n.attrs.entries

theorem isReserved_of_mem_ownFields {n : Node} {items : Option (List Json)} {field : String × Json}
    (mem : field ∈ n.ownFields items) : isReserved field.1 = true := by
  have all : ∀ field ∈ n.ownFields items, isReserved field.1 = true := by
    cases items <;> cases value : n.value <;> simp [ownFields, value, valueField, isReserved]
  exact all field mem

theorem distinct_ownFields (n : Node) (items : Option (List Json)) :
    (n.ownFields items).Pairwise fun a b => a.1 ≠ b.1 := by
  cases items <;> cases value : n.value <;> simp [ownFields, value, valueField]

theorem flatAll_eq_map (ns : List Node) : flatAll ns = ns.map flat := by
  induction ns with
  | nil => rfl
  | cons n ns ih => rw [flatAll, ih, List.map_cons]

theorem flat_eq (n : Node) : n.flat = .object (n.fields (n.children.map (List.map flat))) := by
  obtain ⟨k, children, v, a⟩ := n
  cases children with
  | none => rfl
  | some cs => rw [flat, flatAll_eq_map]; rfl

theorem canonicalItems_eq_map (items : List Json) :
    Json.canonicalItems items = items.map Json.canonical := by
  induction items with
  | nil => rfl
  | cons item items ih => rw [Json.canonicalItems, ih, List.map_cons]

theorem canonicalFields_eq_map (fields : List (String × Json)) : Json.canonicalFields fields =
    fields.map fun field => (field.1, field.2.canonical) := by
  induction fields with
  | nil => rfl
  | cons field fields ih => rw [Json.canonicalFields, ih, List.map_cons]

theorem canonical_array (items : List Json) :
    (Json.array items).canonical = .array (items.map Json.canonical) := by
  rw [Json.canonical, canonicalItems_eq_map]

/-- Whether fields, each with a name of its own, are looked up as those of a node are. -/
structure Describes (fields : List (String × Json)) (n : Node) (items : Option (List Json)) :
    Prop where
  distinct : fields.Pairwise fun a b => a.1 ≠ b.1
  type : lookup "type" fields = some (.string n.kind)
  children : lookup "children" fields = items.map .array
  value : lookup "value" fields = n.value.map .string
  attrs : ∀ name, isReserved name = false → lookup name fields = n.attr? name

section
variable {n : Node} {items : Option (List Json)}

theorem attr?_of_isReserved (own : Unreserved n.attrs) {name : String}
    (reserved : isReserved name = true) : n.attr? name = none := by
  apply Dict.lookup_eq_none_of_forall_ne
  rintro entry mem rfl
  rw [own entry mem] at reserved
  cases reserved

theorem describes_fields (own : Unreserved n.attrs) : Describes (n.fields items) n items := by
  have front {name : String} (reserved : isReserved name = true) :
      lookup name (n.fields items) = lookup name (n.ownFields items) := by
    have none := attr?_of_isReserved own reserved
    rw [attr?, Dict.find?] at none
    rw [fields, Dict.lookup_append, none, Option.or_none]
  constructor
  case distinct =>
    refine List.pairwise_append.2 ⟨n.distinct_ownFields items, n.attrs.distinct, ?_⟩
    intro field mem entry place same
    have free := own entry place
    rw [← same, isReserved_of_mem_ownFields mem] at free
    cases free
  case type => rfl
  case children =>
    rw [front rfl]
    cases items <;> cases value : n.value <;> simp [ownFields, value, valueField, lookup]
  case value =>
    rw [front rfl]
    cases items <;> cases value : n.value <;> simp [ownFields, value, valueField, lookup]
  case attrs =>
    intro name free
    have none : lookup name (n.ownFields items) = none := by
      apply Dict.lookup_eq_none_of_forall_ne
      rintro field mem rfl
      rw [isReserved_of_mem_ownFields mem] at free
      cases free
    rw [fields, Dict.lookup_append, none, Option.none_or]
    rfl

theorem describes_canonical {fields : List (String × Json)} (describes : Describes fields n items) :
    Describes (Dict.ofList (fields.map fun field => (field.1, field.2.canonical))).entries
      n.canonical (items.map (List.map Json.canonical)) := by
  have same (name : String) :
      lookup name (Dict.ofList (fields.map fun field => (field.1, field.2.canonical))).entries =
        (lookup name fields).map Json.canonical := by
    have distinct : (fields.map fun field => (field.1, field.2.canonical)).Pairwise
        fun a b => a.1 ≠ b.1 := List.pairwise_map.2 describes.distinct
    exact (Dict.find?_ofList distinct name).trans (Dict.lookup_map Json.canonical name fields)
  rw [canonical_eq]
  constructor
  case distinct => exact Dict.distinct _
  case type =>
    rw [same, describes.type]
    rfl
  case children =>
    rw [same, describes.children]
    cases items with
    | none => rfl
    | some items => exact congrArg some (canonical_array items)
  case value =>
    rw [same, describes.value]
    cases n.value <;> rfl
  case attrs =>
    intro name free
    rw [same, describes.attrs name free, attr?, attr?, Dict.find?_map]

/-! ### Decoding -/

theorem childrenOf?_eq (fields : List (String × Json)) : childrenOf? fields =
    match lookup "children" fields with
    | none => some none
    | some value => listOf? value := by
  induction fields with
  | nil => rfl
  | cons field fields ih =>
    rw [childrenOf?, lookup, ih]
    by_cases same : field.1 = "children"
    · rw [if_pos same, if_pos same.symm]
    · rw [if_neg same, if_neg (Ne.symm same)]

theorem ofItems?_map {encode : Node → Json} {expected : Node → Node} {ns : List Node}
    (each : ∀ n ∈ ns, ofJson? (encode n) = some (expected n)) :
    ofItems? (ns.map encode) = some (ns.map expected) := by
  induction ns with
  | nil => rfl
  | cons n ns ih =>
    obtain ⟨first, rest⟩ := List.forall_mem_cons.1 each
    rw [List.map_cons, ofItems?, first, ih rest]
    rfl

theorem Describes.ofJson? {fields : List (String × Json)} (describes : Describes fields n items)
    (own : Unreserved n.attrs) (decoded : items.map ofItems? = n.children.map some) :
    ofJson? (.object fields) = some n := by
  have children : childrenOf? fields = some n.children := by
    rw [childrenOf?_eq, describes.children]
    cases items <;> cases below : n.children <;> rw [below] at decoded
    · rfl
    · cases decoded
    · cases decoded
    · next items cs =>
      have read : ofItems? items = some cs := Option.some.inj decoded
      show (ofItems? items).map some = _
      rw [read]
      rfl
  have value : valueOf? fields = some n.value := by
    rw [valueOf?, describes.value]
    cases n.value <;> rfl
  have attrs : Dict.ofList (fields.filter fun field => !isReserved field.1) = n.attrs := by
    apply Dict.ext_find?
    intro name
    rw [Dict.find?_ofList (describes.distinct.filter _),
      Dict.lookup_filter (fun name => !isReserved name)]
    cases reserved : isReserved name with
    | true => exact (attr?_of_isReserved own reserved).symm
    | false => exact describes.attrs name reserved
  rw [Node.ofJson?, describes.type, children, value, attrs]
  exact congrArg some n.eta

end

theorem ofJson?_flat {n : Node} (own : n.Encodable) : ofJson? n.flat = some n := by
  induction n using induction_on_kids with
  | node n ih =>
    have here : Unreserved n.attrs := Everywhere.here own
    rw [flat_eq]
    apply (describes_fields here).ofJson? here
    cases children : n.children with
    | none => rfl
    | some cs =>
      have each (c : Node) (mem : c ∈ cs) : ofJson? c.flat = some (id c) := by
        have child : c ∈ n.kids := by rw [kids, children]; exact mem
        exact ih c child (Everywhere.below own c child)
      exact congrArg some ((ofItems?_map each).trans (by rw [List.map_id]))

-- An attribute that is named like a field is taken for the field.
example : (leaf "text" (Dict.empty.insert "value" (.string "x"))).flat = (text "x").flat := by rfl

/-- From its sorted flat form a tree is read back with the values of its attributes sorted. -/
theorem ofJson?_toJson {n : Node} (own : n.Encodable) :
    ofJson? n.toJson = some n.canonical := by
  induction n using induction_on_kids with
  | node n ih =>
    have here : Unreserved n.attrs := Everywhere.here own
    have same : Unreserved n.canonical.attrs := by
      rw [canonical_eq]
      exact List.forall_mem_map.2 here
    rw [toJson, flat_eq, Json.canonical, canonicalFields_eq_map]
    apply (describes_canonical (describes_fields here)).ofJson? same
    rw [canonical_eq]
    cases children : n.children with
    | none => rfl
    | some cs =>
      have each (c : Node) (mem : c ∈ cs) : ofJson? c.toJson = some c.canonical := by
        have child : c ∈ n.kids := by rw [kids, children]; exact mem
        exact ih c child (Everywhere.below own c child)
      have read := ofItems?_map each
      show some (ofItems? ((cs.map flat).map Json.canonical)) = _
      rw [List.map_map]
      exact congrArg some read

end Manuscript.Node
