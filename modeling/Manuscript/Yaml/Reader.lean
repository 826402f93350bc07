import Manuscript.Yaml.Document
import Manuscript.Yaml.Value

/-!
Reading a YAML document: the value of its root. Aliases give way to what they stand for, and a
mapping has no key twice. How deep values may be nested and how many aliases may be met is limited,
so that a document which contains itself is refused.
-/

set_option autoImplicit false

namespace Manuscript.Yaml

/-! ### Scalars -/

/-- The integers that a number may be. -/
def isNumber (n : Int) : Bool := -(1 <<< 63 : Nat) ≤ n && n < (1 <<< 64 : Nat)

def plainValue (s : String) : Except Fault Yaml :=
  match Scalar.ofPlain s with
  | .null => pure .null
  | .bool b => pure (.bool b)
  | .integer n => if isNumber n then pure (.number (toString n)) else throw .largeInteger
  | .real text => pure (.number text)
  | .text => pure (.string s)

def untaggedValue (s : String) (plain : Bool) : Except Fault Yaml :=
  if plain then plainValue s else pure (.string s)

def standardValue (tag : StandardTag) (s : String) : Except Fault Yaml :=
  match tag with
  | .bool =>
    match Scalar.bool? s with
    | some b => pure (.bool b)
    | none => throw .badTaggedScalar
  | .int =>
    match Scalar.integer? s.toList with
    | some n => if isNumber n then pure (.number (toString n)) else throw .largeInteger
    | none => throw .badTaggedScalar
  | .float =>
    match Scalar.float? s with
    | some text => pure (.number text)
    | none => throw .badTaggedScalar
  | .null => if s.isEmpty || !Scalar.isNull s then throw .badTaggedScalar else pure .null

/-- The value of a scalar under a tag that is no name of the document's own. Tags that mean nothing
make a text of it. -/
def foreignValue (tag : Tag) (s : String) (plain : Bool) : Except Fault Yaml :=
  match StandardTag.ofTag? tag with
  | some standard => standardValue standard s
  | none => untaggedValue s (plain && tag.isLocal)

/-! ### Nodes -/

def underName (name : Option String) (value : Yaml) : Yaml :=
  match name with
  | some name => .tagged name value
  | none => value

def addEntry (entries : List (Yaml × Yaml)) (key value : Yaml) :
    Except Fault (List (Yaml × Yaml)) :=
  if (lookup key entries).isSome then throw .repeatedKey else pure (entries ++ [(key, value)])

structure Links where
  /-- The nodes with an anchor, the last one first: of several with one number it counts. -/
  nodes : List (Nat × Node)
  limit : Nat

/-- An alias may be met a hundred times for each piece of the document. -/
def Links.ofRoot (root : Node) : Links := ⟨root.anchored.reverse, 100 * root.size⟩

/-- A step of reading values. It knows how many aliases were met. -/
abbrev Following (α : Type) := StateT Nat (Except Fault) α

def Links.follow (links : Links) (n : Nat) : Following Node := fun met =>
  if links.limit ≤ met then throw .tooManyAliases
  else match links.nodes.lookup n with
    | some node => pure (node, met + 1)
    | none => throw .unknownAlias

/-- The value of a node, in which lists and mappings may be nested to the given depth. In the keys
of a mapping under a tag of the document's own, tags do not count; `bare` tells that the node stands
in such a place. -/
def valueOf (links : Links) (depth : Nat) (bare : Bool) (node : Node) : Following Yaml := do
  let (bare, node) ← match node with
    | .alias n => do pure (false, ← links.follow n)
    | node => pure (bare, node)
  let name (tag : Option Tag) : Option String := if bare then none else tag.bind Tag.name?
  match node with
  | .alias _ => throw .unknownAlias
  | .scalar properties text plain =>
    match if bare then none else properties.tag with
    | none => untaggedValue text plain
    | some tag =>
      match tag.name? with
      | some name => .tagged name <$> untaggedValue text plain
      | none => foreignValue tag text plain
  | .sequence properties items =>
    match depth with
    | 0 => throw .tooDeep
    | depth + 1 =>
      let values ← items.mapM (valueOf links depth false)
      pure (underName (name properties.tag) (.sequence values))
  | .mapping properties entries =>
    match depth with
    | 0 => throw .tooDeep
    | depth + 1 =>
      let name := name properties.tag
      let values ← entries.foldlM (fun found (key, value) => do
        let key ← valueOf links depth (bare || name.isSome) key
        let value ← valueOf links depth false value
        addEntry found key value) []
      pure (underName name (.mapping values))

def depthLimit : Nat := 128

/-- Reads a text that is one document. An empty one has the value null. -/
def read (s : String) : Except Fault Yaml := do
  let (root, rest) ← document (← tokens s)
  let (value, _) ← valueOf (.ofRoot root) depthLimit false root 0
  if (rest.dropWhile (· == .documentEnd)).isEmpty then pure value else throw .severalDocuments

end Manuscript.Yaml
