import Manuscript.Data.Dict
import Manuscript.Yaml.Node
import Manuscript.Yaml.Scanner

/-!
The nodes of a document from its tokens.
-/

set_option autoImplicit false

namespace Manuscript.Yaml

structure Reading where
  tokens : List Token
  /-- The numbers of the anchors by name. -/
  anchors : Dict Nat
  /-- What the handles of tags stand for. -/
  handles : List (String × Tag)

abbrev Read (α : Type) := Reading → Except Fault (α × Reading)

namespace Reading

def next? (r : Reading) : Option Token := r.tokens.head?

def skip (r : Reading) : Reading := { r with tokens := r.tokens.drop 1 }

def stopsAt (r : Reading) (stops : List Token) : Bool :=
  match r.next? with
  | some t => stops.contains t
  | none => true

end Reading

/-- The handles that are known without a directive. -/
def standardHandles : List (String × Tag) :=
  [("!", Tag.ofString "!"), ("!!", Tag.ofString standardLead)]

def fullTag (r : Reading) (handle : String) (suffix : Tag) : Except Fault Tag :=
  if handle.isEmpty then pure suffix
  else match (r.handles ++ standardHandles).lookup handle with
    | some lead => pure (lead ++ suffix)
    | none => throw .badTag

/-- The number of an anchor: how many names were known before it, its own included if it is one of
them. Anchors may share a number. -/
def nameAnchor (r : Reading) (name : String) : Nat × Reading :=
  (r.anchors.size, { r with anchors := r.anchors.insert name r.anchors.size })

def properties : Read Properties := fun r => do
  let build (anchor : Option String) (tag : Option (String × Tag)) (rest : List Token) :
      Except Fault (Properties × Reading) := do
    let tag ← tag.mapM fun (handle, suffix) => fullTag r handle suffix
    let r := { r with tokens := rest }
    match anchor with
    | some name =>
      let (n, r) := nameAnchor r name
      pure (⟨some n, tag⟩, r)
    | none => pure (⟨none, tag⟩, r)
  match r.tokens with
  | .anchor name :: .tag handle suffix :: rest => build (some name) (some (handle, suffix)) rest
  | .tag handle suffix :: .anchor name :: rest => build (some name) (some (handle, suffix)) rest
  | .anchor name :: rest => build (some name) none rest
  | .tag handle suffix :: rest => build none (some (handle, suffix)) rest
  | rest => build none none rest

/-- The node of nothing, which only an anchor or a tag can have. -/
def emptyNode (p : Properties) : Read Node := fun r =>
  if p.anchor.isNone && p.tag.isNone then throw .unexpectedPiece else pure (.empty p, r)

mutual
/-- Reads a node. In a block, lists and mappings may be shown by indentation; in a mapping, the
items of a list may stand at its indentation. `steps` bounds the number of steps. -/
def node : (steps : Nat) → (inBlock inMapping : Bool) → Read Node
  | 0, _, _, _ => throw .unexpectedPiece
  | steps + 1, inBlock, inMapping, r => do
    match r.next? with
    | some (.alias name) =>
      match r.anchors.find? name with
      | some n => pure (.alias n, r.skip)
      | none => throw .unknownAlias
    | _ =>
      let (p, r) ← properties r
      content steps inBlock inMapping p r

def content : (steps : Nat) → (inBlock inMapping : Bool) → Properties → Read Node
  | 0, _, _, _, _ => throw .unexpectedPiece
  | steps + 1, inBlock, inMapping, p, r => do
    match r.next? with
    | some .item =>
      if inMapping then
        let (items, r) ← looseItems steps [] r
        pure (.sequence p items, r)
      else emptyNode p r
    | some (.scalar s plain) => pure (.scalar p s plain, r.skip)
    | some .openList =>
      let (items, r) ← listItems steps true [] r.skip
      pure (.sequence p items, r)
    | some .openMapping =>
      let (entries, r) ← bracedEntries steps true [] r.skip
      pure (.mapping p entries, r)
    | some .blockList =>
      if inBlock then
        let (items, r) ← blockItems steps [] r.skip
        pure (.sequence p items, r)
      else emptyNode p r
    | some .blockMapping =>
      if inBlock then
        let (entries, r) ← blockEntries steps [] r.skip
        pure (.mapping p entries, r)
      else emptyNode p r
    | _ => emptyNode p r

def nodeUnless : (steps : Nat) → (stops : List Token) → (inBlock inMapping : Bool) → Read Node
  | 0, _, _, _, _ => throw .unexpectedPiece
  | steps + 1, stops, inBlock, inMapping, r =>
    if r.stopsAt stops then pure (.empty {}, r) else node steps inBlock inMapping r

def blockItems : (steps : Nat) → List Node → Read (List Node)
  | 0, _, _ => throw .unexpectedPiece
  | steps + 1, items, r => do
    match r.next? with
    | some .item =>
      let (item, r) ← nodeUnless steps [.item, .blockEnd] true false r.skip
      blockItems steps (items ++ [item]) r
    | some .blockEnd => pure (items, r.skip)
    | _ => throw .unexpectedPiece

def looseItems : (steps : Nat) → List Node → Read (List Node)
  | 0, _, _ => throw .unexpectedPiece
  | steps + 1, items, r => do
    match r.next? with
    | some .item =>
      let (item, r) ← nodeUnless steps [.item, .key, .value, .blockEnd] true false r.skip
      looseItems steps (items ++ [item]) r
    | _ => pure (items, r)

def entryValue : (steps : Nat) → (stops : List Token) → (inBlock : Bool) → Read Node
  | 0, _, _, _ => throw .unexpectedPiece
  | steps + 1, stops, inBlock, r =>
    if r.next? = some .value then nodeUnless steps stops inBlock inBlock r.skip
    else pure (.empty {}, r)

def blockEntries : (steps : Nat) → List (Node × Node) → Read (List (Node × Node))
  | 0, _, _ => throw .unexpectedPiece
  | steps + 1, entries, r => do
    match r.next? with
    | some .key =>
      let (key, r) ← nodeUnless steps [.key, .value, .blockEnd] true true r.skip
      let (value, r) ← entryValue steps [.key, .value, .blockEnd] true r
      blockEntries steps (entries ++ [(key, value)]) r
    | some .blockEnd => pure (entries, r.skip)
    | _ => throw .unexpectedPiece

/-- Reads the items of a list in brackets. An item may be a single entry of a mapping; if it has no
key, the token that shows this is taken for the key. -/
def listItems : (steps : Nat) → (first : Bool) → List Node → Read (List Node)
  | 0, _, _, _ => throw .unexpectedPiece
  | steps + 1, first, items, r => do
    if r.next? = some .closeList then pure (items, r.skip)
    else
      let r ← if first then pure r
        else if r.next? = some .comma then pure r.skip
        else throw .unexpectedPiece
      match r.next? with
      | some .closeList => pure (items, r.skip)
      | some .key =>
        let r := r.skip
        let (key, r) ← if r.stopsAt [.value, .comma, .closeList] then pure (.empty {}, r.skip)
          else node steps false false r
        let (value, r) ← entryValue steps [.comma, .closeList] false r
        listItems steps false (items ++ [.mapping {} [(key, value)]]) r
      | _ =>
        let (item, r) ← node steps false false r
        listItems steps false (items ++ [item]) r

def bracedEntries : (steps : Nat) → (first : Bool) → List (Node × Node) →
    Read (List (Node × Node))
  | 0, _, _, _ => throw .unexpectedPiece
  | steps + 1, first, entries, r => do
    if r.next? = some .closeMapping then pure (entries, r.skip)
    else
      let r ← if first then pure r
        else if r.next? = some .comma then pure r.skip
        else throw .unexpectedPiece
      match r.next? with
      | some .closeMapping => pure (entries, r.skip)
      | some .key =>
        let (key, r) ← nodeUnless steps [.value, .comma, .closeMapping] false false r.skip
        let (value, r) ← entryValue steps [.comma, .closeMapping] false r
        bracedEntries steps false (entries ++ [(key, value)]) r
      | _ =>
        let (key, r) ← node steps false false r
        bracedEntries steps false (entries ++ [(key, .empty {})]) r
end

/-- The directives in front of a document, of each kind and handle one. -/
def directives : (hasVersion : Bool) → (handles : List (String × Tag)) → List Token →
    Except Fault (List (String × Tag) × List Token)
  | hasVersion, handles, .version major minor :: rest =>
    if hasVersion || major != 1 || !(minor == 1 || minor == 2) then throw .badDirective
    else directives true handles rest
  | hasVersion, handles, .handle name lead :: rest =>
    if (handles.lookup name).isSome then throw .badDirective
    else directives hasVersion (handles ++ [(name, lead)]) rest
  | _, handles, rest => pure (handles, rest)

/-- Reads the root of a document and gives the tokens behind it. -/
def document (tokens : List Token) : Except Fault (Node × List Token) := do
  let steps := 5 * tokens.length + 5
  let (handles, rest) ← directives false [] tokens
  match rest with
  | .documentStart :: rest =>
    let r : Reading := ⟨rest, .empty, handles⟩
    match r.next? with
    | none | some .documentStart | some .documentEnd | some (.version ..) | some (.handle ..) =>
      pure (.empty {}, rest)
    | _ =>
      let (root, r) ← node steps true false r
      pure (root, r.tokens)
  | _ =>
    if tokens.length != rest.length then throw .unexpectedPiece
    else if rest.isEmpty then pure (.empty {}, [])
    else
      let (root, r) ← node steps true false ⟨rest, .empty, []⟩
      pure (root, r.tokens)

end Manuscript.Yaml
