import Manuscript.Tree.Node
import Manuscript.Xml.Token

/-!
Reading XML text as trees. Elements become branches named by their tag, runs of text become text
leaves, and the white space that only lays out the source is dropped, so that indented text gives
the same trees as compact text.
-/

set_option autoImplicit false

namespace Manuscript.Xml

structure Document where
  doctype : Option String
  elements : List Node

structure Frame where
  name : String
  attrs : Attrs
  children : List Node

/-- What has been read: the open elements, innermost first, and the nodes at the top. -/
structure Progress where
  doctype : Option String
  frames : List Frame
  top : List Node

/-- The attributes of an element. The name `type` is kept free for the kind of the node; of a
repeated name the last value counts. -/
def elementAttrs (attributes : List (String × String)) : Attrs :=
  Dict.ofList (attributes.map fun (name, value) =>
    (if name = "type" then "_type" else name, .string value))

/-- An element with all its children. Code keeps its text as a value of its own. -/
def Frame.node (f : Frame) : Node :=
  if f.name = "code" then .scalar f.name (Node.forestText f.children) f.attrs
  else .branch f.name f.children f.attrs

/-- The text without a line feed that is followed by nothing but blanks, of which there must be
one, and without those blanks. -/
def dropIndent (cs : List Char) : List Char :=
  let body := Text.dropEndWhile Text.isBlank cs
  let blanks := cs.drop body.length
  match blanks.dropWhile (· ≠ '\n') with
  | _ :: _ :: _ => body ++ blanks.takeWhile (· ≠ '\n')
  | _ => cs

/-- The text node of a run of text, if the run does not only lay out the source. -/
def textNode? (raw : List Char) : Option Node :=
  let cs := decode textEntity raw
  if cs.all Text.isBlank && (cs.isEmpty || cs.contains '\n') then none
  else some (.text (String.ofList (dropIndent cs)))

def Progress.append (p : Progress) (n : Node) : Progress :=
  match p.frames with
  | [] => { p with top := p.top ++ [n] }
  | f :: outer => { p with frames := { f with children := f.children ++ [n] } :: outer }

def Progress.step (p : Progress) (placed : Placed) : Except Error Progress :=
  match placed.token with
  | .start name attributes closed =>
    let f : Frame := ⟨name, elementAttrs attributes, []⟩
    pure (if closed then p.append f.node else { p with frames := f :: p.frames })
  | .finish name =>
    match p.frames with
    | [] => throw (.fault placed.position (.unmatchedEnd name))
    | f :: outer =>
      if f.name = name then pure ({ p with frames := outer }.append f.node)
      else throw (.fault placed.position (.mismatchedEnd f.name name))
  | .text raw =>
    pure (match textNode? raw with
      | some n => p.append n
      | none => p)
  | .cdata content =>
    pure (p.append (.scalar "cdata" (String.ofList (Text.trimWhile Text.isBlank content))))
  | .comment content => pure (p.append (.scalar "comment" (String.ofList content)))
  | .doctype content => pure { p with doctype := some (String.ofList content) }
  | .instruction => pure p
  | .fault cause => throw (.fault placed.position cause)

/-- Reads a whole text. Of the nodes at the top only those count that are elements by their
kind. -/
def parse (s : String) : Except Error Document := do
  let p ← (tokens s).foldlM Progress.step ⟨none, [], []⟩
  match p.frames with
  | [] => pure ⟨p.doctype, p.top.filter fun n => !n.isOneOf ["text", "comment", "cdata"]⟩
  | f :: _ => throw (.unclosedElement f.name)

end Manuscript.Xml
