import Manuscript.Tree.Rewrite

/-!
What a body takes in from elsewhere: parts of the back matter, and its own floating supplements at
its end. A separator stands before what is added.
-/

set_option autoImplicit false

namespace Manuscript.Body

def separator : Node := .leaf "hr"

/-- The body with nodes added behind a separator, if there are any. -/
def appendBehindSeparator (body : Node) (added : List Node) : Node :=
  if added.isEmpty then body else body.withKids (body.kids ++ separator :: added)

def relocatedParts (back : Option Node) : List Node :=
  match back with
  | some back => back.kids.filter (·.isOneOf ["fn-group", "sec", "ack", "app-group"])
  | none => []

def appendBackMatter (body : Node) (back : Option Node) : Node :=
  appendBehindSeparator body (relocatedParts back)

def isFloat (n : Node) : Bool :=
  n.is "supplementary-material" && n.attrText? "position" == some "float"

/-- The floating supplements below, no longer marked as floating. -/
def floats (body : Node) : List Node := (body.findAll isFloat).map (·.eraseAttr "position")

def moveFloats (body : Node) : Node :=
  if (floats body).isEmpty then body
  else appendBehindSeparator (body.removeWhere isFloat) (floats body)

end Manuscript.Body
