/-!
What can be wrong with an XML text. All but the last fault stand at a position, counted in bytes.
-/

set_option autoImplicit false

namespace Manuscript.Xml

inductive Fault where
  | tagNotClosed
  | commentNotClosed
  | cdataNotClosed
  | doctypeNotClosed
  | instructionNotClosed
  | unknownMarkup
  | mismatchedEnd (expected found : String)
  | unmatchedEnd (name : String)
  | doctypeWithoutName
  deriving DecidableEq

def Fault.message : Fault → String
  | .tagNotClosed => "syntax error: tag not closed: `>` not found before end of input"
  | .commentNotClosed => "syntax error: comment not closed: `-->` not found before end of input"
  | .cdataNotClosed => "syntax error: CDATA not closed: `]]>` not found before end of input"
  | .doctypeNotClosed => "syntax error: DOCTYPE not closed: `>` not found before end of input"
  | .instructionNotClosed =>
    "syntax error: processing instruction or xml declaration not closed: `?>` not found before "
      ++ "end of input"
  | .unknownMarkup => "syntax error: unknown or missed symbol in markup"
  | .mismatchedEnd expected found =>
    "ill-formed document: expected `</" ++ expected ++ ">`, but `</" ++ found ++ ">` was found"
  | .unmatchedEnd name =>
    "ill-formed document: close tag `</" ++ name ++ ">` does not match any open tag"
  | .doctypeWithoutName =>
    "ill-formed document: `<!DOCTYPE>` declaration does not contain a name of a document type"

inductive Error where
  | fault (position : Nat) (cause : Fault)
  | unclosedElement (name : String)
  deriving DecidableEq

def Error.message : Error → String
  | .fault position cause => "error at position " ++ toString position ++ ": " ++ cause.message
  | .unclosedElement name => "unclosed element <" ++ name ++ ">"

end Manuscript.Xml
