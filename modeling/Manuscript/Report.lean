import Manuscript.Data.Dict

/-!
What a conversion has to say about its input without failing: messages, and the kinds of elements
for which there is no rule.
-/

set_option autoImplicit false

namespace Manuscript

inductive Severity where
  | warning
  | error
  deriving DecidableEq

structure Remark where
  severity : Severity
  message : String
  source : String
  nodeType : Option String
  deriving DecidableEq

structure Report where
  remarks : List Remark
  /-- The kinds for which there is no rule, as the keys. -/
  unhandled : Dict Unit

namespace Report

def empty : Report := ⟨[], .empty⟩

def isEmpty (r : Report) : Bool := r.remarks.isEmpty

/-- The name of the source of a message, maybe with the part of it that speaks. -/
def sourceName : Option String → String
  | some part => "jats-convert:" ++ part
  | none => "jats-convert"

def add (r : Report) (severity : Severity) (message : String) (part nodeType : Option String) :
    Report :=
  { r with remarks := r.remarks ++ [⟨severity, message, sourceName part, nodeType⟩] }

def addUnhandled (r : Report) (kind : String) : Report :=
  { r with unhandled := r.unhandled.insert kind () }.add .error
    ("Unhandled JATS conversion for node of \"" ++ kind ++ "\"") none (some kind)

def append (r s : Report) : Report :=
  ⟨r.remarks ++ s.remarks, r.unhandled.insertAll s.unhandled⟩

def warnings (r : Report) : List Remark := r.remarks.filter (·.severity = .warning)

@[simp] theorem append_empty (r : Report) : r.append .empty = r := by
  simp [append, empty]

@[simp] theorem empty_append (r : Report) : Report.empty.append r = r := by
  simp [append, empty]

theorem append_assoc (r s t : Report) : (r.append s).append t = r.append (s.append t) := by
  simp only [append, List.append_assoc, Dict.insertAll_assoc]

end Report

end Manuscript
