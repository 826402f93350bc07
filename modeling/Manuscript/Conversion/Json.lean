import Manuscript.Conversion.Basic
import Manuscript.Frontmatter.Json
import Manuscript.Tree.Flat

/-!
The JSON form of a conversion and of its parts. Fields stand in the order in which they are logged.
-/

set_option autoImplicit false

namespace Manuscript

def Json.ofText? : Option String → Json
  | some s => .string s
  | none => .null

def Json.ofNat (n : Nat) : Json := .number n

def Remark.toJson (r : Remark) : Json :=
  let severity := match r.severity with
    | .warning => "warning"
    | .error => "error"
  .object ([("severity", .string severity), ("message", .string r.message),
    ("source", .string r.source)] ++ Json.textField "node_type" r.nodeType)

def Report.toJson (r : Report) : Json :=
  .object [("messages", .array (r.remarks.map Remark.toJson)),
    ("unhandled", .array (r.unhandled.keys.map Json.string))]

namespace Reference

def Counts.toJson (c : Counts) : Json :=
  .object [("total", .ofNat c.total), ("dois", .ofNat c.dois), ("bibtex", .ofNat c.bibtex),
    ("footnotes", .ofNat c.footnotes), ("unprocessed", .ofNat c.unprocessed)]

def Line.toJson (l : Line) : Json :=
  .object (("html", .string l.html) :: Json.textField "doi" l.doi)

def Summary.toJson (s : Summary) : Json :=
  .object [("order", .array (s.order.map Json.string)),
    ("data", .object (s.lines.map Line.toJson).entries)]

end Reference

namespace Conversion

def Metadata.fields (m : Metadata) : List (String × Json) :=
  [("publisher", .ofText? m.publisher), ("journal", .ofText? m.journal), ("pmid", .ofText? m.pmid),
    ("pmc", .ofText? m.pmc), ("doi", .ofText? m.doi), ("year", .ofText? m.year),
    ("license", .ofText? m.license)]

def Tally.toJson (t : Tally) : Json :=
  .object [("body", .ofNat t.body), ("back", .ofNat t.back), ("myst", .ofNat t.myst)]

def version : String := "0.1.0"

/-- The fields of the log, but for the time that the conversion took. -/
def Stats.fields (s : Stats) : List (String × Json) :=
  ("jatsVersion", .string version) :: s.metadata.fields
    ++ [("references", s.references.toJson)]
    ++ Json.listField "lostRefTypes" Json.string s.lostRefs
    ++ Json.listField "lostItems" Json.string s.lostItems
    ++ Json.listField "unhandled" Json.string s.unhandled
    ++ Json.listField "missingPmids" Json.string s.missingPmids
    ++ [("figures", s.figures.toJson), ("tables", s.tables.toJson),
      ("math", .object
        [("inline", s.inlineFormulas.toJson), ("equations", s.equations.toJson)]),
      ("footnotes", s.footnotes.toJson)]

/-- The log of a conversion that took some milliseconds. -/
def Stats.toJson (milliseconds : Nat) (s : Stats) : Json :=
  .object (s.fields ++ [("totalDurationMs", .ofNat milliseconds)])

end Conversion

def Conversion.toJson (c : Conversion) : Json :=
  .object ([("tree", c.tree.toJson), ("frontmatter", c.frontmatter.toJson),
      ("references", c.references.toJson)]
    ++ Json.textField "bibtex" c.bibliography
    ++ [("diagnostics", c.report.toJson), ("stats", .object c.stats.fields)])

end Manuscript
