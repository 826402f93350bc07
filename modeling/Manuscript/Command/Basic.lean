import Manuscript.Command.Arguments
import Manuscript.Disk.Conversion

/-!
The command: the inputs that the arguments name are converted or inspected one after another, and
people are told what came of it.
-/

set_option autoImplicit false

namespace Manuscript.Command

open Manuscript.Disk

/-- What a run of the command leaves besides files. -/
structure Outcome where
  exitCode : Nat
  output : String
  messages : String

/-! ### Messages -/

def coloured (code text : String) : String := "\x1b[" ++ code ++ "m" ++ text ++ "\x1b[0m"

def green : String → String := coloured "32"
def red : String → String := coloured "31"
def dim : String → String := coloured "2"
def bold : String → String := coloured "1"
def cyan : String → String := coloured "36"

/-- The lines of a text behind a lead, the later ones indented alike. -/
def hanging (lead text : String) : String :=
  let gap := String.ofList (List.replicate lead.length ' ')
  lead ++ String.intercalate ("\n" ++ gap)
    ((Text.splitWhere (· == '\n') text.toList).map String.ofList)

/-- The causes of an error, numbered if there are several. -/
def causeLines (causes : List String) : List String :=
  match causes with
  | [cause] => [hanging "    " cause]
  | causes => causes.zipIdx.map fun (cause, index) =>
    hanging (String.ofList (List.replicate (5 - (toString index).length) ' ') ++ toString index
      ++ ": ") cause

def errorText (message : String) (causes : List String) : String :=
  "Error: " ++ message ++ (if causes.isEmpty then "" else
    "\n\nCaused by:\n" ++ String.intercalate "\n" (causeLines causes)) ++ "\n"

def causesOf (failure : Failure) : List String :=
  failure.message :: (failure.cause?.map Cause.message).toList

def fails (output messages message : String) (causes : List String) : Outcome :=
  ⟨1, output, messages ++ errorText message causes⟩

/-! ### Inspection -/

def labelled (label : String) : Option String → String
  | some value =>
    label ++ ":" ++ String.ofList (List.replicate (13 - label.length) ' ') ++ value ++ "\n"
  | none => ""

def inspectionText (input : Path) (i : Inspection) : String :=
  let authors := i.frontmatter.authors.map (·.name)
  labelled "File" (some input)
    ++ labelled "Title" i.frontmatter.title
    ++ labelled "Authors" (if authors.isEmpty then none else some (String.intercalate ", " authors))
    ++ labelled "Journal" i.metadata.journal
    ++ labelled "DOI" i.metadata.doi
    ++ labelled "Year" i.metadata.year
    ++ labelled "License" i.metadata.license
    ++ labelled "References" (some (toString i.referenceCount))

variable {m : Type → Type} [Monad m]

/-- Inspects inputs in turn up to the first that cannot be; `output` is what has been said. -/
def inspectAll (s : Storage m) (json : Bool) (output : String) : List Path → m Outcome
  | [] => pure ⟨0, output, ""⟩
  | input :: inputs => do
    match ← (s.inspect input).run with
    | .error failure => pure (fails output "" ("Failed to inspect " ++ input) (causesOf failure))
    | .ok i =>
      let text := if json then i.toJson.pretty ++ "\n" else inspectionText input i
      inspectAll s json (output ++ text) inputs

/-! ### Conversion -/

def summary (t : Timed) : String :=
  let stats := t.conversion.stats
  String.intercalate "  "
    ([toString stats.references.total ++ " refs", toString stats.figures.myst ++ " figs",
        toString stats.tables.myst ++ " tables", toString t.milliseconds ++ "ms"]
      ++ if stats.unhandled.isEmpty then []
        else ["unhandled: " ++ String.intercalate ", " stats.unhandled])

abbrev Result := Path × Except Failure Timed

def isFailure (r : Result) : Bool := !r.2.isOk

def resultLine (r : Result) : String :=
  match r.2 with
  | .ok t => "  " ++ green "✓" ++ " " ++ r.1 ++ "  " ++ dim (summary t) ++ "\n"
  | .error failure => "  " ++ red "✗" ++ " " ++ r.1 ++ "  " ++ red failure.message ++ "\n"

def resultJson (r : Result) : Json :=
  match r.2 with
  | .ok t => .object [("input", .string r.1), ("stats", t.conversion.stats.toJson t.milliseconds)]
  | .error failure => .object [("input", .string r.1), ("error", .string failure.message)]

def closingLine (results : List Result) : String :=
  let failed := results.countP isFailure
  (if failed = 0 then green "✔" else cyan "⚠") ++ " "
    ++ bold (toString (results.length - failed)) ++ "/" ++ toString results.length
    ++ " articles converted\n"

/-- What is said about results. The lines on each of them give way to a progress bar, which shows
nothing in the end. -/
def outcomeOf (g : Given) (results : List Result) : Outcome :=
  let loud := !g.has .quiet && !g.has .json
  let output := if g.has .json then (Json.array (results.map resultJson)).canonical.pretty ++ "\n"
    else ""
  let lines := if loud && g.has .noProgress then results.map resultLine else []
  let messages := String.join lines ++ if loud then closingLine results else ""
  let failed := results.countP isFailure
  if failed = 0 then ⟨0, output, messages⟩
  else fails output messages
    (toString failed ++ " of " ++ toString results.length ++ " conversions failed") []

def convertAll (s : Storage m) (c : Config) : List Path → m (List Result)
  | [] => pure []
  | input :: inputs => do
    let result ← (s.convertToFiles c input).run
    let results ← convertAll s c inputs
    pure ((input, result) :: results)

/-! ### All of it -/

def isArticleName (name : String) : Bool :=
  (Path.extension? name).any (Text.eqIgnoringAsciiCase "xml")

def onlyFiles (s : Storage m) : List Path → m (List Path)
  | [] => pure []
  | path :: paths => do
    let keep ← s.isFile path
    let kept ← onlyFiles s paths
    pure (if keep then path :: kept else kept)

/-- The articles that inputs stand for: a folder stands for those in it, by name. -/
def articles (s : Storage m) : List Path → m (List Path)
  | [] => pure []
  | input :: inputs => do
    let found ←
      if ← s.isFolder input then
        let names := ((← s.names input).filter isArticleName).mergeSort (decide <| · ≤ ·)
        onlyFiles s (names.map (Path.join input))
      else pure [input]
    let rest ← articles s inputs
    pure (found ++ rest)

def runGiven (s : Storage m) (g : Given) : m Outcome := do
  let inputs ← articles s g.inputs
  if inputs.isEmpty then pure (fails "" "" "No .xml files found in the given inputs" [])
  else if g.has .inspectOnly then inspectAll s (g.has .json) "" inputs
  else match g.config.check with
    | .error fault => pure (fails "" "" "Invalid configuration" [fault.message])
    | .ok c => do pure (outcomeOf g (← convertAll s c inputs))

def usageText : String :=
  "Convert JATS XML articles to MyST\n\nUsage: jats2myst [OPTIONS] <INPUTS>...\n"

def run (s : Storage m) (environment : String → Option String) (arguments : List String) :
    m Outcome :=
  match Given.ofArguments environment arguments with
  | .ok g => runGiven s g
  | .error .wrong => pure ⟨2, "", usageText⟩
  | .error .help => pure ⟨0, usageText, ""⟩
  | .error .version => pure ⟨0, "jats2myst " ++ Conversion.version ++ "\n", ""⟩

end Manuscript.Command
