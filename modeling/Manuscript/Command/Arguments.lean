import Manuscript.Config
import Manuscript.Text.Letter

/-!
The arguments of the command line. Every parameter is given once at most; one that is not given may
come from a variable of the environment.
-/

set_option autoImplicit false

namespace Manuscript.Command

inductive Parameter where
  | dir
  | frontmatter
  | noDois
  | noBibtex
  | bibliography
  | noLog
  | concurrency
  | json
  | inspectOnly
  | noProgress
  | verbose
  | quiet
  deriving DecidableEq

namespace Parameter

def all : List Parameter :=
  [.dir, .frontmatter, .noDois, .noBibtex, .bibliography, .noLog, .concurrency, .json, .inspectOnly,
    .noProgress, .verbose, .quiet]

def name : Parameter → String
  | .dir => "dir"
  | .frontmatter => "frontmatter"
  | .noDois => "no-dois"
  | .noBibtex => "no-bibtex"
  | .bibliography => "bibliography"
  | .noLog => "no-log"
  | .concurrency => "concurrency"
  | .json => "json"
  | .inspectOnly => "inspect-only"
  | .noProgress => "no-progress"
  | .verbose => "verbose"
  | .quiet => "quiet"

def letter? : Parameter → Option Char
  | .dir => some 'd'
  | .concurrency => some 'c'
  | .verbose => some 'v'
  | .quiet => some 'q'
  | _ => none

def environmentName? : Parameter → Option String
  | .dir => some "JATS2MYST_DIR"
  | .frontmatter => some "JATS2MYST_FRONTMATTER"
  | .noDois => some "JATS2MYST_NO_DOIS"
  | .noBibtex => some "JATS2MYST_NO_BIBTEX"
  | .bibliography => some "JATS2MYST_BIBLIOGRAPHY"
  | .noLog => some "JATS2MYST_NO_LOG"
  | .concurrency => some "JATS2MYST_CONCURRENCY"
  | .json => some "JATS2MYST_JSON"
  | .inspectOnly => none
  | .noProgress => some "JATS2MYST_NO_PROGRESS"
  | .verbose => some "JATS2MYST_VERBOSE"
  | .quiet => some "JATS2MYST_QUIET"

/-- Whether a value follows; otherwise the parameter itself means yes. -/
def takesValue (p : Parameter) : Bool :=
  [.dir, .frontmatter, .bibliography, .concurrency].contains p

def admits (p : Parameter) (value : String) : Bool :=
  match p with
  | .dir => !value.isEmpty
  | .frontmatter => (FrontmatterMode.ofName? value).isSome
  | .bibliography => true
  | .concurrency => (Text.number? (1 <<< 64 - 1) value).isSome
  | _ => value == "true" || value == "false"

def ofName? (name : String) : Option Parameter := all.find? (Parameter.name · == name)

def ofLetter? (c : Char) : Option Parameter := all.find? (Parameter.letter? · == some c)

end Parameter

/-- Why nothing is to be converted. -/
inductive Usage where
  | wrong
  | help
  | version
  deriving DecidableEq

structure Given where
  values : List (Parameter × String) := []
  inputs : List Disk.Path := []
  /-- A parameter whose value has to come next. -/
  pending : Option Parameter := none
  /-- Whether all that comes is an input. -/
  inputsOnly : Bool := false

namespace Given

def value? (g : Given) (p : Parameter) : Option String := g.values.lookup p

def set (g : Given) (p : Parameter) (value : String) : Except Usage Given :=
  if (g.value? p).isSome || !p.admits value then throw .wrong
  else pure { g with values := g.values ++ [(p, value)], pending := none }

def addInput (g : Given) (input : String) : Except Usage Given :=
  if input.isEmpty then throw .wrong else pure { g with inputs := g.inputs ++ [input] }

def addLong (g : Given) (text : List Char) : Except Usage Given :=
  let (name, value) := match Text.cutAt '=' text with
    | some (name, value) => (name, some (String.ofList value))
    | none => (text, none)
  let name := String.ofList name
  match Parameter.ofName? name, value with
  | some p, some value => if p.takesValue then g.set p value else throw .wrong
  | some p, none => if p.takesValue then pure { g with pending := some p } else g.set p "true"
  | none, none =>
    if name = "help" then throw .help else if name = "version" then throw .version else throw .wrong
  | none, some _ => throw .wrong

/-- Parameters given by their letters; the value of one that takes a value follows at once, maybe
behind an equals sign, or comes next. -/
def addLetters (g : Given) : List Char → Except Usage Given
  | [] => pure g
  | c :: cs =>
    match Parameter.ofLetter? c with
    | none => if c = 'h' then throw .help else if c = 'V' then throw .version else throw .wrong
    | some p =>
      if p.takesValue then
        match cs with
        | [] => pure { g with pending := some p }
        | '=' :: value => g.set p (String.ofList value)
        | value => g.set p (String.ofList value)
      else do addLetters (← g.set p "true") cs

def add (g : Given) (argument : String) : Except Usage Given :=
  if g.inputsOnly then g.addInput argument
  else match g.pending, argument.toList with
    | some _, '-' :: _ :: _ => throw .wrong
    | some p, _ => g.set p argument
    | none, ['-', '-'] => pure { g with inputsOnly := true }
    | none, '-' :: '-' :: text => g.addLong text
    | none, '-' :: c :: letters => g.addLetters (c :: letters)
    | none, _ => g.addInput argument

/-- Takes the value of a parameter that is not given from the environment. -/
def addVariable (environment : String → Option String) (g : Given) (p : Parameter) :
    Except Usage Given :=
  match g.value? p, p.environmentName?.bind environment with
  | none, some value => g.set p value
  | _, _ => pure g

def ofArguments (environment : String → Option String) (arguments : List String) :
    Except Usage Given := do
  let g ← arguments.foldlM add {}
  if g.pending.isSome then throw .wrong
  else
    let g ← Parameter.all.foldlM (addVariable environment) g
    if g.inputs.isEmpty then throw .wrong else pure g

def has (g : Given) (p : Parameter) : Bool := g.value? p == some "true"

def config (g : Given) : Config where
  dir := g.value? .dir
  frontmatter := ((g.value? .frontmatter).bind FrontmatterMode.ofName?).getD .ignore
  dois := !g.has .noDois
  writeBibliography := !g.has .noBibtex
  bibliographyFile := (g.value? .bibliography).getD "main.bib"
  writeLog := !g.has .noLog

end Given

end Manuscript.Command
