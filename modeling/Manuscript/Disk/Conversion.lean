import Manuscript.Config
import Manuscript.Conversion.Json
import Manuscript.Disk.Cache
import Manuscript.Frontmatter.Project
import Manuscript.Json.Printer

/-!
Conversion between files: an article is read from its file, and the document, the log, the
bibliography and the settings of the project are written to theirs.
-/

set_option autoImplicit false

namespace Manuscript.Disk

inductive Failure where
  | notFound (path : Path)
  | denied (path : Path)
  | unreadable (path : Path) (cause : Cause)
  | article (fault : Article.Fault)
  | reference (fault : Reference.Fault)
  | unwritable (path : Path) (cause : Cause)
  | project (fault : Frontmatter.MergeFault)
  | cache (fault : Cache.Fault)
  deriving DecidableEq

def Failure.message : Failure → String
  | .notFound path =>
    "JATS file not found: '" ++ path ++ "'\nCheck the path exists and is readable."
  | .denied path =>
    "Permission denied reading '" ++ path ++ "'\nTry: chmod +r " ++ Text.quotedPath path
  | .unreadable path cause => "Failed to read '" ++ path ++ "': " ++ cause.message
  | .article fault => fault.message
  | .reference fault => fault.message
  | .unwritable path cause => "Failed to write output file '" ++ path ++ "': " ++ cause.message
  | .project fault => "Failed to serialise output: " ++ fault.message
  | .cache fault => fault.message

/-- What lies behind a failure, if more is known than its message says. -/
def Failure.cause? : Failure → Option Cause
  | .unreadable _ cause => some cause
  | .unwritable _ cause => some cause
  | _ => none

structure Timed where
  conversion : Manuscript.Conversion
  milliseconds : Nat

/-- What is known of an article without a conversion. -/
structure Inspection where
  metadata : Conversion.Metadata
  doctype : Option String
  referenceCount : Nat
  frontmatter : Frontmatter

def Inspection.ofArticle (a : Article) : Inspection where
  metadata := .ofArticle a
  doctype := a.doctype
  referenceCount := a.references.length
  frontmatter := a.frontmatter

def Inspection.toJson (i : Inspection) : Json :=
  .object (i.metadata.fields ++ Json.textField "doctype" i.doctype
    ++ [("referenceCount", .ofNat i.referenceCount), ("frontmatter", i.frontmatter.toJson)])

def documentText (mode : FrontmatterMode) (c : Manuscript.Conversion) : String :=
  let frontmatter := match mode with
    | .page => [("frontmatter", c.frontmatter.toJson)]
    | .ignore | .project => []
  (Json.object (("mdast", c.tree.flat) :: frontmatter)).canonical.pretty

def outputFile (c : Config) (article : Path) (ending : String) : Path :=
  Path.join (c.outputDir article) ((Path.stem? article).getD "article" ++ ending)

def projectFile (c : Config) (article : Path) : Path :=
  Path.join (c.outputDir article) "myst.yml"

def bibliographyFile (c : Config) (article : Path) : Path :=
  Path.join (c.outputDir article) c.bibliographyFile

namespace Storage

variable {m : Type → Type} [Monad m]

def readArticle (s : Storage m) (path : Path) : ExceptT Failure m Article := do
  match ← s.read path with
  | .error .notFound => throw (.notFound path)
  | .error .denied => throw (.denied path)
  | .error cause => throw (.unreadable path cause)
  | .ok text =>
    match Article.parse text with
    | .ok a => pure a
    | .error fault => throw (.article fault)

/-- What is known of PubMed identifiers: what the settings say, or else what the cache holds. -/
def findings (s : Storage m) (c : Config) (path : Path) : ExceptT Failure m Pmid.Findings := do
  match c.pmids with
  | some pmids => pure pmids
  | none =>
    match ← (Cache.load s (c.outputDir path) : m (Except Cache.Fault Pmid.Cache)) with
    | .ok cache => pure cache.entries
    | .error fault => throw (.cache fault)

def convert (s : Storage m) (c : Config) (path : Path) : ExceptT Failure m Timed := do
  let a ← s.readArticle path
  let pmids ← s.findings c path
  let began ← s.clock
  match a.convert (c.options pmids) with
  | .error fault => throw (.reference fault)
  | .ok conversion => pure ⟨conversion, (← s.clock) - began⟩

def inspect (s : Storage m) (path : Path) : ExceptT Failure m Inspection := do
  pure (.ofArticle (← s.readArticle path))

def writing (path : Path) (action : m (Except Cause Unit)) : ExceptT Failure m Unit := do
  match ← action with
  | .ok _ => pure ()
  | .error cause => throw (.unwritable path cause)

/-- Writes a file as a whole: under another name first, so that the file is never seen half
written. -/
def writeWhole (s : Storage m) (path : Path) (content : String) : ExceptT Failure m Unit := do
  match (Path.parent? path).bind Text.nonEmpty? with
  | some folder => writing path (s.makeFolders folder)
  | none => pure ()
  let draft := Path.withName path ((Path.name? path).getD "" ++ ".tmp")
  writing path (s.write draft content)
  writing path (s.move draft path)

def writeProject (s : Storage m) (path : Path) (f : Frontmatter) : ExceptT Failure m Unit := do
  let existing ← match ← s.read path with
    | .ok text => pure (some text)
    | .error .notFound => pure none
    | .error cause => throw (.unreadable path cause)
  match f.mergeProject existing with
  | .ok text => s.writeWhole path text
  | .error fault => throw (.project fault)

/-- Writes the log, once for machines and once for people. -/
def writeLog (s : Storage m) (c : Config) (path : Path) (log : Json) : ExceptT Failure m Unit := do
  s.writeWhole (outputFile c path ".log.json") log.pretty
  s.writeWhole (outputFile c path ".log.yml") (Yaml.ofJson log).print

/-- Writes the bibliography, unless the file is there. -/
def writeBibliography (s : Storage m) (path : Path) (bibliography : String) :
    ExceptT Failure m Unit := do
  if ← s.isPresent path then pure () else s.writeWhole path bibliography

def convertToFiles (s : Storage m) (c : Config) (path : Path) : ExceptT Failure m Timed := do
  let timed ← s.convert c path
  let conversion := timed.conversion
  s.writeWhole (outputFile c path ".myst.json") (documentText c.frontmatter conversion)
  if c.frontmatter = .project then s.writeProject (projectFile c path) conversion.frontmatter
  if c.writeLog then s.writeLog c path (conversion.stats.toJson timed.milliseconds)
  if c.writeBibliography then
    match conversion.bibliography with
    | some bibliography => s.writeBibliography (bibliographyFile c path) bibliography
    | none => pure ()
  pure timed

end Storage

end Manuscript.Disk
