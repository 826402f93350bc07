import Manuscript.Conversion.Basic
import Manuscript.Disk.Path
import Manuscript.Text.Quoted

/-!
The settings of a conversion between files, with the one rule that they have to keep.
-/

set_option autoImplicit false

namespace Manuscript

inductive FrontmatterMode where
  | ignore
  | page
  | project
  deriving DecidableEq

structure Config where
  /-- The folder of what is written; without it, that of the article. -/
  dir : Option Disk.Path := none
  frontmatter : FrontmatterMode := .ignore
  dois : Bool := true
  writeBibliography : Bool := true
  bibliographyFile : Disk.Path := "main.bib"
  /-- What is known of PubMed identifiers, instead of what is on disk. -/
  pmids : Option Pmid.Findings := none
  writeLog : Bool := true
  formulas : Formula.Converter := Formula.ofMathml

def FrontmatterMode.name : FrontmatterMode → String
  | .ignore => "ignore"
  | .page => "page"
  | .project => "project"

def FrontmatterMode.ofName? (name : String) : Option FrontmatterMode :=
  [.ignore, .page, .project].find? (FrontmatterMode.name · == name)

namespace Config

inductive Fault where
  | emptyBibliographyFile
  | notAFile (name : String)
  deriving DecidableEq

def Fault.message (fault : Fault) : String :=
  "Invalid configuration: " ++ match fault with
    | .emptyBibliographyFile => "Bibliography file name must not be empty"
    | .notAFile name => "Bibliography file name is not a file: '" ++ name ++ "'"

/-- The settings, if the bibliography can be a file. -/
def check (c : Config) : Except Fault Config :=
  let name := Text.trim c.bibliographyFile
  if name.isEmpty then throw .emptyBibliographyFile
  else if (Disk.Path.name? name).isNone then throw (.notAFile name)
  else pure c

def outputDir (c : Config) (article : Disk.Path) : Disk.Path :=
  match c.dir with
  | some dir => dir
  | none => ((Disk.Path.parent? article).bind Text.nonEmpty?).getD "."

def options (c : Config) (pmids : Pmid.Findings) : Conversion.Options where
  sources := ⟨pmids, c.dois⟩
  formulas := c.formulas

def optionText (text : Option String) : String :=
  match text with
  | some text => "Some(" ++ text ++ ")"
  | none => "None"

def modeText : FrontmatterMode → String
  | .ignore => "Ignore"
  | .page => "Page"
  | .project => "Project"

def debugText (c : Config) : String :=
  let fields := [
    ("dir", optionText (c.dir.map Text.quotedPath)),
    ("frontmatter", modeText c.frontmatter),
    ("dois", toString c.dois),
    ("write_bibtex", toString c.writeBibliography),
    ("bibliography_file", Text.quoted c.bibliographyFile),
    ("pmid_cache", optionText (c.pmids.map fun pmids => toString pmids.size)),
    ("write_log", toString c.writeLog),
    ("math", "\"<dyn MathmlToLatex>\"")]
  let texts := fields.map fun (name, value) => name ++ ": " ++ value
  "ConversionConfig \x7b " ++ String.intercalate ", " texts ++ " \x7d"

end Config

end Manuscript
