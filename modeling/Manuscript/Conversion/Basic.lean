import Manuscript.Article.Frontmatter
import Manuscript.Body.Abstract
import Manuscript.Body.BackMatter
import Manuscript.Body.Basic
import Manuscript.Body.Graphics
import Manuscript.Conversion.Stats
import Manuscript.Myst.Abbreviation
import Manuscript.Myst.Citation.Grouping
import Manuscript.Myst.Citation.Resolution
import Manuscript.Myst.Cleanup
import Manuscript.Myst.Emitter
import Manuscript.Reference.Summary

/-!
The conversion of an article into a document with its metadata, bibliography and log.
-/

set_option autoImplicit false

namespace Manuscript

structure Conversion where
  tree : Node
  frontmatter : Frontmatter
  references : Reference.Summary
  /-- The text of the bibliography, if an entry had to be made. -/
  bibliography : Option String
  report : Report
  stats : Conversion.Stats

namespace Conversion

/-- What a conversion depends on besides the article. -/
structure Options where
  sources : Reference.Sources := {}
  formulas : Formula.Converter := Formula.ofMathml

/-- The body with the footnotes of the reference list, the back matter and the floating supplements
at its end. -/
def assembleBody (a : Article) (footnotes : Option Node) : Node :=
  let body := a.body?.getD (.branch "body" [])
  let body := match footnotes with
    | some group => body.withKids (body.kids ++ [group])
    | none => body
  Body.moveFloats (Body.appendBackMatter body a.back?)

def abstractBlock (abstract : Node) : Node :=
  .branch "block" (Body.simplifyAbstract abstract).kids
    ((Dict.empty : Attrs).insert "part" (.string "abstract"))

/-- All that is rendered, under one root: the abstract, the body and the floating groups. -/
def assemble (a : Article) (footnotes : Option Node) : Node :=
  .branch "root" ((a.abstract?.map abstractBlock).toList ++ (assembleBody a footnotes).kids
    ++ a.floatsGroups.flatMap Node.kids)

/-- The assembled article in the form in which it is rendered. -/
def prepare (a : Article) (footnotes : Option Node) : Node :=
  Body.hostGraphics a (Body.renameCitations (Body.normalize (assemble a footnotes)))

def cite (registry : Reference.Registry) (order : List String) (tree : Node) : Node :=
  (Myst.Citation.groupCitations order (Myst.Citation.resolveBelow registry.lookup tree)).1

def isAbstract (n : Node) : Bool :=
  n.is "block" && ((n.attr? "data").bind (·.field? "part")).bind Json.asString? == some "abstract"

def description? (tree : Node) : Option String :=
  (tree.kids.find? isAbstract).map fun n => Body.describe n.toText

def describe (tree : Node) (f : Frontmatter) : Frontmatter :=
  match description? tree with
  | some description => { f with description := some description }
  | none => f

def statsOf (a : Article) (pmids : Pmid.Findings) (registry : Reference.Registry) (report : Report)
    (tree : Node) : Stats where
  metadata := .ofArticle a
  references := registry.counts
  lostRefs := registry.lostRefs
  lostItems := registry.lostItems
  unhandled := report.unhandled.keys
  missingPmids := Reference.missingPmids pmids a.references
  figures := .of a tree "fig" (isContainer "figure")
  tables := .of a tree "table-wrap" (isContainer "table")
  inlineFormulas := .of a tree "inline-formula" (·.is "inlineMath")
  equations := .of a tree "disp-formula" (·.is "math")
  footnotes := .of a tree "fn" (·.is "footnoteDefinition")

end Conversion

/-- Converts an article. It fails only if an entry of the reference list cannot be cited. -/
def Article.convert (options : Conversion.Options) (a : Article) :
    Except Reference.Fault Conversion := do
  let registry ← Reference.Registry.ofReferences options.sources a.references
  let (emitted, report) := Myst.emit options.formulas (Conversion.prepare a registry.footnoteGroup?)
  let cited := Conversion.cite registry (registry.order a.references) emitted
  let sections := Myst.extractSections cited a.frontmatter
  let footnotes := Myst.extractFootnotes sections.tree sections.frontmatter
  let tree := Myst.clean footnotes.tree
  pure
    { tree
      frontmatter := Conversion.describe tree footnotes.frontmatter
      references := .ofArticle a
      bibliography := registry.bibliography?
      report
      stats := Conversion.statsOf a options.sources.pmids registry report tree }

end Manuscript
