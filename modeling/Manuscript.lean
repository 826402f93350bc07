import Manuscript.Main
import Manuscript.Disk.Basic
import Manuscript.Xml.Printer
import Manuscript.Tree.Edit
import Manuscript.Proofs.Citation.Weight
import Manuscript.Proofs.Citation.Progress
import Manuscript.Proofs.Citation.CleanPass
import Manuscript.Proofs.Citation.FixedPoint
import Manuscript.Proofs.Citation.Conservation
import Manuscript.Proofs.Reference.Inheritance
import Manuscript.Proofs.Reference.Completeness
import Manuscript.Proofs.Reference.Identifiers
import Manuscript.Proofs.Reference.Bibliography
import Manuscript.Proofs.Citation.Frame
import Manuscript.Proofs.Citation.Substitution
import Manuscript.Proofs.Citation.Siblings
import Manuscript.Proofs.Citation.Clusters
import Manuscript.Proofs.Document.Assembly
import Manuscript.Proofs.Document.Citations
import Manuscript.Proofs.Document.WellFormed
import Manuscript.Proofs.Document.Provenance
import Manuscript.Proofs.Document.Range
import Manuscript.Proofs.Document.Footnotes
import Manuscript.Proofs.Document.Targets
import Manuscript.Proofs.Document.Neat
import Manuscript.Proofs.Document.Stability
import Manuscript.Proofs.Document.Realisation
import Manuscript.Proofs.Emission.Machine
import Manuscript.Proofs.Emission.Discipline
import Manuscript.Proofs.Emission.Composition
import Manuscript.Proofs.Emission.Texts
import Manuscript.Proofs.Emission.Closure
import Manuscript.Proofs.Document.Indifference
import Manuscript.Proofs.Xml.Tag
import Manuscript.Proofs.Xml.RoundTrip
import Manuscript.Proofs.Xml.Layout
import Manuscript.Proofs.Pmid.Fetching
import Manuscript.Proofs.Reference.Pubmed
import Manuscript.Proofs.Disk.Outputs
import Manuscript.Proofs.Document.Attributes
import Manuscript.Proofs.Body.Headings
import Manuscript.Proofs.Emission.References
import Manuscript.Proofs.Disk.Batch
import Manuscript.Proofs.Emission.Separators
import Manuscript.Proofs.Emission.Markup
import Manuscript.Proofs.Emission.Tables
import Manuscript.Proofs.Body.Prose
import Manuscript.Proofs.Document.Failure
import Manuscript.Proofs.Doi
import Manuscript.Proofs.Reference.Evidence
import Manuscript.Proofs.Reference.Agreement
import Manuscript.Proofs.Reference.Braces
import Manuscript.Proofs.Reference.Fields
import Manuscript.Proofs.Reference.Parts
import Manuscript.Proofs.Formula.ControlWords
import Manuscript.Proofs.Formula.Reserved
import Manuscript.Proofs.Body.Abstract
import Manuscript.Proofs.Body.Supplements
import Manuscript.Proofs.Body.Formatting
import Manuscript.Proofs.Document.Description
import Manuscript.Proofs.Abbreviation.Grammar
import Manuscript.Proofs.Abbreviation.Sections
import Manuscript.Proofs.Document.NormalForm
import Manuscript.Proofs.Tree.Rewriting
import Manuscript.Proofs.Article.Authors
import Manuscript.Proofs.Article.Calendar
import Manuscript.Proofs.Frontmatter.Settings
