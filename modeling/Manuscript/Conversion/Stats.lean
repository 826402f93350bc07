import Manuscript.Article.Basic
import Manuscript.Reference.Registry

/-!
The log of a conversion: what the article states about itself, and how many elements of a kind
there are before and after.
-/

set_option autoImplicit false

namespace Manuscript.Conversion

structure Metadata where
  publisher : Option String
  journal : Option String
  pmid : Option String
  pmc : Option String
  doi : Option String
  year : Option String
  license : Option String

def Metadata.ofArticle (a : Article) : Metadata where
  publisher := a.publisher?
  journal := a.journalTitle?
  pmid := a.pmid?
  pmc := a.pmc?
  doi := a.doi?
  year := a.publicationYear?
  license := a.license?

/-- How many elements of a kind there are in the body, in the back matter and in the document. -/
structure Tally where
  body : Nat
  back : Nat
  myst : Nat

def Tally.of (a : Article) (document : Node) (kind : String) (became : Node → Bool) : Tally where
  body := (a.body?.map (·.count (·.is kind))).getD 0
  back := (a.back?.map (·.count (·.is kind))).getD 0
  myst := document.count became

def isContainer (kind : String) (n : Node) : Bool :=
  n.is "container" && n.attrText? "kind" == some kind

structure Stats where
  metadata : Metadata
  references : Reference.Counts
  lostRefs : List String
  lostItems : List String
  unhandled : List String
  missingPmids : List String
  figures : Tally
  tables : Tally
  inlineFormulas : Tally
  equations : Tally
  footnotes : Tally

end Manuscript.Conversion
