import Manuscript.Reference.Registry

/-!
A short account of a reference list: one line for every entry, and the order in which the body of
the article cites them.
-/

set_option autoImplicit false

namespace Manuscript.Reference

/-- The line of an entry, and its digital object identifier if it states one. -/
structure Line where
  html : String
  doi : Option String

structure Summary where
  order : List String
  lines : Dict Line

namespace Line

def part (ref : Node) (kind : String) : String := ((ref.findKind? kind).map Bibtex.textOf).getD ""

def persons (ref : Node) : String :=
  String.intercalate ", " ((ref.findAll (·.isOneOf ["name", "string-name"])).map Bibtex.personName)

def link (doi : String) : String := " <a href=" ++ Doi.url doi ++ ">" ++ doi ++ "</a>"

def ofRef (ref : Node) : Line :=
  let doi := (ref.findAll (isLinkOr "doi")).findSome? fun n => Doi.normalize n.toText
  let html := persons ref ++ ". (" ++ part ref "year" ++ "). " ++ part ref "article-title"
    ++ ". <i>" ++ part ref "source" ++ "</i>, <i>" ++ part ref "volume" ++ "</i>, "
    ++ part ref "fpage" ++ "-" ++ part ref "lpage" ++ "." ++ (doi.map link).getD ""
  ⟨html, doi⟩

end Line

namespace Summary

def cited (n : Node) : List String :=
  if n.is "xref" && n.attrText? "ref-type" == some "bibr" then
    Text.words ((n.attrText? "rid").getD "")
  else []

/-- The summary of the reference list of an article. An entry without an identifier has no line. -/
def ofArticle (a : Article) : Summary where
  order := Registry.firstOccurrences (((a.body?.map Node.descendants).getD []).flatMap cited)
  lines := a.references.foldl (fun lines ref =>
    match ref.attrText? "id" with
    | some name => lines.insert name (.ofRef ref)
    | none => lines) .empty

end Summary

end Manuscript.Reference
