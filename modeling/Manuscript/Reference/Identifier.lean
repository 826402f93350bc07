import Manuscript.Doi
import Manuscript.Pmid.Cache
import Manuscript.Tree.Search

/-!
The digital object identifier of a citation. One that the citation states or links to counts first,
then one in its text, then one that is known for its PubMed identifier.
-/

set_option autoImplicit false

namespace Manuscript.Reference

def isLinkOr (type : String) (n : Node) : Bool :=
  n.is "ext-link" || n.attrText? "pub-id-type" == some type

def explicitDoi? (cite : Node) : Option String :=
  (cite.findAll (isLinkOr "doi")).findSome? fun n =>
    (Doi.normalize n.toText).orElse fun _ => (n.attrText? "xlink:href").bind Doi.normalize

def writtenDoi? (cite : Node) : Option String :=
  (cite.findAll Node.isText).findSome? fun n => n.value.bind fun s => Doi.inText? s.toList

/-- The identifier that is known for the PubMed identifier of a citation. -/
def knownDoi? (pmids : Pmid.Findings) (cite : Node) : Option String :=
  (cite.findAll (isLinkOr "pmid")).findSome? fun n =>
    (pmids.find? (Pmid.normalize n.toText)).bind id

def doi? (pmids : Pmid.Findings) (cite : Node) : Option String :=
  ((explicitDoi? cite).orElse fun _ => writtenDoi? cite).orElse fun _ => knownDoi? pmids cite

/-- The PubMed identifiers that entries state and of which nothing is known, each once. -/
def missingPmids (pmids : Pmid.Findings) (refs : List Node) : List String :=
  let stated := refs.flatMap (·.findAll fun n => n.attrText? "pub-id-type" == some "pmid")
  Pmid.Cache.missing ⟨pmids⟩ (stated.map Node.toText)

end Manuscript.Reference
