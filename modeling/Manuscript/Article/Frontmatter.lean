import Manuscript.Article.Basic
import Manuscript.Frontmatter.Basic

/-!
The metadata that the front of an article states: titles, authors with their affiliations,
keywords, venue and subject.
-/

set_option autoImplicit false

namespace Manuscript.Article

def textBelow? (kind : String) (n : Node) : Option String :=
  (n.findKind? kind).map (Text.trim ·.toText)

def withoutOrcidSite : List Char → List Char
  | [] => []
  | c :: cs =>
    let after? (lead : String) := Text.rest? lead.toList (c :: cs)
    match ((after? "https://orcid.org/").orElse fun _ => after? "http://orcid.org/").orElse
        fun _ => after? "orcid.org/" with
    | some after => after
    | none => c :: withoutOrcidSite cs

def author (contrib : Node) : Author where
  name := Text.trim
    ((textBelow? "given-names" contrib).getD "" ++ " " ++ (textBelow? "surname" contrib).getD "")
  orcid := (contrib.find? fun n => n.attrText? "contrib-id-type" == some "orcid").map fun n =>
    String.ofList (withoutOrcidSite (Text.trim n.toText).toList)
  affiliations :=
    (contrib.findAll fun n => n.is "xref" && n.attrText? "ref-type" == some "aff").filterMap
      (·.attrText? "rid")

/-- Whether a character may stand around the name of an institution without belonging to it. -/
def isEdge (c : Char) : Bool := Text.isBlank c || c == ';' || c == ','

def trimEdges? (s : String) : Option String :=
  Text.nonEmpty? (String.ofList (Text.trimWhile isEdge s.toList))

mutual
def institutionText : Node → String
  | ⟨k, none, v, _⟩ => if k = "institution-id" then "" else v.getD ""
  | ⟨k, some cs, v, _⟩ =>
    if k = "institution-id" then "" else v.getD "" ++ institutionTexts cs

def institutionTexts : List Node → String
  | [] => ""
  | n :: ns => institutionText n ++ institutionTexts ns
end

/-- The institution of an affiliation: its text if it holds nothing but text and institutions,
else its first institution that is no department. -/
def institution? (aff : Node) : Option String :=
  let parts := aff.kids.filter fun n => !n.is "label"
  if parts.all (·.isOneOf ["text", "institution-wrap", "institution"]) then
    trimEdges? (institutionTexts parts)
  else
    ((aff.findKinds "institution").find? fun n => n.attrText? "content-type" != some "dept").bind
      fun n => trimEdges? n.toText

def marked? (kind attr value : String) (n : Node) : Option Node :=
  n.find? fun m => m.is kind && m.attrText? attr == some value

def affiliation (aff : Node) : Affiliation where
  id := aff.attrText? "id"
  institution := institution? aff
  department :=
    ((marked? "institution" "content-type" "dept" aff).orElse fun _ =>
      marked? "named-content" "content-type" "organisation-division" aff).bind
        fun n => trimEdges? n.toText
  country :=
    ((aff.findKind? "country").orElse fun _ =>
      marked? "named-content" "content-type" "country" aff).bind fun n => trimEdges? n.toText
  ror :=
    (marked? "institution-id" "institution-id-type" "ror" aff).bind fun n => trimEdges? n.toText

def isAuthor (contrib : Node) : Bool :=
  match contrib.attrText? "contrib-type" with
  | none => true
  | some type => type == "author"

/-- The contributors of all groups, of every group those below it, in document order. -/
def contributors (front : Node) : List Node :=
  (front.findKinds "contrib-group").flatMap (·.findKinds "contrib")

def keywords (front : Node) : List String :=
  match front.findKind? "kwd-group" with
  | some group => (group.findKinds "kwd").map (Text.trim ·.toText)
  | none => []

/-- The metadata of the article. Description and abbreviations are not part of the front. -/
def frontmatter (a : Article) : Frontmatter :=
  match a.front? with
  | none => .empty
  | some front =>
    let titleText? (kind : String) : Option String :=
      ((front.findKind? "title-group").bind (textBelow? kind)).bind Text.nonEmpty?
    { title := titleText? "article-title"
      subtitle := titleText? "subtitle"
      shortTitle := titleText? "alt-title"
      doi := a.doi?
      date := (a.publicationDate?.bind Date.ofNode?).map Date.format
      authors := ((contributors front).filter isAuthor).map author
      affiliations :=
        (front.findAll fun n => n.is "aff" && (n.attrText? "id").isSome).map affiliation
      keywords := keywords front
      venue := textBelow? "journal-title" front
      subject := textBelow? "subject" ((front.findKind? "article-categories").getD front) }

end Manuscript.Article
