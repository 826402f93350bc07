import Manuscript.Frontmatter.Basic
import Manuscript.Json.Value

/-!
The JSON form of document metadata. Writing leaves out what is empty; reading takes a record as an
object of named fields or as the list of its fields in order.
-/

set_option autoImplicit false

namespace Manuscript

namespace Json

/-- The fields of a record in the order of their names, those that are absent as `none`. -/
def record? (names : List String) : Json → Option (List (Option Json))
  | .object fields => some (names.map fun name => Dict.lookup name fields)
  | .array items =>
    if items.length ≤ names.length then
      some (items.map some ++ List.replicate (names.length - items.length) none)
    else none
  | _ => none

def optional? {α : Type} (read : Json → Option α) : Option Json → Option (Option α)
  | none => some none
  | some .null => some none
  | some value => (read value).map some

def list? {α : Type} (read : Json → Option α) : Option Json → Option (List α)
  | none => some []
  | some (.array items) => items.mapM read
  | some _ => none

def texts? : Option Json → Option (Dict String)
  | none => some .empty
  | some (.object fields) =>
    (fields.mapM fun field => (asString? field.2).map fun s => (field.1, s)).map Dict.ofList
  | some _ => none

/-- A field that is written only if it is present. -/
def textField (name : String) : Option String → List (String × Json)
  | some s => [(name, .string s)]
  | none => []

/-- A field that is written only if it is not empty. -/
def listField {α : Type} (name : String) (write : α → Json) (items : List α) :
    List (String × Json) :=
  if items.isEmpty then [] else [(name, .array (items.map write))]

end Json

def Author.toJson (a : Author) : Json :=
  .object (("name", .string a.name) :: (Json.textField "orcid" a.orcid
    ++ Json.listField "affiliations" Json.string a.affiliations))

def Author.ofJson? (value : Json) : Option Author := do
  match ← value.record? ["name", "orcid", "affiliations"] with
  | [some (.string name), orcid, affiliations] =>
    pure ⟨name, ← Json.optional? Json.asString? orcid, ← Json.list? Json.asString? affiliations⟩
  | _ => none

def Affiliation.toJson (a : Affiliation) : Json :=
  .object (Json.textField "id" a.id ++ Json.textField "institution" a.institution
    ++ Json.textField "department" a.department ++ Json.textField "country" a.country
    ++ Json.textField "ror" a.ror)

def Affiliation.ofJson? (value : Json) : Option Affiliation := do
  match ← value.record? ["id", "institution", "department", "country", "ror"] with
  | [id, institution, department, country, ror] =>
    let text := Json.optional? Json.asString?
    pure ⟨← text id, ← text institution, ← text department, ← text country, ← text ror⟩
  | _ => none

def Frontmatter.venueOf? (value : Json) : Option String := do
  match ← value.record? ["title"] with
  | [some (.string title)] => some title
  | _ => none

namespace Frontmatter

def fieldNames : List String :=
  ["title", "subtitle", "short_title", "doi", "date", "authors", "affiliations", "keywords",
    "venue", "subject", "description", "abbreviations"]

def fields (f : Frontmatter) : List (String × Json) :=
  Json.textField "title" f.title
    ++ Json.textField "subtitle" f.subtitle
    ++ Json.textField "short_title" f.shortTitle
    ++ Json.textField "doi" f.doi
    ++ Json.textField "date" f.date
    ++ Json.listField "authors" Author.toJson f.authors
    ++ Json.listField "affiliations" Affiliation.toJson f.affiliations
    ++ Json.listField "keywords" Json.string f.keywords
    ++ (f.venue.map fun title => ("venue", Json.object [("title", .string title)])).toList
    ++ Json.textField "subject" f.subject
    ++ Json.textField "description" f.description
    ++ (if f.abbreviations.isEmpty then []
      else [("abbreviations", .object (f.abbreviations.map Json.string).entries)])

def toJson (f : Frontmatter) : Json := .object f.fields

def ofJson? (value : Json) : Option Frontmatter := do
  match ← value.record? fieldNames with
  | [title, subtitle, shortTitle, doi, date, authors, affiliations, keywords, venue, subject,
      description, abbreviations] =>
    let text := Json.optional? Json.asString?
    pure
      { title := ← text title
        subtitle := ← text subtitle
        shortTitle := ← text shortTitle
        doi := ← text doi
        date := ← text date
        authors := ← Json.list? Author.ofJson? authors
        affiliations := ← Json.list? Affiliation.ofJson? affiliations
        keywords := ← Json.list? Json.asString? keywords
        venue := ← Json.optional? venueOf? venue
        subject := ← text subject
        description := ← text description
        abbreviations := ← Json.texts? abbreviations }
  | _ => none

end Frontmatter

end Manuscript
