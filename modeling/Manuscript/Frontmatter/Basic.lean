import Manuscript.Data.Dict

/-!
The metadata of a document.
-/

set_option autoImplicit false

namespace Manuscript

structure Author where
  name : String
  orcid : Option String := none
  /-- The identifiers of the affiliations. -/
  affiliations : List String := []

structure Affiliation where
  id : Option String := none
  institution : Option String := none
  department : Option String := none
  country : Option String := none
  ror : Option String := none

abbrev Abbreviations := Dict String

structure Frontmatter where
  title : Option String := none
  subtitle : Option String := none
  shortTitle : Option String := none
  doi : Option String := none
  date : Option String := none
  authors : List Author := []
  affiliations : List Affiliation := []
  keywords : List String := []
  venue : Option String := none
  subject : Option String := none
  description : Option String := none
  abbreviations : Abbreviations := .empty

namespace Frontmatter

def empty : Frontmatter := {}

instance : Inhabited Frontmatter := ⟨empty⟩

def mergeAbbreviations (f : Frontmatter) (found : Abbreviations) : Frontmatter :=
  { f with abbreviations := found.insertAll f.abbreviations }

theorem foldl_mergeAbbreviations (lists : List Abbreviations) (f : Frontmatter) :
    { lists.foldl mergeAbbreviations f with abbreviations := f.abbreviations } = f := by
  suffices same : ∃ found, lists.foldl mergeAbbreviations f = { f with abbreviations := found } by
    obtain ⟨found, same⟩ := same
    rw [same]
  induction lists generalizing f with
  | nil => exact ⟨_, rfl⟩
  | cons list lists ih =>
    obtain ⟨found, same⟩ := ih (f.mergeAbbreviations list)
    exact ⟨found, same⟩

/-- What is there already counts, and of several lists the first. -/
theorem find?_foldl_mergeAbbreviations (lists : List Abbreviations) (f : Frontmatter)
    (key : String) : (lists.foldl mergeAbbreviations f).abbreviations.find? key =
      (f.abbreviations.find? key).or (lists.findSome? (·.find? key)) := by
  induction lists generalizing f with
  | nil => simp
  | cons list lists ih =>
    rw [List.foldl_cons, ih, mergeAbbreviations, Dict.find?_insertAll, Option.or_assoc,
      List.findSome?_cons]
    cases list.find? key <;> rfl

end Frontmatter

end Manuscript
