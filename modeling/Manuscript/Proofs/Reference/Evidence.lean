import Manuscript.Proofs.Doi
import Manuscript.Proofs.Reference.Identifiers

/-!
Where the labels of a registry come from. Whatever the registry cites was resolved for a citation of
some entry, and a label that is the address of a digital object identifier is the address of a valid
one, but for two ways of finding it: in running text all of its name may be cut off, and what is
known for a PubMed identifier is taken as it is, with blanks at its ends.
-/

set_option autoImplicit false

namespace Manuscript.Reference

open Manuscript.Node

/-! ### Identifiers of citations -/

section
variable {pmids : Pmid.Findings} {cite : Node} {d : String}

/-- The three places are looked at in order, each only if those before it give nothing. -/
theorem doi?_eq_some_iff : doi? pmids cite = some d ↔ explicitDoi? cite = some d ∨
    explicitDoi? cite = none ∧ (writtenDoi? cite = some d ∨
      writtenDoi? cite = none ∧ knownDoi? pmids cite = some d) := by
  simp only [doi?, Option.orElse_eq_or, Option.or_assoc, Option.or_eq_some_iff]

theorem hasForm_of_explicitDoi? (stated : explicitDoi? cite = some d) :
    Doi.hasForm d.toList = true := by
  obtain ⟨n, -, normal⟩ := List.exists_of_findSome?_eq_some stated
  rw [Option.orElse_eq_or, Option.or_eq_some_iff] at normal
  rcases normal with text | ⟨-, target⟩
  · exact Doi.hasForm_of_normalize text
  · obtain ⟨address, -, normal⟩ := Option.bind_eq_some_iff.1 target
    exact Doi.hasForm_of_normalize normal

theorem exists_inText?_of_writtenDoi? (written : writtenDoi? cite = some d) :
    ∃ s : String, Doi.inText? s.toList = some d := by
  obtain ⟨n, -, read⟩ := List.exists_of_findSome?_eq_some written
  obtain ⟨s, -, found⟩ := Option.bind_eq_some_iff.1 read
  exact ⟨s, found⟩

theorem exists_find?_of_knownDoi? (known : knownDoi? pmids cite = some d) :
    ∃ pmid, pmids.find? pmid = some (some d) := by
  obtain ⟨n, -, found⟩ := List.exists_of_findSome?_eq_some known
  obtain ⟨finding, found, same⟩ := Option.bind_eq_some_iff.1 found
  exact ⟨_, found.trans (congrArg some same)⟩

/-- How an identifier reads that a citation is found to have: it is valid and read back from its
address, or it was cut off behind its slash in running text and is not valid, or it was known with
blanks around it. -/
inductive Reads (cite : Node) (d : String) : Prop
  | bare (valid : Doi.validate d = true) (back : Doi.normalize (Doi.url d) = some d)
  | cutOff (unstated : explicitDoi? cite = none) (written : writtenDoi? cite = some d)
      (registrant : List Char) (spelled : d.toList = Doi.stem registrant)
      (isOne : Doi.IsRegistrant Text.isDigit registrant) (invalid : Doi.validate d = false)
  | spaced (unstated : explicitDoi? cite = none) (unwritten : writtenDoi? cite = none)
      (valid : Doi.validate d = true) (back : Doi.normalize (Doi.url d) = some (Text.trim d))

theorem Reads.of_hasForm (form : Doi.hasForm d.toList = true) : Reads cite d :=
  .bare (Doi.validate_of_hasForm form) (Doi.normalize_url_of_hasForm form)

theorem reads_of_doi? (valid : ∀ pmid d, pmids.find? pmid = some (some d) → Doi.validate d = true)
    (found : doi? pmids cite = some d) : Reads cite d := by
  rcases doi?_eq_some_iff.1 found with stated | ⟨unstated, written | ⟨unwritten, known⟩⟩
  · exact .of_hasForm (hasForm_of_explicitDoi? stated)
  · obtain ⟨s, read⟩ := exists_inText?_of_writtenDoi? written
    rcases Doi.hasForm_or_eq_stem_of_inText? read with form | ⟨registrant, spelled, isOne⟩
    · exact .of_hasForm form
    · exact .cutOff unstated written registrant spelled isOne
        (Doi.not_validate_of_eq_stem spelled isOne)
  · obtain ⟨pmid, entry⟩ := exists_find?_of_knownDoi? known
    have isValid := valid pmid d entry
    exact .spaced unstated unwritten isValid (by rw [Doi.normalize_url, if_pos isValid])

end

/-! ### Labels of a registry -/

namespace Registry

section
variable {sources : Sources} {owner label name : String} {resolutions : List Resolution}

theorem mem_of_cite_mem_resolved {notes : Nat} {parts : List Node} {part : Node}
    (mem : (part, .cite label) ∈ resolved sources owner notes parts) :
    part ∈ parts ∧ isCitation part = true ∧ label = citedAs sources owner part := by
  induction parts generalizing notes with
  | nil => cases mem
  | cons head parts ih =>
    rw [resolved] at mem
    split at mem
    · next cite =>
      rcases List.mem_cons.1 mem with same | later
      · cases same
        exact ⟨List.mem_cons_self, cite, rfl⟩
      · exact (ih later).imp_left (List.mem_cons_of_mem head)
    · split at mem
      · rcases List.mem_cons.1 mem with same | later
        · cases same
        · exact (ih later).imp_left (List.mem_cons_of_mem head)
      · exact (ih mem).imp_left (List.mem_cons_of_mem head)

/-- Whether a label was made for a citation of one of some entries. -/
def IsLabel (sources : Sources) (refs : List Node) (label : String) : Prop :=
  ∃ ref ∈ refs, ∃ cite ∈ ref.kids, isCitation cite = true ∧
    label = citedAs sources ((ref.attrText? "id").getD "") cite

theorem isLabel_of_mem_entriesFrom {notes : Nat} {refs : List Node}
    (entered : (name, resolutions) ∈ entriesFrom sources notes refs)
    (cited : .cite label ∈ resolutions) : IsLabel sources refs label := by
  induction refs generalizing notes with
  | nil => cases entered
  | cons ref refs ih =>
    rw [entriesFrom, List.append_assoc, List.mem_append, List.mem_append] at entered
    rcases entered with own | here | later
    · obtain ⟨⟨part, resolution⟩, mem, entry⟩ := List.mem_filterMap.1 own
      obtain ⟨key, -, same⟩ := Option.map_eq_some_iff.1 entry
      cases same
      obtain rfl : .cite label = resolution := List.mem_singleton.1 cited
      obtain ⟨child, isOne, same⟩ := mem_of_cite_mem_resolved mem
      exact ⟨ref, List.mem_cons_self, part, child, isOne, same⟩
    · cases List.mem_singleton.1 here
      obtain ⟨⟨part, resolution⟩, mem, rfl⟩ := List.mem_map.1 cited
      obtain ⟨child, isOne, same⟩ := mem_of_cite_mem_resolved mem
      exact ⟨ref, List.mem_cons_self, part, child, isOne, same⟩
    · obtain ⟨other, mem, rest⟩ := ih later
      exact ⟨other, List.mem_cons_of_mem ref mem, rest⟩

theorem mem_of_find?_enterAll {lookup : Lookup} {entries : List (String × List Resolution)}
    (found : (enterAll lookup entries).find? name = some resolutions) :
    lookup.find? name = some resolutions ∨ (name, resolutions) ∈ entries := by
  induction entries generalizing lookup with
  | nil => exact .inl found
  | cons entry entries ih =>
    rcases ih found with before | later
    · rw [Dict.find?_insert] at before
      split at before
      · next same =>
        cases before
        exact .inr (same ▸ List.mem_cons_self)
      · exact .inl before
    · exact .inr (List.mem_cons_of_mem entry later)

/-- What is cited at all was resolved for a citation of an entry, inherited or not. -/
theorem isLabel_of_registered {refs : List Node} {r : Registry}
    (registered : ofReferences sources refs = .ok r)
    (found : r.lookup.find? name = some resolutions) (cited : .cite label ∈ resolutions) :
    IsLabel sources refs label := by
  obtain ⟨-, next, rfl, -, grown⟩ := exists_grown_of_registered registered
  have entered {name : String} {resolutions : List Resolution}
      (found : next.lookup.find? name = some resolutions) (cited : .cite label ∈ resolutions) :
      IsLabel sources refs label := by
    rw [grown.lookup] at found
    rcases mem_of_find?_enterAll found with before | mem
    · cases before
    · exact isLabel_of_mem_entriesFrom mem cited
  rw [find?_inheritAll_eq] at found
  split at found
  · -- What is inherited is entered under one of the names with a letter more.
    cases found
    obtain ⟨letter, -, mem⟩ := List.mem_flatMap.1 cited
    cases known : next.lookup.find? (name.push letter) with
    | none => rw [known] at mem; cases mem
    | some inherited =>
      rw [known, Option.getD_some] at mem
      exact entered known mem
  · exact entered found cited

/-- Where what is known of PubMed identifiers is valid, every label that a registry cites is the key
of a citation that has no identifier, or the address of one that reads as it should. -/
theorem label_reads_of_registered {a : Article} {r : Registry}
    (registered : ofReferences sources a.references = .ok r)
    (valid : ∀ pmid d, sources.pmids.find? pmid = some (some d) → Doi.validate d = true)
    (found : r.lookup.find? name = some resolutions) (cited : .cite label ∈ resolutions) :
    ∃ ref ∈ a.references, ∃ cite ∈ ref.kids, isCitation cite = true ∧
      ((sources.dois = false ∨ doi? sources.pmids cite = none) ∧
          label = (cite.attrText? "id").getD ((ref.attrText? "id").getD "") ∨
        sources.dois = true ∧ ∃ d, doi? sources.pmids cite = some d ∧ label = Doi.url d ∧
          Reads cite d) := by
  obtain ⟨ref, listed, cite, child, isOne, rfl⟩ := isLabel_of_registered registered found cited
  refine ⟨ref, listed, cite, child, isOne, ?_⟩
  unfold citedAs
  cases used : sources.dois with
  | false => simp
  | true =>
    cases resolved : doi? sources.pmids cite with
    | none => simp
    | some d => simp [reads_of_doi? valid resolved]

/-- A registrant alone is cited, though it is no identifier. -/
example :
    let ref := (branch "ref" [branch "mixed-citation" [.text "A title. 10.1000/."]]).setAttr "id"
      (.string "r1")
    (ofReferences {} [ref]).toOption.map (·.lookup.entries) =
        some [("r1", [.cite "https://doi.org/10.1000/"])] ∧
      Doi.validate "10.1000/" = false := by
  decide +kernel

end

end Registry

end Manuscript.Reference
