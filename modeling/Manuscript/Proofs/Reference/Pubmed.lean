import Manuscript.Proofs.Pmid.Fetching
import Manuscript.Reference.Registry

/-!
Citations that state nothing but a PubMed identifier. What they stand for is looked up in the
findings as they are given, while the cache looks up normal forms and passes over empty answers.
The two agree for findings that are keyed by bare identifiers and have no empty answer.
-/

set_option autoImplicit false

namespace Manuscript

namespace Pmid

/-- Whether no two keys of findings are spellings of one identifier. -/
def Distinct (findings : Findings) : Prop :=
  ∀ one ∈ findings.keys, ∀ other ∈ findings.keys, normalize one = normalize other → one = other

/-- Whether findings are as the cache keeps them: keyed by bare identifiers, and with a text that
is not empty wherever there is one. -/
structure Tidy (findings : Findings) : Prop where
  bare : ∀ key ∈ findings.keys, IsBare key
  full : ∀ key, findings.find? key ≠ some (some "")

theorem Tidy.distinct {findings : Findings} (tidy : Tidy findings) : Distinct findings := by
  intro one left other right same
  rw [← tidy.bare one left, same, tidy.bare other right]

namespace Cache

theorem find?_foldl_insert_of_forall_ne {key : String} {entries : List (String × Option String)}
    (other : ∀ entry ∈ entries, normalize entry.1 ≠ key) (cache : Cache) :
    (entries.foldl (fun cache (pmid, doi) => cache.insert pmid doi) cache).entries.find? key =
      cache.entries.find? key := by
  induction entries generalizing cache with
  | nil => rfl
  | cons entry entries ih =>
    obtain ⟨here, others⟩ := List.forall_mem_cons.1 other
    rw [List.foldl_cons, ih others]
    exact (Dict.find?_insert ..).trans (if_neg here.symm)

theorem find?_foldl_insert_of_mem {name : String} {value : Option String}
    {entries : List (String × Option String)}
    (distinct : entries.Pairwise fun one other => normalize one.1 ≠ normalize other.1)
    (mem : (name, value) ∈ entries) (cache : Cache) :
    (entries.foldl (fun cache (pmid, doi) => cache.insert pmid doi) cache).entries.find?
      (normalize name) = some value := by
  induction entries generalizing cache with
  | nil => cases mem
  | cons entry entries ih =>
    obtain ⟨others, distinct⟩ := List.pairwise_cons.1 distinct
    rw [List.foldl_cons]
    rcases List.mem_cons.1 mem with rfl | mem
    · rw [find?_foldl_insert_of_forall_ne fun entry mem => (others entry mem).symm]
      exact (Dict.find?_insert ..).trans (if_pos rfl)
    · exact ih distinct mem _

/-- What the cache of some findings has under a key is what they have for a spelling of it. -/
theorem find?_ofFindings {findings : Findings} (distinct : Distinct findings) {key : String}
    {value : Option String} : (ofFindings findings).entries.find? key = some value ↔
      ∃ name, findings.find? name = some value ∧ normalize name = key := by
  have apart : findings.entries.Pairwise fun one other => normalize one.1 ≠ normalize other.1 := by
    refine findings.sorted.imp_of_mem fun left right below same => ?_
    have equal := distinct _ (List.mem_map_of_mem left) _ (List.mem_map_of_mem right) same
    exact String.lt_irrefl _ (equal ▸ below)
  constructor
  · intro found
    by_cases spelled : ∃ entry ∈ findings.entries, normalize entry.1 = key
    · obtain ⟨⟨name, answer⟩, mem, rfl⟩ := spelled
      have recorded := find?_foldl_insert_of_mem apart mem empty
      obtain rfl : answer = value := Option.some.inj (recorded.symm.trans found)
      exact ⟨name, Dict.find?_eq_some_iff.2 mem, rfl⟩
    · have absent := find?_foldl_insert_of_forall_ne
        (fun entry mem same => spelled ⟨entry, mem, same⟩) empty
      exact nomatch absent.symm.trans found
  · rintro ⟨name, found, rfl⟩
    exact find?_foldl_insert_of_mem apart (Dict.find?_eq_some_iff.1 found) empty

/-- The cache of some findings answers with the text that is found for any spelling, unless the
text is empty. -/
theorem doi?_ofFindings {findings : Findings} (distinct : Distinct findings) {pmid doi : String} :
    (ofFindings findings).doi? pmid = some doi ↔
      doi ≠ "" ∧
        ∃ name, findings.find? name = some (some doi) ∧ normalize name = normalize pmid := by
  rw [Cache.doi?, Option.filter_eq_some_iff, Option.bind_eq_some_iff, and_comm]
  refine and_congr (by simp) ?_
  constructor
  · rintro ⟨answer, found, rfl⟩
    exact (find?_ofFindings distinct).1 found
  · exact fun found => ⟨some doi, (find?_ofFindings distinct).2 found, rfl⟩

/-- Where the only spelling of an identifier is its normal form and the answer is not empty, the
cache answers with what the findings have under the normal form. -/
theorem doi?_ofFindings_eq {findings : Findings} {pmid : String} (distinct : Distinct findings)
    (own : ∀ name ∈ findings.keys, normalize name = normalize pmid ↔ name = normalize pmid)
    (full : findings.find? (normalize pmid) ≠ some (some "")) :
    (ofFindings findings).doi? pmid = (findings.find? (normalize pmid)).bind id := by
  have listed {name : String} {answer : Option String} (found : findings.find? name = some answer) :
      name ∈ findings.keys := Dict.mem_keys_iff.2 (Option.isSome_of_eq_some found)
  apply Option.ext
  intro doi
  rw [doi?_ofFindings distinct, Option.bind_eq_some_iff]
  constructor
  · rintro ⟨-, name, found, same⟩
    exact ⟨some doi, (own name (listed found)).1 same ▸ found, rfl⟩
  · rintro ⟨answer, found, rfl⟩
    exact ⟨fun empty => full (empty ▸ found), _, found, (own _ (listed found)).2 rfl⟩

-- Only the cache finds a key that is no normal form.
example :
    let findings := Dict.ofList [("PMID:1", some "10.1000/x")]
    findings.find? (normalize "1") = none ∧ (ofFindings findings).doi? "1" = some "10.1000/x" := by
  decide +kernel

end Cache

end Pmid

namespace Reference

open Pmid

/-- Whether a citation states one PubMed identifier and nothing else that leads to a digital object
identifier. -/
structure OnlyPmid (cite stated : Node) : Prop where
  explicit : explicitDoi? cite = none
  written : writtenDoi? cite = none
  pmid : cite.findAll (isLinkOr "pmid") = [stated]

example :
    let stated := (Node.branch "pub-id" [.text "1"]).setAttr "pub-id-type" (.string "pmid")
    OnlyPmid (.branch "mixed-citation" [.text "A title. ", stated]) stated := by
  exact ⟨by decide +kernel, by decide +kernel, by rfl⟩

section
variable {findings : Findings} {cite stated : Node}

theorem OnlyPmid.doi? (only : OnlyPmid cite stated) :
    doi? findings cite = (findings.find? (normalize stated.toText)).bind id := by
  simp [Reference.doi?, only.explicit, only.written, knownDoi?, only.pmid]

theorem OnlyPmid.addCitation (only : OnlyPmid cite stated) (tidy : Tidy findings) (r : Registry)
    (key : String) : r.addCitation ⟨findings, true⟩ cite key =
      match (Cache.ofFindings findings).doi? stated.toText with
      | some doi => (Doi.url doi, { r with counts := { r.counts with dois := r.counts.dois + 1 } })
      | none => (key, r.addEntry (.ofCitation cite key)) := by
  have own : ∀ name ∈ findings.keys,
      normalize name = normalize stated.toText ↔ name = normalize stated.toText :=
    fun name mem => by rw [tidy.bare name mem]
  rw [Cache.doi?_ofFindings_eq tidy.distinct own (tidy.full _), ← only.doi?]
  rfl

end

end Reference

end Manuscript
