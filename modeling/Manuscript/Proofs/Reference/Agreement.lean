import Mathlib.Data.List.Basic
import Manuscript.Proofs.Reference.Bibliography
import Manuscript.Proofs.Reference.Evidence
import Manuscript.Reference.Summary

/-!
The summary of a reference list and its registry read a citation each in their own way: the summary
takes the first link or stated identifier that names an identifier in words, the registry takes
where a link leads and what is written elsewhere as well. What the summary finds is never missed by
the registry, and where nothing is found in these other ways the two agree.
-/

set_option autoImplicit false

namespace Manuscript.Reference

open Manuscript.Node
open Registry (isCitation)

/-! ### Searches -/

/-- The first identifier that a link or a stated identifier names in words. -/
def statedDoi? (cite : Node) : Option String :=
  (cite.findAll (isLinkOr "doi")).findSome? fun n => Doi.normalize n.toText

def targetDoi? (n : Node) : Option String := (n.attrText? "xlink:href").bind Doi.normalize

section
variable {ref cite : Node}

theorem findAll_of_kids_eq (only : ref.kids = [cite]) (wanted : Node → Bool) :
    ref.findAll wanted = [cite].filter wanted ++ cite.findAll wanted := by
  simp [findAll, descendants_eq ref, only, forestNodes, ← List.filter_append]

theorem isLinkOr_doi_eq_false (isOne : isCitation cite = true)
    (plain : cite.attrText? "pub-id-type" ≠ some "doi") : isLinkOr "doi" cite = false := by
  have kinds : cite.kind = "element-citation" ∨ cite.kind = "mixed-citation" := by
    simp only [isCitation, isOneOf, Bool.and_eq_true] at isOne
    simpa using isOne.1
  rcases kinds with kind | kind <;> simp [isLinkOr, is, kind, plain]

/-- The summary of an entry with one citation finds what the citation states in words. -/
theorem doi_ofRef (only : ref.kids = [cite]) (isOne : isCitation cite = true)
    (plain : cite.attrText? "pub-id-type" ≠ some "doi") :
    (Line.ofRef ref).doi = statedDoi? cite := by
  have other := isLinkOr_doi_eq_false isOne plain
  have read : (Line.ofRef ref).doi =
      (ref.findAll (isLinkOr "doi")).findSome? fun n => Doi.normalize n.toText := rfl
  simp [read, findAll_of_kids_eq only, other, statedDoi?]

/-- Whether nothing but words names an identifier: no link or stated identifier leads to one without
naming one, and none is written elsewhere if none is named. -/
structure InWords (cite : Node) : Prop where
  named : ∀ n ∈ cite.findAll (isLinkOr "doi"), Doi.normalize n.toText = none →
    targetDoi? n = none
  written : statedDoi? cite = none → writtenDoi? cite = none

theorem explicitDoi?_eq_statedDoi? (named : ∀ n ∈ cite.findAll (isLinkOr "doi"),
    Doi.normalize n.toText = none → targetDoi? n = none) :
    explicitDoi? cite = statedDoi? cite := by
  -- The first answer of a search is the head of all answers.
  rw [explicitDoi?, statedDoi?, ← List.head?_filterMap, ← List.head?_filterMap]
  refine congrArg List.head? (List.filterMap_congr ?_)
  intro n mem
  cases words : Doi.normalize n.toText with
  | none => exact named n mem words
  | some d => rfl

theorem knownDoi?_empty (cite : Node) : knownDoi? .empty cite = none := by
  simp [knownDoi?, Dict.find?, Dict.empty, Dict.lookup]

theorem doi?_eq_statedDoi? (inWords : InWords cite) : doi? .empty cite = statedDoi? cite := by
  rw [doi?, explicitDoi?_eq_statedDoi? inWords.named, knownDoi?_empty]
  cases stated : statedDoi? cite with
  | none => rw [inWords.written stated]; rfl
  | some d => rfl

theorem isSome_doi?_of_statedDoi? {d : String} (pmids : Pmid.Findings)
    (stated : statedDoi? cite = some d) : ∃ e, doi? pmids cite = some e := by
  obtain ⟨n, mem, words⟩ := List.exists_of_findSome?_eq_some stated
  have explicit : (explicitDoi? cite).isSome = true := by
    rw [explicitDoi?, List.findSome?_isSome_iff]
    exact ⟨n, mem, by simp [words]⟩
  obtain ⟨e, explicit⟩ := Option.isSome_iff_exists.1 explicit
  exact ⟨e, doi?_eq_some_iff.2 (.inl explicit)⟩

end

/-! ### Lines -/

namespace Summary

def enterLine (lines : Dict Line) (ref : Node) : Dict Line :=
  match ref.attrText? "id" with
  | some name => lines.insert name (.ofRef ref)
  | none => lines

theorem find?_foldl_enterLine {refs : List Node} {ref : Node} {name : String}
    (identifier : ref.attrText? "id" = some name)
    (same : ∀ other ∈ refs, other.attrText? "id" = some name → other = ref) {lines : Dict Line}
    (known : lines.find? name = some (.ofRef ref) ∨ ref ∈ refs) :
    (refs.foldl enterLine lines).find? name = some (.ofRef ref) := by
  induction refs generalizing lines with
  | nil => simpa using known
  | cons other refs ih =>
    obtain ⟨here, later⟩ := List.forall_mem_cons.1 same
    apply ih later
    by_cases own : other.attrText? "id" = some name
    · exact .inl (by simp [enterLine, here own, identifier, Dict.find?_insert])
    · -- This is another entry, so its line does not replace one that is known.
      rcases known with found | mem
      · left
        cases key : other.attrText? "id" with
        | none => simpa [enterLine, key] using found
        | some taken =>
          have ne : name ≠ taken := fun same => own (key.trans (congrArg some same.symm))
          simpa [enterLine, key, Dict.find?_insert, ne] using found
      · rcases List.mem_cons.1 mem with rfl | mem
        · exact absurd identifier own
        · exact .inr mem

theorem find?_lines {a : Article} (distinct : a.DistinctIds) {ref : Node} {name : String}
    (mem : ref ∈ a.references) (identifier : ref.attrText? "id" = some name) :
    (ofArticle a).lines.find? name = some (.ofRef ref) := by
  have inside {other : Node} (mem : other ∈ a.references) : other ∈ a.tree.nodes :=
    (Article.nodes_of_mem_references mem).subset List.mem_cons_self
  apply find?_foldl_enterLine identifier _ (.inr mem)
  intro other listed same
  exact eq_of_identifier distinct (inside listed) (inside mem) same identifier

end Summary

namespace Registry

section
variable {sources : Sources} {a : Article} {r : Registry} {ref cite : Node} {name : String}

theorem find?_of_only_citation (registered : ofReferences sources a.references = .ok r)
    (distinct : a.DistinctIds) (mem : ref ∈ a.references)
    (identifier : ref.attrText? "id" = some name) (only : ref.kids = [cite])
    (isOne : isCitation cite = true) :
    r.lookup.find? name = some [.cite (citedAs sources name cite)] := by
  obtain ⟨named, next, rfl, -, grown⟩ := exists_grown_of_registered registered
  obtain ⟨before, after, place⟩ := List.append_of_mem mem
  refine find?_of_grown grown named (nodup_identifiers distinct) ?_ (List.cons_ne_nil _ _)
  rw [place]
  refine mem_entriesFrom sources before after identifier (.inr ?_)
  simp [only, resolved, isOne]

/-- Without repeated identifiers, and without findings of PubMed, an entry with one citation has the
identifier in the summary of the list that the registry resolves it to, if nothing but words names
one. The key of the citation must not be an address itself. -/
theorem summary_agrees (registered : ofReferences { pmids := .empty, dois := true } a.references =
      .ok r) (distinct : a.DistinctIds) (mem : ref ∈ a.references)
    (identifier : ref.attrText? "id" = some name) (only : ref.kids = [cite])
    (isOne : isCitation cite = true) (plain : cite.attrText? "pub-id-type" ≠ some "doi")
    (inWords : InWords cite) (key : ∀ d, keyOf name cite ≠ Doi.url d) :
    ∃ line, (Summary.ofArticle a).lines.find? name = some line ∧ ∀ d, line.doi = some d ↔
      r.lookup.find? name = some [.cite (Doi.url d)] := by
  refine ⟨_, Summary.find?_lines distinct mem identifier, fun d => ?_⟩
  rw [find?_of_only_citation registered distinct mem identifier only isOne,
    doi_ofRef only isOne plain, citedAs, if_pos rfl, doi?_eq_statedDoi? inWords]
  cases statedDoi? cite with
  | none =>
    have apart := key d
    rw [keyOf] at apart
    simpa using apart
  | some e => simp [Doi.url_inj, eq_comm]

/-- Where a link leads counts for the registry alone, and so does what is written in between. -/
example :
    let linked := branch "mixed-citation" [(branch "ext-link" [.text "CrossRef"]).setAttr
      "xlink:href" (.string "https://doi.org/10.1000/x")]
    let written := branch "mixed-citation" [.text "A title. doi:10.1000/xyz"]
    [linked, written].map (fun cite => (doi? .empty cite, (Line.ofRef (branch "ref" [cite])).doi)) =
      [(some "10.1000/x", none), (some "10.1000/xyz", none)] := by
  decide +kernel

/-- Whatever the summary finds, the registry resolves the entry to an identifier, too. -/
theorem exists_doi_of_summary (registered : ofReferences sources a.references = .ok r)
    (used : sources.dois = true) (distinct : a.DistinctIds) (mem : ref ∈ a.references)
    (identifier : ref.attrText? "id" = some name) (only : ref.kids = [cite])
    (isOne : isCitation cite = true) (plain : cite.attrText? "pub-id-type" ≠ some "doi")
    {d : String} (found : (Line.ofRef ref).doi = some d) :
    ∃ e, r.lookup.find? name = some [.cite (Doi.url e)] := by
  rw [doi_ofRef only isOne plain] at found
  obtain ⟨e, resolved⟩ := isSome_doi?_of_statedDoi? sources.pmids found
  refine ⟨e, ?_⟩
  rw [find?_of_only_citation registered distinct mem identifier only isOne, citedAs, if_pos used,
    resolved]

end

end Registry

end Manuscript.Reference
