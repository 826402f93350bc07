import Manuscript.Proofs.Document.Cleaning
import Manuscript.Proofs.Tree.Removal

/-!
Sections that list abbreviations. They are taken out whole, and all their entries become metadata,
or they stay as they are. What the metadata has already is kept, and of two lists the first counts.
-/

set_option autoImplicit false

namespace Manuscript.Myst

open Manuscript.Node

/-- Whether a node is a block with nothing but a heading for abbreviations and a paragraph that
lists some. -/
def SectionLists (n : Node) (entries : Abbreviations) : Prop :=
  ∃ heading paragraph : Node, n.kind = "block" ∧ n.kids = [heading, paragraph] ∧
    heading.kind = "heading" ∧ paragraph.kind = "paragraph" ∧
    Text.lower (Text.trim heading.toText) = "abbreviations" ∧
    parseAbbreviations? paragraph.toText = some entries

section
variable {n : Node} {entries : Abbreviations}

theorem sectionAbbreviations?_eq_some_iff :
    sectionAbbreviations? n = some entries ↔ SectionLists n entries := by
  constructor
  · intro found
    obtain ⟨block, heading, paragraph, parts, first, second⟩ :=
      exists_kids_of_isSome (by rw [found]; rfl)
    rw [sectionAbbreviations?, parts] at found
    simp only [is, block, first, second, beq_self_eq_true, Bool.true_and, beq_iff_eq] at found
    split at found
    · next title => exact ⟨heading, paragraph, block, parts, first, second, title, found⟩
    · cases found
  · rintro ⟨heading, paragraph, block, parts, first, second, title, listed⟩
    rw [sectionAbbreviations?, parts]
    simp [is, block, first, second, title, listed]

theorem isSome_sectionAbbreviations?_iff :
    (sectionAbbreviations? n).isSome = true ↔ ∃ entries, SectionLists n entries := by
  rw [Option.isSome_iff_exists]
  exact exists_congr fun entries => sectionAbbreviations?_eq_some_iff

end

/-- Lists are taken out as by a rewriting that counts them and adds their entries to the metadata
while it visits the nodes. -/
theorem extract_eq_rewrite (find? : Node → Option Abbreviations) (tree : Node) (f : Frontmatter) :
    rewrite (takeOut find? fun s found => (s.1 + 1, Frontmatter.mergeAbbreviations s.2 found))
      (0, f) tree = ((extract find? tree f).tree, (extract find? tree f).count != 0,
        (extract find? tree f).count, (extract find? tree f).frontmatter) := by
  have counted (lists : List Abbreviations) (count : Nat) (f : Frontmatter) :
      lists.foldl (fun (s : Nat × Frontmatter) found => (s.1 + 1, s.2.mergeAbbreviations found))
        (count, f) = (count + lists.length, lists.foldl Frontmatter.mergeAbbreviations f) := by
    induction lists generalizing count f with
    | nil => rfl
    | cons list lists ih =>
      rw [List.foldl_cons, ih, List.length_cons, List.foldl_cons, Nat.add_assoc, Nat.add_comm 1]
  have whole : ((tree.outermost fun n => (find? n).isSome).filterMap find?).length =
      (tree.outermost fun n => (find? n).isSome).length :=
    List.filterMap_length_eq_length.2 fun n mem => (of_mem_outermost mem).1
  rw [rewrite_takeOut, counted, extract, whole, Nat.zero_add]
  cases tree.outermost fun n => (find? n).isSome <;> rfl

/-- What taking out lists does, whichever nodes are lists: the outermost of them go, everything
else stays as it is, and the metadata gets what is not there yet, from the first list that has
it. -/
theorem extract_spec (find? : Node → Option Abbreviations) (tree : Node) (f : Frontmatter) :
    ∃ lists : List Node,
      tree.Pruned (fun n => (find? n).isSome = true) (extract find? tree f).tree lists ∧
      (extract find? tree f).count = lists.length ∧
      { (extract find? tree f).frontmatter with abbreviations := f.abbreviations } = f ∧
      ∀ key, (extract find? tree f).frontmatter.abbreviations.find? key =
        (f.abbreviations.find? key).or (lists.findSome? fun n => (find? n).bind (·.find? key)) := by
  refine ⟨_, pruned_removeWhere _ tree, rfl, Frontmatter.foldl_mergeAbbreviations _ f, ?_⟩
  intro key
  rw [extract, Frontmatter.find?_foldl_mergeAbbreviations, ← List.head?_filterMap,
    List.filterMap_filterMap, List.head?_filterMap]

/-- Sections that list abbreviations are taken out whole. The outermost of them go, and their number
is told; everything else stays. Nothing but the abbreviations of the metadata changes, what
they have already is kept, and what they get is what the first of the sections with an entry for it
says. Where no section goes, nothing changes at all. -/
theorem sections_are_consumed_whole (tree : Node) (f : Frontmatter) : ∃ removed : List Node,
    tree.Pruned (fun n => ∃ entries, SectionLists n entries) (extractSections tree f).tree removed ∧
    (extractSections tree f).count = removed.length ∧
    { (extractSections tree f).frontmatter with abbreviations := f.abbreviations } = f ∧
    (∀ key long, f.abbreviations.find? key = some long →
      (extractSections tree f).frontmatter.abbreviations.find? key = some long) ∧
    (∀ key long, f.abbreviations.find? key = none →
      ((extractSections tree f).frontmatter.abbreviations.find? key = some long ↔
        ∃ before first after entries, removed = before ++ first :: after ∧
          SectionLists first entries ∧ entries.find? key = some long ∧
          ∀ other ∈ before, ∀ entries, SectionLists other entries → entries.find? key = none)) ∧
    ((extractSections tree f).count = 0 →
      (extractSections tree f).tree = tree ∧ (extractSections tree f).frontmatter = f) := by
  obtain ⟨removed, pruned, count, kept, found⟩ := extract_spec sectionAbbreviations? tree f
  simp only [isSome_sectionAbbreviations?_iff] at pruned
  rw [extractSections]
  refine ⟨removed, pruned, count, kept, fun key long known => ?_, fun key long unknown => ?_,
    fun none => ?_⟩
  · rw [found, known, Option.some_or]
  · rw [found, unknown, Option.none_or, List.findSome?_eq_some_iff]
    simp only [Option.bind_eq_some_iff, sectionAbbreviations?_eq_some_iff,
      Option.bind_eq_none_iff]
    constructor
    · rintro ⟨before, first, after, split, ⟨entries, lists, meaning⟩, others⟩
      exact ⟨before, first, after, entries, split, lists, meaning, others⟩
    · rintro ⟨before, first, after, entries, split, lists, meaning, others⟩
      exact ⟨before, first, after, split, ⟨entries, lists, meaning⟩, others⟩
  -- If nothing has been found, the lookups are those that there were, and so is the dictionary.
  · rw [count, List.length_eq_zero_iff] at none
    subst none
    have same : (extract sectionAbbreviations? tree f).frontmatter.abbreviations = f.abbreviations :=
      Dict.ext_find? fun key => (found key).trans Option.or_none
    exact ⟨pruned.eq_self, by rwa [← same] at kept⟩

/-- Of two sections with the same abbreviation the first counts, and one with a bad entry stays. -/
example :
    let listing (entries : String) : Node :=
      branch "block" [branch "heading" [.text " ABBREVIATIONS"], branch "paragraph" [.text entries]]
    let lists := extractSections (branch "root" [listing "BHT: bulk.",
      branch "block" [listing "BHT, toluene; BMI, body mass index"], listing "BHT, a, b"]) .empty
    lists.count = 2 ∧ lists.tree.count (·.is "heading") = 1 ∧
      lists.frontmatter.abbreviations.find? "BHT" = some "bulk" ∧
      lists.frontmatter.abbreviations.find? "BMI" = some "body mass index" := by
  decide +kernel

end Manuscript.Myst
