import Manuscript.Conversion.Basic
import Manuscript.Proofs.Body.Description
import Manuscript.Proofs.Text.Words

/-!
The description of a document: the start of the text of its abstract, cut between two words. The
text of the abstract is that of its parts with nothing in between, so the description is made of the
words of these parts up to the first place where a part ends and the next one starts inside of a
word.
-/

set_option autoImplicit false

namespace Manuscript

namespace Body

theorem words_describe_prefix (s : String) : Text.words (describe s) <+: Text.words s := by
  rw [← Text.words_collapse s]
  obtain same | ⟨-, rest, whole⟩ := describe_cut s
  · rw [same]
  · have space : Text.startsSolid (' ' :: rest) = false := rfl
    rw [whole, Text.words_append (by simp [Text.fuses, space])]
    exact List.prefix_append _ _

end Body

namespace Conversion

open Node Myst

/-- The texts that the text of a node is put together from: its own and those of its children. -/
def pieces (n : Node) : List String := n.value.toList ++ n.kids.map toText

theorem join_pieces (n : Node) : String.join (pieces n) = n.toText := by
  have below (ns : List Node) : String.join (ns.map toText) = forestText ns := by
    induction ns with
    | nil => rfl
    | cons n ns ih => rw [List.map_cons, String.join_cons, ih, forestText]
  rw [pieces, String.join_append, below, toText_eq]
  cases n.value <;> simp

theorem description_extract (find? : Node → Option Abbreviations) (tree : Node) (f : Frontmatter) :
    (extract find? tree f).frontmatter.description = f.description := by
  let lists := (tree.outermost fun n => (find? n).isSome).filterMap find?
  have kept := congrArg Frontmatter.description (Frontmatter.foldl_mergeAbbreviations lists f)
  exact kept

theorem description_frontmatter (a : Article) : a.frontmatter.description = none := by
  unfold Article.frontmatter
  split <;> rfl

/-- A converted document has the description that its own abstract gives, and no other. -/
theorem description_of_convert {a : Article} {options : Options} {c : Conversion}
    (converted : a.convert options = .ok c) : c.frontmatter.description = description? c.tree := by
  unfold Article.convert at converted
  cases registered : Reference.Registry.ofReferences options.sources a.references with
  | error fault =>
    rw [registered] at converted
    cases converted
  | ok registry =>
    rw [registered] at converted
    cases converted
    dsimp only
    unfold describe
    split
    · next found => exact found.symm
    · next none =>
      rw [none, extractFootnotes, description_extract, extractSections, description_extract]
      exact description_frontmatter a

/-- A document with an abstract has a description. Its words are the first words of the text of the
abstract, and they are the first words of its parts one after the other exactly if there are no more
of them than stand in front of the first place where two parts meet inside of a word. -/
theorem words_of_description {a : Article} {options : Options} {c : Conversion} {abstract : Node}
    (converted : a.convert options = .ok c)
    (found : c.tree.kids.find? isAbstract = some abstract) :
    ∃ description, c.frontmatter.description = some description ∧
      Text.words description <+: Text.words abstract.toText ∧
      (Text.words description <+: (pieces abstract).flatMap Text.words ↔
        (Text.words description).length ≤ Text.intactWords (pieces abstract)) := by
  have front := Body.words_describe_prefix abstract.toText
  refine ⟨Body.describe abstract.toText, ?_, front, ?_⟩
  · rw [description_of_convert converted, description?, found]
    rfl
  · rw [← join_pieces] at front ⊢
    exact Text.prefix_flatMap_words_iff front

end Conversion

end Manuscript
