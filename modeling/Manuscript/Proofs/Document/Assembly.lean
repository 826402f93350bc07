import Manuscript.Proofs.Document.Outline

/-!
The parts that an article is assembled from. No part but the abstract has a block that the article
does not have, and the abstract becomes one block without any other in it, so that the prepared
article has its outline.
-/

set_option autoImplicit false

namespace Manuscript.Conversion

open Manuscript.Node Manuscript.Body

section
variable {p : Node → Prop}

/-! ### Parts -/

theorem everywhere_mergeTitle (steady : Steady p) {cs : List Node}
    (all : ∀ c ∈ cs, Everywhere p c) : ∀ c ∈ mergeTitle cs, Everywhere p c := by
  cases cs with
  | nil => exact all
  | cons title rest =>
    obtain ⟨first, others⟩ := List.forall_mem_cons.1 all
    have paragraph : Everywhere p { title with kind := "p" } :=
      steady.of_made (by simp [madeKinds]) first.below
    have space : Everywhere p (.text " ") := steady.of_made (by decide) (List.forall_mem_nil _)
    rw [mergeTitle.eq_def]
    simp only
    split
    · exact all
    · split
      · exact others
      · cases rest with
        | nil => exact List.forall_mem_singleton.2 paragraph
        | cons p rest =>
          obtain ⟨second, rest'⟩ := List.forall_mem_cons.1 others
          simp only
          split
          · refine List.forall_mem_cons.2 ⟨steady.of_kids second rfl rfl ?_, rest'⟩
            exact List.forall_mem_append.2 ⟨first.below,
              List.forall_mem_cons.2 ⟨space, second.below⟩⟩
          · exact List.forall_mem_cons.2 ⟨paragraph, others⟩

theorem kids_appendBehindSeparator (body : Node) (added : List Node) :
    (appendBehindSeparator body added).kids =
      body.kids ++ if added.isEmpty then [] else separator :: added := by
  unfold appendBehindSeparator
  split
  · rw [List.append_nil]
  · rfl

theorem everywhere_separated (steady : Steady p) {added : List Node}
    (all : ∀ n ∈ added, Everywhere p n) :
    ∀ n ∈ if added.isEmpty then [] else separator :: added, Everywhere p n := by
  split
  · exact List.forall_mem_nil _
  · exact List.forall_mem_cons.2 ⟨steady.of_made (by decide) (List.forall_mem_nil _), all⟩

theorem everywhere_floats (steady : Steady p) {body : Node}
    (all : ∀ n ∈ body.descendants, isFloat n = true → Everywhere p n) :
    ∀ n ∈ floats body, Everywhere p n := by
  rw [floats, List.forall_mem_map]
  intro n mem
  obtain ⟨inside, isOne⟩ := List.mem_filter.1 mem
  have part := all n inside isOne
  refine steady.of_kids part rfl ?_ part.below
  simp [attr?, eraseAttr, Dict.find?_erase]

theorem everywhere_references {a : Article} (article : Everywhere p a.tree) :
    ∀ n ∈ a.references, Everywhere p n := by
  unfold Article.references
  split
  · next list found =>
    intro n mem
    obtain ⟨back, inBack, inside⟩ := Option.bind_eq_some_iff.1 found
    have listed := (article.of_find? inBack).of_find? inside
    exact listed.of_mem_descendants (List.mem_filter.1 mem).1
  · exact List.forall_mem_nil _

theorem everywhere_relocatedParts {back : Option Node} (all : ∀ n ∈ back, Everywhere p n) :
    ∀ n ∈ relocatedParts back, Everywhere p n := by
  unfold relocatedParts
  split
  · exact fun n mem => (all _ rfl).below n (List.mem_filter.1 mem).1
  · exact List.forall_mem_nil _

end

section
variable {allowed : Prop}

/-! ### The abstract -/

/-- An abstract loses all its blocks, also those that its sections became. -/
theorem ofKinds_simplifyAbstract (n : Node) :
    ∀ c ∈ (simplifyAbstract n).kids, OfKinds (BlocksIf allowed) c := by
  apply everywhere_mergeTitle (steady_blocksIf allowed)
  rw [kids_liftWhere]
  -- Every block is lifted, whatever the article allows.
  refine everywhere_liftFrom (p := fun m => BlocksIf allowed m.kind) (fun _ here => here) ?_
  intro c _ m _ kept
  exact blocksIf_of_ne _ (by simpa [is] using kept)

/-! ### The body -/

theorem ofKinds_appendBehindSeparator {body : Node} {added : List Node}
    (all : OfKinds (BlocksIf allowed) body) (more : ∀ n ∈ added, OfKinds (BlocksIf allowed) n) :
    OfKinds (BlocksIf allowed) (appendBehindSeparator body added) := by
  rw [ofKinds_iff, kids_appendBehindSeparator]
  have kind : (appendBehindSeparator body added).kind = body.kind := by
    unfold appendBehindSeparator
    split <;> rfl
  refine ⟨kind ▸ (ofKinds_iff.1 all).1, List.forall_mem_append.2 ⟨all.below, ?_⟩⟩
  exact everywhere_separated (steady_blocksIf allowed) more

theorem ofKinds_moveFloats {body : Node} (all : OfKinds (BlocksIf allowed) body) :
    OfKinds (BlocksIf allowed) (moveFloats body) := by
  unfold moveFloats
  split
  · exact all
  · apply ofKinds_appendBehindSeparator (ofKinds_removeWhere isFloat all)
    exact everywhere_floats (steady_blocksIf allowed) fun n mem _ => all.of_mem_descendants mem

theorem ofKinds_assembleBody {a : Article} {footnotes : Option Node}
    (article : OfKinds (BlocksIf allowed) a.tree)
    (notes : ∀ group ∈ footnotes, OfKinds (BlocksIf allowed) group) :
    OfKinds (BlocksIf allowed) (assembleBody a footnotes) := by
  have body : OfKinds (BlocksIf allowed) (a.body?.getD (.branch "body" [])) := by
    cases found : a.body? with
    | none => exact ofKinds_iff.2 ⟨blocksIf_of_ne "body" (by decide), List.forall_mem_nil _⟩
    | some body => exact article.of_find? found
  have back : ∀ n ∈ relocatedParts a.back?, OfKinds (BlocksIf allowed) n :=
    everywhere_relocatedParts fun _ found => article.of_find? found
  apply ofKinds_moveFloats
  apply ofKinds_appendBehindSeparator _ back
  cases footnotes with
  | none => exact body
  | some group =>
    refine ofKinds_iff.2 ⟨(ofKinds_iff.1 body).1, List.forall_mem_append.2 ⟨body.below, ?_⟩⟩
    exact List.forall_mem_singleton.2 (notes group rfl)

theorem outlined_prepare {a : Article} {footnotes : Option Node}
    (article : OfKinds (BlocksIf allowed) a.tree)
    (notes : ∀ group ∈ footnotes, OfKinds (BlocksIf allowed) group) :
    Outlined allowed (prepare a footnotes) := by
  have abstract : Shallow allowed (a.abstract?.map abstractBlock).toList := by
    cases a.abstract? with
    | none => exact List.forall_mem_nil _
    | some abstract =>
      intro n mem
      rw [List.mem_singleton.1 mem]
      exact ofKinds_simplifyAbstract abstract
  have floats : Shallow allowed (a.floatsGroups.flatMap Node.kids) := by
    apply shallow_of_ofKinds
    intro n mem
    obtain ⟨group, found, child⟩ := List.mem_flatMap.1 mem
    have all : OfKinds (BlocksIf allowed) group :=
      article.of_mem_descendants (List.mem_filter.1 found).1
    exact all.below n child
  have body := shallow_of_ofKinds (ofKinds_assembleBody article notes).below
  have shallow : Shallow allowed (assemble a footnotes).kids :=
    List.forall_mem_append.2 ⟨List.forall_mem_append.2 ⟨abstract, body⟩, floats⟩
  exact ((outlined_normalize rfl shallow).renameCitations).hostGraphics a

end

theorem blocks_prepare (a : Article) (footnotes : Option Node) :
    ∀ n ∈ (prepare a footnotes).kids, n.kind = "block" := by
  have outlined : Outlined True (prepare a footnotes) :=
    outlined_prepare (fun _ _ _ => trivial) fun _ _ _ _ _ => trivial
  exact outlined.blocks

end Manuscript.Conversion

namespace Manuscript.Reference.Registry

open Manuscript.Node Manuscript.Body

section
variable {allowed : Prop} {sources : Sources}

/-! ### The footnotes of the reference list -/

/-- Whether the footnotes have blocks only if they are allowed. -/
def PlainNotes (allowed : Prop) (r : Registry) : Prop :=
  ∀ note ∈ r.footnotes, OfKinds (BlocksIf allowed) note

theorem footnotes_enter (r : Registry) (name : Option String) (resolutions : List Resolution) :
    (r.enter name resolutions).footnotes = r.footnotes := by
  cases name <;> rfl

theorem footnotes_addCitation (r : Registry) (cite : Node) (key : String) :
    (r.addCitation sources cite key).2.footnotes = r.footnotes := by
  unfold addCitation
  split
  · rfl
  · unfold addEntry
    split <;> rfl

theorem footnotes_addLost (r : Registry) (kind : String) :
    (r.addLost kind).footnotes = r.footnotes := by
  unfold addLost
  split <;> rfl

theorem plainNotes_addPart {owner : String} {r : Registry} {part : Node}
    (plain : PlainNotes allowed r) (all : OfKinds (BlocksIf allowed) part) :
    PlainNotes allowed (r.addPart sources owner part).2 := by
  unfold addPart
  simp only
  -- Of all parts of an entry, only a note becomes a footnote, with the content that it has.
  split
  · unfold PlainNotes
    rw [footnotes_enter, footnotes_addCitation]
    exact plain
  · split
    · unfold PlainNotes
      rw [footnotes_enter]
      refine List.forall_mem_append.2 ⟨plain, List.forall_mem_singleton.2 ?_⟩
      exact ofKinds_iff.2 ⟨blocksIf_of_ne "fn" (by decide), all.below⟩
    · split
      · exact plain
      · unfold PlainNotes
        rw [footnotes_addLost]
        exact plain

theorem plainNotes_addParts {owner : String} {r : Registry} {parts : List Node}
    (plain : PlainNotes allowed r) (all : ∀ n ∈ parts, OfKinds (BlocksIf allowed) n) :
    PlainNotes allowed (addParts sources owner r parts).2 := by
  induction parts generalizing r with
  | nil => exact plain
  | cons part parts ih =>
    obtain ⟨first, rest⟩ := List.forall_mem_cons.1 all
    exact ih (plainNotes_addPart plain first) rest

theorem plainNotes_add {r result : Registry} {index : Nat} {ref : Node}
    (plain : PlainNotes allowed r) (all : OfKinds (BlocksIf allowed) ref)
    (added : r.add sources index ref = .ok result) : PlainNotes allowed result := by
  unfold add at added
  split at added
  · cases added
  · split at added
    · cases added
    · cases added
      unfold PlainNotes
      rw [footnotes_enter]
      exact plainNotes_addParts plain all.below

theorem plainNotes_addAll {r result : Registry} {index : Nat} {refs : List Node}
    (plain : PlainNotes allowed r) (all : ∀ n ∈ refs, OfKinds (BlocksIf allowed) n)
    (added : addAll sources r index refs = .ok result) : PlainNotes allowed result := by
  induction refs generalizing r index with
  | nil =>
    cases added
    exact plain
  | cons ref refs ih =>
    obtain ⟨first, rest⟩ := List.forall_mem_cons.1 all
    rw [addAll] at added
    cases one : r.add sources index ref with
    | error fault => rw [one] at added; cases added
    | ok next =>
      rw [one] at added
      exact ih (plainNotes_add plain first one) rest added

theorem ofKinds_footnoteGroup {r : Registry} {refs : List Node}
    (all : ∀ n ∈ refs, OfKinds (BlocksIf allowed) n)
    (registered : ofReferences sources refs = .ok r) :
    ∀ group ∈ r.footnoteGroup?, OfKinds (BlocksIf allowed) group := by
  have plain : PlainNotes allowed r := by
    unfold ofReferences at registered
    cases added : addAll sources .empty 0 refs with
    | error fault => rw [added] at registered; cases registered
    | ok next =>
      rw [added] at registered
      cases registered
      have fresh : PlainNotes allowed empty := fun _ mem => nomatch mem
      exact fun note mem => plainNotes_addAll fresh all added note mem
  intro group mem
  unfold footnoteGroup? at mem
  split at mem
  · cases mem
  · cases mem
    exact ofKinds_iff.2 ⟨blocksIf_of_ne "fn-group" (by decide), plain⟩

end

end Manuscript.Reference.Registry
