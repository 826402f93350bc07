import Manuscript.Proofs.Document.Stability
import Manuscript.Proofs.Document.Targets
import Mathlib.Data.List.Basic

/-!
The normal form that cleaning reaches. Demoting footnotes, removing empty texts and joining texts
each run once, and none makes work for another: what is read off the nodes of a document stays as it
is, so that its text and the footnotes it refers to are the same before and after.
-/

set_option autoImplicit false

namespace Manuscript.Myst

open Manuscript.Node Citation

/-! ### What is read off a tree -/

/-- What a function reads off the nodes of a tree, in document order. -/
def reading {α : Type} (g : Node → List α) (n : Node) : List α := n.nodes.flatMap g

/-- Whether a function reads nothing that cleaning takes away or adds: nothing of the children of a
node, nothing off a footnote without a text of its own, off a new paragraph or an empty text, and
off texts that are joined what it reads off each. -/
structure OutlastsCleaning {α : Type} (g : Node → List α) : Prop where
  own : ∀ (n : Node) (children : Option (List Node)), g { n with children := children } = g n
  note : ∀ n : Node, n.kind = "footnoteDefinition" → n.value = none → g n = []
  paragraph : ∀ cs, g (.branch "paragraph" cs) = []
  empty : ∀ n, isEmptyText n = true → g n = []
  joined : ∀ t u : Node, t.isText = true → u.isText = true →
    g (extendText t (u.value.getD "")) = g t ++ g u

/-- Whether a footnote has no text of its own. -/
def Textless (n : Node) : Prop := n.kind = "footnoteDefinition" → n.value = none

section
variable {α : Type} {g : Node → List α} {referenced : Dict Unit} {n : Node}

theorem reading_eq (g : Node → List α) (n : Node) :
    reading g n = g n ++ n.kids.flatMap (reading g) := by
  rw [reading, nodes, List.flatMap_cons, descendants_eq, forestNodes_eq_flatMap,
    List.flatMap_assoc]
  rfl

theorem OutlastsCleaning.mapChildren (outlasts : OutlastsCleaning g) (f : List Node → List Node)
    (n : Node) : g (n.mapChildren f) = g n :=
  outlasts.own n _

theorem reading_demoted (outlasts : OutlastsCleaning g) (textless : Textless n) :
    reading g (demoted referenced n) = reading g n := by
  rcases demoted_cases referenced n with ⟨-, same⟩ | ⟨note, same | ⟨only, single, _, same⟩⟩
  · rw [same]
  · rw [same, reading_eq, reading_eq g n, outlasts.paragraph, outlasts.note n note (textless note)]
    rfl
  · rw [same, reading_eq g n, outlasts.note n note (textless note), single]
    simp

theorem reading_mapUp_demoteIn (outlasts : OutlastsCleaning g) (textless : Everywhere Textless n) :
    reading g (n.mapUp (demoteIn referenced)) = reading g n := by
  induction n using induction_on_kids with
  | node n ih =>
    have here : g (n.mapUp (demoteIn referenced)) = g n := by
      cases legend : n.is "legend" with
      | true => rw [mapUp_demoteIn_of_legend legend]; exact outlasts.own n _
      | false => rw [mapUp_demoteIn_of_ne legend]; exact outlasts.own n _
    rw [reading_eq, here, kids_mapUp_demoteIn, List.flatMap_map, reading_eq g n]
    refine congrArg _ (List.flatMap_congr fun c child => ?_)
    have below := textless.below c child
    unfold demotedKid
    split
    · rw [reading_demoted outlasts, ih c child below]
      rw [Textless, kind_mapUp_demoteIn, value_mapUp_demoteIn]
      exact below.here
    · exact ih c child below

theorem flatMap_filter_of_nil {f : Node → List α} {p : Node → Bool} {ns : List Node}
    (none : ∀ c ∈ ns, p c = true → f c = []) :
    (ns.filter (!p ·)).flatMap f = ns.flatMap f := by
  induction ns with
  | nil => rfl
  | cons c ns ih =>
    obtain ⟨first, others⟩ := List.forall_mem_cons.1 none
    cases gone : p c with
    | true => simp [gone, first gone, ih others]
    | false => simp [gone, ih others]

theorem reading_removeWhere (outlasts : OutlastsCleaning g) (plain : PlainTexts n) :
    reading g (n.removeWhere isEmptyText) = reading g n := by
  induction n using induction_on_kids with
  | node n ih =>
    have none : ∀ c ∈ n.kids, isEmptyText c = true → reading g c = [] := by
      intro c child empty
      have leaf := (plain.below c child).here (Bool.and_eq_true_iff.1 empty).1
      rw [reading_eq, outlasts.empty c empty, leaf]
      rfl
    have kept : (n.kids.filter (!isEmptyText ·)).flatMap (fun c => reading g
        (c.removeWhere isEmptyText)) = (n.kids.filter (!isEmptyText ·)).flatMap (reading g) :=
      List.flatMap_congr fun c mem =>
        ih c (List.mem_filter.1 mem).1 (plain.below c (List.mem_filter.1 mem).1)
    rw [reading_eq, removeWhere_eq, outlasts.mapChildren, kids_mapChildren rfl, List.flatMap_map,
      kept, flatMap_filter_of_nil none, ← reading_eq]

theorem reading_mergeTexts (outlasts : OutlastsCleaning g) {ns : List Node}
    (plain : ∀ m ∈ ns, m.isText = true → m.kids = []) :
    (mergeTexts ns).flatMap (reading g) = ns.flatMap (reading g) := by
  induction ns with
  | nil => rfl
  | cons n ns ih =>
    obtain ⟨first, others⟩ := List.forall_mem_cons.1 plain
    rw [List.flatMap_cons, ← ih others, mergeTexts]
    split
    · next m ms merged =>
      split
      · next texts =>
        obtain ⟨text, text'⟩ := Bool.and_eq_true_iff.1 texts
        -- The text behind may have been joined before, but has no children then either.
        have leaf : m.kids = [] := by
          rcases mem_mergeTexts (merged ▸ List.mem_cons_self : m ∈ mergeTexts ns) with
            mem | ⟨t, mem, s, isText, rfl⟩
          · exact others m mem text'
          · exact others t mem isText
        have grown : (extendText n (m.value.getD "")).kids = [] := first text
        rw [merged, List.flatMap_cons, List.flatMap_cons, reading_eq g m, reading_eq g n,
          reading_eq, outlasts.joined n m text text', leaf, first text, grown]
        simp
      · rw [merged]
        rfl
    · next none =>
      rw [none]
      rfl

theorem reading_joinTexts (outlasts : OutlastsCleaning g) (plain : PlainTexts n) :
    reading g (joinTexts n) = reading g n := by
  induction n using induction_on_kids with
  | node n ih =>
    rw [joinTexts_eq, mapChildren_mapChildren, reading_eq, outlasts.mapChildren,
      kids_mapChildren rfl, reading_mergeTexts outlasts, List.flatMap_map, reading_eq g n]
    · exact congrArg _ (List.flatMap_congr fun c child => ih c child (plain.below c child))
    · refine List.forall_mem_map.2 fun c child text => ?_
      rw [joinTexts_eq, mapChildren_mapChildren] at text ⊢
      rw [kids_mapChildren rfl, (plain.below c child).here text]
      rfl

/-- Cleaning changes nothing of what a function reads that none of its steps is about. -/
theorem reading_clean (outlasts : OutlastsCleaning g) (plain : PlainTexts n)
    (textless : Everywhere Textless n) : reading g (clean n) = reading g n := by
  have demoted := plainTexts_demoteFootnotes plain
  rw [clean, reading_joinTexts outlasts (plainTexts_removeWhere isEmptyText demoted),
    reading_removeWhere outlasts demoted, demoteFootnotes_eq,
    reading_mapUp_demoteIn outlasts textless]

end

/-! ### The text and the references of a tree -/

/-- The identifier that a node refers to, if it is a reference to a footnote. -/
def referredTo (n : Node) : List String :=
  if n.kind = "footnoteReference" then (n.attrText? "identifier").toList else []

section
variable {n : Node}

theorem outlastsCleaning_value : OutlastsCleaning fun n : Node => (n.value.getD "").toList where
  own _ _ := rfl
  note n _ none := by rw [none]; rfl
  paragraph _ := rfl
  empty n empty := by simpa using (Bool.and_eq_true_iff.1 empty).2
  joined t u _ _ := String.toList_append

theorem referredTo_of_ne (other : n.kind ≠ "footnoteReference") : referredTo n = [] :=
  if_neg other

theorem outlastsCleaning_referredTo : OutlastsCleaning referredTo where
  own _ _ := rfl
  note n note _ := referredTo_of_ne (by rw [note]; decide)
  paragraph _ := referredTo_of_ne (show "paragraph" ≠ "footnoteReference" by decide)
  empty n empty := referredTo_of_ne (by
    rw [beq_iff_eq.1 (Bool.and_eq_true_iff.1 empty).1]
    decide)
  joined t u text text' := by
    have other {m : Node} (text : m.isText = true) : referredTo m = [] :=
      referredTo_of_ne (by rw [beq_iff_eq.1 text]; decide)
    rw [other text, other text', other (m := extendText t _) text]
    rfl

theorem toList_toText (n : Node) :
    n.toText.toList = reading (fun m => (m.value.getD "").toList) n := by
  induction n using induction_on_kids with
  | node n ih =>
    rw [toText_eq, String.toList_append, toList_forestText, List.flatMap_congr ih, reading_eq]

theorem contains_referencedFootnotes_iff_mem_reading {identifier : String} :
    (referencedFootnotes n).contains identifier = true ↔
      identifier ∈ n.kids.flatMap (reading referredTo) := by
  have below : n.kids.flatMap (reading referredTo) = n.descendants.flatMap referredTo := by
    rw [descendants_eq, forestNodes_eq_flatMap, List.flatMap_assoc]
    rfl
  rw [contains_referencedFootnotes_iff, below, List.mem_flatMap]
  refine exists_congr fun m => and_congr_right fun _ => ?_
  unfold referredTo
  split
  · next reference => simp [reference]
  · next other => simp [other]

theorem exists_children_clean (n : Node) :
    ∃ children, clean n = { n with children := children } := by
  rw [clean, joinTexts_eq, removeWhere_eq, demoteFootnotes_eq]
  cases legend : n.is "legend" with
  | true =>
    rw [mapUp_demoteIn_of_legend legend]
    exact ⟨_, rfl⟩
  | false =>
    rw [mapUp_demoteIn_of_ne legend]
    exact ⟨_, rfl⟩

theorem toText_clean (plain : PlainTexts n) (textless : Everywhere Textless n) :
    (clean n).toText = n.toText := by
  apply String.toList_injective
  rw [toList_toText, toList_toText, reading_clean outlastsCleaning_value plain textless]

theorem referencedFootnotes_clean (plain : PlainTexts n) (textless : Everywhere Textless n) :
    referencedFootnotes (clean n) = referencedFootnotes n := by
  have below : (clean n).kids.flatMap (reading referredTo) =
      n.kids.flatMap (reading referredTo) := by
    have whole := reading_clean outlastsCleaning_referredTo plain textless
    obtain ⟨children, same⟩ := exists_children_clean n
    have here : referredTo (clean n) = referredTo n := by rw [same]; rfl
    rw [reading_eq, reading_eq _ n, here] at whole
    exact List.append_cancel_left whole
  apply Dict.ext_contains
  intro identifier
  rw [Bool.eq_iff_iff, contains_referencedFootnotes_iff_mem_reading, below,
    contains_referencedFootnotes_iff_mem_reading]

end

/-! ### Texts -/

theorem neat_mergeTexts {ns : List Node} (filled : ∀ n ∈ ns, isEmptyText n = false) :
    Neat (mergeTexts ns) := by
  induction ns with
  | nil => exact neat_nil
  | cons n ns ih =>
    obtain ⟨first, others⟩ := List.forall_mem_cons.1 filled
    have rest := ih others
    rw [mergeTexts]
    split
    · next m ms merged =>
      rw [merged] at rest
      obtain ⟨-, next, behind⟩ := neat_cons_iff.1 rest
      split
      · next texts =>
        obtain ⟨text, text'⟩ := Bool.and_eq_true_iff.1 texts
        exact neat_cons_iff.2 ⟨isEmptyText_extendText _ text first, fun _ => next text', behind⟩
      · next apart =>
        refine neat_cons_iff.2 ⟨first, fun text starts => apart ?_, rest⟩
        rw [text, startsInText_cons_iff.1 starts]
        rfl
    · exact neat_cons_iff.2 ⟨first, fun _ => by simp [StartsInText], neat_nil⟩

theorem neatTree_joinTexts {n : Node}
    (filled : Everywhere (fun m => ∀ c ∈ m.kids, isEmptyText c = false) n) :
    NeatTree (joinTexts n) := by
  induction n using induction_on_kids with
  | node n ih =>
    have kids : (joinTexts n).kids = mergeTexts (n.kids.map joinTexts) := by
      rw [joinTexts_eq, mapChildren_mapChildren, kids_mapChildren rfl]
    have below (c : Node) (mem : c ∈ n.kids.map joinTexts) : NeatTree c := by
      obtain ⟨d, child, rfl⟩ := List.mem_map.1 mem
      exact ih d child (filled.below d child)
    refine neatTree_of_kids ?_ ?_
    · rw [kids]
      refine neat_mergeTexts (List.forall_mem_map.2 fun c child => ?_)
      rw [joinTexts_eq]
      exact filled.here c child
    · rw [kids]
      intro c mem
      rcases mem_mergeTexts mem with child | ⟨t, child, s, -, rfl⟩
      · exact below c child
      · exact neatTree_extendText s (below t child)

theorem neatTree_clean (n : Node) : NeatTree (clean n) := by
  apply neatTree_joinTexts
  apply not_removed_of_mem_kids
  intro m
  rw [isEmptyText, isEmptyText, isText, isText, kind_removeWhere, value_removeWhere]

/-! ### Footnotes in legends -/

/-- Whether a node has a list of children and no footnote that nothing refers to among them, if it
is a legend. -/
def Served (referenced : Dict Unit) (n : Node) : Prop :=
  n.kind = "legend" → n.children.isSome = true ∧ ∀ c ∈ n.kids, isOrphan referenced c = false

section
variable {referenced : Dict Unit} {n : Node}

theorem isOrphan_demoted (referenced : Dict Unit) (n : Node) :
    isOrphan referenced (demoted referenced n) = false := by
  rcases demoted_cases referenced n with ⟨other, same⟩ | ⟨-, same | ⟨only, -, kind, same⟩⟩
  · rw [same, other]
  · rw [same, isOrphan_of_ne (show "paragraph" ≠ "footnoteDefinition" by decide)]
  · rw [same, isOrphan_of_ne (by rw [kind]; decide)]

theorem served_of_ne (other : n.kind ≠ "legend") : Served referenced n :=
  fun legend => absurd legend other

/-- Legends stay served if their children are changed so that each new one is as much of a footnote
as one that was there before. -/
theorem Served.mapChildren (served : Served referenced n) {f : List Node → List Node}
    (nil : f [] = [])
    (alike : ∀ c ∈ f n.kids, ∃ d ∈ n.kids, c.kind = d.kind ∧ c.attrs = d.attrs) :
    Served referenced (n.mapChildren f) := by
  intro legend
  obtain ⟨some, spared⟩ := served legend
  refine ⟨by rw [Node.mapChildren, Option.isSome_map, some], fun c child => ?_⟩
  rw [kids_mapChildren nil] at child
  obtain ⟨d, before, kind, attrs⟩ := alike c child
  rw [← spared d before, isOrphan, isOrphan, is, is, kind, attrText?, attrText?, attr?, attr?,
    attrs]

theorem everywhere_served_demoteIn (n : Node) :
    Everywhere (Served referenced) (n.mapUp (demoteIn referenced)) := by
  induction n using induction_on_kids with
  | node n ih =>
    have paragraph (cs : List Node) : Served referenced (.branch "paragraph" cs) :=
      served_of_ne (show "paragraph" ≠ "legend" by decide)
    refine everywhere_iff.2 ⟨fun legend => ?_, ?_⟩
    · have legend : n.is "legend" = true := beq_iff_eq.2 (kind_mapUp_demoteIn n ▸ legend)
      rw [mapUp_demoteIn_of_legend legend]
      refine ⟨rfl, List.forall_mem_map.2 fun c _ => ?_⟩
      rw [demotedKid, if_pos legend, isOrphan_demoted]
    · rw [kids_mapUp_demoteIn]
      refine List.forall_mem_map.2 fun c child => ?_
      unfold demotedKid
      split
      -- What a footnote had inside has been served before the footnote makes way.
      · exact everywhere_demoted paragraph (ih c child)
      · exact ih c child

theorem everywhere_served_removeWhere {removed : Node → Bool}
    (served : Everywhere (Served referenced) n) :
    Everywhere (Served referenced) (removeWhere removed n) := by
  refine everywhere_removeWhere (fun m all => ?_) served
  rw [removeWhere_eq]
  refine all.here.mapChildren rfl fun c child => ?_
  obtain ⟨d, mem, rfl⟩ := List.mem_map.1 child
  refine ⟨d, (List.mem_filter.1 mem).1, ?_⟩
  rw [removeWhere_eq]
  exact ⟨rfl, rfl⟩

theorem everywhere_served_joinTexts (served : Everywhere (Served referenced) n) :
    Everywhere (Served referenced) (joinTexts n) := by
  refine everywhere_mapUp (fun m here => ?_) (fun m all => everywhere_iff.2 ⟨?_, ?_⟩) served
  · refine here.mapChildren rfl fun c child => ?_
    obtain ⟨d, before, rfl⟩ := List.mem_map.1 child
    refine ⟨d, before, ?_⟩
    rw [mapUp_eq]
    exact ⟨rfl, rfl⟩
  · refine all.here.mapChildren (f := mergeTexts) rfl fun c child => ?_
    rcases mem_mergeTexts child with before | ⟨t, before, s, -, rfl⟩
    · exact ⟨c, before, rfl, rfl⟩
    · exact ⟨t, before, rfl, rfl⟩
  · rw [kids_mapChildren rfl]
    intro c child
    rcases mem_mergeTexts child with before | ⟨t, before, s, text, rfl⟩
    · exact all.below c before
    · refine everywhere_iff.2 ⟨served_of_ne ?_, (all.below t before).below⟩
      rw [show (extendText t s).kind = "text" from beq_iff_eq.1 text]
      decide

theorem everywhere_served_clean (tree : Node) :
    Everywhere (Served (referencedFootnotes tree)) (clean tree) := by
  rw [clean_eq, cleanBy]
  exact everywhere_served_joinTexts (everywhere_served_removeWhere (everywhere_served_demoteIn tree))

theorem mapUp_demoteIn_eq_self (served : Everywhere (Served referenced) n) :
    n.mapUp (demoteIn referenced) = n := by
  induction n using induction_on_kids with
  | node n ih =>
    have same : n.kids.map (mapUp (demoteIn referenced)) = n.kids := by
      rw [List.map_congr_left fun c child => ih c child (served.below c child), List.map_id']
    rw [mapUp_eq, mapChildren_of_eq_self same, demoteIn]
    split
    · next legend =>
      obtain ⟨some, spared⟩ := served.here (beq_iff_eq.1 legend)
      have still : n.kids.map (demoted referenced) = n.kids.map id :=
        List.map_congr_left fun c child => by rw [demoted, spared c child]; rfl
      rw [still, List.map_id]
      obtain ⟨k, children, v, a⟩ := n
      obtain ⟨cs, rfl⟩ := Option.isSome_iff_exists.1 some
      rfl
    · rfl

/-- Cleaning leaves a tree alone that is neat and in which every legend is served. -/
theorem clean_eq_self {tree : Node} (neat : NeatTree tree)
    (served : Everywhere (Served (referencedFootnotes tree)) tree) : clean tree = tree := by
  rw [clean_eq, cleanBy, mapUp_demoteIn_eq_self served, removeWhere_eq_self_of_descendants,
    joinTexts_eq_self neat]
  intro m mem
  obtain ⟨p, above, child⟩ := exists_parent mem
  exact (neat p above).filled m child

/-! ### The normal form -/

/-- Cleaning comes to its end in one run. No empty text is left below the root and no text beside
another one, and what is left as a footnote in a legend is referred to; the text is the same as
before, and cleaning once more changes nothing. -/
theorem clean_reaches_normal_form {tree : Node} (plain : PlainTexts tree)
    (textless : Everywhere Textless tree) :
    (∀ m ∈ (clean tree).descendants, m.kind = "text" → m.value.getD "" ≠ "") ∧
    (∀ m ∈ (clean tree).nodes, ∀ t u, [t, u] <:+: m.kids → ¬(t.kind = "text" ∧ u.kind = "text")) ∧
    (∀ m ∈ (clean tree).nodes, m.kind = "legend" → ∀ c ∈ m.kids, c.kind = "footnoteDefinition" →
      ∃ identifier, c.attrText? "identifier" = some identifier ∧
        ∃ r ∈ (clean tree).descendants, r.kind = "footnoteReference" ∧
          r.attrText? "identifier" = some identifier) ∧
    (clean tree).toText = tree.toText ∧ clean (clean tree) = clean tree := by
  have neat := neatTree_clean tree
  -- Cleaning judges by the references of the tree before it, which are those of the tree after it.
  have references := referencedFootnotes_clean plain textless
  have served := everywhere_served_clean tree
  rw [← references] at served
  refine ⟨fun m mem text => ?_, fun m mem t u next texts => ?_, fun m mem legend c child note => ?_,
    toText_clean plain textless, ?_⟩
  · obtain ⟨above, inside, child⟩ := exists_parent mem
    have filled := (neat above inside).filled m child
    rw [isEmptyText, isText, text] at filled
    simpa using filled
  · have apart := (neat m mem).apart t u next (beq_iff_eq.2 texts.1)
    rw [isText, texts.2] at apart
    cases apart
  · have known := (served m mem legend).2 c child
    rw [isOrphan, is, note] at known
    obtain ⟨identifier, named, found⟩ : ∃ identifier, c.attrText? "identifier" = some identifier ∧
        (referencedFootnotes (clean tree)).contains identifier = true := by
      simpa [Option.any_eq_true] using known
    exact ⟨identifier, named, contains_referencedFootnotes_iff.1 found⟩
  · exact clean_eq_self neat served

end

def noteOf (identifier : String) (kids : List Node) : Node :=
  (branch "footnoteDefinition" kids).setAttr "identifier" (.string identifier)

/-- A legend with footnotes, one of which is referred to and one of which has a legend inside. -/
def annotated : Node :=
  branch "root" [
    branch "legend" [.text "Doses.", .text "",
      noteOf "t1" [branch "paragraph" [.text "By ", .text "mouth"]],
      noteOf "t2" [.text "Twice", branch "legend" [noteOf "t3" [.text "a day"]]],
      noteOf "t4" [branch "paragraph" [.text "Mean"]]],
    branch "paragraph" [.text "See", .text "", .text " there",
      (leaf "footnoteReference").setAttr "identifier" (.string "t4")]]

theorem clean_reaches_normal_form_annotated :
    (clean annotated).size < annotated.size ∧
      (∀ m ∈ (clean annotated).nodes, m.kind = "legend" → ∀ c ∈ m.kids,
        c.kind = "footnoteDefinition" → ∃ identifier, c.attrText? "identifier" = some identifier ∧
          ∃ r ∈ (clean annotated).descendants, r.kind = "footnoteReference" ∧
            r.attrText? "identifier" = some identifier) ∧
      (clean annotated).toText = "Doses.By mouthTwicea dayMeanSee there" ∧
      clean (clean annotated) = clean annotated := by
  have plain : PlainTexts annotated := by
    unfold PlainTexts Everywhere
    decide +kernel
  have textless : Everywhere Textless annotated := by
    unfold Everywhere Textless
    decide +kernel
  obtain ⟨-, -, served, text, fixed⟩ := clean_reaches_normal_form plain textless
  exact ⟨by decide +kernel, served, text.trans (by decide +kernel), fixed⟩

end Manuscript.Myst
