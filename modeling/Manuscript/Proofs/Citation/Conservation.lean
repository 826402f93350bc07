import Manuscript.Proofs.Citation.Lasting
import Manuscript.Proofs.Label

/-!
What grouping conserves. The rules move citations and trim the text around them: the labels stay in
their order, where a range adds those between its ends, and the text outside citations stays but for
blanks, separators, dashes and brackets, which come off in pairs.
-/

set_option autoImplicit false

namespace Manuscript.Myst.Citation

open Manuscript.Node

/-! ### What a tree cites and says -/

/-- The labels of the citations in a tree, in document order. -/
def citedLabels (n : Node) : List String :=
  (n.nodes.filter isCite).filterMap (·.attrText? "label")

/-- The text of a tree without that of its citations. -/
def looseText (n : Node) : List Char :=
  if isCite n then [] else (n.removeWhere isCite).toText.toList

/-- Whether a rule may take a character away or put it in. -/
def isSpare (c : Char) : Bool :=
  Text.isBlank c || [',', ';', '-', '–', '(', ')', '[', ']', 'a', 'n', 'd'].contains c

def kept (cs : List Char) : List Char := cs.filter (!isSpare ·)

/-- How many more brackets are opened than closed. -/
def surplus (opening closing : Char) (cs : List Char) : Int :=
  cs.count opening - cs.count closing

theorem forestNodes_eq_flatMap (ns : List Node) : forestNodes ns = ns.flatMap nodes := by
  induction ns with
  | nil => rfl
  | cons n ns ih => rw [forestNodes, ih, List.flatMap_cons]; rfl

theorem toList_forestText (ns : List Node) :
    (forestText ns).toList = ns.flatMap (·.toText.toList) := by
  induction ns with
  | nil => rfl
  | cons n ns ih => rw [forestText, String.toList_append, ih, List.flatMap_cons]

theorem citedLabels_eq (n : Node) : citedLabels n =
    (if isCite n then (n.attrText? "label").toList else []) ++ n.kids.flatMap citedLabels := by
  have below : n.kids.flatMap citedLabels =
      (n.descendants.filter isCite).filterMap (·.attrText? "label") := by
    rw [descendants_eq, forestNodes_eq_flatMap, List.filter_flatMap, List.filterMap_flatMap]
    rfl
  rw [below, citedLabels, nodes, List.filter_cons]
  split
  · rw [List.filterMap_cons]
    split
    · next none => rw [none]; rfl
    · next label found => rw [found]; rfl
  · rfl

theorem mem_citedLabels_iff {n : Node} {label : String} : label ∈ citedLabels n ↔
    ∃ m ∈ n.nodes, isCite m = true ∧ m.attrText? "label" = some label := by
  simp only [citedLabels, List.mem_filterMap, List.mem_filter, and_assoc]

theorem looseText_eq (n : Node) : looseText n =
    if isCite n then [] else (n.value.getD "").toList ++ n.kids.flatMap looseText := by
  unfold looseText
  split
  · rfl
  · rw [toText_eq, value_removeWhere, kids_removeWhere, String.toList_append, toList_forestText,
      List.flatMap_map]
    -- A citation among the children gives no text on either side.
    have same : ∀ ns : List Node,
        (ns.filter (!isCite ·)).flatMap (fun c => (removeWhere isCite c).toText.toList) =
          ns.flatMap looseText := by
      intro ns
      induction ns with
      | nil => rfl
      | cons c ns ih =>
        cases cite : isCite c <;> simp [cite, ih, looseText]
    rw [same]
    rfl

/-! ### Texts alike but for spare characters -/

/-- Whether texts are the same but for spare characters, and the same brackets are open after
both. -/
structure Alike (cs ds : List Char) : Prop where
  kept : kept ds = kept cs
  round : surplus '(' ')' ds = surplus '(' ')' cs
  square : surplus '[' ']' ds = surplus '[' ']' cs

theorem kept_append (cs ds : List Char) : kept (cs ++ ds) = kept cs ++ kept ds :=
  List.filter_append ..

theorem surplus_append (opening closing : Char) (cs ds : List Char) :
    surplus opening closing (cs ++ ds) =
      surplus opening closing cs + surplus opening closing ds := by
  simp only [surplus, List.count_append]
  omega

namespace Alike

theorem refl (cs : List Char) : Alike cs cs := ⟨rfl, rfl, rfl⟩

theorem trans {cs ds es : List Char} (first : Alike cs ds) (second : Alike ds es) : Alike cs es :=
  ⟨second.kept.trans first.kept, second.round.trans first.round, second.square.trans first.square⟩

theorem append {cs ds cs' ds' : List Char} (front : Alike cs ds) (back : Alike cs' ds') :
    Alike (cs ++ cs') (ds ++ ds') := by
  constructor
  · rw [kept_append, kept_append, front.kept, back.kept]
  · rw [surplus_append, surplus_append, front.round, back.round]
  · rw [surplus_append, surplus_append, front.square, back.square]

theorem nil_of_spare {cs : List Char}
    (spare : ∀ c ∈ cs, isSpare c = true ∧ c ∉ ['(', ')', '[', ']']) : Alike cs [] := by
  have none (b : Char) (bracket : b ∈ ['(', ')', '[', ']']) : cs.count b = 0 :=
    List.count_eq_zero.2 fun mem => (spare b mem).2 bracket
  constructor
  · have gone : Citation.kept cs = [] := by
      rw [Citation.kept, List.filter_eq_nil_iff]
      intro c mem
      simp [(spare c mem).1]
    rw [gone]
    rfl
  · simp [surplus, none]
  · simp [surplus, none]

theorem symm {cs ds : List Char} (alike : Alike cs ds) : Alike ds cs :=
  ⟨alike.kept.symm, alike.round.symm, alike.square.symm⟩

theorem unbracketed {opening closing : Char}
    (pair : opening = '(' ∧ closing = ')' ∨ opening = '[' ∧ closing = ']')
    (before inside after : List Char) :
    Alike (before ++ [opening] ++ (inside ++ ([closing] ++ after)))
      (before ++ (inside ++ after)) := by
  have spare : Citation.kept [opening] = [] ∧ Citation.kept [closing] = [] ∧
      surplus '(' ')' [opening] + surplus '(' ')' [closing] = 0 ∧
      surplus '[' ']' [opening] + surplus '[' ']' [closing] = 0 := by
    rcases pair with ⟨rfl, rfl⟩ | ⟨rfl, rfl⟩ <;> decide
  obtain ⟨opened, closed, round, square⟩ := spare
  -- Neither bracket is kept, and the one opens what the other closes.
  constructor
  · simp only [kept_append, opened, closed, List.append_nil, List.nil_append]
  · simp only [surplus_append]
    omega
  · simp only [surplus_append]
    omega

end Alike

/-! ### Forests -/

/-- Whether one forest cites what another one does, in the same order, and no more if no order is
given, and says the same but for spare characters. -/
structure Conserves (order : List String) (before after : List Node) : Prop where
  cited : (before.flatMap citedLabels).Sublist (after.flatMap citedLabels)
  same : order = [] → after.flatMap citedLabels = before.flatMap citedLabels
  text : Alike (before.flatMap looseText) (after.flatMap looseText)

namespace Conserves

section
variable {order : List String}

theorem refl (ns : List Node) : Conserves order ns ns :=
  ⟨List.Sublist.refl _, fun _ => rfl, .refl _⟩

theorem trans {ns ms ks : List Node} (first : Conserves order ns ms)
    (second : Conserves order ms ks) : Conserves order ns ks :=
  ⟨first.cited.trans second.cited, fun none => (second.same none).trans (first.same none),
    first.text.trans second.text⟩

theorem append {ns ms ns' ms' : List Node} (front : Conserves order ns ms)
    (back : Conserves order ns' ms') : Conserves order (ns ++ ns') (ms ++ ms') := by
  constructor
  · rw [List.flatMap_append, List.flatMap_append]
    exact front.cited.append back.cited
  · intro none
    rw [List.flatMap_append, List.flatMap_append, front.same none, back.same none]
  · rw [List.flatMap_append, List.flatMap_append]
    exact front.text.append back.text

theorem map {ns : List Node} {f : Node → Node} (each : ∀ n ∈ ns, Conserves order [n] [f n]) :
    Conserves order ns (ns.map f) := by
  induction ns with
  | nil => exact .refl []
  | cons n ns ih =>
    obtain ⟨first, others⟩ := List.forall_mem_cons.1 each
    exact append first (ih others)

theorem of_labels {ns ms : List Node}
    (labels : ms.flatMap citedLabels = ns.flatMap citedLabels)
    (text : Alike (ns.flatMap looseText) (ms.flatMap looseText)) : Conserves order ns ms :=
  ⟨labels ▸ List.Sublist.refl _, fun _ => labels, text⟩

theorem of_eq {ns ms : List Node} (labels : ms.flatMap citedLabels = ns.flatMap citedLabels)
    (text : ms.flatMap looseText = ns.flatMap looseText) : Conserves order ns ms :=
  of_labels labels (by rw [text]; exact .refl _)

theorem of_kids {n : Node} {f : List Node → List Node} (nil : f [] = [])
    (kids : Conserves order n.kids (f n.kids)) : Conserves order [n] [n.mapChildren f] := by
  have cite : isCite (n.mapChildren f) = isCite n := rfl
  have label : (n.mapChildren f).attrText? "label" = n.attrText? "label" := rfl
  constructor
  · rw [List.flatMap_singleton, List.flatMap_singleton, citedLabels_eq, citedLabels_eq, cite, label,
      kids_mapChildren nil]
    exact (List.Sublist.refl _).append kids.cited
  · intro none
    rw [List.flatMap_singleton, List.flatMap_singleton, citedLabels_eq, citedLabels_eq, cite, label,
      kids_mapChildren nil, kids.same none]
  · rw [List.flatMap_singleton, List.flatMap_singleton, looseText_eq, looseText_eq, cite,
      value_mapChildren, kids_mapChildren nil]
    split
    · exact .refl []
    · exact Alike.append (.refl _) kids.text

end

end Conserves

/-! ### What is emitted -/

/-- What is emitted for a text has nothing below it, what is emitted for a citation, a group or a
superscript has no text of its own, and a citation has a normal label if any. -/
structure Plain (n : Node) : Prop where
  text : n.kind = "text" → n.kids = []
  blank : n.kind ∈ ["cite", "citeGroup", "superscript"] → n.value = none
  label : isCite n = true → ∀ label ∈ n.attrText? "label", Label.IsNormal label

/-- A plain node that, if it is a citation, holds no other one. -/
structure Emitted (n : Node) : Prop extends Plain n where
  single : isCite n = true → ∀ m ∈ n.descendants, isCite m = false

instance (n : Node) : Decidable (Emitted n) :=
  decidable_of_iff
    (((n.kind = "text" → n.kids = []) ∧
      (n.kind ∈ ["cite", "citeGroup", "superscript"] → n.value = none) ∧
      (isCite n = true → ∀ label ∈ n.attrText? "label", Label.IsNormal label)) ∧
      (isCite n = true → ∀ m ∈ n.descendants, isCite m = false))
    ⟨fun h => ⟨⟨h.1.1, h.1.2.1, h.1.2.2⟩, h.2⟩,
      fun h => ⟨⟨h.text, h.blank, h.label⟩, h.single⟩⟩

/-- A plain node that, if it is a citation, has no children. -/
structure Bared (n : Node) : Prop extends Plain n where
  bare : isCite n = true → n.kids = []

theorem attrText?_setKind (n : Node) (value : Json) :
    (n.setAttr "kind" value).attrText? "label" = n.attrText? "label" := by
  simp [attrText?, attr?, setAttr, Dict.find?_insert]

theorem attrText?_citeOf (kind : Option Json) (s : String) :
    (citeOf kind s).attrText? "label" = (Label.ofText? s).map (·.label) := by
  unfold citeOf
  cases Label.ofText? s with
  | none => cases kind <;> simp [attrText?, attr?, leaf, Dict.insert?, Dict.find?_insert]
  | some l => simp [attrText?, attr?, leaf, Dict.find?_insert, Json.asString?]

theorem value_citeOf (kind : Option Json) (s : String) : (citeOf kind s).value = none := by
  unfold citeOf
  split <;> rfl

theorem lasting_bared (order : List String) : Lasting order Bared := by
  constructor
  case children =>
    intro n f nil here
    have kids := kids_mapChildren nil n
    refine ⟨⟨fun text => ?_, here.blank, here.label⟩, fun cite => ?_⟩
    · rw [kids, here.text text, nil]
    · rw [kids, here.bare cite, nil]
  case stripped => exact fun here => ⟨⟨fun _ => rfl, here.blank, here.label⟩, fun _ => rfl⟩
  case retexted =>
    intro n s _ text here
    refine ⟨⟨here.text, fun other => ?_, here.label⟩, here.bare⟩
    rw [show ({ n with value := some s } : Node).kind = "text" from text] at other
    exact absurd other (by decide)
  case marked =>
    intro n value here
    refine ⟨⟨here.text, here.blank, fun cite => ?_⟩, here.bare⟩
    rw [attrText?_setKind]
    exact here.label cite
  case grouped =>
    intro kind cites
    refine ⟨⟨fun text => ?_, fun _ => rfl, nofun⟩, nofun⟩
    exact absurd (show "citeGroup" = "text" from text) (by decide)
  -- A group is neither a text nor a citation, so that only its value counts.
  case regrouped =>
    intro g h isOne kind value _ here
    have group : h.kind = "citeGroup" := kind.trans (beq_iff_eq.1 isOne)
    have other : isCite h = false := by rw [isCite, is, group]; rfl
    refine ⟨⟨fun text => ?_, fun known => ?_, fun cite => ?_⟩, fun cite => ?_⟩
    · exact absurd (group.symm.trans text) (by decide)
    · rw [value]
      exact here.blank (kind ▸ known)
    · exact absurd (other.symm.trans cite) (by decide)
    · exact absurd (other.symm.trans cite) (by decide)
  case listed =>
    intro kind _ _ _ _ s _ _ _ _ _ _ _
    refine ⟨⟨fun text => ?_, fun _ => value_citeOf kind s, fun _ label found => ?_⟩,
      fun _ => kids_citeOf kind s⟩
    · exact kids_citeOf kind s
    · rw [attrText?_citeOf] at found
      obtain ⟨l, normal, rfl⟩ := Option.map_eq_some_iff.1 found
      exact Label.isNormal_of_ofText? normal

/-! ### Steps -/

def StepConserves (order : List String) (s : Step) : Prop :=
  ∀ {ns done rest : List Node}, s.next? ns = some (done, rest) → (∀ n ∈ ns, Everywhere Bared n) →
    Conserves order ns (done ++ rest)

theorem citedLabels_of_other {n : Node} (other : isCite n = false) :
    citedLabels n = n.kids.flatMap citedLabels := by
  rw [citedLabels_eq, other]
  rfl

theorem looseText_of_other {n : Node} (other : isCite n = false) (blank : n.value = none) :
    looseText n = n.kids.flatMap looseText := by
  rw [looseText_eq, other, blank]
  rfl

theorem looseText_of_cite {n : Node} (cite : isCite n = true) : looseText n = [] := by
  rw [looseText_eq, if_pos cite]

theorem Bared.content_of_text {t : Node} (here : Bared t) (text : t.kind = "text") :
    citedLabels t = [] ∧ looseText t = (t.value.getD "").toList := by
  have other := isCite_of_text text
  rw [citedLabels_of_other other, looseText_eq, other, here.text text]
  exact ⟨rfl, List.append_nil _⟩

theorem Bared.content_of_group {g : Node} (here : Bared g) (isOne : isGroup g = true) :
    citedLabels g = g.kids.flatMap citedLabels ∧ looseText g = g.kids.flatMap looseText := by
  have other := isCite_of_isGroup isOne
  refine ⟨citedLabels_of_other other, looseText_of_other other (here.blank ?_)⟩
  rw [kind_of_isGroup isOne]
  decide

theorem conserves_wrapCite (order : List String) : StepConserves order wrapCite := by
  intro ns done rest found _
  obtain ⟨n, rfl, _, rfl⟩ := wrapFront?_eq_some_iff.1 found
  have other : isCite (group (n.attr? "kind") [n]) = false := rfl
  have kids : (group (n.attr? "kind") [n]).kids = [n] := rfl
  have wrapped : Conserves order [n] [group (n.attr? "kind") [n]] := by
    apply Conserves.of_eq
    · rw [List.flatMap_singleton, citedLabels_of_other other, kids]
    · rw [List.flatMap_singleton, looseText_of_other other rfl, kids]
  exact wrapped.append (.refl rest)

theorem conserves_unwrapGroup (order : List String) : StepConserves order unwrapGroup := by
  intro ns done rest found all
  obtain ⟨n, rfl, isOne, rfl⟩ := unwrapFront?_eq_some_iff.1 found
  obtain ⟨labels, text⟩ := (all n List.mem_cons_self).here.content_of_group isOne
  have unwrapped : Conserves order [n] n.kids := by
    apply Conserves.of_eq
    · rw [List.flatMap_singleton, labels]
    · rw [List.flatMap_singleton, text]
  exact unwrapped.append (.refl rest)

theorem conserves_mergeGroups {order : List String} {g h : Node} (first : Bared g)
    (second : Bared h) (left : isGroup g = true) (right : isGroup h = true) :
    Conserves order [g, h] [mergeGroups g h] := by
  obtain ⟨labels, text⟩ := first.content_of_group left
  obtain ⟨labels', text'⟩ := second.content_of_group right
  have bared : Bared (mergeGroups g h) :=
    (lasting_bared order).regrouped right rfl rfl (erase_kind_mergeGroups g h) second
  obtain ⟨merged, mergedText⟩ := bared.content_of_group right
  have kids : (mergeGroups g h).kids = g.kids ++ h.kids := rfl
  apply Conserves.of_eq
  · rw [List.flatMap_singleton, merged, kids, List.flatMap_append, List.flatMap_cons,
      List.flatMap_singleton, labels, labels']
  · rw [List.flatMap_singleton, mergedText, kids, List.flatMap_append, List.flatMap_cons,
      List.flatMap_singleton, text, text']

theorem conserves_mergeTouching (order : List String) : StepConserves order mergeTouching := by
  intro ns done rest found all
  obtain ⟨g, h, tail, rfl, left, right, rfl, rfl⟩ := mergeFront?_eq_some_iff.1 found
  simp only [List.forall_mem_cons] at all
  exact (conserves_mergeGroups all.1.here all.2.1.here left right).append (.refl tail)

/-- Whether a character may stand in a separator or a dash, or around one. -/
def isFiller (c : Char) : Bool := Text.isBlank c || [',', ';', '-', '–', 'a', 'n', 'd'].contains c

theorem spare_of_isFiller {c : Char} (filler : isFiller c = true) :
    isSpare c = true ∧ c ∉ ['(', ')', '[', ']'] := by
  constructor
  · simp only [isFiller, isSpare, Bool.or_eq_true, List.contains_iff_mem, List.mem_cons,
      List.not_mem_nil, or_false] at filler ⊢
    rcases filler with blank | mark
    · exact .inl blank
    · right
      rcases mark with rfl | rfl | rfl | rfl | rfl | rfl | rfl <;> simp
  · intro bracket
    simp only [List.mem_cons, List.not_mem_nil, or_false] at bracket
    rcases bracket with rfl | rfl | rfl | rfl <;> exact absurd filler (by decide)

theorem isFiller_of_trimmed {cs : List Char}
    (all : ∀ c ∈ Text.trimWhile Text.isBlank cs, isFiller c = true) :
    ∀ c ∈ cs, isFiller c = true := by
  have blank : ∀ c, Text.isBlank c = true → isFiller c = true := fun c h => by simp [isFiller, h]
  obtain ⟨before, after, same, front, back⟩ := Text.exists_trimWhile Text.isBlank cs
  rw [same]
  refine List.forall_mem_append.2 ⟨List.forall_mem_append.2 ⟨?_, all⟩, ?_⟩
  · exact fun c mem => blank c (front c mem)
  · exact fun c mem => blank c (back c mem)

theorem isFiller_of_isSeparator {s : String} (separator : isSeparator s = true) :
    ∀ c ∈ s.toList, isFiller c = true := by
  have word : ['a', 'n', 'd'].all isFiller = true := by decide
  apply isFiller_of_trimmed
  unfold isSeparator at separator
  split at separator
  · cases separator
  · next c cs same =>
    rw [same]
    split at separator
    · next mark =>
      refine List.forall_mem_cons.2 ⟨?_, ?_⟩
      · rcases Bool.or_eq_true_iff.1 mark with comma | semicolon
        · rw [beq_iff_eq.1 comma]; rfl
        · rw [beq_iff_eq.1 semicolon]; rfl
      · rcases Bool.or_eq_true_iff.1 separator with none | behind
        · rw [List.isEmpty_iff.1 none]
          exact List.forall_mem_nil _
        · rw [← List.takeWhile_append_dropWhile (p := Text.isBlank) (l := cs)]
          refine List.forall_mem_append.2 ⟨fun c mem => ?_, ?_⟩
          · have blank : Text.isBlank c = true := List.all_eq_true.1 List.all_takeWhile c mem
            simp [isFiller, blank]
          · rw [beq_iff_eq.1 behind]
            exact List.all_eq_true.1 word
    · rw [beq_iff_eq.1 separator]
      exact List.all_eq_true.1 word

theorem isFiller_of_isDash {s : String} (dash : isDash s = true) :
    ∀ c ∈ s.toList, isFiller c = true := by
  have marks : ['-'].all isFiller = true ∧ ['–'].all isFiller = true := by decide
  apply isFiller_of_trimmed
  rcases Bool.or_eq_true_iff.1 dash with hyphen | long
  · rw [beq_iff_eq.1 hyphen]
    exact List.all_eq_true.1 marks.1
  · rw [beq_iff_eq.1 long]
    exact List.all_eq_true.1 marks.2

theorem conserves_nil_of_filler {order : List String} {t : Node} {p : String → Bool}
    (filler : ∀ {s : String}, p s = true → ∀ c ∈ s.toList, isFiller c = true) (here : Bared t)
    (between : (textOf? t).any p = true) : Conserves order [t] [] := by
  obtain ⟨text, holds⟩ := any_textOf?_iff.1 between
  obtain ⟨labels, chars⟩ := here.content_of_text text
  apply Conserves.of_labels
  · rw [List.flatMap_singleton, labels]
    rfl
  · rw [List.flatMap_singleton, chars]
    exact .nil_of_spare fun c mem => spare_of_isFiller (filler holds c mem)

theorem conserves_mergeSeparated (order : List String) : StepConserves order mergeSeparated := by
  intro ns done rest found all
  obtain ⟨g, t, h, tail, rfl, left, between, right, rfl, rfl⟩ := joinFront?_eq_some_iff.1 found
  simp only [List.forall_mem_cons] at all
  obtain ⟨first, text, second, _⟩ := all
  have gone : Conserves order [t] [] :=
    conserves_nil_of_filler isFiller_of_isSeparator text.here between
  have touching : Conserves order ([g] ++ [t] ++ [h]) ([g] ++ [] ++ [h]) :=
    ((Conserves.refl [g]).append gone).append (.refl [h])
  have merged : Conserves order ([g] ++ [t] ++ [h]) [mergeGroups g h] :=
    touching.trans (conserves_mergeGroups first.here second.here left right)
  exact merged.append (.refl tail)

/-! ### Ranges -/

/-- A group that holds one citation cites the label at which that stands in the order, and says
nothing. -/
theorem content_of_onlyCite? {order : List String} {g c : Node} {i : Nat}
    (here : Everywhere Bared g) (isOne : isGroup g = true) (only : onlyCite? g = some c)
    (place : position? order c = some i) :
    ∃ inside : i < order.length, Label.IsNormal order[i] ∧ citedLabels g = [order[i]] ∧
      looseText g = [] := by
  obtain ⟨kids, cite⟩ := onlyCite?_eq_some_iff.1 only
  have bared : Bared c := (here.below c (by rw [kids]; exact List.mem_singleton_self c)).here
  obtain ⟨label, found, index⟩ := Option.bind_eq_some_iff.1 place
  obtain ⟨inside, same, _⟩ := List.findIdx?_eq_some_iff_getElem.1 index
  rw [← beq_iff_eq.1 same] at found
  obtain ⟨labels, text⟩ := here.here.content_of_group isOne
  rw [kids, List.flatMap_singleton] at labels text
  refine ⟨inside, bared.label cite _ found, ?_, text.trans (looseText_of_cite cite)⟩
  rw [labels, citedLabels_eq, cite, found, bared.bare cite]
  rfl

/-- A group made for labels cites those that can be read as labels, and says nothing. -/
theorem content_of_listed (kind kind' : Option Json) (labels : List String) :
    citedLabels (group kind (labels.map (citeOf kind'))) =
      (labels.filterMap fun s => (Label.ofText? s).map (·.label)) ∧
    looseText (group kind (labels.map (citeOf kind'))) = [] := by
  have kids : (group kind (labels.map (citeOf kind'))).kids = labels.map (citeOf kind') := rfl
  rw [citedLabels_of_other rfl, looseText_of_other rfl rfl, kids]
  induction labels with
  | nil => exact ⟨rfl, rfl⟩
  | cons s labels ih =>
    obtain ⟨cited, silent⟩ := ih rfl
    have cite : isCite (citeOf kind' s) = true := (isCite_citeOf kind' s).1
    rw [List.map_cons, List.flatMap_cons, List.flatMap_cons, cited, silent, looseText_of_cite cite,
      citedLabels_eq, cite, attrText?_citeOf, kids_citeOf, List.filterMap_cons]
    refine ⟨?_, rfl⟩
    cases Label.ofText? s <;> rfl

theorem ends_sublist_range {order : List String} {i j : Nat} (lt : i < j)
    (inside : j < order.length) :
    [order[i], order[j]].Sublist ((order.drop i).take (j - i + 1)) := by
  rw [List.drop_eq_getElem_cons (Nat.lt_trans lt inside), List.take_succ_cons]
  refine List.Sublist.cons_cons _ (List.singleton_sublist.2 ?_)
  have last : ((order.drop (i + 1)).take (j - i))[j - (i + 1)]? = some order[j] := by
    rw [List.getElem?_take_of_lt (by omega), List.getElem?_drop,
      List.getElem?_eq_getElem (by omega)]
    congr 2
    omega
  exact List.mem_of_getElem? last

theorem conserves_expandRange (order : List String) : StepConserves order (expandRange order) := by
  intro ns done rest found all
  obtain ⟨g, dash, h, range, rfl, isRange, rfl⟩ := expandFront?_eq_some_iff.1 found
  obtain ⟨left, right, between, first, last, i, j, only, only', start, stop, lt, rfl⟩ :=
    rangeGroup?_eq_some_iff.1 isRange
  simp only [List.forall_mem_cons] at all
  obtain ⟨front, text, back, _⟩ := all
  obtain ⟨inside, normal, labels, blank⟩ := content_of_onlyCite? front left only start
  obtain ⟨inside', normal', labels', blank'⟩ := content_of_onlyCite? back right only' stop
  -- First the dash goes, then the two groups that are left give way to the range.
  have gone : Conserves order [dash] [] :=
    conserves_nil_of_filler isFiller_of_isDash text.here between
  have touching : Conserves order ([g] ++ [dash] ++ [h]) ([g] ++ [] ++ [h]) :=
    ((Conserves.refl [g]).append gone).append (.refl [h])
  have ends : ([g] ++ [] ++ [h]).flatMap citedLabels = [order[i], order[j]] := by
    rw [List.append_nil, List.flatMap_append, List.flatMap_singleton, List.flatMap_singleton,
      labels, labels']
    rfl
  have read : [order[i], order[j]].filterMap (fun s => (Label.ofText? s).map (·.label)) =
      [order[i], order[j]] := by
    simp [Label.ofText?_of_isNormal normal, Label.ofText?_of_isNormal normal']
  obtain ⟨cited, silent⟩ := content_of_listed (g.attr? "kind") (first.attr? "kind")
    ((order.drop i).take (j - i + 1))
  have expanded : Conserves order ([g] ++ [] ++ [h]) [group (g.attr? "kind")
      (((order.drop i).take (j - i + 1)).map (citeOf (first.attr? "kind")))] := by
    constructor
    · rw [ends, List.flatMap_singleton, cited, ← read]
      exact (ends_sublist_range lt inside').filterMap _
    · -- No label has a place in an empty order.
      intro none
      subst none
      exact absurd inside (Nat.not_lt_zero i)
    · rw [List.append_nil, List.flatMap_append, List.flatMap_singleton, List.flatMap_singleton,
        List.flatMap_singleton, blank, blank', silent]
      exact .refl []
  exact (touching.trans expanded).append (.refl rest)

/-! ### Brackets, superscripts and spaces -/

theorem content_of_retext {t : Node} (here : Bared t) (text : t.kind = "text") (cs : List Char) :
    (retext t cs).flatMap citedLabels = [] ∧ (retext t cs).flatMap looseText = cs := by
  unfold retext
  split
  · next none =>
    rw [List.isEmpty_iff.1 none]
    exact ⟨rfl, rfl⟩
  · next filled =>
    have bared : Bared { t with value := some (String.ofList cs) } :=
      (lasting_bared []).retexted _ (by simpa using filled) text here
    obtain ⟨labels, chars⟩ := bared.content_of_text text
    rw [List.flatMap_singleton, List.flatMap_singleton, labels, chars]
    exact ⟨rfl, String.toList_ofList⟩

theorem content_of_setKind (n : Node) (value : Json) :
    citedLabels (n.setAttr "kind" value) = citedLabels n ∧
      looseText (n.setAttr "kind" value) = looseText n := by
  rw [citedLabels_eq, citedLabels_eq n, attrText?_setKind, looseText_eq, looseText_eq n]
  exact ⟨rfl, rfl⟩

theorem content_of_parenthetical {g : Node} (here : Bared g) (isOne : isGroup g = true) :
    citedLabels (parenthetical g) = citedLabels g ∧ looseText (parenthetical g) = looseText g := by
  have bared : Bared (parenthetical g) :=
    (lasting_bared []).regrouped isOne rfl rfl (erase_kind_parenthetical g) here
  obtain ⟨labels, text⟩ := here.content_of_group isOne
  obtain ⟨marked, markedText⟩ := bared.content_of_group (g := parenthetical g) isOne
  have kids : (parenthetical g).kids =
      g.kids.map (·.setAttr "kind" (.string "parenthetical")) := rfl
  rw [kids, List.flatMap_map] at marked markedText
  rw [marked, markedText, labels, text]
  simp only [content_of_setKind, and_self]

theorem conserves_unbracket (order : List String) : StepConserves order unbracket := by
  intro ns done rest found all
  obtain ⟨before, g, after, tail, rfl, flanked, rfl, rfl⟩ := unbracketFront?_eq_some_iff.1 found
  obtain ⟨isOne, s, c, s', opening, closes, closing, head⟩ := isBracketed_iff.1 flanked
  obtain ⟨beforeText, rfl⟩ := textOf?_eq_some_iff.1 opening
  obtain ⟨afterText, rfl⟩ := textOf?_eq_some_iff.1 closing
  simp only [List.forall_mem_cons] at all
  obtain ⟨left, middle, right, _⟩ := all
  -- The brackets that go are the last character of one text and the first of the other.
  have opened : ∃ o, (before.value.getD "").toList.getLast? = some o ∧
      (o = '(' ∧ c = ')' ∨ o = '[' ∧ c = ']') := by
    rcases closer?_eq_some_iff.1 closes with ⟨last, rfl⟩ | ⟨last, rfl⟩
    · exact ⟨_, last, .inl ⟨rfl, rfl⟩⟩
    · exact ⟨_, last, .inr ⟨rfl, rfl⟩⟩
  obtain ⟨o, last, pair⟩ := opened
  obtain ⟨init, chars⟩ := List.getLast?_eq_some_iff.1 last
  obtain ⟨others, chars'⟩ := List.head?_eq_some_iff.1 head
  obtain ⟨none, text⟩ := left.here.content_of_text beforeText
  obtain ⟨none', text'⟩ := right.here.content_of_text afterText
  obtain ⟨cut, cutText⟩ := content_of_retext left.here beforeText init
  obtain ⟨cut', cutText'⟩ := content_of_retext right.here afterText others
  obtain ⟨marked, markedText⟩ := content_of_parenthetical middle.here isOne
  have loosened : Conserves order ([before] ++ ([g] ++ [after]))
      (retext before init ++ ([parenthetical g] ++ retext after others)) := by
    apply Conserves.of_labels
    · simp only [List.flatMap_append, List.flatMap_singleton, cut, cut', none, none', marked]
    · simp only [List.flatMap_append, List.flatMap_singleton, cutText, cutText', text, text',
        markedText, chars, chars']
      exact Alike.unbracketed pair init (looseText g) others
  rw [chars, chars', List.dropLast_concat, List.tail_cons]
  simpa only [List.append_assoc, List.cons_append, List.nil_append] using
    loosened.append (.refl tail)

theorem conserves_lowerGroup (order : List String) : StepConserves order lowerGroup := by
  intro ns done rest found all
  obtain ⟨n, g, rfl, raised, rfl⟩ := lowerFront?_eq_some_iff.1 found
  obtain ⟨isSup, only, _⟩ := raisedGroup?_eq_some_iff.1 raised
  have kind : n.kind = "superscript" := beq_iff_eq.1 isSup
  have other : isCite n = false := by rw [isCite, is, kind]; rfl
  have blank : n.value = none :=
    (all n List.mem_cons_self).here.blank (by rw [kind]; decide)
  have lowered : Conserves order [n] [g] := by
    apply Conserves.of_eq
    · rw [List.flatMap_singleton, List.flatMap_singleton, citedLabels_of_other other, only,
        List.flatMap_singleton]
    · rw [List.flatMap_singleton, List.flatMap_singleton, looseText_of_other other blank, only,
        List.flatMap_singleton]
  exact lowered.append (.refl rest)

theorem conserves_addSpace (order : List String) : StepConserves order addSpace := by
  intro ns done rest found all
  obtain ⟨t, g, tail, rfl, _, needs, rfl, rfl⟩ := spaceFront?_eq_some_iff.1 found
  have text := (any_textOf?_iff.1 needs).1
  have here := (all t List.mem_cons_self).here
  have bared : Bared (spaced t) := (lasting_bared order).retexted _ (by simp) text here
  obtain ⟨labels, chars⟩ := here.content_of_text text
  obtain ⟨labels', chars'⟩ := bared.content_of_text (t := spaced t) text
  have value : ((spaced t).value.getD "").toList = (t.value.getD "").toList ++ [' '] := by
    simp [spaced]
  have widened : Conserves order [t] [spaced t] := by
    apply Conserves.of_labels
    · rw [List.flatMap_singleton, List.flatMap_singleton, labels, labels']
    · rw [List.flatMap_singleton, List.flatMap_singleton, chars, chars', value]
      have space : Alike [' '] [] := ⟨rfl, rfl, rfl⟩
      have more := (Alike.refl (t.value.getD "").toList).append space.symm
      rwa [List.append_nil] at more
  exact widened.append (.refl (g :: tail))

theorem conserves_of_mem_steps {order : List String} {s : Step} (mem : s ∈ steps order) :
    StepConserves order s := by
  simp only [steps, List.mem_cons, List.not_mem_nil, or_false] at mem
  rcases mem with rfl | rfl | rfl | rfl | rfl | rfl | rfl | rfl
  · exact conserves_wrapCite order
  · exact conserves_unwrapGroup order
  · exact conserves_mergeTouching order
  · exact conserves_mergeSeparated order
  · exact conserves_expandRange order
  · exact conserves_unbracket order
  · exact conserves_lowerGroup order
  · exact conserves_addSpace order

/-! ### Rules, passes and runs -/

theorem conserves_scan {order : List String} {s : Step} (conserves : StepConserves order s)
    (keeps : s.Keeps (Everywhere Bared)) {ns : List Node} (all : ∀ n ∈ ns, Everywhere Bared n) :
    Conserves order ns (s.scan ns).1 := by
  induction ns using s.scan_induction with
  | nil =>
    rw [Step.scan_nil]
    exact .refl []
  | some ns done rest found ih =>
    rw [s.scan_of_some found]
    have later := ih (keeps found all).2
    exact (conserves found all).trans ((Conserves.refl done).append later)
  | none n ns found ih =>
    rw [s.scan_of_none found]
    exact (Conserves.refl [n]).append (ih (List.forall_mem_cons.1 all).2)

/-- An edit conserves a tree if it conserves each node that it comes to. -/
theorem conserves_run {order : List String} {e : Edit} {p : Node → Prop}
    (here : ∀ n, Everywhere p n →
      Conserves order [n] [e.here n] ∧ ∀ c ∈ (e.here n).kids, Everywhere p c)
    {n : Node} (all : Everywhere p n) : Conserves order [n] [(e.run n).1] := by
  induction n using e.induction with
  | node n ih =>
    obtain ⟨atNode, below⟩ := here n all
    rw [e.run_fst]
    refine atNode.trans (.of_kids rfl (.map fun c child => ih c child (below c child)))

theorem conserves_run_of_step {order : List String} {e : Edit} {s : Step}
    {applies : String → Bool} (scans : e.onKids = s.onKids applies) (mem : s ∈ steps order)
    {n : Node} (all : Everywhere Bared n) : Conserves order [n] [(e.run n).1] := by
  have keeps : s.Keeps (Everywhere Bared) := (lasting_bared order).keeps_of_mem_steps mem
  refine conserves_run (fun m all => ⟨?_, ?_⟩) all
  · rw [here_eq_mapChildren scans]
    refine .of_kids (by simp) ?_
    split
    · exact conserves_scan (conserves_of_mem_steps mem) keeps all.below
    · exact .refl m.kids
  · rw [e.kids_here_of_step scans]
    split
    · exact s.forall_mem_scan keeps all.below
    · exact all.below

/-- A citation that holds no other one loses no citation with its children. -/
theorem conserves_run_bareCites {order : List String} {n : Node} (all : Everywhere Emitted n) :
    Conserves order [n] [(bareCites.run n).1] := by
  refine conserves_run (fun m all => ?_) all
  rw [here_bareCites]
  split
  · next cite =>
    have none : m.kids.flatMap citedLabels = [] := by
      rw [List.flatMap_eq_nil_iff]
      intro c child
      rw [citedLabels, List.filter_eq_nil_iff.2]
      · rfl
      · intro k mem
        have below : k ∈ m.descendants := by
          rw [descendants_eq, mem_forestNodes_iff]
          exact ⟨c, child, mem⟩
        simp [all.here.single cite k below]
    have stays : isCite { m with children := Option.none } = true := cite
    refine ⟨.of_eq ?_ ?_, List.forall_mem_nil _⟩
    · rw [List.flatMap_singleton, List.flatMap_singleton, citedLabels_eq m, none, citedLabels_eq]
      rfl
    · rw [List.flatMap_singleton, List.flatMap_singleton, looseText_of_cite cite,
        looseText_of_cite stays]
  · exact ⟨.refl [m], all.below⟩

theorem bared_run_bareCites {n : Node} (all : Everywhere Emitted n) :
    Everywhere Bared (bareCites.run n).1 := by
  have near : Local Bared := fun n f _ here => (lasting_bared []).children rfl here
  refine everywhere_run near (fun m all => ?_) all
  have here := all.here
  rw [here_bareCites]
  split
  · exact ⟨⟨⟨fun _ => rfl, here.blank, here.label⟩, fun _ => rfl⟩, List.forall_mem_nil _⟩
  · next other => exact ⟨⟨here.toPlain, fun cite => absurd cite other⟩, all.below⟩

theorem emitted_of_bared {n : Node} (all : Everywhere Bared n) : Everywhere Emitted n := by
  refine all.imp fun m here => ⟨here.toPlain, fun cite k below => ?_⟩
  rw [descendants_eq, here.bare cite] at below
  cases below

theorem conserves_pass {order : List String} {tree : Node} (all : Everywhere Emitted tree) :
    Conserves order [tree] [(pass order tree).1] ∧ Everywhere Emitted (pass order tree).1 := by
  have later : Conserves order [(bareCites.run tree).1] [(pass order tree).1] ∧
      Everywhere Bared (pass order tree).1 := by
    rw [pass_fst]
    -- The other rules need citations without children, and leave them so.
    apply runRules_keeps (p := fun t =>
      Conserves order [(bareCites.run tree).1] [t] ∧ Everywhere Bared t) (fun rule mem t kept => ?_)
      ⟨.refl _, bared_run_bareCites all⟩
    obtain ⟨s, applies, step, scans, -⟩ := exists_step_of_mem mem
    refine ⟨kept.1.trans (conserves_run_of_step scans step kept.2), ?_⟩
    exact (lasting_bared order).everywhere_rule (List.mem_of_mem_tail mem) kept.2
  exact ⟨(conserves_run_bareCites all).trans later.1, emitted_of_bared later.2⟩

theorem conserves_groupCitations (order : List String) {tree : Node}
    (emitted : Everywhere Emitted tree) :
    Conserves order [tree] [(groupCitations order tree).1] ∧
      Everywhere Emitted (groupCitations order tree).1 :=
  settle_keeps (p := fun t => Conserves order [tree] [t] ∧ Everywhere Emitted t)
    (fun _ kept => ⟨kept.1.trans (conserves_pass kept.2).1, (conserves_pass kept.2).2⟩)
    ⟨.refl [tree], emitted⟩

/-- Grouping an emitted tree loses, doubles and reorders no citation, and adds some only where it
has an order to read ranges by; outside citations it takes away and puts in spare characters only,
and leaves open what was open. -/
theorem grouping_conserves_content (order : List String) (tree : Node)
    (emitted : ∀ n ∈ tree.nodes, Emitted n) :
    (citedLabels tree).Sublist (citedLabels (groupCitations order tree).1) ∧
    (order = [] → citedLabels (groupCitations order tree).1 = citedLabels tree) ∧
    kept (looseText (groupCitations order tree).1) = kept (looseText tree) ∧
    surplus '(' ')' (looseText (groupCitations order tree).1) =
      surplus '(' ')' (looseText tree) ∧
    surplus '[' ']' (looseText (groupCitations order tree).1) =
      surplus '[' ']' (looseText tree) := by
  obtain ⟨⟨cited, same, text⟩, _⟩ := conserves_groupCitations order emitted
  simp only [List.flatMap_singleton] at cited same text
  exact ⟨cited, same, text.kept, text.round, text.square⟩

/-- The range "(a - c)" behind a word. -/
def bracketedRange : Node :=
  .branch "paragraph" [.text "see (", citeOf none "a", .text " - ", citeOf none "c", .text ")"]

theorem grouping_conserves_bracketed_range :
    let after := (groupCitations ["a", "b", "c"] bracketedRange).1
    (∀ n ∈ bracketedRange.nodes, Emitted n) ∧
    (citedLabels bracketedRange).Sublist (citedLabels after) ∧
    kept (looseText after) = kept (looseText bracketedRange) ∧
    surplus '(' ')' (looseText after) = surplus '(' ')' (looseText bracketedRange) ∧
    surplus '[' ']' (looseText after) = surplus '[' ']' (looseText bracketedRange) := by
  have emitted : ∀ n ∈ bracketedRange.nodes, Emitted n := by decide +kernel
  obtain ⟨cited, _, text⟩ := grouping_conserves_content ["a", "b", "c"] bracketedRange emitted
  exact ⟨emitted, cited, text⟩

example : citedLabels (groupCitations ["a", "b", "c"] bracketedRange).1 = ["a", "b", "c"] ∧
    looseText (groupCitations ["a", "b", "c"] bracketedRange).1 = ['s', 'e', 'e', ' '] := by
  decide +kernel

end Manuscript.Myst.Citation
