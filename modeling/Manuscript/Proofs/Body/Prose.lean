import Manuscript.Proofs.Body.Headings

/-!
The prose of a tree whose sections are flattened. It is that of the tree before, word for word, but
for the labels in front of sections and the usual titles of acknowledgments.
-/

set_option autoImplicit false

namespace Manuscript.Node

/-- A node with its siblings in front. -/
structure Seat where
  node : Node
  before : List Node

mutual
/-- The nodes below a node, in document order, each with the nodes around it, the nearest first. -/
def seatsBelow (around : List Seat) : Node → List (List Seat)
  | ⟨_, none, _, _⟩ => []
  | ⟨_, some cs, _, _⟩ => seatsIn around [] cs

/-- The nodes of a forest that stands behind other nodes, in document order, each with the nodes
around it. -/
def seatsIn (around : List Seat) (before : List Node) : List Node → List (List Seat)
  | [] => []
  | n :: ns =>
    (⟨n, before⟩ :: around) ::
      (seatsBelow (⟨n, before⟩ :: around) n ++ seatsIn around (before ++ [n]) ns)
end

theorem seatsBelow_eq (around : List Seat) (n : Node) :
    seatsBelow around n = seatsIn around [] n.kids := by
  obtain ⟨k, children, v, a⟩ := n
  cases children <;> simp [seatsBelow, seatsIn, kids]

theorem seatsIn_cons (around : List Seat) (before : List Node) (n : Node) (ns : List Node) :
    seatsIn around before (n :: ns) =
      (⟨n, before⟩ :: around) ::
        (seatsIn (⟨n, before⟩ :: around) [] n.kids ++ seatsIn around (before ++ [n]) ns) := by
  rw [seatsIn, seatsBelow_eq]

mutual
theorem suffix_of_mem_seatsBelow : {n : Node} → {around seats : List Seat} →
    seats ∈ seatsBelow around n → around <:+ seats
  | ⟨_, none, _, _⟩, _, _, mem => by simp [seatsBelow] at mem
  | ⟨_, some _, _, _⟩, _, _, mem => suffix_of_mem_seatsIn mem

theorem suffix_of_mem_seatsIn : {ns before : List Node} → {around seats : List Seat} →
    seats ∈ seatsIn around before ns → around <:+ seats
  | [], _, _, _, mem => by simp [seatsIn] at mem
  | n :: ns, before, around, seats, mem => by
    rw [seatsIn, List.mem_cons, List.mem_append] at mem
    rcases mem with rfl | below | mem
    · exact List.suffix_cons _ around
    · exact (List.suffix_cons _ around).trans (suffix_of_mem_seatsBelow below)
    · exact suffix_of_mem_seatsIn mem
end

/-- The texts of seated nodes themselves, one behind the other. -/
def ownTexts (seats : List (List Seat)) : String :=
  String.join (seats.map fun s => (s.head?.bind (·.node.value)).getD "")

theorem ownTexts_append (xs ys : List (List Seat)) :
    ownTexts (xs ++ ys) = ownTexts xs ++ ownTexts ys := by
  simp [ownTexts]

theorem ownTexts_singleton (seat : Seat) (around : List Seat) :
    ownTexts [seat :: around] = seat.node.value.getD "" := by
  simp [ownTexts]

mutual
theorem ownTexts_seatsBelow : (around : List Seat) → (n : Node) →
    ownTexts (seatsBelow around n) = forestText n.kids
  | _, ⟨_, none, _, _⟩ => rfl
  | around, ⟨_, some cs, _, _⟩ => ownTexts_seatsIn around [] cs

theorem ownTexts_seatsIn : (around : List Seat) → (before ns : List Node) →
    ownTexts (seatsIn around before ns) = forestText ns
  | _, _, [] => rfl
  | around, before, n :: ns => by
    rw [seatsIn, ← List.singleton_append, ownTexts_append, ownTexts_append, ownTexts_singleton,
      ownTexts_seatsBelow, ownTexts_seatsIn, forestText, toText_eq, String.append_assoc]
end

end Manuscript.Node

namespace Manuscript.Body

open Manuscript.Node

/-! ### What is taken out -/

/-- What stands in front of a seat in the nearest node around that is no group, where groups give
way to what they hold. -/
def ahead (before : List Node) : List Seat → List Node
  | [] => liftFrom isAppGroup before
  | outer :: around =>
    (if isAppGroup outer.node then ahead outer.before around else []) ++ liftFrom isAppGroup before

/-- The nearest node around that is no group. -/
def owner? (around : List Seat) : Option Node := (around.map (·.node)).find? (!isAppGroup ·)

/-- Whether a node of a section goes for what stands in front of it there: the label that comes
first, and in acknowledgments the usual title if it comes first or behind the label. -/
def isFrontPart (kind : String) (front : List Node) (n : Node) : Bool :=
  (n.is "label" && front.isEmpty) ||
    (kind == "ack" && n.is "title" && isThanksTitle n && (dropLabel front).isEmpty)

/-- Whether a seated node is taken out of a section that stands in sections and groups only. -/
def isTakenOut : List Seat → Bool
  | [] => false
  | seat :: around =>
    around.all (fun outer => isSection outer.node || isAppGroup outer.node) &&
      (owner? around).any fun sec => isFrontPart sec.kind (ahead seat.before around) seat.node

/-- Whether a seated node is taken out or stands in one that is. -/
def isLost : List Seat → Bool
  | [] => false
  | seat :: around => isTakenOut (seat :: around) || isLost around

/-- The text of the nodes of a forest that are not lost. -/
def lastingText (around : List Seat) (before ns : List Node) : String :=
  ownTexts ((seatsIn around before ns).filter (!isLost ·))

theorem lastingText_cons (around : List Seat) (before : List Node) (n : Node) (ns : List Node) :
    lastingText around before (n :: ns) =
      (if isLost (⟨n, before⟩ :: around) then "" else n.value.getD "") ++
        lastingText (⟨n, before⟩ :: around) [] n.kids ++
        lastingText around (before ++ [n]) ns := by
  rw [lastingText, seatsIn_cons, List.filter_cons, List.filter_append]
  cases isLost (⟨n, before⟩ :: around) with
  | true => simp [ownTexts_append, lastingText]
  | false =>
    rw [Bool.not_false, if_pos rfl, ← List.singleton_append, ownTexts_append, ownTexts_append,
      ownTexts_singleton, String.append_assoc]
    rfl

theorem isLost_of_suffix {around seats : List Seat} (suffix : around <:+ seats)
    (lost : isLost around = true) : isLost seats = true := by
  induction seats with
  | nil => rwa [List.suffix_nil.1 suffix] at lost
  | cons seat seats ih =>
    rcases List.suffix_cons_iff.1 suffix with rfl | suffix
    · exact lost
    · rw [isLost, ih suffix, Bool.or_true]

theorem lastingText_of_isLost {around : List Seat} (lost : isLost around = true)
    (before ns : List Node) : lastingText around before ns = "" := by
  have none : (seatsIn around before ns).filter (!isLost ·) = [] := by
    refine List.filter_eq_nil_iff.2 fun seats mem => ?_
    rw [isLost_of_suffix (suffix_of_mem_seatsIn mem) lost]
    exact Bool.false_ne_true
  rw [lastingText, none]
  rfl

/-- Nothing is taken out below a node that is neither a section nor a group. -/
theorem isLost_of_other {around seats : List Seat} {seat : Seat} (mem : seat ∈ around)
    (other : isSection seat.node = false ∧ isAppGroup seat.node = false)
    (lasts : isLost around = false) (suffix : around <:+ seats) : isLost seats = false := by
  induction seats with
  | nil => rfl
  | cons inner seats ih =>
    rcases List.suffix_cons_iff.1 suffix with rfl | suffix
    · exact lasts
    · have unreached :
          seats.all (fun outer => isSection outer.node || isAppGroup outer.node) = false :=
        List.all_eq_false.2 ⟨seat, suffix.mem mem, by simp [other]⟩
      rw [isLost, ih suffix, isTakenOut, unreached]
      rfl

theorem lastingText_of_other {around : List Seat} {seat : Seat} (mem : seat ∈ around)
    (other : isSection seat.node = false ∧ isAppGroup seat.node = false)
    (lasts : isLost around = false) (before ns : List Node) :
    lastingText around before ns = forestText ns := by
  have all : (seatsIn around before ns).filter (!isLost ·) = seatsIn around before ns := by
    refine List.filter_eq_self.2 fun seats inside => ?_
    rw [isLost_of_other mem other lasts (suffix_of_mem_seatsIn inside)]
    rfl
  rw [lastingText, all, ownTexts_seatsIn]

/-! ### Steps that keep the text -/

/-- Whether a node has no text of its own, if it gives way. -/
def Bare (lifted : Node → Bool) (n : Node) : Prop := lifted n = true → n.value = none

theorem forestText_liftFrom_of {lifted : Node → Bool} {ns : List Node}
    (each : ∀ n ∈ ns, forestText (liftNode lifted n) = n.toText) :
    forestText (liftFrom lifted ns) = forestText ns := by
  induction ns with
  | nil => rfl
  | cons n ns ih =>
    obtain ⟨first, rest⟩ := List.forall_mem_cons.1 each
    rw [liftFrom, forestText_append, first, ih rest, forestText]

theorem forestText_liftNode {lifted : Node → Bool} {n : Node}
    (bare : Everywhere (Bare lifted) n) : forestText (liftNode lifted n) = n.toText := by
  induction n using induction_on_kids with
  | node n ih =>
    have below := forestText_liftFrom_of fun c child => ih c child (bare.below c child)
    rw [liftNode_eq]
    split
    · next gone => rw [below, toText_eq, bare.here gone]; exact String.empty_append.symm
    · rw [forestText, toText_eq, kids_mapChildren rfl, below, value_mapChildren, ← toText_eq]
      exact String.append_empty

theorem forestText_liftFrom {lifted : Node → Bool} {ns : List Node}
    (bare : ∀ n ∈ ns, Everywhere (Bare lifted) n) :
    forestText (liftFrom lifted ns) = forestText ns :=
  forestText_liftFrom_of fun n mem => forestText_liftNode (bare n mem)

theorem toText_mapChildren_liftFrom {lifted : Node → Bool} {n : Node}
    (bare : ∀ c ∈ n.kids, Everywhere (Bare lifted) c) :
    (n.mapChildren (liftFrom lifted)).toText = n.toText := by
  rw [toText_eq, kids_mapChildren rfl, forestText_liftFrom bare, value_mapChildren, ← toText_eq]

theorem forestText_nestLoose (loose ns : List Node) :
    forestText (nestLoose loose ns) = forestText (loose ++ ns) := by
  have gathered (loose : List Node) :
      forestText (if loose.isEmpty then [] else [branch "block" loose]) = forestText loose := by
    cases loose with
    | nil => rfl
    | cons n ns => simp [forestText, branch, toText]
  induction ns generalizing loose with
  | nil => rw [nestLoose, gathered, List.append_nil]
  | cons n ns ih =>
    rw [nestLoose]
    split
    · rw [forestText_append, gathered, forestText, ih, List.nil_append, forestText_append,
        forestText]
    · rw [ih, List.append_assoc, List.singleton_append]

theorem toText_nestBlocks (tree : Node) : (nestBlocks tree).toText = tree.toText := by
  unfold nestBlocks
  split
  · rw [toText_eq, kids_withKids, forestText_nestLoose, List.nil_append, toText_eq tree]
    rfl
  · rw [toText_eq, kids_withKids, toText_eq tree]
    simp [forestText, branch, toText, withKids]

theorem toText_sectionAsBlock (n : Node) : (sectionAsBlock n).toText = n.toText := by
  unfold sectionAsBlock
  split
  · rw [toText_eq, toText_eq n]
    rfl
  · rfl

theorem toText_styledTitle (style : TitleStyle) (id : Option String) (depth : Nat) (title : Node) :
    (styledTitle style id depth title).toText = title.toText := by
  cases style with
  | heading =>
    rw [toText_eq, toText_eq title]
    rfl
  | strong =>
    rw [toText_eq, toText_eq title]
    simp [styledTitle, kids, forestText, branch, toText]

theorem mem_styleFirst {kind : String} {style : TitleStyle} {id : Option String} {depth : Nat}
    {cs : List Node} {c : Node} (mem : c ∈ styleFirst kind style id depth cs) :
    c ∈ cs ∨ ∃ title ∈ cs, title.is "title" = true ∧ c = styledTitle style id depth title := by
  cases cs with
  | nil => exact .inl mem
  | cons first rest =>
    rw [styleFirst] at mem
    split at mem
    · next titled =>
      split at mem
      · exact .inl (List.mem_cons_of_mem _ mem)
      · rcases List.mem_cons.1 mem with rfl | mem
        · exact .inr ⟨first, List.mem_cons_self, titled, rfl⟩
        · exact .inl (List.mem_cons_of_mem _ mem)
    · exact .inl mem

theorem bare_styledTitle {style : TitleStyle} {id : Option String} {depth : Nat} {title : Node}
    (bare : Everywhere (Bare isSection) title) :
    Everywhere (Bare isSection) (styledTitle style id depth title) := by
  cases style with
  | heading => exact everywhere_iff.2 ⟨fun isOne => absurd isOne (by simp [styledTitle, isSection,
      isSectionKind]), bare.below⟩
  | strong =>
    refine everywhere_iff.2 ⟨fun isOne => absurd isOne (by simp [styledTitle, isSection,
      isSectionKind]), List.forall_mem_singleton.2 ?_⟩
    exact everywhere_iff.2 ⟨fun _ => rfl, bare.below⟩

theorem bare_labelSection (style : TitleStyle) (depth : Nat) {n : Node}
    (bare : Everywhere (Bare isSection) n) :
    Everywhere (Bare isSection) (labelSection style depth n) := by
  induction n using induction_on_kids generalizing depth with
  | node n ih =>
    rw [labelSection_eq]
    split
    · refine everywhere_iff.2 ⟨fun isOne => bare.here isOne, fun c child => ?_⟩
      have labelled : ∀ c ∈ dropLabel (n.kids.map (labelSection style (depth + 1))),
          Everywhere (Bare isSection) c := by
        apply everywhere_dropLabel
        rw [List.forall_mem_map]
        exact fun c child => ih c child (depth + 1) (bare.below c child)
      rcases mem_styleFirst child with place | ⟨title, place, -, rfl⟩
      · exact labelled c place
      · exact bare_styledTitle (labelled title place)
    · exact bare

theorem bare_sectionAsBlock {n : Node} (bare : Everywhere (Bare isSection) n) :
    Everywhere (Bare isSection) (sectionAsBlock n) := by
  unfold sectionAsBlock
  split
  · exact everywhere_iff.2 ⟨fun isOne => absurd isOne (by simp [isSection, isSectionKind]),
      bare.below⟩
  · exact bare

/-- Flattening has the text that labelling leaves. -/
theorem toText_flattenSections_eq (style : TitleStyle) {tree : Node}
    (bare : ∀ c ∈ tree.kids, Everywhere (Bare isSection) c) :
    (flattenSections style tree).toText = tree.value.getD "" ++
      forestText ((liftFrom isAppGroup tree.kids).map (labelSection style 1)) := by
  have left : ∀ n ∈ liftFrom isAppGroup tree.kids, Everywhere (Bare isSection) n :=
    everywhere_liftFrom (fun _ here => here) fun n mem => (bare n mem).imp fun _ here _ => here
  have labelled : ∀ n ∈ (liftFrom isAppGroup tree.kids).map
      (sectionAsBlock ∘ labelSection style 1), Everywhere (Bare isSection) n :=
    List.forall_mem_map.2 fun n mem => bare_sectionAsBlock (bare_labelSection style 1 (left n mem))
  have blocks (ns : List Node) : forestText (ns.map sectionAsBlock) = forestText ns := by
    induction ns with
    | nil => rfl
    | cons n ns ih => rw [List.map_cons, forestText, toText_sectionAsBlock, ih, forestText]
  rw [flattenSections_eq_nestBlocks, toText_nestBlocks, toText_eq, kids_withKids, flatForest,
    forestText_liftFrom labelled, ← List.map_map, blocks]
  rfl

/-! ### Labelled sections -/

section
variable (style : TitleStyle) (depth : Nat)

/-- The text of labelled nodes that stand behind others, in a section if a kind is given, without
those that the section goes without. -/
def sparedText (kind? : Option String) (front : List Node) : List Node → String
  | [] => ""
  | n :: ns =>
    (if kind?.any fun kind => isFrontPart kind front n then ""
      else (labelSection style depth n).toText) ++ sparedText kind? (front ++ [n]) ns

theorem sparedText_append (kind? : Option String) (front xs ys : List Node) :
    sparedText style depth kind? front (xs ++ ys) =
      sparedText style depth kind? front xs ++ sparedText style depth kind? (front ++ xs) ys := by
  induction xs generalizing front with
  | nil => rw [List.append_nil, sparedText]; exact String.empty_append.symm
  | cons x xs ih =>
    rw [List.cons_append, sparedText, ih, sparedText, String.append_assoc, List.append_assoc]
    rfl

theorem sparedText_none (front ns : List Node) :
    sparedText style depth none front ns = forestText (ns.map (labelSection style depth)) := by
  induction ns generalizing front with
  | nil => rfl
  | cons n ns ih => rw [sparedText, ih, List.map_cons, forestText]; rfl

theorem sparedText_of_behind (kind? : Option String) {front : List Node}
    (behind : dropLabel front ≠ []) (ns : List Node) :
    sparedText style depth kind? front ns = forestText (ns.map (labelSection style depth)) := by
  induction ns generalizing front with
  | nil => rfl
  | cons n ns ih =>
    obtain ⟨first, rest, rfl⟩ : ∃ first rest, front = first :: rest :=
      List.exists_cons_of_ne_nil fun none => behind (by rw [none]; rfl)
    have kept : (kind?.any fun kind => isFrontPart kind (first :: rest) n) = false := by
      have some : (dropLabel (first :: rest)).isEmpty = false := by simpa using behind
      cases kind? <;> simp [isFrontPart, some]
    have further : dropLabel (first :: rest ++ [n]) ≠ [] := by
      rw [List.cons_append, dropLabel]
      split <;> simp
    rw [sparedText, kept, if_neg Bool.false_ne_true, ih further, List.map_cons, forestText]

/-- The title of a section stays, unless it is the usual one of acknowledgments. -/
theorem forestText_styleFirst (kind : String) (id : Option String) (here : Nat) {front : List Node}
    (ns : List Node) (only : dropLabel front = [])
    (unlabelled : ∀ n ∈ ns.head?, (n.is "label" && front.isEmpty) = false) :
    forestText (styleFirst kind style id here (ns.map (labelSection style depth))) =
      sparedText style depth (some kind) front ns := by
  cases ns with
  | nil => rfl
  | cons n ns =>
    have first := unlabelled n rfl
    have part : isFrontPart kind front n = (kind == "ack" && n.is "title" && isThanksTitle n) := by
      rw [isFrontPart, first, only, Bool.false_or, List.isEmpty_nil, Bool.and_true]
    -- Behind `n`, whatever it is, nothing stands in front of the section any more.
    have behind : dropLabel (front ++ [n]) ≠ [] := by
      cases front with
      | nil =>
        rw [List.isEmpty_nil, Bool.and_true] at first
        simp [dropLabel, first]
      | cons m ms =>
        rw [dropLabel] at only
        split at only
        · next label => simp [dropLabel, label, only]
        · cases only
    rw [List.map_cons, styleFirst, sparedText, Option.any_some, part, is, kind_labelSection,
      sparedText_of_behind style depth _ behind]
    show forestText (if n.is "title" then _ else _) = _
    cases titled : n.is "title" with
    | false => simp [forestText]
    | true =>
      rw [labelSection_of_kind titled rfl]
      rw [Bool.and_true]
      show forestText (if (kind == "ack" && isThanksTitle n) = true then _ else _) = _
      cases kind == "ack" && isThanksTitle n with
      | true => exact String.empty_append.symm
      | false => rw [if_neg Bool.false_ne_true, forestText, toText_styledTitle]; rfl

/-- A section that is labelled goes without what it has in front, and so do the sections in it. -/
theorem toText_labelSection {n : Node} (sec : isSection n = true) :
    (labelSection style depth n).toText =
      n.value.getD "" ++ sparedText style (depth + 1) (some n.kind) [] n.kids := by
  have isKind : isSectionKind n.kind = true := sec
  rw [labelSection_eq, if_pos isKind, toText_eq]
  show n.value.getD "" ++ forestText (styleFirst n.kind style _ depth
    (dropLabel (n.kids.map (labelSection style (depth + 1))))) = _
  rw [dropLabel_map_labelSection]
  refine congrArg (n.value.getD "" ++ ·) ?_
  cases n.kids with
  | nil => rfl
  | cons c cs =>
    rw [dropLabel]
    cases label : c.is "label" with
    | true =>
      have only : dropLabel [c] = [] := by rw [dropLabel, if_pos label]
      rw [if_pos rfl, forestText_styleFirst style (depth + 1) n.kind _ _ cs only (by simp),
        sparedText, Option.any_some, isFrontPart, label]
      simp
    | false =>
      rw [if_neg Bool.false_ne_true]
      exact forestText_styleFirst style (depth + 1) n.kind _ _ (c :: cs) rfl (by simp [label])

end

/-! ### Sections in order -/

/-- Whether sections in a seat are flattened with their titles. -/
def Open (around : List Seat) : Prop :=
  ∀ seat ∈ around, isSection seat.node = true ∨ isAppGroup seat.node = true

theorem isFrontPart_of_nesting {n : Node} (nests : isSection n = true ∨ isAppGroup n = true)
    (kind : String) (front : List Node) : isFrontPart kind front n = false := by
  have other : n.is "label" = false ∧ n.is "title" = false := by
    simp only [isSection, isSectionKind, isAppGroup, is, Bool.or_eq_true, beq_iff_eq] at nests
    rcases nests with ((kind | kind) | kind) | kind <;> simp [is, kind]
  simp [isFrontPart, other]

theorem isTakenOut_cons_of_open {around : List Seat} (opens : Open around) (seat : Seat) :
    isTakenOut (seat :: around) =
      (owner? around).any fun sec => isFrontPart sec.kind (ahead seat.before around) seat.node := by
  have all : around.all (fun outer => isSection outer.node || isAppGroup outer.node) = true :=
    List.all_eq_true.2 fun outer mem => Bool.or_eq_true_iff.2 (opens outer mem)
  rw [isTakenOut, all, Bool.true_and]

theorem isLost_of_open {around : List Seat} (opens : Open around) : isLost around = false := by
  induction around with
  | nil => rfl
  | cons seat around ih =>
    obtain ⟨first, rest⟩ := List.forall_mem_cons.1 opens
    rw [isLost, ih rest, isTakenOut_cons_of_open rest]
    cases owner? around with
    | none => rfl
    | some sec => rw [Option.any_some, isFrontPart_of_nesting first]; rfl

theorem ahead_concat (before : List Node) (n : Node) (around : List Seat) :
    ahead (before ++ [n]) around = ahead before around ++ liftNode isAppGroup n := by
  have lifted : liftFrom isAppGroup (before ++ [n]) =
      liftFrom isAppGroup before ++ liftNode isAppGroup n := by
    simp [liftFrom_eq_flatMap]
  cases around with
  | nil => rw [ahead, ahead, lifted]
  | cons outer around => rw [ahead, ahead, lifted, List.append_assoc]

theorem lastingText_eq_of {style : TitleStyle} {depth : Nat} {around : List Seat} {ns : List Node}
    (each : ∀ n ∈ ns, ∀ before, lastingText around before [n] = sparedText style depth
      ((owner? around).map (·.kind)) (ahead before around) (liftNode isAppGroup n))
    (before : List Node) : lastingText around before ns = sparedText style depth
      ((owner? around).map (·.kind)) (ahead before around) (liftFrom isAppGroup ns) := by
  induction ns generalizing before with
  | nil => rfl
  | cons n ns ih =>
    obtain ⟨first, rest⟩ := List.forall_mem_cons.1 each
    have split : lastingText around before (n :: ns) =
        lastingText around before [n] ++ lastingText around (before ++ [n]) ns := by
      rw [lastingText_cons, lastingText_cons around before n []]
      simp [lastingText, seatsIn, ownTexts]
    rw [split, first, ih rest, ahead_concat, liftFrom, sparedText_append]

theorem isFrontPart_congr {m n : Node} (kinds : m.kind = n.kind) (texts : m.toText = n.toText)
    (kind : String) (front : List Node) : isFrontPart kind front m = isFrontPart kind front n := by
  rw [isFrontPart, isFrontPart, is, is, is, is, isThanksTitle, isThanksTitle, kinds, texts]

section

variable {style : TitleStyle} {depth : Nat} {around : List Seat} {n : Node} {before : List Node}

theorem isLost_cons_of_open (opens : Open around) : isLost (⟨n, before⟩ :: around) =
    ((owner? around).map (·.kind)).any fun kind => isFrontPart kind (ahead before around) n := by
  rw [isLost, isLost_of_open opens, Bool.or_false, isTakenOut_cons_of_open opens, Option.any_map]

theorem lastingText_singleton : lastingText around before [n] =
    (if isLost (⟨n, before⟩ :: around) then "" else n.value.getD "") ++
      lastingText (⟨n, before⟩ :: around) [] n.kids := by
  have nothing : lastingText around (before ++ [n]) [] = "" := rfl
  rw [lastingText_cons, nothing, String.append_empty]

theorem lastingText_group (group : isAppGroup n = true) (bare : n.value = none)
    (below : lastingText (⟨n, before⟩ :: around) [] n.kids = sparedText style depth
      ((owner? (⟨n, before⟩ :: around)).map (·.kind)) (ahead [] (⟨n, before⟩ :: around))
      (liftFrom isAppGroup n.kids)) :
    lastingText around before [n] = sparedText style depth
      ((owner? around).map (·.kind)) (ahead before around) (liftNode isAppGroup n) := by
  have owner : owner? (⟨n, before⟩ :: around) = owner? around := by simp [owner?, group]
  have front : ahead [] (⟨n, before⟩ :: around) = ahead before around := by
    rw [ahead, if_pos group, liftFrom, List.append_nil]
  rw [lastingText_singleton, liftNode_eq, if_pos group, below, owner, front, bare, Option.getD_none,
    ite_self, String.empty_append]

theorem sparedText_liftNode (group : isAppGroup n = false)
    (groups : ∀ c ∈ n.kids, Everywhere (Bare isAppGroup) c) (kind : Option String)
    (front : List Node) : sparedText style depth kind front (liftNode isAppGroup n) =
      if kind.any fun kind => isFrontPart kind front n then ""
      else (labelSection style depth (n.mapChildren (liftFrom isAppGroup))).toText := by
  have same : (n.mapChildren (liftFrom isAppGroup)).toText = n.toText :=
    toText_mapChildren_liftFrom groups
  rw [liftNode_eq, group, if_neg Bool.false_ne_true, sparedText, sparedText, String.append_empty]
  simp only [isFrontPart_congr (kind_mapChildren _ n) same]

theorem lastingText_section (opens : Open around) (sec : isSection n = true)
    (group : isAppGroup n = false) (groups : ∀ c ∈ n.kids, Everywhere (Bare isAppGroup) c)
    (below : lastingText (⟨n, before⟩ :: around) [] n.kids = sparedText style (depth + 1)
      ((owner? (⟨n, before⟩ :: around)).map (·.kind)) (ahead [] (⟨n, before⟩ :: around))
      (liftFrom isAppGroup n.kids)) :
    lastingText around before [n] = sparedText style depth
      ((owner? around).map (·.kind)) (ahead before around) (liftNode isAppGroup n) := by
  have owner : owner? (⟨n, before⟩ :: around) = some n := by simp [owner?, group]
  have front : ahead [] (⟨n, before⟩ :: around) = [] := by
    rw [ahead, group, if_neg Bool.false_ne_true]
    rfl
  have stays : (((owner? around).map (·.kind)).any fun kind =>
      isFrontPart kind (ahead before around) n) = false := by
    simp only [isFrontPart_of_nesting (.inl sec)]
    cases owner? around <;> rfl
  rw [lastingText_singleton, isLost_cons_of_open opens, sparedText_liftNode group groups, stays,
    if_neg Bool.false_ne_true, if_neg Bool.false_ne_true, below, owner, front, toText_labelSection]
  · rw [kids_mapChildren rfl]
    rfl
  · exact sec

/-- What is taken out is lost with all that is below it, and nothing else below is lost. -/
theorem lastingText_of_neither (opens : Open around) (sec : isSection n = false)
    (group : isAppGroup n = false) (groups : ∀ c ∈ n.kids, Everywhere (Bare isAppGroup) c) :
    lastingText around before [n] = sparedText style depth
      ((owner? around).map (·.kind)) (ahead before around) (liftNode isAppGroup n) := by
  rw [lastingText_singleton, sparedText_liftNode group groups, ← isLost_cons_of_open opens]
  cases lost : isLost (⟨n, before⟩ :: around) with
  | true =>
    rw [if_pos rfl, if_pos rfl, lastingText_of_isLost lost]
    rfl
  | false =>
    have same : (n.mapChildren (liftFrom isAppGroup)).toText = n.toText :=
      toText_mapChildren_liftFrom groups
    rw [if_neg Bool.false_ne_true, if_neg Bool.false_ne_true,
      lastingText_of_other List.mem_cons_self ⟨sec, group⟩ lost, labelSection_of_other, same, toText_eq]
    exact sec

end

/-- What lasts of a forest in an open seat is what labelling leaves of it. -/
theorem lastingText_eq (style : TitleStyle) (depth : Nat) {around : List Seat} (opens : Open around)
    {ns : List Node} (groups : ∀ n ∈ ns, Everywhere (Bare isAppGroup) n)
    (sections : ∀ n ∈ ns, Everywhere (Bare isSection) n) (before : List Node) :
    lastingText around before ns = sparedText style depth
      ((owner? around).map (·.kind)) (ahead before around) (liftFrom isAppGroup ns) := by
  refine lastingText_eq_of (fun n mem before => ?_) before
  replace groups := groups n mem
  replace sections := sections n mem
  clear mem
  induction n using induction_on_kids generalizing around before depth with
  | node n ih =>
    have below (depth : Nat) (nests : isSection n = true ∨ isAppGroup n = true) :=
      have inner : Open (⟨n, before⟩ :: around) := List.forall_mem_cons.2 ⟨nests, opens⟩
      lastingText_eq_of (fun c child before =>
        ih c child depth inner before (groups.below c child) (sections.below c child)) []
    cases group : isAppGroup n with
    | true => exact lastingText_group group (groups.here group) (below depth (.inr group))
    | false =>
      cases sec : isSection n with
      | true =>
        exact lastingText_section opens sec group groups.below (below (depth + 1) (.inl sec))
      | false => exact lastingText_of_neither opens sec group groups.below

/-- The text of a flattened tree, in which what gives way had no text of its own, is the text of the
tree without that of the labels in front of sections and of the usual titles of acknowledgments,
where sections stand in sections and groups only. -/
theorem toText_flattenSections (style : TitleStyle) {tree : Node}
    (bare : ∀ n ∈ tree.descendants, n.kind ∈ nestingKinds → n.value = none) :
    tree.toText = tree.value.getD "" ++ ownTexts (seatsIn [] [] tree.kids) ∧
    (flattenSections style tree).toText =
      tree.value.getD "" ++ ownTexts ((seatsIn [] [] tree.kids).filter (!isLost ·)) := by
  have all : ∀ n ∈ tree.kids, Everywhere (fun m => m.kind ∈ nestingKinds → m.value = none) n :=
    forall_mem_descendants_iff.1 bare
  have groups : ∀ n ∈ tree.kids, Everywhere (Bare isAppGroup) n := fun n child =>
    (all n child).imp fun m none isOne => none (by rw [beq_iff_eq.1 isOne]; decide)
  have sections : ∀ n ∈ tree.kids, Everywhere (Bare isSection) n := fun n child =>
    (all n child).imp fun m none isOne => none (Classical.byContradiction fun other =>
      absurd (isOne.symm.trans (not_mem_nestingKinds_iff.1 other).1) (by decide))
  refine ⟨by rw [ownTexts_seatsIn, ← toText_eq], ?_⟩
  have lasts := lastingText_eq style 1 (List.forall_mem_nil _) groups sections []
  rw [toText_flattenSections_eq style sections, ← sparedText_none style 1 []]
  exact congrArg (tree.value.getD "" ++ ·) lasts.symm

/-- Labels and titles in front of sections, in a group, behind each other and in a paragraph. -/
def abridged : Node :=
  .branch "body" [
    .branch "sec" [.branch "app-group" [.branch "label" [.text "1"]], .branch "label" [.text "2"],
      .branch "p" [.text "x", .branch "sec" [.branch "label" [.text "3"]]]],
    .branch "ack" [.branch "label" [.text "4"], .branch "title" [.text "ACKS"],
      .branch "title" [.text "ack"], .branch "sec" [.branch "title" [.text "acknowledged"]]]]

theorem toText_flattenSections_abridged :
    abridged.toText = "12x34ACKSackacknowledged" ∧
      (flattenSections .strong abridged).toText = "2x3ackacknowledged" :=
  ⟨by decide, (toText_flattenSections .strong (by decide)).2.trans (by decide)⟩

end Manuscript.Body
