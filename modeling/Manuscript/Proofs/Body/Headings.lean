import Manuscript.Proofs.Body.Sections

/-!
The headings that flattening the sections of a tree makes: the titles of the sections that stand in
sections only, in document order, with their depths.
-/

set_option autoImplicit false

namespace Manuscript.Node

mutual
/-- The nodes below a node, in document order, each with those around it, the nearest first. -/
def placedBelow (around : List Node) : Node → List (Node × List Node)
  | ⟨_, none, _, _⟩ => []
  | ⟨k, some cs, v, a⟩ => placedIn (⟨k, some cs, v, a⟩ :: around) cs

def placedIn (around : List Node) : List Node → List (Node × List Node)
  | [] => []
  | n :: ns => (n, around) :: (placedBelow around n ++ placedIn around ns)
end

theorem placedBelow_eq (around : List Node) (n : Node) :
    placedBelow around n = placedIn (n :: around) n.kids := by
  obtain ⟨k, children, v, a⟩ := n
  cases children <;> simp [placedBelow, placedIn, kids]

theorem placedIn_cons (around : List Node) (n : Node) (ns : List Node) : placedIn around (n :: ns) =
    (n, around) :: (placedIn (n :: around) n.kids ++ placedIn around ns) := by
  rw [placedIn, placedBelow_eq]

mutual
theorem suffix_of_mem_placedBelow : {n : Node} → {around : List Node} → {place : Node × List Node} →
    place ∈ placedBelow around n → n :: around <:+ place.2
  | ⟨_, none, _, _⟩, _, _, mem => by simp [placedBelow] at mem
  | ⟨_, some _, _, _⟩, _, _, mem => suffix_of_mem_placedIn mem

theorem suffix_of_mem_placedIn : {ns around : List Node} → {place : Node × List Node} →
    place ∈ placedIn around ns → around <:+ place.2
  | [], _, _, mem => by simp [placedIn] at mem
  | n :: ns, around, place, mem => by
    rw [placedIn, List.mem_cons, List.mem_append] at mem
    rcases mem with rfl | below | mem
    · exact List.suffix_rfl
    · exact (List.suffix_cons n around).trans (suffix_of_mem_placedBelow below)
    · exact suffix_of_mem_placedIn mem
end

mutual
theorem map_fst_placedBelow : (around : List Node) → (n : Node) →
    (placedBelow around n).map Prod.fst = n.descendants
  | _, ⟨_, none, _, _⟩ => rfl
  | around, ⟨k, some cs, v, a⟩ => map_fst_placedIn (⟨k, some cs, v, a⟩ :: around) cs

theorem map_fst_placedIn : (around ns : List Node) →
    (placedIn around ns).map Prod.fst = forestNodes ns
  | _, [] => rfl
  | around, n :: ns => by
    rw [placedIn, List.map_cons, List.map_append, map_fst_placedBelow around n,
      map_fst_placedIn around ns, forestNodes]
end

end Manuscript.Node

namespace Manuscript.Body

open Manuscript.Node

/-! ### Titles -/

/-- The title in front of a section, behind a label at most, where groups give way to what they
hold. The usual title of acknowledgments does not count. -/
def ownTitle? (n : Node) : Option Node :=
  (dropLabel (liftFrom isAppGroup n.kids)).head?.filter fun c =>
    c.is "title" && !(n.is "ack" && isThanksTitle c)

/-- A section with its title, and the nodes around it below the root. -/
structure Titled where
  owner : Node
  around : List Node
  title : Node

namespace Titled

/-- A section that stands in sections and groups only and has a title. -/
def ofPlaced? (place : Node × List Node) : Option Titled :=
  if isSection place.1 && place.2.all (fun m => isSection m || isAppGroup m) then
    (ownTitle? place.1).map fun title => ⟨place.1, place.2, title⟩
  else none

/-- Groups do not count for the depth. -/
def depth (t : Titled) : Nat := 1 + t.around.countP isSection

/-- The heading of a section. Sections inside a title give way as they do everywhere. -/
def heading (t : Titled) : Node :=
  { t.title with
    kind := "heading"
    children := t.title.children.map (liftFrom isSection)
    attrs := (t.title.attrs.insert? "id" ((t.owner.attrText? "id").map Json.string)).insert "depth"
      (.number t.depth) }

end Titled

/-- The sections of a tree that get a heading, in document order. -/
def titledSections (tree : Node) : List Titled :=
  (placedIn [] tree.kids).filterMap Titled.ofPlaced?

/-! ### Headings of forests -/

def headingsIn (ns : List Node) : List Node := (forestNodes ns).filter (·.is "heading")

theorem findKinds_heading (n : Node) : n.findKinds "heading" = headingsIn n.kids := by
  rw [findKinds, findAll, descendants_eq]
  rfl

theorem headingsIn_append (ns ms : List Node) :
    headingsIn (ns ++ ms) = headingsIn ns ++ headingsIn ms := by
  rw [headingsIn, forestNodes_append, List.filter_append]
  rfl

theorem headingsIn_cons (n : Node) (ns : List Node) :
    headingsIn (n :: ns) = headingsIn [n] ++ headingsIn ns :=
  headingsIn_append [n] ns

theorem headingsIn_singleton (n : Node) :
    headingsIn [n] = (if n.is "heading" then [n] else []) ++ headingsIn n.kids := by
  rw [headingsIn, forestNodes_singleton, List.filter_cons]
  split <;> rfl

theorem headingsIn_of_other {n : Node} (other : n.is "heading" = false) :
    headingsIn [n] = headingsIn n.kids := by
  rw [headingsIn_singleton, other]
  rfl

theorem headingsIn_eq_nil {ns : List Node} (none : ∀ n ∈ ns, OfKinds (· ≠ "heading") n) :
    headingsIn ns = [] := by
  refine List.filter_eq_nil_iff.2 fun m mem isOne => ?_
  obtain ⟨n, place, mem⟩ := mem_forestNodes_iff.1 mem
  exact none n place m mem (beq_iff_eq.1 isOne)

theorem not_heading_of_isSection {n : Node} (sec : isSection n = true) :
    n.is "heading" = false := by
  rw [← Bool.not_eq_true]
  intro same
  rw [isSection, beq_iff_eq.1 same] at sec
  exact absurd sec (by decide)

theorem not_isAppGroup_of_isSection {n : Node} (sec : isSection n = true) :
    isAppGroup n = false := by
  rw [← Bool.not_eq_true]
  intro same
  rw [isSection, beq_iff_eq.1 same] at sec
  exact absurd sec (by decide)

/-! ### Steps that make no headings -/

theorem headingsIn_nestLoose (loose ns : List Node) :
    headingsIn (nestLoose loose ns) = headingsIn (loose ++ ns) := by
  have gathered (loose : List Node) :
      headingsIn (if loose.isEmpty then [] else [branch "block" loose]) = headingsIn loose := by
    cases loose with
    | nil => rfl
    | cons n ns => exact headingsIn_of_other rfl
  induction ns generalizing loose with
  | nil => rw [nestLoose, gathered, List.append_nil]
  | cons n ns ih =>
    rw [nestLoose]
    split
    · rw [headingsIn_append, gathered, headingsIn_cons, ih, List.nil_append, headingsIn_append,
        headingsIn_cons n ns]
    · rw [ih, List.append_assoc, List.singleton_append]

theorem headingsIn_nestBlocks (tree : Node) :
    headingsIn (nestBlocks tree).kids = headingsIn tree.kids := by
  unfold nestBlocks
  split
  · exact headingsIn_nestLoose [] tree.kids
  · exact headingsIn_of_other rfl

theorem headingsIn_liftFrom (ns : List Node) : headingsIn (liftFrom isSection ns) =
    (headingsIn ns).map (mapChildren (liftFrom isSection)) := by
  rw [headingsIn, forestNodes_liftFrom, remaining, List.filter_map, List.filter_filter]
  refine congrArg _ (List.filter_congr fun n _ => ?_)
  show (n.is "heading" && !isSection n) = n.is "heading"
  cases heading : n.is "heading" with
  | false => rfl
  | true => rw [isSection, beq_iff_eq.1 heading]; rfl

theorem headingsIn_sectionAsBlock (ns : List Node) :
    headingsIn (ns.map sectionAsBlock) = headingsIn ns := by
  induction ns with
  | nil => rfl
  | cons n ns ih =>
    rw [List.map_cons, headingsIn_cons, ih, headingsIn_cons n ns, sectionAsBlock]
    split
    · next sec =>
      rw [headingsIn_of_other (not_heading_of_isSection sec)]
      exact congrArg (· ++ headingsIn ns) (headingsIn_of_other rfl)
    · rfl

/-! ### Labelling -/

theorem kind_labelSection (style : TitleStyle) (depth : Nat) (n : Node) :
    (labelSection style depth n).kind = n.kind := by
  rw [labelSection_eq]
  split <;> rfl

theorem labelSection_of_other {style : TitleStyle} {depth : Nat} {n : Node}
    (other : isSectionKind n.kind = false) : labelSection style depth n = n := by
  rw [labelSection_eq, other, if_neg Bool.false_ne_true]

theorem labelSection_of_kind {style : TitleStyle} {depth : Nat} {n : Node} {kind : String}
    (is : n.is kind = true) (other : isSectionKind kind = false) :
    labelSection style depth n = n :=
  labelSection_of_other (by rw [beq_iff_eq.1 is, other])

section
variable {depth : Nat} {cs : List Node}

theorem dropLabel_map_labelSection (style : TitleStyle) (depth : Nat) (cs : List Node) :
    dropLabel (cs.map (labelSection style depth)) =
      (dropLabel cs).map (labelSection style depth) := by
  cases cs with
  | nil => rfl
  | cons c cs =>
    rw [List.map_cons, dropLabel, dropLabel, is, kind_labelSection]
    show (if c.is "label" then _ else _) = _
    split <;> rfl

theorem headingsIn_dropLabel (none : ∀ c ∈ cs, OfKinds (· ≠ "heading") c) :
    headingsIn ((dropLabel cs).map (labelSection .heading depth)) =
      headingsIn (cs.map (labelSection .heading depth)) := by
  cases cs with
  | nil => rfl
  | cons c cs =>
    rw [dropLabel]
    split
    · next label =>
      obtain ⟨first, -⟩ := List.forall_mem_cons.1 none
      rw [List.map_cons, headingsIn_cons, labelSection_of_kind label rfl,
        headingsIn_eq_nil (List.forall_mem_singleton.2 first), List.nil_append]
    · rfl

theorem headingsIn_styleFirst (kind : String) (id : Option String) (here : Nat)
    (none : ∀ c ∈ cs, OfKinds (· ≠ "heading") c) :
    headingsIn (styleFirst kind .heading id here (cs.map (labelSection .heading depth))) =
      ((cs.head?.filter fun c => c.is "title" && !(kind == "ack" && isThanksTitle c)).map
          (styledTitle .heading id here)).toList ++
        headingsIn (cs.map (labelSection .heading depth)) := by
  cases cs with
  | nil => rfl
  | cons c cs =>
    obtain ⟨first, -⟩ := List.forall_mem_cons.1 none
    rw [List.map_cons, styleFirst, is, kind_labelSection]
    show headingsIn (if c.is "title" then _ else _) = _
    cases titled : c.is "title" with
    | false => simp [titled]
    | true =>
      have empty : headingsIn [c] = [] := headingsIn_eq_nil (List.forall_mem_singleton.2 first)
      have inside : headingsIn c.kids = [] := headingsIn_eq_nil first.below
      rw [if_pos rfl, labelSection_of_kind titled rfl, headingsIn_cons c, empty, List.head?_cons,
        Option.filter_some, titled]
      show headingsIn (if (kind == "ack" && isThanksTitle c) = true then _ else _) = _
      cases kind == "ack" && isThanksTitle c with
      | true => rfl
      | false =>
        have shown : headingsIn [styledTitle .heading id here c] =
            [styledTitle .heading id here c] := by
          rw [headingsIn_singleton]
          exact congrArg (_ :: ·) inside
        rw [if_neg Bool.false_ne_true, headingsIn_cons, shown]
        rfl

/-- The headings that a section gets, where it has none yet: its own, and then those of the sections
directly in it. -/
theorem headingsIn_labelSection {n : Node} (sec : isSection n = true)
    (none : ∀ c ∈ liftFrom isAppGroup n.kids, OfKinds (· ≠ "heading") c) :
    headingsIn [labelSection .heading depth (n.mapChildren (liftFrom isAppGroup))] =
      ((ownTitle? n).map (styledTitle .heading (n.attrText? "id") depth)).toList ++
        headingsIn ((liftFrom isAppGroup n.kids).map (labelSection .heading (depth + 1))) := by
  have dropped : ∀ c ∈ dropLabel (liftFrom isAppGroup n.kids), OfKinds (· ≠ "heading") c :=
    everywhere_dropLabel none
  have own : isSectionKind (n.mapChildren (liftFrom isAppGroup)).kind = true := sec
  rw [labelSection_eq, if_pos own]
  refine (headingsIn_of_other ?_).trans ?_
  · exact not_heading_of_isSection sec
  show headingsIn (styleFirst n.kind .heading (n.attrText? "id") depth (dropLabel
    ((n.mapChildren (liftFrom isAppGroup)).kids.map (labelSection .heading (depth + 1))))) = _
  rw [kids_mapChildren rfl, dropLabel_map_labelSection, headingsIn_styleFirst _ _ _ dropped,
    headingsIn_dropLabel none]
  rfl

end

/-! ### Sections in order -/

/-- Whether sections below a place are seen. -/
def Reached (around : List Node) : Prop := ∀ m ∈ around, isSection m = true ∨ isAppGroup m = true

theorem ofPlaced?_of_reached {n : Node} {around : List Node} (reached : Reached around)
    (sec : isSection n = true) :
    Titled.ofPlaced? (n, around) = (ownTitle? n).map fun title => ⟨n, around, title⟩ := by
  have all : around.all (fun m => isSection m || isAppGroup m) = true :=
    List.all_eq_true.2 fun m mem => Bool.or_eq_true_iff.2 (reached m mem)
  rw [Titled.ofPlaced?, if_pos (Bool.and_eq_true_iff.2 ⟨sec, all⟩)]

theorem ofPlaced?_of_other {n : Node} {around : List Node} (other : isSection n = false) :
    Titled.ofPlaced? (n, around) = none := by
  rw [Titled.ofPlaced?, other]
  rfl

/-- Nothing is seen below a node that is neither a section nor a group. -/
theorem filterMap_placedIn_of_hidden {around : List Node} {m : Node} (mem : m ∈ around)
    (other : isSection m = false ∧ isAppGroup m = false) (ns : List Node) :
    (placedIn around ns).filterMap Titled.ofPlaced? = [] := by
  refine List.filterMap_eq_nil_iff.2 fun place inside => ?_
  have around : m ∈ place.2 := (suffix_of_mem_placedIn inside).mem mem
  have some : place.2.all (fun m => isSection m || isAppGroup m) = false :=
    List.all_eq_false.2 ⟨m, around, by simp [other]⟩
  rw [Titled.ofPlaced?, some, Bool.and_false]
  rfl

/-- A title as it is shown before the sections inside it give way. -/
def Titled.shown (t : Titled) : Node :=
  styledTitle .heading (t.owner.attrText? "id") t.depth t.title

theorem headingsIn_labelled_of {around ns : List Node}
    (each : ∀ n ∈ ns, headingsIn ((liftNode isAppGroup n).map
      (labelSection .heading (1 + around.countP isSection))) =
        ((placedIn around [n]).filterMap Titled.ofPlaced?).map Titled.shown) :
    headingsIn ((liftFrom isAppGroup ns).map
      (labelSection .heading (1 + around.countP isSection))) =
        ((placedIn around ns).filterMap Titled.ofPlaced?).map Titled.shown := by
  induction ns with
  | nil => rfl
  | cons n ns ih =>
    obtain ⟨first, rest⟩ := List.forall_mem_cons.1 each
    have split : placedIn around (n :: ns) = placedIn around [n] ++ placedIn around ns := by
      rw [placedIn, placedIn, placedIn, List.append_nil]
      rfl
    rw [liftFrom, List.map_append, headingsIn_append, first, ih rest, split, List.filterMap_append,
      List.map_append]

/-- In a place that is seen, the headings of a forest are the titles of its sections. -/
theorem headingsIn_labelled {around ns : List Node} (reached : Reached around)
    (none : ∀ n ∈ ns, OfKinds (· ≠ "heading") n) :
    headingsIn ((liftFrom isAppGroup ns).map
      (labelSection .heading (1 + around.countP isSection))) =
        ((placedIn around ns).filterMap Titled.ofPlaced?).map Titled.shown := by
  refine headingsIn_labelled_of fun n mem => ?_
  replace none := none n mem
  clear mem
  induction n using induction_on_kids generalizing around with
  | node n ih =>
    have below (reached : Reached (n :: around)) := headingsIn_labelled_of
      fun c child => ih c child reached (none.below c child)
    rw [placedIn_cons, placedIn, List.append_nil, liftNode_eq]
    cases sec : isSection n with
    | true =>
      have other : isAppGroup n = false := not_isAppGroup_of_isSection sec
      have left : ∀ c ∈ liftFrom isAppGroup n.kids, OfKinds (· ≠ "heading") c :=
        ofKinds_liftFrom isAppGroup none.below
      have inner : Reached (n :: around) := List.forall_mem_cons.2 ⟨.inl sec, reached⟩
      have deeper : 1 + around.countP isSection + 1 = 1 + (n :: around).countP isSection := by
        rw [List.countP_cons_of_pos sec]
        rfl
      rw [other, if_neg Bool.false_ne_true, List.map_singleton, headingsIn_labelSection sec left,
        deeper, below inner, List.filterMap_cons, ofPlaced?_of_reached reached sec]
      cases ownTitle? n <;> rfl
    | false =>
      rw [List.filterMap_cons, ofPlaced?_of_other sec]
      cases group : isAppGroup n with
      | true =>
        have inner : Reached (n :: around) := List.forall_mem_cons.2 ⟨.inr group, reached⟩
        have same : around.countP isSection = (n :: around).countP isSection := by
          rw [List.countP_cons_of_neg (by simp [sec])]
        rw [if_pos rfl, same]
        exact below inner
      | false =>
        -- Neither the node is a section, nor is any below it seen.
        rw [if_neg Bool.false_ne_true, List.map_singleton, labelSection_of_other]
        · rw [filterMap_placedIn_of_hidden List.mem_cons_self ⟨sec, group⟩]
          apply headingsIn_eq_nil
          rw [List.forall_mem_singleton, ofKinds_iff, kids_mapChildren rfl]
          exact ⟨none.here, ofKinds_liftFrom isAppGroup none.below⟩
        · exact sec

/-- The headings of the flattened tree, if it had none before, are the titles of the sections that
stand in sections and groups only. Each tells how many sections are around its own, and has the
identifier of the section. -/
theorem headings_flattenSections {tree : Node}
    (none : ∀ n ∈ tree.descendants, n.kind ≠ "heading") :
    (flattenSections .heading tree).findKinds "heading" =
        (titledSections tree).map Titled.heading ∧
      ∀ t ∈ titledSections tree,
        t.heading.attr? "depth" = some (.number (1 + t.around.countP isSection)) ∧
        ∀ id, t.owner.attrText? "id" = some id → t.heading.attrText? "id" = some id := by
  constructor
  · have bare : ∀ n ∈ tree.kids, OfKinds (· ≠ "heading") n := forall_mem_descendants_iff.1 none
    have labelled := headingsIn_labelled (List.forall_mem_nil _) bare
    rw [List.countP_nil] at labelled
    rw [findKinds_heading, flattenSections_eq_nestBlocks, headingsIn_nestBlocks, kids_withKids,
      flatForest, headingsIn_liftFrom, ← List.map_map, headingsIn_sectionAsBlock, labelled,
      List.map_map]
    rfl
  · intro t _
    constructor
    · simp [Titled.heading, Titled.depth, attr?, Dict.find?_insert]
    · intro id own
      have attrs : t.heading.attrs =
          (t.title.attrs.insert "id" (.string id)).insert "depth" (.number t.depth) := by
        rw [Titled.heading, own]
        rfl
      rw [attrText?, attr?, attrs, Dict.find?_insert, if_neg (by decide), Dict.find?_insert,
        if_pos rfl]
      rfl

/-- Sections in a section and in a group, with acknowledgments that get no heading. -/
def outlined : Node :=
  .branch "body" [
    .branch "sec" [.branch "label" [.text "1"], .branch "title" [.text "Outer"],
      .branch "p" [.text "x"],
      .branch "sec" [.branch "title" [.text "Inner"]] (Dict.empty.insert "id" (.string "s2"))],
    .branch "ack" [.branch "title" [.text "Acknowledgements"], .branch "p" [.text "y"]],
    .branch "app-group" [.branch "app" [.branch "title" [.text "Tables"]]]]

theorem headings_flattenSections_outlined :
    (flattenSections .heading outlined).findKinds "heading" =
        (titledSections outlined).map Titled.heading ∧
      (titledSections outlined).map (fun t => (t.title.toText, t.depth)) =
        [("Outer", 1), ("Inner", 2), ("Tables", 1)] :=
  ⟨(headings_flattenSections (by decide)).1, by decide⟩

end Manuscript.Body
