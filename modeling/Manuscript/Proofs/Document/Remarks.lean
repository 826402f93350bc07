import Manuscript.Proofs.Document.Preparation
import Manuscript.Proofs.Emission.Remarks

/-!
The steps that bring an article into the form in which it is rendered are blind to remarks. Titles
and formatting are read as a whole, and what is taken apart has no remarks directly in it.
-/

set_option autoImplicit false

namespace Manuscript.Conversion

open Manuscript.Node Manuscript.Body

section
variable {n : Node} {ns : List Node}

/-! ### Tests -/

theorem is_withoutRemarks (n : Node) (kind : String) : n.withoutRemarks.is kind = n.is kind := by
  rw [is, is, kind_withoutRemarks]

theorem attrText?_withoutRemarks (n : Node) (name : String) :
    n.withoutRemarks.attrText? name = n.attrText? name := by
  rw [attrText?, attrText?, attr?, attr?, attrs_withoutRemarks]

theorem mem_of_is {kind : String} {kinds : List String} (isOne : n.is kind = true)
    (known : kind ∈ kinds) : n.kind ∈ kinds := by
  rw [beq_iff_eq.1 isOne]
  exact known

theorem notMem_of_is {kind : String} {kinds : List String} (isOne : n.is kind = true)
    (known : kind ∉ kinds) : n.kind ∉ kinds := by
  rw [beq_iff_eq.1 isOne]
  exact known

theorem isRemark_of_is {kind : String} (isOne : n.is kind = true) (other : kind ≠ "comment") :
    isRemark n = false := by
  apply isRemark_of_kind
  rw [beq_iff_eq.1 isOne]
  exact other

/-- A test for nodes that are read as a whole sees the same without remarks. -/
theorem sees_of_whole {p : Node → Bool} (kinds : ∀ n, p n = true → n.kind ∈ wholeKinds)
    (quiet : Everywhere Quiet n) : p n.withoutRemarks = p n := by
  by_cases known : n.kind ∈ wholeKinds
  · rw [quiet.here.whole known]
  · have absent (m : Node) (kind : m.kind = n.kind) : p m = false := by
      rw [← Bool.not_eq_true]
      exact fun isOne => known (kind ▸ kinds m isOne)
    rw [absent _ (kind_withoutRemarks n), absent n rfl]

/-! ### Sections -/

theorem blindList_dropLabel (plain : Plain ns) : BlindList dropLabel ns := by
  cases ns with
  | nil => exact ⟨plain, rfl⟩
  | cons c cs =>
    constructor
    · rw [dropLabel]
      split
      · exact (List.forall_mem_cons.1 plain).2
      · exact plain
    · rw [List.map_cons, dropLabel, dropLabel, is_withoutRemarks]
      split <;> rfl

theorem styledTitle_whole (style : TitleStyle) (id : Option String) (depth : Nat) {title : Node}
    (whole : title.withoutRemarks = title) :
    (styledTitle style id depth title).withoutRemarks = styledTitle style id depth title := by
  cases style with
  | heading =>
    have same : (styledTitle .heading id depth title).children = title.children := rfl
    exact withoutRemarks_of_children same whole
  | strong =>
    have inside : Whole title.kids := whole_kids whole
    have bold : Whole [branch "bold" title.kids] := List.forall_mem_singleton.2
      ⟨isRemark_of_kind (by simp [branch]), withoutRemarks_of_whole_kids inside⟩
    exact withoutRemarks_of_whole_kids bold

theorem isRemark_styledTitle (style : TitleStyle) (id : Option String) (depth : Nat)
    (title : Node) : isRemark (styledTitle style id depth title) = false := by
  cases style <;> exact isRemark_of_kind (by simp [styledTitle])

theorem blindList_styleFirst (kind : String) (style : TitleStyle) (id : Option String)
    (depth : Nat) (plain : Plain ns) : BlindList (styleFirst kind style id depth) ns := by
  cases ns with
  | nil => exact ⟨plain, rfl⟩
  | cons c cs =>
    obtain ⟨first, rest⟩ := List.forall_mem_cons.1 plain
    cases title : c.is "title" with
    | false =>
      have stays (m : Node) (ms : List Node) (other : m.is "title" = false) :
          styleFirst kind style id depth (m :: ms) = m :: ms := by
        rw [styleFirst, other, if_neg Bool.false_ne_true]
      refine ⟨by rw [stays c cs title]; exact plain, ?_⟩
      rw [List.map_cons, stays _ _ ((is_withoutRemarks c "title").trans title), stays c cs title]
      rfl
    | true =>
      have whole := first.2.here.whole (mem_of_is title (by decide))
      have styled := styledTitle_whole style id depth whole
      constructor
      · rw [styleFirst, if_pos title]
        split
        · exact rest
        · exact List.forall_mem_cons.2
            ⟨⟨isRemark_styledTitle style id depth c, quiet_of_whole styled⟩, rest⟩
      · rw [List.map_cons, whole, styleFirst, styleFirst, if_pos title]
        split
        · rfl
        · rw [List.map_cons, styled]

theorem section_notMem (known : isSectionKind n.kind = true) :
    n.kind ∉ runningKinds ∧ n.kind ∉ wholeKinds ∧ n.kind ≠ "comment" := by
  simp only [isSectionKind, Bool.or_eq_true, beq_iff_eq] at known
  rcases known with (same | same) | same <;> rw [same] <;> decide

theorem isRemark_labelSection (style : TitleStyle) (depth : Nat) (n : Node) :
    isRemark (labelSection style depth n) = isRemark n := by
  rw [labelSection_eq]
  split
  · next known =>
    have other := (section_notMem known).2.2
    rw [isRemark_of_kind other]
    exact isRemark_of_kind other
  · rfl

theorem blind_labelSection (style : TitleStyle) (depth : Nat) (quiet : Everywhere Quiet n) :
    Blind (labelSection style depth) n := by
  induction n using induction_on_kids generalizing depth with
  | node n ih =>
    cases known : isSectionKind n.kind with
    | false =>
      have no : ¬false = true := Bool.false_ne_true
      constructor
      · rw [labelSection_eq, known, if_neg no]
        exact quiet
      · rw [labelSection_eq, labelSection_eq, kind_withoutRemarks, known, if_neg no, if_neg no]
    | true =>
      have outside := (section_notMem known).1
      -- No remark is directly in a section, so that the label or title in front stays in front.
      have inner : BlindList (List.map (labelSection style (depth + 1))) n.kids :=
        .map (plain_kids quiet outside) (fun c _ => isRemark_labelSection style _ c)
          fun c child => ih c child (depth + 1) (quiet.below c child)
      have unlabelled := inner.trans (blindList_dropLabel inner.plain)
      have styled := unlabelled.trans (blindList_styleFirst n.kind style
        ((n.attrs.find? "id").bind Json.asString?) depth unlabelled.plain)
      have shown := styled.withKids quiet outside
      have part := shown.trans
        (blind_attrs (g := fun _ => n.attrs.insert? "part" (partOf? n.kind)) shown.quiet)
      constructor
      · rw [labelSection_eq, if_pos known]
        exact part.quiet
      · rw [labelSection_eq, labelSection_eq, kind_withoutRemarks, attrs_withoutRemarks,
          if_pos known, if_pos known]
        exact part.commutes

theorem blind_sectionAsBlock (quiet : Everywhere Quiet n) : Blind sectionAsBlock n := by
  refine blind_if quiet (by rw [isSection, isSection, kind_withoutRemarks]) fun known => ?_
  exact blind_kind quiet (fun _ => (section_notMem known).1) fun block => absurd block (by decide)

theorem isRemark_sectionAsBlock (n : Node) : isRemark (sectionAsBlock n) = isRemark n := by
  unfold sectionAsBlock
  split
  · next known =>
    rw [isRemark_of_kind (section_notMem known).2.2]
    exact isRemark_of_kind (by simp)
  · rfl

/-! ### Blocks -/

theorem block_withoutRemarks {loose : List Node} (plain : Plain loose) :
    (branch "block" loose).withoutRemarks = .branch "block" (loose.map withoutRemarks) := by
  rw [← plain.dropRemarks]
  exact withoutRemarks_eq _

theorem plain_block {loose : List Node} (plain : Plain loose) : Plain [branch "block" loose] := by
  have block : (branch "block" loose).kind = "block" := rfl
  refine List.forall_mem_singleton.2 ⟨isRemark_of_kind ?_, quiet_of_plain ?_ plain⟩
  all_goals rw [block]; decide

theorem blind_nestLoose {loose : List Node} (early : Plain loose) (plain : Plain ns) :
    Plain (nestLoose loose ns) ∧ nestLoose (loose.map withoutRemarks) (ns.map withoutRemarks) =
      (nestLoose loose ns).map withoutRemarks := by
  have gathered {loose : List Node} (early : Plain loose) :
      Plain (if loose.isEmpty then [] else [branch "block" loose]) ∧
        (if (loose.map withoutRemarks).isEmpty then [] else
          [branch "block" (loose.map withoutRemarks)]) =
            (if loose.isEmpty then [] else [branch "block" loose]).map withoutRemarks := by
    rw [List.isEmpty_map, ← block_withoutRemarks early]
    split
    · exact ⟨List.forall_mem_nil _, rfl⟩
    · exact ⟨plain_block early, rfl⟩
  induction ns generalizing loose with
  | nil => exact gathered early
  | cons n ns ih =>
    obtain ⟨first, rest⟩ := List.forall_mem_cons.1 plain
    rw [List.map_cons, nestLoose, nestLoose, is_withoutRemarks]
    split
    · obtain ⟨front, before⟩ := gathered early
      obtain ⟨back, behind⟩ := ih (List.forall_mem_nil _) rest
      refine ⟨List.forall_mem_append.2 ⟨front, List.forall_mem_cons.2 ⟨first, back⟩⟩, ?_⟩
      rw [before, List.map_append, List.map_cons, ← behind]
      rfl
    · -- What stands between blocks joins the loose nodes, with or without remarks below it.
      have joined := ih
        (List.forall_mem_append.2 ⟨early, List.forall_mem_singleton.2 first⟩) rest
      rw [List.map_append] at joined
      exact joined

theorem any_is_withoutRemarks (kind : String) (ns : List Node) :
    (ns.map withoutRemarks).any (·.is kind) = ns.any (·.is kind) := by
  rw [List.any_map]
  exact congrArg ns.any (funext fun n => is_withoutRemarks n kind)

theorem blindList_nested (plain : Plain ns) : BlindList nested ns := by
  obtain ⟨loose, same⟩ := blind_nestLoose (List.forall_mem_nil _) plain
  unfold nested
  constructor
  · split
    · exact loose
    · exact plain_block plain
  · rw [any_is_withoutRemarks]
    split
    · exact same
    · rw [← block_withoutRemarks plain]
      rfl

theorem nestBlocks_eq (n : Node) : nestBlocks n = n.withKids (nested n.kids) := by
  unfold nestBlocks nested
  split <;> rfl

theorem blind_flattenSections (style : TitleStyle) (quiet : Everywhere Quiet n)
    (outside : n.kind ∉ runningKinds) : Blind (flattenSections style) n := by
  have group : Overlooks (·.is "app-group") := overlooks_is (by decide)
  -- Each step leaves the kind of the root, in which no remark is directly.
  have groups := blind_liftWhere group (fun m isOne => notMem_of_is isOne (by decide)) quiet
  have labels : BlindList (fun cs => (labelSections style 1 cs).map sectionAsBlock)
      (n.liftWhere (·.is "app-group")).kids := by
    have labelled : BlindList (labelSections style 1) (n.liftWhere (·.is "app-group")).kids := by
      rw [funext (labelSections_eq_map style 1)]
      exact .map (plain_kids groups.quiet outside) (fun c _ => isRemark_labelSection style 1 c)
        fun c child => blind_labelSection style 1 (groups.quiet.below c child)
    exact labelled.trans (.map labelled.plain (fun c _ => isRemark_sectionAsBlock c)
      fun c mem => blind_sectionAsBlock (labelled.plain c mem).2)
  have blocks := groups.trans (labels.withKids groups.quiet outside)
  have overlooks : Overlooks isSection := by
    constructor
    · intro m
      rw [isSection, isSection, kind_withoutRemarks]
    · intro m remark
      rw [isSection, kind_of_isRemark remark]
      decide
  have lifted := blocks.trans
    (blind_liftWhere overlooks (fun m known => (section_notMem known).1) blocks.quiet)
  have nests := (blindList_nested (plain_kids lifted.quiet outside)).withKids lifted.quiet outside
  simp only [← nestBlocks_eq] at nests
  exact lifted.trans nests

/-! ### Markup -/

theorem blind_dropDataTitle (quiet : Everywhere Quiet n) : Blind dropDataTitle n := by
  refine blind_if quiet ?_ fun _ => blind_removeWhere (fun m => sees_of_whole ?_) quiet
  · rw [isDataAvailability, isDataAvailability, is_withoutRemarks, attrText?_withoutRemarks]
  · exact fun m isOne => mem_of_is (Bool.and_eq_true_iff.1 isOne).1 (by decide)

theorem isRemark_dropDataTitle (n : Node) : isRemark (dropDataTitle n) = isRemark n := by
  unfold dropDataTitle
  split
  · rw [removeWhere_eq, isRemark_mapChildren]
  · rfl

theorem isRemark_spaceBreaks (inTitle : Bool) (n : Node) :
    isRemark (spaceBreaks inTitle n) = isRemark n := by
  rw [spaceBreaks_eq]
  split
  · next broken =>
    have kind : n.is "break" = true := (Bool.and_eq_true_iff.1 broken).2
    rw [isRemark_of_is kind (by decide)]
    rfl
  · exact isRemark_mapChildren _ n

theorem blind_spaceBreaks (inTitle : Bool) (quiet : Everywhere Quiet n) :
    Blind (spaceBreaks inTitle) n := by
  induction n using induction_on_kids generalizing inTitle with
  | node n ih =>
    have inner := blind_mapChildren quiet.here
      (fun c _ => isRemark_spaceBreaks (inTitle || isTitleKind n.kind) c)
      fun c child => ih c child _ (quiet.below c child)
    cases broken : inTitle && n.kind == "break" with
    | true =>
      constructor
      · rw [spaceBreaks_eq, broken, if_pos rfl]
        exact quiet_of_whole rfl
      · rw [spaceBreaks_eq, spaceBreaks_eq, kind_withoutRemarks, broken, if_pos rfl, if_pos rfl]
        rfl
    | false =>
      have no : ¬false = true := Bool.false_ne_true
      constructor
      · rw [spaceBreaks_eq, broken, if_neg no]
        exact inner.quiet
      · rw [spaceBreaks_eq, spaceBreaks_eq, kind_withoutRemarks, broken, if_neg no, if_neg no]
        exact inner.commutes

theorem blind_typography (quiet : Everywhere Quiet n) : Blind typography n := by
  have formats : Blind (removeWhere isEmptyFormat) n := by
    refine blind_removeWhere (fun m => sees_of_whole fun m isOne => ?_) quiet
    have all : ∀ kind ∈ ["bold", "italic", "underline", "monospace", "sc", "sub", "sup", "strike"],
      kind ∈ wholeKinds := by decide
    exact all _ (List.contains_iff_mem.1
      (Bool.and_eq_true_iff.1 (Bool.and_eq_true_iff.1 isOne).1).1)
  exact formats.trans (blind_spaceBreaks false formats.quiet)

/-! ### Captions -/

theorem asAdmonitionTitle_whole {title : Node} (whole : title.withoutRemarks = title) :
    (asAdmonitionTitle title).withoutRemarks = asAdmonitionTitle title := by
  have same : (asAdmonitionTitle title).children = title.children := rfl
  exact withoutRemarks_of_children same whole

theorem isRemark_asAdmonitionTitle (title : Node) : isRemark (asAdmonitionTitle title) = false :=
  isRemark_of_kind (by simp [asAdmonitionTitle])

theorem blindList_entitle (plain : Plain ns) : BlindList entitle ns := by
  -- A title is read as a whole, so that it has no remarks before and none afterwards.
  have shown {c : Node} (first : isRemark c = false ∧ Everywhere Quiet c)
      (title : c.is "title" = true) :
      c.withoutRemarks = c ∧ (asAdmonitionTitle c).withoutRemarks = asAdmonitionTitle c :=
    have whole := first.2.here.whole (mem_of_is title (by decide))
    ⟨whole, asAdmonitionTitle_whole whole⟩
  cases ns with
  | nil => exact ⟨plain, rfl⟩
  | cons c cs =>
    obtain ⟨first, rest⟩ := List.forall_mem_cons.1 plain
    constructor
    case plain =>
      rw [entitle]
      split
      · next title =>
        exact List.forall_mem_cons.2 ⟨⟨isRemark_asAdmonitionTitle c,
          quiet_of_whole (shown first title).2⟩, rest⟩
      · split
        · next caption =>
          have inside := plain_kids first.2 (notMem_of_is caption (by decide))
          split
          · next d inner same =>
            rw [same] at inside
            obtain ⟨front, behind⟩ := List.forall_mem_cons.1 inside
            split
            · next title =>
              exact List.forall_mem_cons.2 ⟨⟨isRemark_asAdmonitionTitle d,
                quiet_of_whole (shown front title).2⟩, List.forall_mem_append.2 ⟨behind, rest⟩⟩
            · exact plain
          · exact plain
        · exact plain
    case commutes =>
      rw [List.map_cons, entitle, entitle, is_withoutRemarks, is_withoutRemarks]
      split
      · next title =>
        obtain ⟨whole, same⟩ := shown first title
        rw [whole, List.map_cons, same]
      · split
        · next caption =>
          have inside := plain_kids first.2 (notMem_of_is caption (by decide))
          rw [kids_withoutRemarks, inside.dropRemarks]
          cases same : c.kids with
          | nil => rfl
          | cons d inner =>
            rw [same] at inside
            simp only [List.map_cons, is_withoutRemarks]
            split
            · next title =>
              obtain ⟨whole, same⟩ := shown (List.forall_mem_cons.1 inside).1 title
              simp only [whole, same, List.cons_append, List.map_cons, List.map_append]
            · rfl
        · rfl

theorem blindList_entitleBox (plain : Plain ns) : BlindList entitleBox ns := by
  cases ns with
  | nil => exact ⟨plain, rfl⟩
  | cons c cs =>
    obtain ⟨first, rest⟩ := List.forall_mem_cons.1 plain
    have whole := blindList_entitle plain
    have behind := blindList_entitle rest
    constructor
    · rw [entitleBox]
      split
      · exact List.forall_mem_cons.2 ⟨first, behind.plain⟩
      · exact whole.plain
    · rw [List.map_cons, entitleBox, entitleBox, is_withoutRemarks]
      split
      · rw [behind.commutes, List.map_cons]
      · rw [← whole.commutes, List.map_cons]

theorem blind_entitleBoxes (quiet : Everywhere Quiet n) : Blind entitleBoxes n := by
  refine blind_mapUp (fun m => ?_) (fun m quiet => blind_if quiet (is_withoutRemarks m _) ?_) quiet
  · split
    · next isOne =>
      rw [isRemark_of_is isOne (by decide)]
      exact isRemark_of_is isOne (by decide)
    · rfl
  · intro isOne
    have outside : m.kind ∉ runningKinds := notMem_of_is isOne (by decide)
    exact (blindList_entitleBox (plain_kids quiet outside)).withKids quiet outside

/-- The title among plain nodes has no remarks, and is the same without them. -/
theorem find?_title (plain : Plain ns) : Whole (ns.find? (·.is "title")).toList ∧
    (dropRemarks ns).find? (·.is "title") = ns.find? (·.is "title") := by
  have same : ((·.is "title") ∘ withoutRemarks : Node → Bool) = (·.is "title") :=
    funext fun m => is_withoutRemarks m "title"
  rw [plain.dropRemarks, List.find?_map, same]
  cases found : ns.find? (·.is "title") with
  | none => exact ⟨List.forall_mem_nil _, rfl⟩
  | some title =>
    obtain ⟨single, quiet⟩ := plain title (List.mem_of_find?_eq_some found)
    have isOne := List.find?_some found
    have whole := quiet.here.whole (mem_of_is isOne (by decide))
    exact ⟨List.forall_mem_singleton.2 ⟨single, whole⟩, congrArg some whole⟩

/-- The title of a caption has no remarks, so that it can stand in front of them. -/
theorem blind_hoistTitle {cs : List Node} (quiet : ∀ c ∈ cs, Everywhere Quiet c) :
    NoLouder cs (hoistTitle cs) ∧ hoistTitle (dropRemarks cs) = dropRemarks (hoistTitle cs) := by
  -- Remarks may stand beside the caption, as a figure is running text; none is directly in it.
  have captions : Overlooks (·.is "caption") := overlooks_is (by decide)
  have titles : Overlooks (·.is "title") := overlooks_is (by decide)
  unfold hoistTitle
  rw [captions.dropWhile, captions.takeWhile]
  have split : cs = cs.takeWhile (!·.is "caption") ++ cs.dropWhile (!·.is "caption") :=
    List.takeWhile_append_dropWhile.symm
  have first := List.head?_dropWhile_not (fun c : Node => !c.is "caption") cs
  generalize cs.takeWhile (!·.is "caption") = before at split
  cases found : cs.dropWhile (!·.is "caption") with
  | nil => exact ⟨⟨quiet, fun none => none⟩, rfl⟩
  | cons caption after =>
    rw [found] at split first
    have isCaption : caption.is "caption" = true := by simpa using first
    subst split
    obtain ⟨front, rest⟩ := List.forall_mem_append.1 quiet
    obtain ⟨here, back⟩ := List.forall_mem_cons.1 rest
    have inside := plain_kids here (notMem_of_is isCaption (by decide))
    obtain ⟨title, shown⟩ := find?_title inside
    refine ⟨⟨?_, fun none => ?_⟩, ?_⟩
    · refine List.forall_mem_append.2 ⟨List.forall_mem_append.2
        ⟨fun t mem => quiet_of_whole (title t mem).2, front⟩, List.forall_mem_cons.2 ⟨?_, back⟩⟩
      have erased (c : Node) (mem : c ∈ caption.kids.eraseP (·.is "title")) :=
        inside c (List.mem_of_mem_eraseP mem)
      exact quiet_of_plain (notMem_of_is isCaption (by decide)) erased
    · obtain ⟨early, late⟩ := List.forall_mem_append.1 none
      exact List.forall_mem_append.2 ⟨List.forall_mem_append.2
        ⟨fun t mem => (title t mem).1, early⟩, List.forall_mem_cons.2
          ⟨isRemark_withKids _ _, (List.forall_mem_cons.1 late).2⟩⟩
    · rw [dropRemarks_cons_of_false (isRemark_of_is isCaption (by decide))]
      simp only
      rw [dropRemarks_append, dropRemarks_append, dropRemarks_cons_of_false (isRemark_withKids _ _),
        withoutRemarks_withKids, withKids_withoutRemarks, kids_withoutRemarks, titles.eraseP, shown,
        title.dropRemarks]

theorem blind_hoistTitles (quiet : Everywhere Quiet n) : Blind hoistTitles n := by
  refine blind_mapUp (fun m => ?_) (fun m quiet => blind_if quiet ?_ fun isOne => ?_) quiet
  · split
    · next isOne =>
      rw [isRemark_withKids, isRemark_of_kind]
      exact fun same => absurd (same ▸ List.contains_iff_mem.1 isOne) (by decide)
    · rfl
  · rw [isOneOf, isOneOf, kind_withoutRemarks]
  · obtain ⟨kids, same⟩ := blind_hoistTitle quiet.below
    apply blind_withKids quiet.here kids
    rw [kids_withoutRemarks, same]

theorem blind_renameCitations (quiet : Everywhere Quiet n) : Blind renameCitations n := by
  refine blind_mapUp (fun m => ?_) (fun m quiet => blind_if quiet (is_withoutRemarks m _) ?_) quiet
  · split
    · next isOne =>
      rw [isRemark_of_is isOne (by decide)]
      exact isRemark_of_kind (by simp)
    · rfl
  · exact fun isOne => blind_kind quiet (fun _ => notMem_of_is isOne (by decide))
      fun known => absurd known (by decide)

theorem blind_hostGraphic (base : String) (quiet : Everywhere Quiet n) :
    Blind (hostGraphic base) n := by
  cases found : n.attrText? "hwp:id" with
  | none =>
    constructor
    · rw [hostGraphic, found]
      exact quiet
    · rw [hostGraphic, hostGraphic, attrText?_withoutRemarks, found]
  | some id =>
    let image := fun graphic : Node =>
      graphic.setAttr "xlink:href" (.string (base ++ "/" ++ id ++ ".large.jpg"))
    have hosted : Blind (fun m => if m.isOneOf ["fig", "table-wrap"] then
        m.updateFirst (·.is "graphic") image else m) n := by
      refine blind_if quiet (by rw [isOneOf, isOneOf, kind_withoutRemarks]) fun _ => ?_
      have graphics : Overlooks (·.is "graphic") := overlooks_is (by decide)
      refine graphics.blind_updateFirst (f := image) (fun _ => rfl) (fun m quiet => ?_)
        (fun m => ?_) quiet
      · have imaged := blind_attrs (g := fun attrs =>
          attrs.insert "xlink:href" (.string (base ++ "/" ++ id ++ ".large.jpg"))) quiet
        exact imaged.quiet
      · simp only [withoutRemarks_eq]
        rfl
    constructor
    · rw [hostGraphic, found]
      exact hosted.quiet
    · rw [hostGraphic, hostGraphic, attrText?_withoutRemarks, found]
      exact hosted.commutes

theorem isRemark_hostGraphic (base : String) (n : Node) :
    isRemark (hostGraphic base n) = isRemark n := by
  unfold hostGraphic
  split
  · split
    · exact isRemark_updateFirst _ _ n
    · rfl
  · rfl

/-! ### Preparation -/

theorem blind_normalize (quiet : Everywhere Quiet n) (outside : n.kind ∉ runningKinds) :
    Blind normalize n := by
  have dropped : Blind dropDataTitles n :=
    blind_mapDown isRemark_dropDataTitle (fun _ => blind_dropDataTitle) quiet
  have kind : (dropDataTitles n).kind = n.kind := by
    rw [dropDataTitles, mapDown_eq, kind_mapChildren, dropDataTitle]
    split
    · exact kind_removeWhere _ n
    · rfl
  have flat := dropped.trans
    (blind_flattenSections .heading dropped.quiet (by rw [kind]; exact outside))
  have clean := flat.trans (blind_typography flat.quiet)
  have entitled := clean.trans (blind_entitleBoxes clean.quiet)
  exact entitled.trans (blind_hoistTitles entitled.quiet)

theorem blind_hostGraphics (a : Article) (quiet : Everywhere Quiet n) :
    Blind (hostGraphics a) n := by
  unfold hostGraphics
  cases imageBase? a with
  | none => exact blind_self quiet
  | some base =>
    exact blind_mapDown (isRemark_hostGraphic base) (fun _ => blind_hostGraphic base) quiet

theorem blind_finish (a : Article) (quiet : Everywhere Quiet n) (outside : n.kind ∉ runningKinds) :
    Blind (fun m => hostGraphics a (renameCitations (normalize m))) n := by
  have normal := blind_normalize quiet outside
  have renamed := normal.trans (blind_renameCitations normal.quiet)
  exact renamed.trans (blind_hostGraphics a renamed.quiet)

end

end Manuscript.Conversion
