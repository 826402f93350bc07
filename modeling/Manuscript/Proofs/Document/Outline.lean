import Manuscript.Conversion.Basic
import Manuscript.Proofs.Tree.Everywhere

/-!
The outline of an article that is ready to be rendered: a root with nothing but blocks directly in
it. Flattening the sections makes these blocks; below them there are none but those that the article
has itself.
-/

set_option autoImplicit false

namespace Manuscript.Body

open Manuscript.Node

/-- The kinds that nodes get on the way to the normal form, but for blocks. -/
def madeKinds : List String :=
  ["p", "bold", "heading", "text", "admonitionTitle", "mixed-citation", "hr"]

/-- Whether a property hangs on the kind and the identifier of a node alone and holds of all nodes
of the kinds that are made. -/
structure Steady (p : Node → Prop) : Prop where
  alike : ∀ {m n : Node}, p n → m.kind = n.kind → m.attr? "id" = n.attr? "id" → p m
  made : ∀ {n : Node}, n.kind ∈ madeKinds → p n

section
variable {p : Node → Prop}

theorem Steady.kidsFree (steady : Steady p) : KidsFree p := fun _ here => steady.alike here rfl rfl

theorem Steady.mapChildren (steady : Steady p) {n : Node} (f : List Node → List Node) (here : p n) :
    p (n.mapChildren f) :=
  steady.alike here rfl rfl

theorem Steady.of_kids (steady : Steady p) {n m : Node} (all : Everywhere p n)
    (kind : m.kind = n.kind) (id : m.attr? "id" = n.attr? "id")
    (below : ∀ c ∈ m.kids, Everywhere p c) : Everywhere p m :=
  everywhere_iff.2 ⟨steady.alike all.here kind id, below⟩

theorem Steady.of_made (steady : Steady p) {n : Node} (made : n.kind ∈ madeKinds)
    (below : ∀ c ∈ n.kids, Everywhere p c) : Everywhere p n :=
  everywhere_iff.2 ⟨steady.made made, below⟩

/-! ### Sections -/

theorem everywhere_dropLabel {cs : List Node} (all : ∀ c ∈ cs, Everywhere p c) :
    ∀ c ∈ dropLabel cs, Everywhere p c := by
  unfold dropLabel
  split
  · exact all
  · split
    · exact (List.forall_mem_cons.1 all).2
    · exact all

theorem everywhere_styledTitle (steady : Steady p) (style : TitleStyle) (id : Option String)
    (depth : Nat) {title : Node} (all : Everywhere p title) :
    Everywhere p (styledTitle style id depth title) := by
  cases style with
  | strong =>
    have bold : Everywhere p (.branch "bold" title.kids) :=
      steady.of_made (by simp [branch, madeKinds]) all.below
    exact steady.of_made (by simp [styledTitle, madeKinds]) (List.forall_mem_singleton.2 bold)
  | heading => exact steady.of_made (by simp [styledTitle, madeKinds]) all.below

theorem everywhere_styleFirst (steady : Steady p) (kind : String) (style : TitleStyle)
    (id : Option String) (depth : Nat) {cs : List Node} (all : ∀ c ∈ cs, Everywhere p c) :
    ∀ c ∈ styleFirst kind style id depth cs, Everywhere p c := by
  unfold styleFirst
  split
  · exact all
  · obtain ⟨first, rest⟩ := List.forall_mem_cons.1 all
    split
    · split
      · exact rest
      · exact List.forall_mem_cons.2 ⟨everywhere_styledTitle steady style id depth first, rest⟩
    · exact all

theorem labelSections_eq_map (style : TitleStyle) (depth : Nat) (ns : List Node) :
    labelSections style depth ns = ns.map (labelSection style depth) := by
  induction ns with
  | nil => rfl
  | cons n ns ih => rw [labelSections, ih, List.map_cons]

theorem labelSection_eq (style : TitleStyle) (depth : Nat) (n : Node) :
    labelSection style depth n =
      if isSectionKind n.kind then
        { n.withKids (styleFirst n.kind style ((n.attrs.find? "id").bind Json.asString?) depth
            (dropLabel (n.kids.map (labelSection style (depth + 1)))))
          with attrs := n.attrs.insert? "part" (partOf? n.kind) }
      else n := by
  obtain ⟨k, children, v, a⟩ := n
  cases children with
  | none =>
    rw [labelSection]
    split <;> rfl
  | some cs =>
    rw [labelSection, labelSections_eq_map]
    rfl

theorem everywhere_labelSection (steady : Steady p) (style : TitleStyle) (depth : Nat) {n : Node}
    (all : Everywhere p n) : Everywhere p (labelSection style depth n) := by
  induction n using induction_on_kids generalizing depth with
  | node n ih =>
    rw [labelSection_eq]
    split
    · refine steady.of_kids all rfl ?_ ?_
      · -- The part of the document is no identifier.
        cases part : partOf? n.kind <;> simp [attr?, Dict.insert?, Dict.find?_insert]
      · apply everywhere_styleFirst steady
        apply everywhere_dropLabel
        rw [List.forall_mem_map]
        exact fun c child => ih c child (depth + 1) (all.below c child)
    · exact all

/-! ### Markup and captions -/

theorem spaceBreaksAll_eq_map (inTitle : Bool) (ns : List Node) :
    spaceBreaksAll inTitle ns = ns.map (spaceBreaks inTitle) := by
  induction ns with
  | nil => rfl
  | cons n ns ih => rw [spaceBreaksAll, ih, List.map_cons]

theorem spaceBreaks_eq (inTitle : Bool) (n : Node) :
    spaceBreaks inTitle n = if inTitle && n.kind == "break" then .text " "
      else n.mapChildren (List.map (spaceBreaks (inTitle || isTitleKind n.kind))) := by
  obtain ⟨k, children, v, a⟩ := n
  cases children with
  | none => rfl
  | some cs => rw [spaceBreaks, spaceBreaksAll_eq_map]; rfl

theorem everywhere_spaceBreaks (steady : Steady p) (inTitle : Bool) {n : Node}
    (all : Everywhere p n) : Everywhere p (spaceBreaks inTitle n) := by
  induction n using induction_on_kids generalizing inTitle with
  | node n ih =>
    rw [spaceBreaks_eq]
    split
    · exact steady.of_made (by decide) (List.forall_mem_nil _)
    · rw [everywhere_iff, kids_mapChildren_map, List.forall_mem_map]
      exact ⟨steady.mapChildren _ all.here, fun c child => ih c child _ (all.below c child)⟩

theorem everywhere_asAdmonitionTitle (steady : Steady p) {title : Node}
    (all : Everywhere p title) : Everywhere p (asAdmonitionTitle title) :=
  steady.of_made (by simp [asAdmonitionTitle, madeKinds]) all.below

theorem everywhere_entitle (steady : Steady p) {cs : List Node} (all : ∀ c ∈ cs, Everywhere p c) :
    ∀ c ∈ entitle cs, Everywhere p c := by
  cases cs with
  | nil => exact all
  | cons first rest =>
    obtain ⟨front, back⟩ := List.forall_mem_cons.1 all
    rw [entitle]
    split
    · exact List.forall_mem_cons.2 ⟨everywhere_asAdmonitionTitle steady front, back⟩
    · split
      · split
        · next title inner parts =>
          have inside := front.below
          rw [parts] at inside
          obtain ⟨titled, inner⟩ := List.forall_mem_cons.1 inside
          split
          · exact List.forall_mem_cons.2 ⟨everywhere_asAdmonitionTitle steady titled,
              List.forall_mem_append.2 ⟨inner, back⟩⟩
          · exact all
        · exact all
      · exact all

theorem everywhere_entitleBox (steady : Steady p) {cs : List Node}
    (all : ∀ c ∈ cs, Everywhere p c) : ∀ c ∈ entitleBox cs, Everywhere p c := by
  cases cs with
  | nil => exact all
  | cons first rest =>
    obtain ⟨front, back⟩ := List.forall_mem_cons.1 all
    rw [entitleBox]
    split
    · exact List.forall_mem_cons.2 ⟨front, everywhere_entitle steady back⟩
    · exact everywhere_entitle steady all

theorem everywhere_hoistTitle (steady : Steady p) {cs : List Node}
    (all : ∀ c ∈ cs, Everywhere p c) : ∀ c ∈ hoistTitle cs, Everywhere p c := by
  unfold hoistTitle
  split
  · exact all
  · next caption after behind =>
    have part : ∀ c ∈ caption :: after, Everywhere p c :=
      fun c mem => all c ((List.dropWhile_suffix _).mem (behind ▸ mem))
    obtain ⟨captioned, rest⟩ := List.forall_mem_cons.1 part
    refine List.forall_mem_append.2 ⟨List.forall_mem_append.2 ⟨?_, ?_⟩, ?_⟩
    · intro c mem
      exact captioned.below c (List.mem_of_find?_eq_some (Option.mem_toList.1 mem))
    · exact fun c mem => all c ((List.takeWhile_prefix _).mem mem)
    · refine List.forall_mem_cons.2 ⟨steady.of_kids captioned rfl rfl ?_, rest⟩
      exact fun c mem => captioned.below c (List.mem_of_mem_eraseP mem)

/-- A change of the children of nodes of some kinds keeps what it keeps there. -/
theorem everywhere_withKids_if (steady : Steady p) {n : Node} {selected : Bool}
    {change : List Node → List Node}
    (keeps : ∀ cs, (∀ c ∈ cs, Everywhere p c) → ∀ c ∈ change cs, Everywhere p c)
    (all : Everywhere p n) : Everywhere p (if selected then n.withKids (change n.kids) else n) := by
  split
  · exact steady.of_kids all rfl rfl (keeps _ all.below)
  · exact all

theorem everywhere_dropDataTitle (steady : Steady p) {n : Node} (all : Everywhere p n) :
    Everywhere p (dropDataTitle n) := by
  unfold dropDataTitle
  split
  · refine everywhere_removeWhere (fun m all => ?_) all
    rw [removeWhere_eq]
    exact steady.mapChildren _ all.here
  · exact all

theorem everywhere_dropDataTitles (steady : Steady p) {n : Node} (all : Everywhere p n) :
    Everywhere p (dropDataTitles n) :=
  everywhere_mapDown size_dropDataTitle_le (fun _ here => steady.mapChildren _ here)
    (fun _ => everywhere_dropDataTitle steady) all

theorem everywhere_renameCitation (steady : Steady p) {n : Node} (all : Everywhere p n) :
    Everywhere p (if n.is "citation" then { n with kind := "mixed-citation" } else n) := by
  split
  · exact steady.of_made (by simp [madeKinds]) all.below
  · exact all

theorem everywhere_hostGraphic (steady : Steady p) (base : String) {n : Node}
    (all : Everywhere p n) : Everywhere p (hostGraphic base n) := by
  unfold hostGraphic
  split
  · split
    · refine everywhere_updateFirst steady.kidsFree (fun m inside => ?_) all
      refine steady.of_kids inside rfl ?_ inside.below
      simp [attr?, setAttr, Dict.find?_insert]
    · exact all
  · exact all

end

/-! ### Blocks -/

/-- Whether nodes of a kind may be there, where blocks are there only if they are allowed. -/
abbrev BlocksIf (allowed : Prop) (kind : String) : Prop := kind = "block" → allowed

section
variable {allowed : Prop}

theorem blocksIf_of_ne (kind : String) (other : kind ≠ "block") : BlocksIf allowed kind :=
  fun same => absurd same other

theorem steady_blocksIf (allowed : Prop) : Steady fun n => BlocksIf allowed n.kind := by
  refine ⟨fun here kind _ => kind ▸ here, fun made block => ?_⟩
  rw [block] at made
  exact absurd made (by decide)

/-! ### Forests without blocks below -/

/-- Whether there are blocks at the top of a forest only, unless they are allowed. -/
def Shallow (allowed : Prop) (ns : List Node) : Prop :=
  ∀ n ∈ ns, ∀ c ∈ n.kids, OfKinds (BlocksIf allowed) c

theorem shallow_of_ofKinds {ns : List Node} (all : ∀ n ∈ ns, OfKinds (BlocksIf allowed) n) :
    Shallow allowed ns :=
  fun n mem => (all n mem).below

theorem shallow_liftFrom (lifted : Node → Bool) {ns : List Node} (shallow : Shallow allowed ns) :
    Shallow allowed (liftFrom lifted ns) := by
  rw [liftFrom_eq_flatMap]
  intro m mem
  obtain ⟨n, place, mem⟩ := List.mem_flatMap.1 mem
  have below := ofKinds_liftFrom lifted (shallow n place)
  rw [liftNode_eq] at mem
  split at mem
  · exact (below m mem).below
  · rw [List.mem_singleton.1 mem, kids_mapChildren rfl]
    exact below

/-! ### Sections -/

theorem shallow_labelSections (style : TitleStyle) {ns : List Node} (shallow : Shallow allowed ns) :
    Shallow allowed ((labelSections style 1 ns).map sectionAsBlock) := by
  intro m found
  rw [labelSections_eq_map, List.map_map] at found
  obtain ⟨n, mem, rfl⟩ := List.mem_map.1 found
  have same : (sectionAsBlock (labelSection style 1 n)).kids = (labelSection style 1 n).kids := by
    unfold sectionAsBlock
    split <;> rfl
  rw [Function.comp_apply, same, labelSection_eq]
  split
  · apply everywhere_styleFirst (steady_blocksIf allowed)
    apply everywhere_dropLabel
    rw [List.forall_mem_map]
    exact fun c child =>
      everywhere_labelSection (steady_blocksIf allowed) style _ (shallow n mem c child)
  · exact shallow n mem

theorem mem_nestLoose {loose ns : List Node} {c : Node} (mem : c ∈ nestLoose loose ns) :
    c.kind = "block" ∧ (c ∈ ns ∨ ∀ d ∈ c.kids, d ∈ loose ∨ d ∈ ns ∧ d.kind ≠ "block") := by
  have gathered {loose : List Node}
      (mem : c ∈ if loose.isEmpty then [] else [branch "block" loose]) :
      c.kind = "block" ∧ ∀ d ∈ c.kids, d ∈ loose := by
    split at mem
    · cases mem
    · rw [List.mem_singleton.1 mem]
      exact ⟨rfl, fun d child => child⟩
  induction ns generalizing loose with
  | nil =>
    obtain ⟨block, inside⟩ := gathered mem
    exact ⟨block, .inr fun d child => .inl (inside d child)⟩
  | cons n ns ih =>
    rw [nestLoose] at mem
    split at mem
    · next block =>
      rcases List.mem_append.1 mem with mem | mem
      · obtain ⟨block, inside⟩ := gathered mem
        exact ⟨block, .inr fun d child => .inl (inside d child)⟩
      · rcases List.mem_cons.1 mem with rfl | mem
        · exact ⟨beq_iff_eq.1 block, .inl List.mem_cons_self⟩
        · obtain ⟨block, place | inside⟩ := ih mem
          · exact ⟨block, .inl (List.mem_cons_of_mem _ place)⟩
          · refine ⟨block, .inr fun d child => ?_⟩
            rcases inside d child with none | ⟨place, other⟩
            · cases none
            · exact .inr ⟨List.mem_cons_of_mem _ place, other⟩
    · next other =>
      -- The node joins the loose ones, which the next block or the end of the list gathers.
      obtain ⟨block, place | inside⟩ := ih mem
      · exact ⟨block, .inl (List.mem_cons_of_mem _ place)⟩
      · refine ⟨block, .inr fun d child => ?_⟩
        rcases inside d child with early | ⟨place, other⟩
        · rcases List.mem_append.1 early with early | late
          · exact .inl early
          · rw [List.mem_singleton.1 late]
            exact .inr ⟨List.mem_cons_self, fun same => other (beq_iff_eq.2 same)⟩
        · exact .inr ⟨List.mem_cons_of_mem _ place, other⟩

theorem kind_of_mem_nestBlocks {tree c : Node} (mem : c ∈ (nestBlocks tree).kids) :
    c.kind = "block" := by
  unfold nestBlocks at mem
  split at mem
  · exact (mem_nestLoose mem).1
  · rw [List.mem_singleton.1 mem]
    rfl

theorem shallow_nestBlocks {tree : Node} (shallow : Shallow allowed tree.kids) :
    Shallow allowed (nestBlocks tree).kids := by
  -- A node that is no block may go below a block, as may all that is in it.
  have loose : ∀ d ∈ tree.kids, d.kind ≠ "block" → OfKinds (BlocksIf allowed) d :=
    fun d mem other => ofKinds_iff.2 ⟨blocksIf_of_ne _ other, shallow d mem⟩
  unfold nestBlocks
  split
  · intro c mem
    rcases (mem_nestLoose mem).2 with place | inside
    · exact shallow c place
    · intro d child
      rcases inside d child with none | ⟨place, other⟩
      · cases none
      · exact loose d place other
  · next none =>
    intro c mem d child
    rw [List.mem_singleton.1 mem] at child
    apply loose d child
    intro same
    exact none (List.any_eq_true.2 ⟨d, child, beq_iff_eq.2 same⟩)

theorem shallow_flattenSections (style : TitleStyle) {tree : Node}
    (shallow : Shallow allowed tree.kids) : Shallow allowed (flattenSections style tree).kids := by
  apply shallow_nestBlocks
  rw [kids_liftWhere]
  apply shallow_liftFrom
  apply shallow_labelSections
  rw [kids_liftWhere]
  exact shallow_liftFrom _ shallow

/-- A root with nothing but blocks in it, and no blocks below those unless they are allowed. -/
structure Outlined (allowed : Prop) (tree : Node) : Prop where
  root : tree.kind = "root"
  blocks : ∀ c ∈ tree.kids, c.kind = "block"
  shallow : Shallow allowed tree.kids

theorem kind_nestBlocks (tree : Node) : (nestBlocks tree).kind = tree.kind := by
  unfold nestBlocks
  split <;> rfl

theorem outlined_flattenSections (style : TitleStyle) {tree : Node} (root : tree.kind = "root")
    (shallow : Shallow allowed tree.kids) : Outlined allowed (flattenSections style tree) where
  root := (kind_nestBlocks _).trans root
  blocks := fun _ => kind_of_mem_nestBlocks
  shallow := shallow_flattenSections style shallow

/-! ### What comes after the sections -/

/-- A change of trees that neither makes nor moves blocks and goes on below the root and the blocks
keeps the outline. -/
theorem Outlined.map {tree : Node} (outlined : Outlined allowed tree) {f : Node → Node}
    (keeps : ∀ n, OfKinds (BlocksIf allowed) n → OfKinds (BlocksIf allowed) (f n))
    (kind : ∀ n, n.kind = "root" ∨ n.kind = "block" → (f n).kind = n.kind)
    (descends : ∀ n, n.kind = "root" ∨ n.kind = "block" →
      ∀ c ∈ (f n).kids, ∃ d ∈ n.kids, c = f d) : Outlined allowed (f tree) := by
  refine ⟨(kind tree (.inl outlined.root)).trans outlined.root, fun c mem => ?_, fun c mem => ?_⟩
  · obtain ⟨d, child, rfl⟩ := descends tree (.inl outlined.root) c mem
    have block := outlined.blocks d child
    exact (kind d (.inr block)).trans block
  · obtain ⟨d, child, rfl⟩ := descends tree (.inl outlined.root) c mem
    intro e grandchild
    obtain ⟨g, inside, rfl⟩ := descends d (.inr (outlined.blocks d child)) e grandchild
    exact keeps g (outlined.shallow d child g inside)

theorem Outlined.removeWhere {tree : Node} (outlined : Outlined allowed tree)
    (removed : Node → Bool) : Outlined allowed (removeWhere removed tree) := by
  apply outlined.map (fun n => ofKinds_removeWhere removed) (fun n _ => kind_removeWhere removed n)
  intro n _ c mem
  rw [kids_removeWhere] at mem
  obtain ⟨d, child, rfl⟩ := List.mem_map.1 mem
  exact ⟨d, (List.mem_filter.1 child).1, rfl⟩

theorem Outlined.mapUp {tree : Node} (outlined : Outlined allowed tree) {f : Node → Node}
    (keeps : ∀ n, OfKinds (BlocksIf allowed) n → OfKinds (BlocksIf allowed) (f n))
    (fixes : ∀ n, n.kind = "root" ∨ n.kind = "block" → f n = n) :
    Outlined allowed (mapUp f tree) := by
  have same (n : Node) (framed : n.kind = "root" ∨ n.kind = "block") :
      Node.mapUp f n = n.mapChildren (List.map (Node.mapUp f)) := by
    rw [mapUp_eq]
    exact fixes _ framed
  -- The change passes the root and the blocks by, so that they keep their places.
  refine outlined.map (fun n => ofKinds_mapUp keeps) (fun n framed => ?_) fun n framed c mem => ?_
  · rw [same n framed, kind_mapChildren]
  · rw [same n framed, kids_mapChildren_map] at mem
    obtain ⟨d, child, rfl⟩ := List.mem_map.1 mem
    exact ⟨d, child, rfl⟩

theorem Outlined.mapDown {tree : Node} (outlined : Outlined allowed tree) {f : Node → Node}
    (small : ∀ n, (f n).size ≤ n.size)
    (keeps : ∀ n, OfKinds (BlocksIf allowed) n → OfKinds (BlocksIf allowed) (f n))
    (fixes : ∀ n, n.kind = "root" ∨ n.kind = "block" → f n = n) :
    Outlined allowed (mapDown f small tree) := by
  refine outlined.map (fun n => ofKinds_mapDown small keeps) (fun n framed => ?_)
    fun n framed c mem => ?_
  · rw [mapDown_eq, kind_mapChildren, fixes n framed]
  · rw [mapDown_eq, kids_mapChildren_map, fixes n framed] at mem
    obtain ⟨d, child, rfl⟩ := List.mem_map.1 mem
    exact ⟨d, child, rfl⟩

theorem Outlined.typography {tree : Node} (outlined : Outlined allowed tree) :
    Outlined allowed (typography tree) := by
  have same (n : Node) (framed : n.kind = "root" ∨ n.kind = "block") :
      spaceBreaks false n = n.mapChildren (List.map (spaceBreaks false)) := by
    rw [spaceBreaks_eq]
    rcases framed with kind | kind <;> rw [kind] <;> rfl
  refine (outlined.removeWhere isEmptyFormat).map
    (fun n => everywhere_spaceBreaks (steady_blocksIf allowed) false)
    (fun n framed => ?_) fun n framed c mem => ?_
  · rw [same n framed, kind_mapChildren]
  · rw [same n framed, kids_mapChildren_map] at mem
    obtain ⟨d, child, rfl⟩ := List.mem_map.1 mem
    exact ⟨d, child, rfl⟩

theorem shallow_dropDataTitles {tree : Node} (root : tree.kind = "root")
    (shallow : Shallow allowed tree.kids) :
    (dropDataTitles tree).kind = "root" ∧ Shallow allowed (dropDataTitles tree).kids := by
  have noData : isDataAvailability tree = false := by simp [isDataAvailability, is, root]
  have same : dropDataTitles tree = tree.mapChildren (List.map dropDataTitles) := by
    unfold dropDataTitles
    rw [mapDown_eq, dropDataTitle, noData, if_neg Bool.false_ne_true]
  have inside {n : Node} (all : ∀ c ∈ n.kids, OfKinds (BlocksIf allowed) c) :
      ∀ c ∈ (dropDataTitle n).kids, OfKinds (BlocksIf allowed) c := by
    unfold dropDataTitle
    split
    · rw [kids_removeWhere, List.forall_mem_map]
      exact fun c mem => ofKinds_removeWhere _ (all c (List.mem_filter.1 mem).1)
    · exact all
  refine ⟨by rw [same, kind_mapChildren, root], ?_⟩
  rw [same, kids_mapChildren_map]
  intro m mem
  obtain ⟨n, child, rfl⟩ := List.mem_map.1 mem
  rw [dropDataTitles, mapDown_eq, kids_mapChildren_map, List.forall_mem_map]
  exact fun c mem =>
    everywhere_dropDataTitles (steady_blocksIf allowed) (inside (shallow n child) c mem)

theorem outlined_normalize {tree : Node} (root : tree.kind = "root")
    (shallow : Shallow allowed tree.kids) : Outlined allowed (normalize tree) := by
  obtain ⟨root, shallow⟩ := shallow_dropDataTitles root shallow
  have flat := (outlined_flattenSections .heading root shallow).typography
  have entitled : Outlined allowed (entitleBoxes _) :=
    flat.mapUp (fun n => everywhere_withKids_if (steady_blocksIf allowed) fun cs =>
      everywhere_entitleBox (steady_blocksIf allowed)) fun n framed => by
      rcases framed with kind | kind <;> simp [is, kind]
  refine entitled.mapUp (fun n => everywhere_withKids_if (steady_blocksIf allowed) fun cs =>
    everywhere_hoistTitle (steady_blocksIf allowed)) ?_
  intro n framed
  rcases framed with kind | kind <;> simp [isOneOf, kind]

theorem Outlined.renameCitations {tree : Node} (outlined : Outlined allowed tree) :
    Outlined allowed (renameCitations tree) := by
  refine outlined.mapUp (fun n => everywhere_renameCitation (steady_blocksIf allowed)) ?_
  intro n framed
  rcases framed with kind | kind <;> simp [is, kind]

theorem Outlined.hostGraphics {tree : Node} (outlined : Outlined allowed tree) (a : Article) :
    Outlined allowed (hostGraphics a tree) := by
  unfold Body.hostGraphics
  split
  · refine outlined.mapDown (size_hostGraphic_le _)
      (fun n => everywhere_hostGraphic (steady_blocksIf allowed) _) fun n framed => ?_
    unfold hostGraphic
    split
    · rcases framed with kind | kind <;> simp [isOneOf, kind]
    · rfl
  · exact outlined

end

end Manuscript.Body
