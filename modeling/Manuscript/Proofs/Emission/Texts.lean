import Manuscript.Proofs.Emission.Composition
import Manuscript.Proofs.Tree.Nearest
import Manuscript.Xml.Reader

/-!
Which texts of an article a document keeps. The texts that a rule shows are pieces of the text of
the document, in the order in which it shows them. What is lost without a word is the rest of a
figure, what stands in a break, and an element that has the name of the texts themselves.
-/

set_option autoImplicit false

namespace Manuscript

namespace Node

mutual
/-- The texts of the node and of all nodes below it, one by one. -/
def values : Node → List String
  | ⟨_, none, v, _⟩ => v.toList
  | ⟨_, some cs, v, _⟩ => v.toList ++ forestValues cs

def forestValues : List Node → List String
  | [] => []
  | n :: ns => n.values ++ forestValues ns
end

mutual
theorem join_values : (n : Node) → String.join n.values = n.toText
  | ⟨_, none, v, _⟩ => by cases v <;> simp [values, toText]
  | ⟨_, some cs, v, _⟩ => by
    cases v <;> simp [values, toText, join_forestValues cs]

theorem join_forestValues : (ns : List Node) → String.join (forestValues ns) = forestText ns
  | [] => rfl
  | n :: ns => by
    rw [forestValues, forestText, String.join_append, join_values n, join_forestValues ns]
end

end Node

namespace Myst

/-! ### Texts of an article -/

/-- Whether the content of an element is not meant to be text of the document: it labels, remarks
on or draws something, it is a formula, its place is taken by a mark of a note, or its kind was
reported. -/
def excused (unhandled : Dict Unit) (n : Node) : Bool :=
  n.isOneOf ["label", "comment", "object-id", "graphic", "inline-graphic", "inline-formula",
      "disp-formula"] ||
    (n.is "xref" &&
      (n.attrText? "ref-type" == some "fn" || n.attrText? "ref-type" == some "table-fn")) ||
    unhandled.contains n.kind

mutual
/-- The texts of a node that are not inside of an excused one. -/
def unexcused (unhandled : Dict Unit) : Node → List String
  | ⟨k, none, v, _⟩ => if k = "text" then v.toList else []
  | ⟨k, some cs, v, a⟩ =>
    if excused unhandled ⟨k, some cs, v, a⟩ then [] else unexcusedAll unhandled cs

def unexcusedAll (unhandled : Dict Unit) : List Node → List String
  | [] => []
  | n :: ns => unexcused unhandled n ++ unexcusedAll unhandled ns
end

/-- Whether the nearest node of a kind below a table, which its rest goes without, is the first
below, which its caption shows. -/
def takesOutFirst (kind : String) (n : Node) : Bool := n.removeNearest kind == n.removeFirst kind

mutual
/-- The texts of the first node of a kind below. -/
def partTexts (unhandled : Dict Unit) (kind : String) (n : Node) : List String :=
  match _h : n.findKind? kind with
  | some part => shownAll unhandled part.kids
  | none => []
termination_by 3 * n.size
decreasing_by
  have := Node.size_lt_of_find? (by assumption)
  have := Node.size_eq part
  omega

/-- The texts of a node that a document shows. A break has no content, and a figure none but its
title and its caption. -/
def shown (unhandled : Dict Unit) (n : Node) : List String :=
  if n.isText then if n.children.isNone then n.value.toList else []
  else if excused unhandled n || n.isOneOf ["break", "hr"] then []
  else if n.isOneOf ["code", "preformat"] then n.values
  else if n.is "fig" then partTexts unhandled "title" n ++ partTexts unhandled "caption" n
  else if n.is "table-wrap" then
    (if takesOutFirst "title" n then partTexts unhandled "title" n else []) ++
      (if takesOutFirst "caption" (n.removeNearest "title") then partTexts unhandled "caption" n
        else []) ++
      shownAll unhandled (withoutCaptionParts n).kids
  else shownAll unhandled n.kids
termination_by 3 * n.size + 1
decreasing_by
  · omega
  · omega
  · omega
  · omega
  · have := size_withoutCaptionParts_le n; have := Node.size_eq (withoutCaptionParts n); omega
  · have := Node.size_eq n; omega

def shownAll (unhandled : Dict Unit) : List Node → List String
  | [] => []
  | n :: ns => shown unhandled n ++ shownAll unhandled ns
termination_by ns => 3 * Node.forestSize ns + 2
decreasing_by
  all_goals simp only [Node.forestSize]
  · omega
  · have := Node.size_pos n; omega
end

/-! ### What rules show -/

section
variable {unhandled : Dict Unit} {n : Node}

/-- The kinds of elements that show their content in a way of their own, or not at all. -/
def peculiarKinds : List String :=
  ["text", "break", "hr", "code", "preformat", "fig", "table-wrap"]

theorem shown_sublist_kids (unhandled : Dict Unit) (ordinary : n.isOneOf peculiarKinds = false) :
    (shown unhandled n).Sublist (shownAll unhandled n.kids) := by
  simp only [peculiarKinds, Node.isOneOf, List.contains_cons, List.contains_nil,
    Bool.or_eq_false_iff, beq_eq_false_iff_ne] at ordinary
  rw [shown]
  cases excused unhandled n <;> simp [Node.isText, Node.is, Node.isOneOf, ordinary]

theorem shown_eq_nil (element : n.isText = false)
    (bare : (excused unhandled n || n.isOneOf ["break", "hr"]) = true) :
    shown unhandled n = [] := by
  rw [shown, if_neg (by simp [element]), if_pos bare]

theorem shown_text (text : n.isText = true) :
    shown unhandled n = if n.children.isNone then n.value.toList else [] := by
  rw [shown, if_pos text]

theorem shown_figure (unhandled : Dict Unit) (kind : n.kind = "fig") :
    (shown unhandled n).Sublist
      (partTexts unhandled "title" n ++ partTexts unhandled "caption" n) := by
  rw [shown]
  cases excused unhandled n <;> simp [Node.isText, Node.is, Node.isOneOf, kind]

theorem shown_table (unhandled : Dict Unit) (kind : n.kind = "table-wrap") :
    (shown unhandled n).Sublist
      (partTexts unhandled "title" n ++ partTexts unhandled "caption" n ++
        shownAll unhandled (withoutCaptionParts n).kids) := by
  rw [shown]
  cases excused unhandled n <;> cases takesOutFirst "title" n <;>
    cases takesOutFirst "caption" (n.removeNearest "title") <;>
    simp [Node.isText, Node.is, Node.isOneOf, kind]

theorem shown_code (unhandled : Dict Unit) (kind : n.isOneOf ["code", "preformat"] = true) :
    (shown unhandled n).Sublist n.values := by
  rw [shown]
  have element : n.isText = false := by
    simp only [Node.isOneOf, List.contains_cons, List.contains_nil, Bool.or_false,
      Bool.or_eq_true, beq_iff_eq] at kind
    rcases kind with kind | kind <;> simp [Node.isText, kind]
  cases excused unhandled n || n.isOneOf ["break", "hr"] <;> simp [element, kind]

def Rule.Shows (unhandled : Dict Unit) (n : Node) : Rule → Prop
  | .text => n.isText = true
  | .children | .wrap _ _ _ | .title | .tabs =>
    (shown unhandled n).Sublist (shownAll unhandled n.kids)
  | .leaf _ _ | .separator | .formula _ | .nothing => shown unhandled n = []
  | .figure => (shown unhandled n).Sublist
      (partTexts unhandled "title" n ++ partTexts unhandled "caption" n)
  | .table => (shown unhandled n).Sublist
      (partTexts unhandled "title" n ++ partTexts unhandled "caption" n ++
        shownAll unhandled (withoutCaptionParts n).kids)
  | .code => (shown unhandled n).Sublist n.values
  | .unknown => unhandled.contains n.kind = true → shown unhandled n = []

theorem shows_referenceRule (unhandled : Dict Unit) (kind : n.kind = "xref") :
    (referenceRule n).Shows unhandled n := by
  have element : n.isText = false := by simp [Node.isText, kind]
  have whole : (shown unhandled n).Sublist (shownAll unhandled n.kids) :=
    shown_sublist_kids unhandled (by rw [Node.isOneOf, kind]; rfl)
  unfold referenceRule
  simp only
  split
  case h_7 | h_8 =>
    rename_i type
    refine shown_eq_nil element ?_
    have given : ∀ {t : String}, t ≠ "" → (n.attrText? "ref-type").getD "" = t →
        n.attrText? "ref-type" = some t := by
      intro t some same
      cases found : n.attrText? "ref-type" with
      | none => exact absurd (by simpa [found] using same.symm) some
      | some t' => simpa [found] using same
    simp [excused, Node.is, kind, given (by decide) type]
  all_goals exact whole

theorem shows_ruleOf (unhandled : Dict Unit) (n : Node) : (ruleOf n).Shows unhandled n := by
  have whole (kind : String) (here : n.kind = kind)
      (ordinary : peculiarKinds.contains kind = false) :
      (shown unhandled n).Sublist (shownAll unhandled n.kids) :=
    shown_sublist_kids unhandled (by rw [Node.isOneOf, here]; exact ordinary)
  unfold ruleOf
  split
  -- One alternative for each way to show an element; the last two are texts and unknown kinds.
  all_goals
    rename_i kind
    first
      | exact whole _ kind rfl
      | exact shown_eq_nil (by rw [Node.isText, kind]; rfl) (by simp [excused, Node.isOneOf, kind])
      | exact shows_referenceRule unhandled kind
      | exact shown_figure unhandled kind
      | exact shown_table unhandled kind
      | exact shown_code unhandled (by rw [Node.isOneOf, kind]; rfl)
      | exact beq_iff_eq.2 kind
      | exact fun reported =>
          shown_eq_nil (beq_false_of_ne (by assumption)) (by simp [excused, reported])

end

/-! ### Pieces of a text -/

/-- Whether the text of a contribution is put together from pieces with the given ones among them,
in their order. -/
def Emission.Tells (e : Emission) (texts : List String) : Prop :=
  ∃ pieces, Node.forestText e.forest = String.join pieces ∧ texts.Sublist pieces

namespace Emission.Tells

variable {a b : Emission} {texts more : List String}

theorem nil (e : Emission) : e.Tells [] :=
  ⟨[Node.forestText e.forest], by simp, List.nil_sublist _⟩

theorem mono (tells : a.Tells texts) (fewer : more.Sublist texts) : a.Tells more := by
  obtain ⟨pieces, whole, among⟩ := tells
  exact ⟨pieces, whole, fewer.trans among⟩

theorem text (s : String) : (Emission.ofText s).Tells [s] := by
  refine ⟨[s], ?_, List.Sublist.refl _⟩
  unfold Emission.ofText
  split
  · next blank => simp [Emission.empty, Node.forestText, String.isEmpty_iff.1 blank]
  · simp [Emission.ofNode, Node.forestText, Node.toText, Node.text, Node.scalar]

theorem wrap (kind : String) (attrs : Attrs) (inner : a.Tells texts) :
    (Emission.wrap kind attrs a).Tells texts := by
  obtain ⟨pieces, whole, among⟩ := inner
  refine ⟨pieces, ?_, among⟩
  simpa [Emission.wrap, Node.forestText, Node.branch, Node.toText] using whole

theorem bold (inner : a.Tells texts) : (boldParagraph a).Tells texts :=
  (inner.wrap "strong" .empty).wrap "paragraph" .empty

theorem values (kind : String) (attrs : Attrs) (n : Node) :
    (Emission.ofNode (.scalar kind n.toText attrs)).Tells n.values :=
  ⟨n.values, by simp [Emission.ofNode, Node.forestText, Node.scalar, Node.toText, n.join_values],
    List.Sublist.refl _⟩

end Emission.Tells

theorem forestText_joinForests {a b : Emission} (left : a.Plain) (right : b.Plain) :
    Node.forestText (joinForests a.forest b.forest) =
      Node.forestText a.forest ++ Node.forestText b.forest := by
  rcases joinForests_plain left right with ⟨front, s, t, back, before, behind, seam⟩ | ⟨-, seam⟩
  · rw [seam, before, behind]
    simp [Node.forestText_append, Node.forestText, Node.text, Node.scalar, Node.toText,
      String.append_assoc]
  · rw [seam, Node.forestText_append]

theorem Emission.Tells.join {a b : Emission} {texts more : List String} (left : a.Plain)
    (right : b.Plain) (first : a.Tells texts) (second : b.Tells more) :
    (a.join b).Tells (texts ++ more) := by
  obtain ⟨pieces, whole, among⟩ := first
  obtain ⟨pieces', whole', among'⟩ := second
  refine ⟨pieces ++ pieces', ?_, among.append among'⟩
  rw [Emission.join, forestText_joinForests left right, whole, whole', String.join_append]

/-! ### What reports cover -/

/-- Whether the kinds that a report has no rule for are among the given ones. -/
def Covers (unhandled : Dict Unit) (r : Report) : Prop :=
  ∀ kind, r.unhandled.contains kind = true → unhandled.contains kind = true

theorem covers_append {unhandled : Dict Unit} {r s : Report} :
    Covers unhandled (r.append s) ↔ Covers unhandled r ∧ Covers unhandled s := by
  simp only [Covers, Report.append, Dict.contains_insertAll, Bool.or_eq_true]
  exact ⟨fun all => ⟨fun kind h => all kind (.inl h), fun kind h => all kind (.inr h)⟩,
    fun both kind => Or.rec (both.1 kind) (both.2 kind)⟩

theorem covers_addUnhandled {unhandled : Dict Unit} {kind : String}
    (covers : Covers unhandled (Report.empty.addUnhandled kind)) :
    unhandled.contains kind = true :=
  covers kind (by simp [Report.addUnhandled, Report.add, Dict.contains, Dict.find?_insert])

/-- Whether a part of a caption tells the given texts if it is there, and there are none if not. -/
def PartTells (unhandled : Dict Unit) (texts : List String) : Option Emission → Prop
  | some e => Covers unhandled e.report → e.Plain ∧ e.Tells texts
  | none => texts = []

theorem tells_captionOf {unhandled : Dict Unit} {title caption : Option Emission}
    {texts more : List String} (covers : Covers unhandled (captionOf [title, caption]).report)
    (titled : PartTells unhandled texts title) (captioned : PartTells unhandled more caption) :
    (captionOf [title, caption]).Tells (texts ++ more) := by
  cases title with
  | none =>
    subst titled
    cases caption with
    | none =>
      subst captioned
      exact .nil _
    | some e =>
      obtain ⟨plain, tells⟩ := captioned (covers_append.1 covers).1
      exact .wrap _ _ (by simpa using tells.join plain .empty (.nil _))
  | some e =>
    obtain ⟨first, rest⟩ := covers_append.1 covers
    obtain ⟨plain, tells⟩ := titled first
    cases caption with
    | none =>
      subst captioned
      exact .wrap _ _ (tells.join plain .empty (.nil _))
    | some e' =>
      obtain ⟨plain', tells'⟩ := captioned (covers_append.1 rest).1
      refine .wrap _ _ (tells.join plain (plain'.join .empty) ?_)
      simpa using tells'.join plain' .empty (.nil _)

mutual
theorem tells_content {unhandled : Dict Unit} {s : Setting} {n : Node}
    (covers : Covers unhandled (content s n).report) :
    (content s n).Tells (shownAll unhandled n.kids) := by
  rw [content] at covers ⊢
  cases children : n.children with
  | some cs =>
    rw [children] at covers
    exact tells_renderAll covers
  | none =>
    have none : n.kids = [] := by simp [Node.kids, children]
    rw [none, shownAll]
    exact .nil _
termination_by 3 * n.size
decreasing_by have := Node.size_eq n; omega

theorem tells_render {unhandled : Dict Unit} {s : Setting} {n : Node}
    (covers : Covers unhandled (render s n).report) :
    (render s n).Tells (shown unhandled n) := by
  have shows := shows_ruleOf unhandled n
  have kinds := textless_ruleOf n
  rw [render] at covers ⊢
  cases rule : ruleOf n <;> rw [rule] at shows kinds covers
  case children => exact (tells_renderAll covers).mono shows
  case text =>
    have tells : (Emission.ofText (n.value.getD "")).Tells n.value.toList := by
      cases n.value with
      | none => exact .nil _
      | some s => exact .text s
    refine tells.mono ?_
    rw [shown_text shows]
    cases n.children.isNone <;> simp
  case wrap kind attrs report =>
    have inner := (tells_content (covers_append.1 covers).2).wrap kind attrs
    exact .join (.ofReport _) (.wrap kinds _ _) (.nil _) (inner.mono shows)
  case title => exact (tells_content covers).bold.mono shows
  case tabs => exact ((tells_renderTabs covers).wrap _ _).mono shows
  case figure =>
    -- The report of the caption covers the report of each of its parts.
    refine ((Emission.Tells.join (plain_figureImage n) (plain_captionOf _) (.nil _) ?_).wrap
      _ _).mono shows
    rw [partTexts, partTexts]
    refine tells_captionOf (covers_append.1 covers).2 ?_ ?_
    · cases found : n.findKind? "title" with
      | none => rfl
      | some title => exact fun covers => ⟨.wrap (by decide) _ _, (tells_content covers).bold⟩
    · cases found : n.findKind? "caption" with
      | none => rfl
      | some caption => exact fun covers => ⟨plain_renderAll, tells_renderAll covers⟩
  case table =>
    obtain ⟨before, behind⟩ := covers_append.1 covers
    refine ((Emission.Tells.join (plain_captionOf _) plain_renderAll ?_
      (tells_renderAll behind)).wrap _ _).mono shows
    rw [partTexts, partTexts]
    refine tells_captionOf before ?_ ?_
    · cases found : n.findKind? "title" with
      | none => rfl
      | some title => exact fun covers => ⟨.wrap (by decide) _ _, (tells_content covers).bold⟩
    · cases found : n.findKind? "caption" with
      | some caption => exact fun covers => ⟨plain_renderAll, tells_renderAll covers⟩
      | none =>
        cases found : n.findKind? "label" with
        | none => rfl
        | some label => exact fun _ => ⟨.wrap (by decide) _ _, .nil _⟩
  case code => exact (Emission.Tells.values _ _ n).mono shows
  case unknown =>
    -- The kind is reported here, so the texts below are excused.
    rw [shows (covers_addUnhandled covers)]
    exact .nil _
  all_goals
    rw [show shown unhandled n = [] from shows]
    exact .nil _
termination_by 3 * n.size + 1
decreasing_by
  all_goals have := Node.size_eq n
  · omega
  · omega
  · omega
  · omega
  · have := Node.size_lt_of_find? (by assumption); omega
  · have := Node.size_lt_of_find? (by assumption); have := Node.size_eq caption; omega
  · have := Node.size_lt_of_find? (by assumption); omega
  · have := Node.size_lt_of_find? (by assumption); have := Node.size_eq caption; omega
  · have := size_withoutCaptionParts_le n; have := Node.size_eq (withoutCaptionParts n); omega

theorem tells_renderAll {unhandled : Dict Unit} {s : Setting} : {ns : List Node} →
    Covers unhandled (renderAll s ns).report → (renderAll s ns).Tells (shownAll unhandled ns)
  | [], _ => by
    rw [shownAll]
    exact .nil _
  | n :: ns, covers => by
    rw [renderAll] at covers ⊢
    rw [shownAll]
    obtain ⟨first, rest⟩ := covers_append.1 covers
    exact .join plain_render plain_renderAll (tells_render first) (tells_renderAll rest)
termination_by ns => 3 * Node.forestSize ns + 2
decreasing_by
  all_goals simp only [Node.forestSize]
  · omega
  · have := Node.size_pos n; omega

theorem tells_renderTabs {unhandled : Dict Unit} {s : Setting} : {ns : List Node} →
    Covers unhandled (renderTabs s ns).report → (renderTabs s ns).Tells (shownAll unhandled ns)
  | [], _ => by
    rw [shownAll]
    exact .nil _
  | n :: ns, covers => by
    rw [renderTabs] at covers ⊢
    rw [shownAll]
    obtain ⟨first, rest⟩ := covers_append.1 covers
    have tab := (tells_render first).wrap "tabItem" (tabAttrs n)
    exact .join (.wrap (by decide) _ _) (plain_renderTabs s ns) tab (tells_renderTabs rest)
termination_by ns => 3 * Node.forestSize ns + 2
decreasing_by
  all_goals simp only [Node.forestSize]
  · omega
  · have := Node.size_pos n; omega
end

theorem tells_children (formulas : Formula.Converter) (tree : Node) :
    (renderAll ⟨formulas, false⟩ tree.kids).Tells
      (shownAll (renderAll ⟨formulas, false⟩ tree.kids).report.unhandled tree.kids) :=
  tells_renderAll fun _ reported => reported

theorem toText_emit (formulas : Formula.Converter) (tree : Node) :
    (emit formulas tree).1.toText =
      Node.forestText (renderAll ⟨formulas, false⟩ tree.kids).forest := by
  rw [emit_eq, Node.branch, Node.toText, Option.getD_none, String.empty_append]

/-- The text of a document is put together from pieces, and the texts that are shown of the tree are
among them, in the order in which they are shown. -/
theorem emission_keeps_texts (formulas : Formula.Converter) (tree : Node) :
    ∃ pieces, (emit formulas tree).1.toText = String.join pieces ∧
      (shownAll (emit formulas tree).2.unhandled tree.kids).Sublist pieces := by
  obtain ⟨pieces, whole, among⟩ := tells_children formulas tree
  refine ⟨pieces, (toText_emit formulas tree).trans whole, ?_⟩
  rw [emit_eq]
  exact among

/-! ### Where nothing is lost -/

/-- Whether a node has no part in what is lost without a word. -/
def Ordinary (n : Node) : Prop :=
  n.isOneOf ["break", "hr", "fig", "table-wrap"] = false ∧ (n.isText = true → n.children = none)

mutual
theorem unexcused_sublist_values (unhandled : Dict Unit) :
    (n : Node) → (unexcused unhandled n).Sublist n.values
  | ⟨k, none, v, a⟩ => by
    rw [unexcused, Node.values]
    split <;> simp
  | ⟨k, some cs, v, a⟩ => by
    rw [unexcused, Node.values]
    split
    · exact List.nil_sublist _
    · exact (unexcusedAll_sublist_values unhandled cs).trans (List.sublist_append_right _ _)

theorem unexcusedAll_sublist_values (unhandled : Dict Unit) :
    (ns : List Node) → (unexcusedAll unhandled ns).Sublist (Node.forestValues ns)
  | [] => .slnil
  | n :: ns =>
    (unexcused_sublist_values unhandled n).append (unexcusedAll_sublist_values unhandled ns)
end

mutual
theorem unexcused_sublist_shown (unhandled : Dict Unit) : (n : Node) → n.Everywhere Ordinary →
    (unexcused unhandled n).Sublist (shown unhandled n)
  | ⟨k, none, v, a⟩, _ => by
    rw [unexcused]
    split
    · next text => simp [shown, Node.isText, text]
    · exact List.nil_sublist _
  | ⟨k, some cs, v, a⟩, all => by
    obtain ⟨whole, leaf⟩ := all.here
    have element : (⟨k, some cs, v, a⟩ : Node).isText = false :=
      Bool.eq_false_iff.2 fun text => absurd (leaf text) (by simp)
    have below := unexcusedAll_sublist_shownAll unhandled cs all.below
    have values := unexcused_sublist_values unhandled ⟨k, some cs, v, a⟩
    simp only [Node.isOneOf, List.contains_cons, List.contains_nil, Bool.or_eq_false_iff,
      beq_eq_false_iff_ne] at whole
    rw [unexcused] at values ⊢
    rw [shown, element]
    cases excused : excused unhandled ⟨k, some cs, v, a⟩ with
    | true => simp
    | false =>
      rw [excused] at values
      simp only [Node.isOneOf, Node.is, List.contains_cons, List.contains_nil, whole,
        beq_false_of_ne, ne_eq, not_false_eq_true, Bool.or_false, Bool.false_eq_true, if_false]
      split
      · exact values
      · exact below

theorem unexcusedAll_sublist_shownAll (unhandled : Dict Unit) : (ns : List Node) →
    (∀ n ∈ ns, n.Everywhere Ordinary) →
      (unexcusedAll unhandled ns).Sublist (shownAll unhandled ns)
  | [], _ => by
    rw [unexcusedAll]
    exact List.nil_sublist _
  | n :: ns, all => by
    obtain ⟨first, rest⟩ := List.forall_mem_cons.1 all
    rw [unexcusedAll, shownAll]
    exact (unexcused_sublist_shown unhandled n first).append
      (unexcusedAll_sublist_shownAll unhandled ns rest)
end

/-- Whether every text of a tree that nothing excuses is part of the text of its document. -/
def KeepsTexts (formulas : Formula.Converter) (tree : Node) : Prop :=
  ∀ s ∈ unexcused (emit formulas tree).2.unhandled tree,
    ∃ before behind, (emit formulas tree).1.toText = before ++ s ++ behind

theorem exists_of_mem_pieces {s : String} {pieces : List String} (mem : s ∈ pieces) :
    ∃ before behind, String.join pieces = before ++ s ++ behind := by
  obtain ⟨before, behind, rfl⟩ := List.append_of_mem mem
  exact ⟨String.join before, String.join behind, by simp [String.append_assoc]⟩

/-- Without figures, tables, breaks and elements with the name of texts nothing is lost. -/
theorem keepsTexts_of_ordinary (formulas : Formula.Converter) {tree : Node}
    (element : tree.children ≠ none) (all : tree.Everywhere Ordinary) :
    KeepsTexts formulas tree := by
  obtain ⟨pieces, whole, among⟩ := tells_children formulas tree
  intro s mem
  rw [toText_emit, whole]
  refine exists_of_mem_pieces (among.subset ?_)
  obtain ⟨k, _ | cs, v, a⟩ := tree
  · exact absurd rfl element
  · rw [unexcused] at mem
    split at mem
    · exact absurd mem List.not_mem_nil
    · rw [emit_eq] at mem
      exact (unexcusedAll_sublist_shownAll _ cs all.below).subset mem

/-- Whether a text is lost without a word in emitting a tree that is read from a source. -/
def Lossy (source : String) : Prop :=
  ∃ d tree, Xml.parse source = .ok d ∧ tree ∈ d.elements ∧ ¬ KeepsTexts (fun _ => none) tree

/-- A paragraph of a figure, the content of a break and an element with the name of texts are
lost. -/
theorem lossy_sources :
    Lossy "<body><fig><p>x</p></fig></body>" ∧ Lossy "<body><p>a<break>x</break></p></body>" ∧
      Lossy "<body><hr>x</hr></body>" ∧ Lossy "<body><p><text>x</text></p></body>" := by
  have lost {source : String} (loses : (match Xml.parse source with
      | .ok d => d.elements.any fun tree =>
        (unexcused (emit (fun _ => none) tree).2.unhandled tree).contains "x" &&
          !(emit (fun _ => none) tree).1.toText.toList.contains 'x'
      | .error _ => false) = true) : Lossy source := by
    cases read : Xml.parse source with
    | error e => simp [read] at loses
    | ok d =>
      simp only [read, List.any_eq_true, Bool.and_eq_true, List.contains_iff_mem,
        Bool.not_eq_true'] at loses
      obtain ⟨tree, mem, text, missing⟩ := loses
      refine ⟨d, tree, read, mem, fun keeps => ?_⟩
      obtain ⟨before, behind, whole⟩ := keeps "x" text
      simp [whole] at missing
  exact ⟨lost (by decide +kernel), lost (by decide +kernel), lost (by decide +kernel),
    lost (by decide +kernel)⟩

end Myst

end Manuscript
