import Manuscript.Body.Caption
import Manuscript.Proofs.Emission.Contribution
import Manuscript.Proofs.Emission.Forms
import Manuscript.Proofs.Emission.Markup

/-!
How often a table shows a text. The rest of a table goes without what its caption shows, so that a
text is in one of them and not in the other, if the caption takes the nodes that it shows.
-/

set_option autoImplicit false

namespace Manuscript

namespace Node

/-! ### Parts of a table -/

/-- What a table shows of a form behind the caption. -/
def Form.rest (form : Form) : Form := ((form.without "title").without "caption").without "label"

theorem Form.fill_rest (attrs : Attrs) (form : Form) (t : String) :
    form.rest.fill (scalar "text" t attrs) =
      Myst.withoutCaptionParts (form.fill (scalar "text" t attrs)) := by
  rw [Form.rest, Myst.withoutCaptionParts, fill_without (by decide), fill_without (by decide),
    fill_without (by decide)]

theorem suffix_of_firstAlong? {kind : String} {way rest : Way}
    (along : firstAlong? kind way = some (.blank rest)) :
    ∃ c below, rest = c :: below ∧ c.kind = kind ∧ rest <:+ way.tail := by
  induction way with
  | nil => cases along
  | cons c way ih =>
    rw [firstAlong?] at along
    split at along
    · cases along
    · split at along
      · next head =>
        obtain rfl := Form.blank.inj (Option.some.inj along)
        cases way with
        | nil => cases head
        | cons d below => exact ⟨d, below, rfl, beq_iff_eq.1 head, List.suffix_rfl⟩
      · split at along
        · next form inner =>
          obtain rfl := Option.some.inj along
          obtain ⟨d, below, same, kind, suffix⟩ := ih inner
          exact ⟨d, below, same, kind, suffix.trans (List.tail_suffix way)⟩
        · obtain ⟨n, -, same⟩ := Option.map_eq_some_iff.1 along
          cases same

theorem inFirst_eq_false {kind : String} {way : Way} (off : ∀ c ∈ way.tail, c.kind ≠ kind) :
    inFirst kind way = false := by
  unfold inFirst
  cases along : firstAlong? kind way with
  | none => rfl
  | some form =>
    cases form with
    | done n => rfl
    | blank rest =>
      obtain ⟨c, below, rfl, same, suffix⟩ := suffix_of_firstAlong? along
      exact absurd same (off c (suffix.subset List.mem_cons_self))

/-- Whether the caption of a table takes the nodes out of it that it shows. The title is taken out
before the caption is, so that it must not have the caption in it. -/
structure Orderly (table : Node) : Prop where
  title : Myst.takesOutFirst "title" table = true
  caption : Myst.takesOutFirst "caption" (table.removeNearest "title") = true
  apart : ∀ title ∈ table.findKind? "title", title.findKind? "caption" = none

section
variable {attrs : Attrs} {t : String} {kind : String}

theorem isBlank_without (other : kind ≠ "text") {way : Way}
    (first : Myst.takesOutFirst kind (fill way (scalar "text" t attrs)) = true) :
    ((Form.blank way).without kind).isBlank = !inFirst kind way := by
  have same := withoutNearest?_eq_withoutFirst? other (removeNearest?_eq_of_takesOutFirst first)
  rw [← isBlank_withoutFirst?, Form.without, same]
  cases withoutFirst? kind way <;> rfl

theorem nodes_of_without {form : Form} {rest : Way} (out : form.without kind = .blank rest) :
    ∃ way, form = .blank way ∧ rest.map Crumb.node = way.map Crumb.node := by
  cases form with
  | done n => cases out
  | blank way =>
    refine ⟨way, rfl, ?_⟩
    rw [Form.without] at out
    cases found : withoutNearest? kind way with
    | none => rw [found] at out; cases out; rfl
    | some form =>
      rw [found] at out
      exact nodes_of_withoutNearest? (found.trans (congrArg some out))

theorem nodes_of_rest {form : Form} {rest : Way} (out : form.rest = .blank rest) :
    ∃ way, form = .blank way ∧ rest.map Crumb.node = way.map Crumb.node := by
  obtain ⟨inner, uncaptioned, same⟩ := nodes_of_without out
  obtain ⟨middle, untitled, same'⟩ := nodes_of_without uncaptioned
  obtain ⟨way, whole, same''⟩ := nodes_of_without untitled
  exact ⟨way, whole, same.trans (same'.trans same'')⟩

theorem isBlank_without_of_off {way : Way} (off : ∀ n ∈ way.tail.map Crumb.node, n.kind ≠ kind) :
    ((Form.blank way).without kind).isBlank = true := by
  have stays := isBlank_withoutNearest? fun c mem => off c.node (List.mem_map_of_mem mem)
  rw [Form.without]
  cases found : withoutNearest? kind way with
  | none => rfl
  | some form => rw [found] at stays; exact stays

/-- If the first node of a kind is taken out and has none of another kind in it, a text is in the
first of that kind as before. -/
theorem inFirst_without {apart : String} (other : kind ≠ "text") (distinct : apart ≠ kind)
    {way rest : Way} (first : Myst.takesOutFirst kind (fill way (scalar "text" t attrs)) = true)
    (free : ∀ part ∈ (fill way (scalar "text" t attrs)).findKind? kind,
      part.findKind? apart = none)
    (out : (Form.blank way).without kind = .blank rest) :
    inFirst apart rest = inFirst apart way := by
  rw [Form.without, withoutNearest?_eq_withoutFirst? other
    (removeNearest?_eq_of_takesOutFirst first)] at out
  cases found : withoutFirst? kind way with
  | none => rw [found] at out; cases out; rfl
  | some form =>
    rw [found] at out
    refine inFirst_withoutFirst? distinct (found.trans (congrArg some out)) fun part along => ?_
    exact free part (by rw [findKind?_fill other, along]; rfl)

/-- The rest of a table has the texts that its caption does not show. -/
theorem isBlank_rest {way : Way} (orderly : Orderly (fill way (scalar "text" t attrs)))
    (off : ∀ n ∈ way.tail.map Crumb.node, n.kind ≠ "label") :
    (Form.blank way).rest.isBlank = !(inFirst "title" way || inFirst "caption" way) := by
  have titled := isBlank_without (by decide) orderly.title
  unfold Form.rest
  cases untitled : (Form.blank way).without "title" with
  | done n =>
    rw [untitled] at titled
    have through : inFirst "title" way = true := by simpa [Form.isBlank] using titled.symm
    rw [through]
    rfl
  | blank bare =>
    rw [untitled] at titled
    have past : inFirst "title" way = false := by simpa [Form.isBlank] using titled.symm
    -- The caption is looked for in what is left without the title.
    have left : fill bare (scalar "text" t attrs) =
        (fill way (scalar "text" t attrs)).removeNearest "title" := by
      have whole := Form.fill_without (by decide : "title" ≠ "text") attrs (.blank way) t
      rwa [untitled] at whole
    have captioned := isBlank_without (by decide) (left ▸ orderly.caption)
    rw [past, Bool.false_or, ← inFirst_without (by decide) (by decide) orderly.title orderly.apart
      untitled, ← captioned]
    cases uncaptioned : (Form.blank bare).without "caption" with
    | done n => rfl
    | blank bare' =>
      obtain ⟨_, same, shape⟩ := nodes_of_without uncaptioned
      obtain ⟨_, same', shape'⟩ := nodes_of_without untitled
      cases same
      cases same'
      apply isBlank_without_of_off
      rwa [List.map_tail, shape, shape', ← List.map_tail]

end

end Node

namespace Myst

open Manuscript.Node

/-! ### Texts at one place -/

/-- Whether what is made of a text has it at one place, or at none, between the same texts whatever
it reads. -/
def Occurs (once : Bool) (f : String → String) : Prop :=
  ∃ before after, ∀ t, f t = before ++ (if once then t else "") ++ after

namespace Occurs

variable {a b : Bool} {f g : String → String}

theorem const (s : String) : Occurs false fun _ => s := ⟨s, "", fun _ => by simp⟩

theorem self : Occurs true fun t => t := ⟨"", "", fun _ => by simp⟩

theorem congr (same : ∀ t, g t = f t) (occurs : Occurs a f) : Occurs a g := by
  obtain ⟨before, after, all⟩ := occurs
  exact ⟨before, after, fun t => (same t).trans (all t)⟩

theorem append (apart : (a && b) = false) (left : Occurs a f) (right : Occurs b g) :
    Occurs (a || b) fun t => f t ++ g t := by
  obtain ⟨before, between, first⟩ := left
  obtain ⟨between', after, second⟩ := right
  cases a with
  | true =>
    refine ⟨before, between ++ between' ++ after, fun t => ?_⟩
    obtain rfl : b = false := apart
    simp [first, second, String.append_assoc]
  | false =>
    refine ⟨before ++ between ++ between', after, fun t => ?_⟩
    simp [first, second, String.append_assoc]

end Occurs

/-! ### Texts of captions -/

section
variable {s : Setting} {unhandled : Dict Unit}

theorem text_captionOf {title caption : Option Emission} (titled : ∀ e ∈ title, e.Plain)
    (captioned : ∀ e ∈ caption, e.Plain) : (captionOf [title, caption]).text =
      title.elim "" Emission.text ++ caption.elim "" Emission.text := by
  cases title with
  | none =>
    cases caption with
    | none => rfl
    | some e =>
      refine (text_wrap ..).trans ?_
      simp [text_join (captioned e rfl) .empty, text_empty]
  | some e =>
    cases caption with
    | none =>
      refine (text_wrap ..).trans ?_
      simp [text_join (titled e rfl) .empty, text_empty]
    | some e' =>
      refine (text_wrap ..).trans ?_
      have joined : (e'.join .empty).Plain := (captioned e' rfl).join .empty
      simp [text_join (titled e rfl) joined, text_join (captioned e' rfl) .empty, text_empty]

theorem covers_captionOf {title caption : Option Emission}
    (covers : Covers unhandled (captionOf [title, caption]).report) :
    (∀ e ∈ title, Covers unhandled e.report) ∧ ∀ e ∈ caption, Covers unhandled e.report := by
  cases title with
  | none =>
    cases caption with
    | none => exact ⟨nofun, nofun⟩
    | some e => exact ⟨nofun, fun _ same => Option.some.inj same ▸ (covers_append.1 covers).1⟩
  | some e =>
    obtain ⟨first, rest⟩ := covers_append.1 covers
    refine ⟨fun _ same => Option.some.inj same ▸ first, ?_⟩
    cases caption with
    | none => exact nofun
    | some e' => exact fun _ same => Option.some.inj same ▸ (covers_append.1 rest).1

theorem covers_renderAll {ns : List Node} (covers : Covers unhandled (renderAll s ns).report) :
    ∀ n ∈ ns, Covers unhandled (render s n).report := by
  induction ns with
  | nil => exact List.forall_mem_nil _
  | cons n ns ih =>
    rw [renderAll] at covers
    obtain ⟨first, rest⟩ := covers_append.1 covers
    exact List.forall_mem_cons.2 ⟨first, ih rest⟩

theorem text_renderAll_append (ms ns : List Node) :
    (renderAll s (ms ++ ns)).text = (renderAll s ms).text ++ (renderAll s ns).text := by
  induction ms with
  | nil => rw [renderAll]; exact String.empty_append.symm
  | cons m ms ih =>
    rw [List.cons_append, text_renderAll_cons, ih, text_renderAll_cons, String.append_assoc]

end

/-! ### Elements around a text -/

/-- What the rule is of an element that is meant to show its content. -/
def Rule.Passes (n : Node) : Rule → Prop
  | .figure => n.kind = "fig"
  | .table => n.kind = "table-wrap"
  | .code => n.isOneOf ["code", "preformat"] = true
  | .unknown => n.kind ≠ "table-wrap"
  | rule => rule.isOpen = true ∧ n.isOneOf ["fig", "table-wrap", "code", "preformat"] = false

/-- Whether an element is not meant to hide what is in it. -/
def Meant (unhandled : Dict Unit) (n : Node) : Prop :=
  excused unhandled n = false ∨ n.kind = "table-wrap"

theorem passes_referenceRule {unhandled : Dict Unit} {n : Node} (kind : n.kind = "xref")
    (meant : Meant unhandled n) : (referenceRule n).Passes n := by
  unfold referenceRule
  simp only
  split
  case h_7 | h_8 =>
    rename_i type
    cases found : n.attrText? "ref-type" <;>
      simp_all [Meant, excused, Node.is, Node.isOneOf]
  all_goals exact ⟨rfl, by rw [Node.isOneOf, kind]; rfl⟩

theorem passes_ruleOf {unhandled : Dict Unit} {n : Node} (meant : Meant unhandled n)
    (whole : n.isOneOf ["break", "hr", "text"] = false) : (ruleOf n).Passes n := by
  unfold ruleOf
  split
  all_goals
    rename_i kind
    first
      | exact kind
      | exact ⟨rfl, by rw [Node.isOneOf, kind]; rfl⟩
      | exact passes_referenceRule kind meant
      | exact absurd whole (by rw [Node.isOneOf, kind]; decide)
      | exact show n.isOneOf _ = true by rw [Node.isOneOf, kind]; rfl
      | assumption
      | exact absurd meant (by simp [Meant, excused, Node.isOneOf, kind])

/-- What an element at the start of a way shows the content of. -/
def formsOf : Way → List Form
  | [] => []
  | c :: way =>
    let parts :=
      (firstAlong? "title" (c :: way)).toList ++ (firstAlong? "caption" (c :: way)).toList
    if c.kind = "fig" then parts
    else if c.kind = "table-wrap" then parts ++ [(Form.blank (c :: way)).rest]
    else if c.node.isOneOf ["code", "preformat"] then []
    else [.blank (c :: way)]

/-- Whether no element on the way to a text loses it or shows it twice. A break has no content. A
figure shows what is in its first title and what is in its first caption, so that the text has to be
in one of them. A table has to be orderly, with the text not in both. -/
inductive Fair (x : Node) : Way → Prop
  | here : Fair x []
  | under {c : Crumb} {way : Way}
      (whole : c.node.isOneOf ["break", "hr", "text"] = false)
      (figure : c.kind = "fig" →
        (inFirst "title" (c :: way) ^^ inFirst "caption" (c :: way)) = true)
      (table : c.kind = "table-wrap" → Orderly (fill (c :: way) x) ∧
        (inFirst "title" (c :: way) && inFirst "caption" (c :: way)) = false)
      -- A table may be rendered without parts that one around it has taken out.
      (onward : ∀ rest, .blank rest ∈ formsOf (c :: way) → Fair x rest.tail) : Fair x (c :: way)

theorem exists_of_mem_formsOf {c : Crumb} {way rest : Way}
    (mem : .blank rest ∈ formsOf (c :: way)) : ∃ d below, rest = d :: below ∧
      ∀ n ∈ below.map Crumb.node, n ∈ way.map Crumb.node := by
  have part {kind : String} (along : .blank rest ∈ (firstAlong? kind (c :: way)).toList) :
      ∃ d below, rest = d :: below ∧ ∀ n ∈ below.map Crumb.node, n ∈ way.map Crumb.node := by
    obtain ⟨d, below, rfl, -, suffix⟩ := suffix_of_firstAlong? (Option.mem_toList.1 along)
    exact ⟨d, below, rfl, fun n mem =>
      (suffix.map Crumb.node).subset (List.mem_cons_of_mem _ mem)⟩
  simp only [formsOf] at mem
  split at mem
  · exact (List.mem_append.1 mem).elim part part
  · split at mem
    · rcases List.mem_append.1 mem with parts | left
      · exact (List.mem_append.1 parts).elim part part
      · obtain ⟨_, same, shape⟩ := nodes_of_rest (List.mem_singleton.1 left).symm
        cases same
        cases rest with
        | nil => cases shape
        | cons d below => exact ⟨d, below, rfl, fun n mem => (List.cons.inj shape).2 ▸ mem⟩
    · split at mem
      · cases mem
      · cases List.mem_singleton.1 mem
        exact ⟨c, way, rfl, fun n mem => mem⟩

section
variable {unhandled : Dict Unit} {attrs : Attrs} {v : String} {c : Crumb} {way : Way}

theorem ruleOf_fill (c : Crumb) (n : Node) : ruleOf (c.fill n) = ruleOf c.node := rfl

theorem occurs_kids {s : Setting} {once : Bool} {f : String → Node}
    (inner : Occurs once fun t => (render s (f t)).text) :
    Occurs once fun t => (renderAll s (c.fill (f t)).kids).text := by
  have around : Occurs (false || once || false) fun t =>
      (renderAll s c.before).text ++ (render s (f t)).text ++ (renderAll s c.after).text :=
    .append (by simp) (.append (by simp) (.const _) inner) (.const _)
  rw [Bool.false_or, Bool.or_false] at around
  refine around.congr fun t => ?_
  rw [Crumb.fill, kids, Option.getD_some, text_renderAll_append, text_renderAll_cons,
    String.append_assoc]

/-- What is known of the forms that an element shows the content of. -/
def Inner (unhandled : Dict Unit) (v : String) (attrs : Attrs) (forms : List Form) : Prop :=
  ∀ {s : Setting} {rest : Way}, .blank rest ∈ forms →
    Covers unhandled (renderAll s (fill rest (scalar "text" v attrs)).kids).report →
      Occurs true fun t => (renderAll s (fill rest (scalar "text" t attrs)).kids).text

theorem Inner.occurs {forms : List Form} (inner : Inner unhandled v attrs forms) {s : Setting}
    {form : Form} (mem : form ∈ forms)
    (covers : Covers unhandled (renderAll s (form.fill (scalar "text" v attrs)).kids).report) :
    Occurs form.isBlank fun t => (renderAll s (form.fill (scalar "text" t attrs)).kids).text := by
  cases form with
  | done n => exact .const (renderAll s n.kids).text
  | blank rest => exact inner mem covers

theorem mem_formsOf_of_part {kind : String} (holder : c.kind = "fig" ∨ c.kind = "table-wrap")
    (part : kind = "title" ∨ kind = "caption") {form : Form}
    (along : firstAlong? kind (c :: way) = some form) : form ∈ formsOf (c :: way) := by
  have listed : form ∈ (firstAlong? "title" (c :: way)).toList ++
      (firstAlong? "caption" (c :: way)).toList := by
    rcases part with rfl | rfl <;> simp [along]
  simp only [formsOf]
  split
  · exact listed
  · rw [if_pos (holder.resolve_left (by assumption))]
    exact List.mem_append_left _ listed

/-- A figure or a table shows a text in its title if it is in the first title below. -/
theorem occurs_titlePart {s : Setting} (holder : c.kind = "fig" ∨ c.kind = "table-wrap")
    (inner : Inner unhandled v attrs (formsOf (c :: way)))
    (covers : ∀ e ∈ titlePart s (fill (c :: way) (scalar "text" v attrs)),
      Covers unhandled e.report) :
    Occurs (inFirst "title" (c :: way)) fun t =>
      (titlePart s (fill (c :: way) (scalar "text" t attrs))).elim "" Emission.text := by
  unfold titlePart at *
  simp only [findKind?_fill (by decide : "title" ≠ "text"), Option.map_map] at *
  unfold inFirst
  cases along : firstAlong? "title" (c :: way) with
  | none => exact .const ""
  | some form =>
    rw [along] at covers
    cases form with
    | done n => exact .const (boldParagraph (content s.inside n)).text
    | blank rest =>
      have mem := mem_formsOf_of_part holder (.inl rfl) along
      have shown : Covers unhandled
          (content s.inside (fill rest (scalar "text" v attrs))).report :=
        covers (boldParagraph _) rfl
      rw [report_content] at shown
      obtain ⟨d, below, rfl, -⟩ := exists_of_mem_formsOf mem
      refine (inner mem shown).congr fun t => ?_
      exact (text_boldParagraph _).trans
        (text_content fun none => absurd none (Option.some_ne_none _))

theorem occurs_captionPart {s : Setting} (holder : c.kind = "fig" ∨ c.kind = "table-wrap")
    (inner : Inner unhandled v attrs (formsOf (c :: way)))
    (covers : ∀ e ∈ captionPart s (fill (c :: way) (scalar "text" v attrs)),
      Covers unhandled e.report) :
    Occurs (inFirst "caption" (c :: way)) fun t =>
      (captionPart s (fill (c :: way) (scalar "text" t attrs))).elim "" Emission.text := by
  unfold captionPart at *
  simp only [findKind?_fill (by decide : "caption" ≠ "text"), Option.map_map] at *
  unfold inFirst
  cases along : firstAlong? "caption" (c :: way) with
  | none => exact .const ""
  | some form =>
    rw [along] at covers
    exact inner.occurs (mem_formsOf_of_part holder (.inr rfl) along) (covers (renderAll _ _) rfl)

theorem text_figureImage (n : Node) : (figureImage n).text = "" := by
  unfold figureImage
  split <;> rfl

theorem occurs_figure {s : Setting} (kind : c.kind = "fig")
    (fair : (inFirst "title" (c :: way) ^^ inFirst "caption" (c :: way)) = true)
    (inner : Inner unhandled v attrs (formsOf (c :: way)))
    (covers : Covers unhandled (render s (fill (c :: way) (scalar "text" v attrs))).report) :
    Occurs true fun t => (render s (fill (c :: way) (scalar "text" t attrs))).text := by
  have rule (t : String) : ruleOf (fill (c :: way) (scalar "text" t attrs)) = .figure :=
    ruleOf_of_kind kind rfl
  rw [render_figure s (rule v)] at covers
  obtain ⟨titled, captioned⟩ := covers_captionOf (covers_append.1 covers).2
  have one : ∀ {a b : Bool}, (a ^^ b) = true → (a && b) = false ∧ (a || b) = true := by decide
  obtain ⟨apart, once⟩ := one fair
  have both := (occurs_titlePart (.inl kind) inner titled).append apart
    (occurs_captionPart (.inl kind) inner captioned)
  rw [once] at both
  refine both.congr fun t => ?_
  rw [render_figure s (rule t), text_wrap, text_join (plain_figureImage _) (plain_captionOf _),
    text_figureImage, String.empty_append, text_captionOf plain_titlePart plain_captionPart]

theorem occurs_labelPart (s : Setting) (attrs : Attrs) (c : Crumb)
    (off : ∀ n ∈ way.map Crumb.node, n.kind ≠ "label") :
    Occurs false fun t =>
      (labelPart s (fill (c :: way) (scalar "text" t attrs))).elim "" Emission.text := by
  have past : inFirst "label" (c :: way) = false :=
    inFirst_eq_false fun d mem => off d.node (List.mem_map_of_mem mem)
  unfold labelPart
  unfold inFirst at past
  simp only [findKind?_fill (by decide : "label" ≠ "text")]
  cases along : firstAlong? "label" (c :: way) with
  | none => exact .const ""
  | some form =>
    rw [along] at past
    cases form with
    | done n => exact .const (Emission.wrap "paragraph" .empty (content s.inside n)).text
    | blank rest => cases past

/-- A table shows its label instead of a caption only if it has no caption, and then no text. -/
theorem occurs_captionOrLabel {s : Setting} (holder : c.kind = "fig" ∨ c.kind = "table-wrap")
    (off : ∀ n ∈ way.map Crumb.node, n.kind ≠ "label")
    (inner : Inner unhandled v attrs (formsOf (c :: way)))
    (covers : ∀ e ∈ (captionPart s (fill (c :: way) (scalar "text" v attrs))).or
      (labelPart s (fill (c :: way) (scalar "text" v attrs))), Covers unhandled e.report) :
    Occurs (inFirst "caption" (c :: way)) fun t =>
      ((captionPart s (fill (c :: way) (scalar "text" t attrs))).or
        (labelPart s (fill (c :: way) (scalar "text" t attrs)))).elim "" Emission.text := by
  have captioned := occurs_captionPart (s := s) holder inner fun e mem => covers e (by
    rw [Option.mem_def] at mem ⊢
    rw [mem, Option.some_or])
  have found (t : String) : (captionPart s (fill (c :: way) (scalar "text" t attrs))).isSome =
      (firstAlong? "caption" (c :: way)).isSome := by
    rw [captionPart, Option.isSome_map, findKind?_fill (by decide), Option.isSome_map]
  cases along : firstAlong? "caption" (c :: way) with
  | none =>
    have past : inFirst "caption" (c :: way) = false := by rw [inFirst, along]; rfl
    rw [along] at found
    rw [past]
    refine (occurs_labelPart s attrs c off).congr fun t => ?_
    have none : captionPart s (fill (c :: way) (scalar "text" t attrs)) = none :=
      Option.isNone_iff_eq_none.1 (Option.isSome_eq_false_iff.1 (found t))
    rw [none, Option.none_or]
  | some form =>
    rw [along] at found
    refine captioned.congr fun t => ?_
    obtain ⟨e, same⟩ := Option.isSome_iff_exists.1 (found t)
    rw [same, Option.some_or]

theorem occurs_table {s : Setting} (kind : c.kind = "table-wrap")
    (orderly : Orderly (fill (c :: way) (scalar "text" v attrs)))
    (apart : (inFirst "title" (c :: way) && inFirst "caption" (c :: way)) = false)
    (off : ∀ n ∈ way.map Crumb.node, n.kind ≠ "label")
    (inner : Inner unhandled v attrs (formsOf (c :: way)))
    (covers : Covers unhandled (render s (fill (c :: way) (scalar "text" v attrs))).report) :
    Occurs true fun t => (render s (fill (c :: way) (scalar "text" t attrs))).text := by
  have rule (t : String) : ruleOf (fill (c :: way) (scalar "text" t attrs)) = .table :=
    ruleOf_of_kind kind rfl
  rw [render_table s (rule v)] at covers
  obtain ⟨before, behind⟩ := covers_append.1 covers
  obtain ⟨titled, captioned⟩ := covers_captionOf before
  have caption := occurs_captionOrLabel (.inr kind) off inner captioned
  have front := (occurs_titlePart (.inr kind) inner titled).append apart caption
  have mem : (Form.blank (c :: way)).rest ∈ formsOf (c :: way) := by
    simp [formsOf, kind]
  have left (t : String) : withoutCaptionParts (fill (c :: way) (scalar "text" t attrs)) =
      (Form.blank (c :: way)).rest.fill (scalar "text" t attrs) :=
    (Form.fill_rest attrs (.blank (c :: way)) t).symm
  rw [left] at behind
  -- The rest has the text if the caption has not.
  have back := inner.occurs mem behind
  rw [isBlank_rest orderly off] at back
  have whole := front.append (Bool.and_not_self _) back
  rw [Bool.or_not_self] at whole
  refine whole.congr fun t => ?_
  rw [render_table s (rule t), text_wrap, text_join (plain_captionOf _) plain_renderAll,
    text_captionOf plain_titlePart plain_captionPart_or, left]

theorem toText_fill (c : Crumb) (n : Node) : (c.fill n).toText =
    c.value.getD "" ++ forestText c.before ++ n.toText ++ forestText c.after := by
  rw [toText_eq, Crumb.fill, kids, Option.getD_some, forestText_append, forestText]
  simp only [String.append_assoc]

theorem occurs_toText (way : Way) (attrs : Attrs) :
    Occurs true fun t => (fill way (scalar "text" t attrs)).toText := by
  induction way with
  | nil => exact .self
  | cons c way ih =>
    have around := (Occurs.const (c.value.getD "" ++ forestText c.before)).append (by simp)
      (ih.append (by simp) (.const (forestText c.after)))
    exact around.congr fun t => by rw [fill, toText_fill, String.append_assoc]

theorem covers_kids_of_isOpen {s : Setting} {n : Node} (isOpen : (ruleOf n).isOpen = true)
    (covers : Covers unhandled (render s n).report) :
    Covers unhandled (renderAll s n.kids).report := by
  unfold Covers at *
  rwa [unhandled_render_of_isOpen isOpen] at covers

theorem occurs_open {s : Setting} (isOpen : (ruleOf c.node).isOpen = true)
    (plain : c.node.isOneOf ["fig", "table-wrap", "code", "preformat"] = false)
    (inner : Inner unhandled v attrs (formsOf (c :: way)))
    (covers : Covers unhandled (render s (fill (c :: way) (scalar "text" v attrs))).report) :
    Occurs true fun t => (render s (fill (c :: way) (scalar "text" t attrs))).text := by
  have mem : .blank (c :: way) ∈ formsOf (c :: way) := by
    simp only [Node.isOneOf, List.contains_cons, List.contains_nil, Bool.or_eq_false_iff,
      beq_eq_false_iff_ne, Crumb.node] at plain
    simp [formsOf, Node.isOneOf, Crumb.node, plain]
  exact (inner mem (covers_kids_of_isOpen isOpen covers)).congr fun t =>
    text_render_of_isOpen isOpen fun none => absurd none (Option.some_ne_none _)

theorem occurs_code {s : Setting} (rule : ruleOf c.node = .code) :
    Occurs true fun t => (render s (fill (c :: way) (scalar "text" t attrs))).text := by
  refine (occurs_toText (c :: way) attrs).congr fun t => ?_
  rw [render, fill, ruleOf_fill, rule]
  simp [Emission.text, Emission.ofNode, forestText, scalar, toText]

/-- A text on a fair way is shown at one place. -/
theorem occurs_render (fair : Fair (scalar "text" v attrs) way) {s : Setting}
    (meant : ∀ n ∈ way.map Crumb.node, Meant unhandled n)
    (covers : Covers unhandled (render s (fill way (scalar "text" v attrs))).report) :
    Occurs true fun t => (render s (fill way (scalar "text" t attrs))).text := by
  -- The report is that of the text as it is in the tree; which elements are reported does not hang
  -- on the other texts that are put in its place.
  induction fair generalizing s with
  | here =>
    refine Occurs.self.congr fun t => ?_
    rw [fill, render]
    exact text_ofText t
  | @under c way whole figure table onward ih =>
    have off : ∀ n ∈ way.map Crumb.node, n.kind ≠ "label" := by
      intro n mem label
      rcases meant n (List.mem_cons_of_mem _ mem) with shown | kind
      · simp [excused, Node.isOneOf, label] at shown
      · rw [label] at kind
        exact absurd kind (by decide)
    have inner : Inner unhandled v attrs (formsOf (c :: way)) := by
      intro s rest mem covers
      obtain ⟨d, below, rfl, among⟩ := exists_of_mem_formsOf mem
      refine occurs_kids (ih _ mem (fun n place => ?_) ?_)
      · exact meant n (List.mem_cons_of_mem _ (among n place))
      · exact covers_renderAll covers _ (List.mem_append_right _ List.mem_cons_self)
    have passes := passes_ruleOf (meant c.node List.mem_cons_self) whole
    cases rule : ruleOf c.node <;> rw [rule] at passes
    case figure => exact occurs_figure passes (figure passes) inner covers
    case table =>
      obtain ⟨orderly, apart⟩ := table passes
      exact occurs_table passes orderly apart off inner covers
    case code => exact occurs_code rule
    case unknown =>
      -- The kind is reported here, so that the element is not meant to show its content.
      rw [fill, render, ruleOf_fill, rule] at covers
      have reported := covers_addUnhandled covers
      rcases meant c.node List.mem_cons_self with shown | kind
      · simp [excused, show unhandled.contains c.node.kind = true from reported] at shown
      · exact absurd kind passes
    all_goals exact occurs_open (by rw [rule]; exact passes.1) passes.2 inner covers

end

/-! ### Tables -/

/-- Whether the container of a table has the text at the end of the way at one place, whatever the
text reads. -/
def ShowsOnce (s : Setting) (way : Way) (attrs : Attrs) : Prop :=
  ∃ before after, ∀ t, ∃ container, (render s (fill way (scalar "text" t attrs))).forest =
    [container] ∧ container.kind = "container" ∧ container.toText = before ++ t ++ after

/-- The container of a table shows a text below the table at one place, if nothing excuses an
element around the text and none of them loses or repeats its content. -/
theorem table_shows_text_once (s : Setting) {c : Crumb} {way : Way} {v : String} {attrs : Attrs}
    (kind : c.kind = "table-wrap")
    (meant : ∀ d ∈ way, excused (render s
      (fill (c :: way) (scalar "text" v attrs))).report.unhandled d.node = false)
    (fair : Fair (scalar "text" v attrs) (c :: way)) : ShowsOnce s (c :: way) attrs := by
  obtain ⟨before, after, once⟩ := occurs_render fair
    (List.forall_mem_map.2 (List.forall_mem_cons.2 ⟨.inr kind, fun d mem => .inl (meant d mem)⟩))
    fun _ reported => reported
  refine ⟨before, after, fun t => ?_⟩
  have text : (render s (fill (c :: way) (scalar "text" t attrs))).text =
    before ++ t ++ after := once t
  rw [render_table s (ruleOf_of_kind kind rfl)] at text ⊢
  exact ⟨_, rfl, rfl, by simpa [Emission.text, Emission.wrap, forestText] using text⟩

theorem Fair.through {x : Node} {c : Crumb} {way : Way}
    (plain : c.node.isOneOf ["break", "hr", "text", "fig", "table-wrap", "code", "preformat"] =
      false) (fair : Fair x way) : Fair x (c :: way) := by
  simp only [Node.isOneOf, List.contains_cons, List.contains_nil, Bool.or_eq_false_iff,
    beq_eq_false_iff_ne, Crumb.node] at plain
  refine .under (by simp [Node.isOneOf, Crumb.node, plain]) (fun fig => by simp_all)
    (fun table => by simp_all) fun rest mem => ?_
  have only : formsOf (c :: way) = [.blank (c :: way)] := by
    simp [formsOf, Node.isOneOf, Crumb.node, plain]
  rw [only] at mem
  cases List.mem_singleton.1 mem
  exact fair

def lone (kind : String) : Crumb := ⟨kind, none, .empty, [], []⟩

/-- A title and a caption, and a table in a cell that has its text in its own caption. -/
def nestedTable : Way :=
  { lone "table-wrap" with
    before := [.branch "title" [.text "T"], .branch "caption" [.branch "p" [.text "C"]]] } ::
  lone "table" :: lone "td" ::
  { lone "table-wrap" with after := [.branch "table" [.text "D"]] } ::
  lone "caption" :: [lone "p"]

theorem table_shows_text_once_nested :
    (∀ d ∈ nestedTable.tail, excused (render ⟨fun _ => none, false⟩
        (fill nestedTable (scalar "text" "x"))).report.unhandled d.node = false) ∧
      Fair (scalar "text" "x") nestedTable ∧
        ShowsOnce ⟨fun _ => none, false⟩ nestedTable .empty := by
  have meant : ∀ d ∈ nestedTable.tail, excused (render ⟨fun _ => none, false⟩
      (fill nestedTable (scalar "text" "x"))).report.unhandled d.node = false := by
    decide +kernel
  have caption : Fair (scalar "text" "x") [lone "p"] := .through rfl .here
  have inner : Fair (scalar "text" "x") (nestedTable.drop 3) := by
    refine .under rfl nofun (fun _ => ⟨⟨by decide, by decide, by decide⟩, by decide⟩) ?_
    intro rest (mem : .blank rest ∈ formsOf (nestedTable.drop 3))
    have forms : ∃ n, formsOf (nestedTable.drop 3) =
      [.blank [lone "caption", lone "p"], .done n] := ⟨_, rfl⟩
    obtain ⟨n, forms⟩ := forms
    rw [forms] at mem
    obtain rfl : rest = [lone "caption", lone "p"] := by simpa using mem
    exact caption
  have fair : Fair (scalar "text" "x") nestedTable := by
    refine .under rfl nofun (fun _ => ⟨⟨by decide, by decide, by decide⟩, by decide⟩) ?_
    intro rest (mem : .blank rest ∈ formsOf nestedTable)
    have forms : ∃ m n, formsOf nestedTable =
      [.done m, .done n, .blank (lone "table-wrap" :: nestedTable.tail)] := ⟨_, _, rfl⟩
    obtain ⟨m, n, forms⟩ := forms
    rw [forms] at mem
    obtain rfl : rest = lone "table-wrap" :: nestedTable.tail := by simpa using mem
    exact .through rfl (.through rfl inner)
  exact ⟨meant, fair, table_shows_text_once _ rfl meant fair⟩

/-- Whether every text below a table that nothing excuses is shown at one place. -/
def TablesShowOnce (formulas : Formula.Converter) (tree : Node) : Prop :=
  ∀ (c : Crumb) (way : Way) (v : String) (attrs : Attrs), c.kind = "table-wrap" →
    fill (c :: way) (scalar "text" v attrs) ∈ (Body.hoistTitles tree).nodes →
    (∀ d ∈ way, excused (emit formulas (Body.hoistTitles tree)).2.unhandled d.node = false) →
      ShowsOnce ⟨formulas, false⟩ (c :: way) attrs

/-- A figure in a cell shows no paragraph. -/
theorem not_tablesShowOnce_figure : ¬ TablesShowOnce (fun _ => none) (.branch "body"
    [fill (["table-wrap", "table", "tr", "td", "fig", "p"].map lone) (.text "x")]) := by
  intro all
  obtain ⟨before, after, once⟩ := all (lone "table-wrap")
    (["table", "tr", "td", "fig", "p"].map lone) "x" .empty rfl (by decide +kernel)
    (by decide +kernel)
  obtain ⟨container, forest, -, text⟩ := once "x"
  have lost : (render ⟨fun _ => none, false⟩ (fill (lone "table-wrap" ::
      ["table", "tr", "td", "fig", "p"].map lone) (scalar "text" "x" .empty))).text = "" := by
    decide +kernel
  rw [Emission.text, forest, forestText, text] at lost
  simp [forestText] at lost

end Myst

end Manuscript
