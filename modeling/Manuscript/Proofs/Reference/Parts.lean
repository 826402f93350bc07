import Manuscript.Proofs.Reference.Drafts

/-!
What becomes of the parts of a citation that goes into the bibliography. A part that is neither a
label, an identifier, a text between the parts nor a person is shown in a field of the entry or
reported as lost, unless another part takes its place: a later page for an earlier one, a title for
the number of a patent. Such a part, and a last page without a first, is passed over; the entry and
the report are what they are without it. Of a citation that does not go into the bibliography
nothing is reported.
-/

set_option autoImplicit false

namespace Manuscript.Reference

namespace Bibtex

open Manuscript.Node

/-- What an entry shows of a part: its text, and of a link its target if it has one. -/
def shown (part : Node) : String :=
  if part.kind = "uri" then (part.attrText? "xlink:href").getD (textOf part) else textOf part

/-- Whether a draft accounts for a part, in a field or in the report. -/
def Draft.Accounted (d : Draft) (key kind : String) (part : Node) : Prop :=
  (∃ line ∈ d.fields, (shown part).toList <:+: line.toList) ∨
    ∃ item, report? key kind part = some item ∧ item ∈ d.skipped

/-- Whether a part gives way to others of its citation. -/
inductive PassedOver (kind : String) (front : List Node) (part : Node) (back : List Node) : Prop
  /-- Another page of its kind follows. -/
  | page (isOne : part.kind = "fpage" ∨ part.kind = "lpage") {later : Node} (mem : later ∈ back)
      (same : later.kind = part.kind)
  /-- It is a last page, and there is no first. -/
  | startless (isOne : part.kind = "lpage")
      (none : ∀ other ∈ front ++ back, textIf? "fpage" other = none ∧ loose? other = none)
  /-- It is the number of a patent, and there is a title. -/
  | patent (isOne : part.kind = "patent") {other : Node} (mem : other ∈ front ++ back)
      {title : String} (defined : definition? kind other = some ("title", title))

section
variable {key kind : String} {isPatent : Bool} {part : Node} {front back : List Node}

/-! ### Parts that are accounted for -/

theorem infix_of_eq {before text behind whole : String} (split : whole = before ++ text ++ behind) :
    text.toList <:+: whole.toList :=
  ⟨before.toList, behind.toList, by rw [split, String.toList_append, String.toList_append]⟩

theorem infix_append_left (before text : String) : text.toList <:+: (before ++ text).toList :=
  infix_of_eq (String.append_empty).symm

theorem infix_append_right (text behind : String) : text.toList <:+: (text ++ behind).toList :=
  infix_of_eq (by rw [String.empty_append])

theorem infix_braced (text : String) : text.toList <:+: (braced text).toList := infix_of_eq rfl

theorem infix_field (name value : String) : value.toList <:+: (field name value).toList :=
  (infix_braced value).trans (infix_append_left _ _)

theorem infix_intercalate {sep text : String} {texts : List String} (mem : text ∈ texts) :
    text.toList <:+: (String.intercalate sep texts).toList := by
  obtain ⟨before, after, rfl⟩ := List.append_of_mem mem
  exact infix_of_eq (intercalate_append_cons sep text before after)

theorem shown_of_kind_ne (other : part.kind ≠ "uri") : shown part = textOf part := if_neg other

theorem shown_infix_textOf (other : part.kind ≠ "uri") :
    (shown part).toList <:+: (textOf part).toList := by
  simp only [shown_of_kind_ne other, List.infix_refl]

theorem shown_infix_of_definition? {name value : String}
    (defined : definition? kind part = some (name, value)) :
    (shown part).toList <:+: value.toList := by
  unfold definition? at defined
  simp only at defined
  split at defined
  case h_15 isOne =>
    cases defined
    rw [shown, if_pos isOne]
    exact (infix_braced _).trans (infix_append_left _ _)
  case h_16 isOne =>
    cases defined
    have own : (shown part).toList <:+: (textOf part).toList :=
      shown_infix_textOf (by rw [isOne]; decide)
    split
    · exact own.trans (infix_append_left _ _)
    · exact own
  all_goals cases defined
  all_goals
    rename_i isOne
    exact shown_infix_textOf (by rw [isOne]; decide)

namespace Draft

variable {d : Draft}

theorem accounted_of_mem {name value : String} (line : field name value ∈ d.fields)
    (within : (shown part).toList <:+: value.toList) : d.Accounted key kind part :=
  .inl ⟨field name value, line, within.trans (infix_field name value)⟩

theorem accounted_of_definition? {name value : String}
    (defined : definition? kind part = some (name, value)) (mem : field name value ∈ d.lines) :
    d.Accounted key kind part := by
  have line : field name value ∈ d.fields := by simp [fields, mem]
  exact accounted_of_mem line (shown_infix_of_definition? defined)

theorem accounted_of_page {value : String} (pages : d.pageLines = [field "pages" value])
    (within : (shown part).toList <:+: value.toList) : d.Accounted key kind part := by
  have line : field "pages" value ∈ d.fields := by simp [fields, pages]
  exact accounted_of_mem line within

theorem accounted_of_firstPage (page : d.firstPage = some (shown part)) :
    d.Accounted key kind part := by
  refine accounted_of_page (by rw [pageLines, page]; rfl) ?_
  split
  · rw [String.append_assoc]
    exact infix_append_right _ _
  · exact List.infix_refl _

theorem accounted_of_lastPage {first : String} (start : d.firstPage.or d.loosePage = some first)
    (page : d.lastPage = some (shown part)) : d.Accounted key kind part := by
  refine accounted_of_page ?_ (infix_append_left (first ++ "--") (shown part))
  rw [pageLines, Option.orElse_eq_or, start, page]

theorem accounted_of_patent (untitled : d.hasTitle = false) (mem : shown part ∈ d.patent) :
    d.Accounted key kind part := by
  have title : d.patentLines = [field "title" (String.intercalate " " d.patent)] := by
    rw [patentLines, untitled, List.isEmpty_eq_false_iff_exists_mem.2 ⟨_, mem⟩]
    rfl
  have line : field "title" (String.intercalate " " d.patent) ∈ d.fields := by
    simp [fields, title]
  exact accounted_of_mem line (infix_intercalate mem)

end Draft

theorem getLast?_filterMap_textIf? {k : String} (isOne : part.kind = k)
    (last : ∀ later ∈ back, later.kind ≠ k) :
    ((front ++ part :: back).filterMap (textIf? k)).getLast? = some (textOf part) := by
  have none : back.filterMap (textIf? k) = [] :=
    List.filterMap_eq_nil_iff.2 fun later mem => if_neg (last later mem)
  have own : textIf? k part = some (textOf part) := if_pos isOne
  rw [List.filterMap_append, List.filterMap_cons_some own, none, List.getLast?_concat]

theorem placed_of_silent (defined : definition? kind part = none)
    (reported : report? key kind part = none) : part.isOneOf placedKinds = true := by
  cases placed : part.isOneOf placedKinds with
  | true => rfl
  | false => simp [report?, defined, placed] at reported

/-- A part that is to be accounted for and has no field of its own shares one. -/
theorem shared_of_placed (subject : part.isOneOf exemptKinds = false)
    (placed : part.isOneOf placedKinds = true) : part.kind ∈ sharedKinds := by
  rw [isOneOf, List.contains_eq_mem, decide_eq_false_iff_not] at subject
  rw [isOneOf, List.contains_iff_mem, placedKinds, List.mem_append] at placed
  exact placed.resolve_right subject

theorem mem_sharedKinds {k : String} :
    k ∈ sharedKinds ↔ k = "patent" ∨ k = "fpage" ∨ k = "lpage" := by
  simp [sharedKinds]

theorem no_later (standing : ¬ PassedOver kind front part back)
    (isOne : part.kind = "fpage" ∨ part.kind = "lpage") : ∀ later ∈ back, later.kind ≠ part.kind :=
  fun _ mem same => standing (.page isOne mem same)

theorem mem_parts {other : Node} :
    other ∈ front ++ part :: back ↔ other = part ∨ other ∈ front ++ back :=
  List.perm_middle.mem_iff.trans List.mem_cons

theorem exists_start (standing : ¬ PassedOver kind front part back) (isOne : part.kind = "lpage")
    (key : String) (isPatent : Bool) :
    ∃ first, (Draft.ofParts key kind isPatent (front ++ part :: back)).firstPage.or
      (Draft.ofParts key kind isPatent (front ++ part :: back)).loosePage = some first := by
  rw [← Option.isSome_iff_exists, ← Option.ne_none_iff_isSome]
  intro none
  obtain ⟨first, loose⟩ := Option.or_eq_none_iff.1 none
  simp only [Draft.ofParts, List.getLast?_eq_none_iff, List.filterMap_eq_nil_iff] at first loose
  exact standing (.startless isOne fun other mem =>
    ⟨first other (mem_parts.2 (.inr mem)), loose other (mem_parts.2 (.inr mem))⟩)

theorem untitled (standing : ¬ PassedOver kind front part back) (isOne : part.kind = "patent")
    (key : String) (isPatent : Bool) :
    (Draft.ofParts key kind isPatent (front ++ part :: back)).hasTitle = false := by
  rw [Bool.eq_false_iff]
  intro titled
  obtain ⟨⟨name, title⟩, mem, named⟩ := List.any_eq_true.1 titled
  obtain ⟨other, parts, defined⟩ := List.mem_filterMap.1 mem
  cases eq_of_beq named
  rcases mem_parts.1 parts with rfl | mem
  · rw [definition?_of_placed (placed_of_kind isOne (by decide))] at defined
    cases defined
  · exact standing (.patent isOne mem defined)

theorem Draft.accounted_ofParts (subject : part.isOneOf exemptKinds = false)
    (standing : ¬ PassedOver kind front part back) (key : String) (isPatent : Bool) :
    (ofParts key kind isPatent (front ++ part :: back)).Accounted key kind part := by
  have mem : part ∈ front ++ part :: back := List.mem_append_right _ List.mem_cons_self
  -- A part without a field of its own and without a report has a place, so it shares a field.
  cases defined : definition? kind part with
  | some line =>
    obtain ⟨name, value⟩ := line
    exact accounted_of_definition? defined
      (List.mem_map.2 ⟨(name, value), List.mem_filterMap.2 ⟨part, mem, defined⟩, rfl⟩)
  | none =>
    cases reported : report? key kind part with
    | some item => exact .inr ⟨item, reported, List.mem_filterMap.2 ⟨part, mem, reported⟩⟩
    | none =>
      have placed := placed_of_silent defined reported
      rcases mem_sharedKinds.1 (shared_of_placed subject placed) with isOne | isOne | isOne
      · refine accounted_of_patent (untitled standing isOne key isPatent) ?_
        rw [shown_of_kind_ne (by rw [isOne]; decide)]
        exact List.mem_append_right _ (List.mem_filterMap.2 ⟨part, mem, if_pos isOne⟩)
      · apply accounted_of_firstPage
        rw [shown_of_kind_ne (by rw [isOne]; decide)]
        exact getLast?_filterMap_textIf? isOne (isOne ▸ no_later standing (.inl isOne))
      · obtain ⟨first, start⟩ := exists_start standing isOne key isPatent
        apply accounted_of_lastPage start
        rw [shown_of_kind_ne (by rw [isOne]; decide)]
        exact getLast?_filterMap_textIf? isOne (isOne ▸ no_later standing (.inr isOne))

/-! ### Parts that are passed over -/

theorem filterMap_skip {α : Type} {f : Node → Option α} (none : f part = none) :
    (front ++ part :: back).filterMap f = (front ++ back).filterMap f := by
  rw [List.filterMap_append, List.filterMap_cons_none none, List.filterMap_append]

theorem flatMap_skip {α : Type} {f : Node → List α} (none : f part = []) :
    (front ++ part :: back).flatMap f = (front ++ back).flatMap f := by
  rw [List.flatMap_append, List.flatMap_cons, none, List.nil_append, List.flatMap_append]

/-- The last text of a kind is not read off a part of another kind, and neither is it if another
part of the kind follows. -/
theorem getLast?_textIf?_skip {k : String}
    (apart : part.kind = k → ∃ later ∈ back, later.kind = k) :
    ((front ++ part :: back).filterMap (textIf? k)).getLast? =
      ((front ++ back).filterMap (textIf? k)).getLast? := by
  by_cases own : part.kind = k
  · obtain ⟨later, mem, same⟩ := apart own
    have nonempty : back.filterMap (textIf? k) ≠ [] :=
      List.ne_nil_of_mem (List.mem_filterMap.2 ⟨later, mem, if_pos same⟩)
    rw [List.append_cons]
    simp only [List.filterMap_append, List.getLast?_append, List.getLast?_eq_some_getLast nonempty,
      Option.some_or]
  · rw [filterMap_skip (show textIf? k part = none from if_neg own)]

/-- Only what it may share is read off a part that shares a field. -/
theorem Draft.ofParts_skip (shared : part.kind ∈ sharedKinds) (key kind : String)
    (isPatent : Bool) (front back : List Node) :
    ofParts key kind isPatent (front ++ part :: back) =
      { ofParts key kind isPatent (front ++ back) with
        patent := (ofParts key kind isPatent (front ++ part :: back)).patent
        firstPage := (ofParts key kind isPatent (front ++ part :: back)).firstPage
        lastPage := (ofParts key kind isPatent (front ++ part :: back)).lastPage } := by
  have placed : part.isOneOf placedKinds = true := by
    rw [isOneOf, List.contains_iff_mem]
    exact List.mem_append_left _ shared
  rw [mem_sharedKinds] at shared
  have nobody (asEditors : Bool) : personsOf asEditors part = [] := by
    rcases shared with h | h | h <;> simp [personsOf, isPerson, isOneOf, h]
  have loose : loose? part = none := by
    rcases shared with h | h | h <;> simp [loose?, textIf?, h]
  have silent : report? key kind part = none := by simp [report?, placed]
  simp only [ofParts, filterMap_skip (definition?_of_placed placed), flatMap_skip (nobody _),
    filterMap_skip loose, filterMap_skip silent]

theorem Draft.patent_ofParts_skip (other : part.kind = "fpage" ∨ part.kind = "lpage")
    (key kind : String) (isPatent : Bool) (front back : List Node) :
    (ofParts key kind isPatent (front ++ part :: back)).patent =
      (ofParts key kind isPatent (front ++ back)).patent := by
  have number : textIf? "patent" part = none := by
    rcases other with h | h <;> simp [textIf?, h]
  have text : patentText? isPatent part = none := by
    rcases other with h | h <;> simp [patentText?, textIf?, h]
  simp only [ofParts, filterMap_skip text, filterMap_skip number]

theorem Draft.firstPage_ofParts_skip
    (apart : part.kind = "fpage" → ∃ later ∈ back, later.kind = "fpage")
    (key kind : String) (isPatent : Bool) (front : List Node) :
    (ofParts key kind isPatent (front ++ part :: back)).firstPage =
      (ofParts key kind isPatent (front ++ back)).firstPage :=
  getLast?_textIf?_skip apart

theorem Draft.lastPage_ofParts_skip
    (apart : part.kind = "lpage" → ∃ later ∈ back, later.kind = "lpage")
    (key kind : String) (isPatent : Bool) (front : List Node) :
    (ofParts key kind isPatent (front ++ part :: back)).lastPage =
      (ofParts key kind isPatent (front ++ back)).lastPage :=
  getLast?_textIf?_skip apart

theorem Draft.fields_of_startless {d e : Draft} (none : e.firstPage.or e.loosePage = none)
    (same : d = { e with lastPage := d.lastPage }) : d.fields = e.fields := by
  have first : e.pageLines = [] := by rw [pageLines, Option.orElse_eq_or, none]
  have second : d.pageLines = [] := by
    rw [pageLines, Option.orElse_eq_or, same, none]
  rw [fields, fields, first, second, same]
  rfl

theorem Draft.fields_of_titled {d e : Draft} (titled : e.hasTitle = true)
    (same : d = { e with patent := d.patent }) : d.fields = e.fields := by
  have first : e.patentLines = [] := by rw [patentLines, titled]; rfl
  have second : d.patentLines = [] := by rw [patentLines, same, titled]; rfl
  rw [fields, fields, first, second, same]
  rfl

/-- A part that is passed over makes no difference. -/
theorem Draft.fields_ofParts_of_passedOver (passed : PassedOver kind front part back) (key : String)
    (isPatent : Bool) :
    (ofParts key kind isPatent (front ++ part :: back)).fields =
      (ofParts key kind isPatent (front ++ back)).fields ∧
    (ofParts key kind isPatent (front ++ part :: back)).skipped =
      (ofParts key kind isPatent (front ++ back)).skipped := by
  have shared : part.kind ∈ sharedKinds := by
    rw [mem_sharedKinds]
    cases passed with
    | page isOne => exact .inr isOne
    | startless isOne => exact .inr (.inr isOne)
    | patent isOne => exact .inl isOne
  -- Without the part only what it may share with others could differ, and these others decide it.
  have same := ofParts_skip shared key kind isPatent front back
  refine ⟨?_, by rw [same]⟩
  cases passed with
  | page isOne mem later =>
    have follows {k : String} (own : part.kind = k) : ∃ later ∈ back, later.kind = k :=
      ⟨_, mem, later.trans own⟩
    rw [same, patent_ofParts_skip isOne, firstPage_ofParts_skip follows,
      lastPage_ofParts_skip follows]
  | startless isOne none =>
    have apart : part.kind ≠ "fpage" := by rw [isOne]; decide
    rw [patent_ofParts_skip (.inr isOne),
      firstPage_ofParts_skip fun own => absurd own apart] at same
    refine fields_of_startless ?_ same
    rw [Option.or_eq_none_iff]
    simp only [ofParts, List.getLast?_eq_none_iff, List.filterMap_eq_nil_iff]
    exact ⟨fun other mem => (none other mem).1, fun other mem => (none other mem).2⟩
  | patent isOne mem defined =>
    have first : part.kind ≠ "fpage" := by rw [isOne]; decide
    have last : part.kind ≠ "lpage" := by rw [isOne]; decide
    rw [firstPage_ofParts_skip fun own => absurd own first,
      lastPage_ofParts_skip fun own => absurd own last] at same
    have titled := List.mem_filterMap.2 ⟨_, mem, defined⟩
    exact fields_of_titled (List.any_eq_true.2 ⟨_, titled, beq_self_eq_true "title"⟩) same

end

end Bibtex

/-! ### Parts of booked citations -/

namespace Registry

open Node Bibtex

variable {sources : Sources} {r : Registry} {refs : List Node} {b : Booking}

theorem infix_entryText {kind key line : String} {fields : List String} (mem : line ∈ fields) :
    line.toList <:+: (entryText kind key fields).toList :=
  (infix_intercalate (List.mem_cons_of_mem _ mem)).trans (infix_append_right _ _)

theorem text_of_mem_bookings (booked : b ∈ bookings sources refs) :
    b.text = entryText (kindFor b.cite) b.key (draftOf b.cite b.key).fields := by
  have stated := entry_of_mem_bookings booked
  rw [entry_ofCitation] at stated
  exact (Option.some.inj (Option.ite_none_left_eq_some.1 stated).2).symm

/-- What becomes of the parts of a citation in the bibliography that are to be accounted for: a part
that is not passed over is shown in the entry or reported as lost, and one that is makes no
difference to either. Of other citations nothing is reported. -/
theorem parts_accounted (registered : ofReferences sources refs = .ok r) :
    r.lostItems = (bookings sources refs).flatMap Booking.lost ∧
    ∀ b ∈ bookings sources refs, b.text ∈ r.bibtex ∧
      ∀ front part back, b.cite.kids = front ++ part :: back →
        part.isOneOf exemptKinds = false →
        (¬ PassedOver (kindFor b.cite) front part back →
          (shown part).toList <:+: b.text.toList ∨
          ∃ item, report? b.key (kindFor b.cite) part = some item ∧ item ∈ r.lostItems) ∧
        (PassedOver (kindFor b.cite) front part back →
          let others := Draft.ofParts b.key (kindFor b.cite) (isOfPatent b.cite) (front ++ back)
          b.text = entryText (kindFor b.cite) b.key others.fields ∧ b.lost = others.skipped) := by
  have reported := lostItems_of_registered registered
  refine ⟨reported, fun b booked => ⟨?_, fun front part back kids subject => ⟨?_, ?_⟩⟩⟩
  · rw [bibtex_of_registered registered]
    exact List.mem_map_of_mem booked
  · intro standing
    have accounted := Draft.accounted_ofParts subject standing b.key (isOfPatent b.cite)
    rw [← kids, ← draftOf_eq] at accounted
    -- A line is in the text of the entry, a report among those of the registry.
    rcases accounted with ⟨line, mem, within⟩ | ⟨item, stated, mem⟩
    · left
      rw [text_of_mem_bookings booked]
      exact within.trans (infix_entryText mem)
    · right
      refine ⟨item, stated, ?_⟩
      rw [reported]
      exact List.mem_flatMap.2 ⟨b, booked, mem⟩
  · intro passed
    obtain ⟨fields, skipped⟩ := Draft.fields_ofParts_of_passedOver passed b.key (isOfPatent b.cite)
    rw [← kids, ← draftOf_eq] at fields skipped
    exact ⟨by rw [text_of_mem_bookings booked, fields], skipped⟩

/-- A citation without any field is not booked, so that its comment is not reported either. -/
example :
    let cite : Node := branch "mixed-citation" [.text "Preprint. ",
      branch "comment" [.text "in press"]]
    let ref := (branch "ref" [cite]).setAttr "id" (.string "r1")
    (ofReferences {} [ref]).toOption.map (·.lostItems) = some [] ∧
      (Bibtex.ofCitation cite "r1").skipped = ["r1:comment -> in press"] := by
  decide +kernel

end Registry

end Manuscript.Reference
