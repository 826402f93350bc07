import Manuscript.Proofs.Reference.Identifiers

/-!
The keys of the bibliography. An entry may bundle citations, and those without an identifier of
their own are booked under that of the entry; so the keys are distinct as long as no entry books two
of these. The registry has each key as what its identifier stands for.
-/

set_option autoImplicit false

namespace Manuscript.Reference.Registry

open Manuscript.Node

/-- A citation that goes into the bibliography, under its key. -/
structure Booking where
  cite : Node
  key : String

def Booking.text (b : Booking) : String := ((Bibtex.ofCitation b.cite b.key).entry).getD ""

def Booking.lost (b : Booking) : List String := (Bibtex.ofCitation b.cite b.key).skipped

/-- The key of a citation of the entry `owner` in the bibliography. -/
def keyOf (owner : String) (cite : Node) : String := (cite.attrText? "id").getD owner

/-- Whether a part of the entry `owner` goes into the bibliography: a citation with a field and
without a digital object identifier that is used. -/
def isBooked (sources : Sources) (owner : String) (part : Node) : Bool :=
  isCitation part && (if sources.dois then doi? sources.pmids part else none).isNone &&
    (Bibtex.ofCitation part (keyOf owner part)).entry.isSome

def bookingsOf (sources : Sources) (owner : String) (parts : List Node) : List Booking :=
  (parts.filter (isBooked sources owner)).map fun part => ⟨part, keyOf owner part⟩

def bookings (sources : Sources) (refs : List Node) : List Booking :=
  refs.flatMap fun ref => bookingsOf sources ((ref.attrText? "id").getD "") ref.kids

/-- How many citations an entry books under its own identifier. -/
def unnamedCount (sources : Sources) (ref : Node) : Nat :=
  (ref.kids.filter (isBooked sources ((ref.attrText? "id").getD ""))).countP
    fun part => (part.attrText? "id").isNone

section
variable {sources : Sources} {owner : String} {r : Registry}

/-! ### What is booked -/

structure Booked (bs : List Booking) (r after : Registry) : Prop where
  bibtex : after.bibtex = r.bibtex ++ bs.map Booking.text
  lostItems : after.lostItems = r.lostItems ++ bs.flatMap Booking.lost

theorem Booked.refl (r : Registry) : Booked [] r r where
  bibtex := (List.append_nil _).symm
  lostItems := (List.append_nil _).symm

theorem Booked.trans {bs cs : List Booking} {next after : Registry} (first : Booked bs r next)
    (second : Booked cs next after) : Booked (bs ++ cs) r after where
  bibtex := by rw [second.bibtex, first.bibtex, List.map_append, List.append_assoc]
  lostItems := by rw [second.lostItems, first.lostItems, List.flatMap_append, List.append_assoc]

theorem Booked.enter {bs : List Booking} {after : Registry} (booked : Booked bs r after)
    (name : Option String) (resolutions : List Resolution) :
    Booked bs r (after.enter name resolutions) := by
  cases name <;> exact { booked with }

theorem booked_count (r : Registry) (counts : Counts) : Booked [] r { r with counts := counts } :=
  { Booked.refl r with }

theorem booked_addNote (r : Registry) (note : Node) : Booked [] r (r.addNote note).2 :=
  { Booked.refl r with }

theorem booked_addLost (r : Registry) (kind : String) : Booked [] r (r.addLost kind) := by
  unfold addLost
  split <;> exact { Booked.refl r with }

theorem bookingsOf_singleton (sources : Sources) (owner : String) (part : Node) :
    bookingsOf sources owner [part] =
      if isBooked sources owner part then [⟨part, keyOf owner part⟩] else [] := by
  cases booked : isBooked sources owner part <;> simp [bookingsOf, booked]

theorem booked_addCitation {part : Node} (isOne : isCitation part = true) (sources : Sources)
    (owner : String) (r : Registry) :
    Booked (bookingsOf sources owner [part]) r
      (r.addCitation sources part (keyOf owner part)).2 := by
  unfold addCitation
  rw [bookingsOf_singleton]
  cases resolved : if sources.dois then doi? sources.pmids part else none with
  | some doi =>
    rw [if_neg (by rw [isBooked, resolved]; simp)]
    exact { Booked.refl r with }
  | none =>
    dsimp only
    unfold addEntry
    cases stated : (Bibtex.ofCitation part (keyOf owner part)).entry with
    | some entry =>
      rw [if_pos (by rw [isBooked, isOne, resolved, stated]; rfl)]
      constructor
      · rw [List.map_singleton, Booking.text, stated]
        rfl
      · rw [List.flatMap_singleton]
        rfl
    | none =>
      rw [if_neg (by rw [isBooked, stated]; simp)]
      exact { Booked.refl r with }

theorem booked_addPart (sources : Sources) (owner : String) (r : Registry) (part : Node) :
    Booked (bookingsOf sources owner [part]) r (r.addPart sources owner part).2 := by
  unfold addPart
  dsimp only
  split
  · next cite => exact (booked_addCitation cite sources owner r).enter _ _
  · next other =>
    rw [bookingsOf_singleton, if_neg (by simp [isBooked, other])]
    split
    · exact (booked_addNote r part).enter _ _
    · split
      · exact .refl r
      · exact booked_addLost r _

theorem booked_addParts (sources : Sources) (owner : String) (r : Registry) (parts : List Node) :
    Booked (bookingsOf sources owner parts) r (addParts sources owner r parts).2 := by
  induction parts generalizing r with
  | nil => exact .refl r
  | cons part parts ih =>
    have split : bookingsOf sources owner (part :: parts) =
        bookingsOf sources owner [part] ++ bookingsOf sources owner parts := by
      rw [bookingsOf, ← List.singleton_append, List.filter_append, List.map_append]
      rfl
    rw [split]
    exact (booked_addPart sources owner r part).trans (ih _)

theorem booked_add {index : Nat} {ref : Node} {after : Registry}
    (added : r.add sources index ref = .ok after) : Booked (bookings sources [ref]) r after := by
  rw [bookings, List.flatMap_singleton]
  unfold add at added
  split at added
  · cases added
  · split at added
    · cases added
    · next name identifier =>
      cases added
      rw [identifier, Option.getD_some]
      exact ((booked_count r _).trans (booked_addParts sources name _ ref.kids)).enter _ _

theorem bookings_cons (sources : Sources) (ref : Node) (refs : List Node) :
    bookings sources (ref :: refs) = bookings sources [ref] ++ bookings sources refs := by
  rw [bookings, List.flatMap_cons, bookings, List.flatMap_singleton]
  rfl

theorem booked_addAll {index : Nat} {refs : List Node} {after : Registry}
    (added : addAll sources r index refs = .ok after) : Booked (bookings sources refs) r after := by
  induction refs generalizing r index with
  | nil =>
    cases added
    exact .refl _
  | cons ref refs ih =>
    rw [addAll] at added
    cases one : r.add sources index ref with
    | error fault => rw [one] at added; cases added
    | ok next =>
      rw [one] at added
      rw [bookings_cons]
      exact (booked_add one).trans (ih added)

theorem entry_of_mem_bookings {refs : List Node} {b : Booking} (mem : b ∈ bookings sources refs) :
    (Bibtex.ofCitation b.cite b.key).entry = some b.text := by
  obtain ⟨ref, -, mem⟩ := List.mem_flatMap.1 mem
  obtain ⟨part, child, rfl⟩ := List.mem_map.1 mem
  have booked := (List.mem_filter.1 child).2
  rw [isBooked, Bool.and_eq_true] at booked
  obtain ⟨entry, stated⟩ := Option.isSome_iff_exists.1 booked.2
  rw [Booking.text, stated, Option.getD_some]

theorem bibtex_of_registered {refs : List Node}
    (registered : ofReferences sources refs = .ok r) :
    r.bibtex = (bookings sources refs).map Booking.text := by
  obtain ⟨-, next, rfl, added, -⟩ := exists_grown_of_registered registered
  exact (booked_addAll added).bibtex

theorem lostItems_of_registered {refs : List Node}
    (registered : ofReferences sources refs = .ok r) :
    r.lostItems = (bookings sources refs).flatMap Booking.lost := by
  obtain ⟨-, next, rfl, added, -⟩ := exists_grown_of_registered registered
  exact (booked_addAll added).lostItems

/-! ### Distinct keys -/

theorem isResolved_of_isBooked {part : Node} (booked : isBooked sources owner part = true) :
    isResolved part = true := by
  simp only [isBooked, Bool.and_eq_true] at booked
  rw [isResolved, booked.1.1, Bool.true_or]

theorem count_map_keyOf (name owner : String) (parts : List Node) :
    (parts.map (keyOf owner)).count name = (identifiersOf parts).count name +
      if name = owner then parts.countP fun part => (part.attrText? "id").isNone else 0 := by
  induction parts with
  | nil => simp [identifiersOf]
  | cons part parts ih =>
    rw [List.map_cons, List.count_cons, ih, identifiersOf_cons, List.count_append,
      List.countP_cons, keyOf]
    cases part.attrText? "id" with
    | none =>
      by_cases same : name = owner
      · simp [same, Nat.add_assoc]
      · simp [same, Ne.symm same]
    | some own =>
      simp only [Option.getD_some, Option.toList_some, List.count_singleton, Option.isNone_some,
        Bool.false_eq_true, if_false, Nat.add_zero]
      omega

/-- An entry gives its keys to the bibliography: the identifiers of its booked citations, and its
own as often as there is none. -/
theorem count_keys (name : String) (ref : Node) :
    ((bookings sources [ref]).map (·.key)).count name =
      (identifiersOf (ref.kids.filter (isBooked sources ((ref.attrText? "id").getD "")))).count name
        + if name = (ref.attrText? "id").getD "" then unnamedCount sources ref else 0 := by
  rw [bookings, List.flatMap_singleton, bookingsOf, List.map_map]
  exact count_map_keyOf name _ _

theorem count_keys_le {refs : List Node}
    (named : ∀ ref ∈ refs, ∃ name, ref.attrText? "id" = some name)
    (once : ∀ ref ∈ refs, unnamedCount sources ref ≤ 1) (name : String) :
    ((bookings sources refs).map (·.key)).count name ≤ (identifiers refs).count name := by
  induction refs with
  | nil => exact Nat.le_refl _
  | cons ref refs ih =>
    obtain ⟨⟨own, identifier⟩, names⟩ := List.forall_mem_cons.1 named
    obtain ⟨here, others⟩ := List.forall_mem_cons.1 once
    have rest := ih names others
    -- What is booked is resolved, so that it enters the identifiers that it has.
    have parts : (ref.kids.filter (isBooked sources own)).Sublist (ref.kids.filter isResolved) := by
      have both : (ref.kids.filter isResolved).filter (isBooked sources own) =
          ref.kids.filter (isBooked sources own) := by
        rw [List.filter_filter]
        refine List.filter_congr fun part _ => ?_
        cases booked : isBooked sources own part with
        | true => rw [isResolved_of_isBooked booked]; rfl
        | false => rfl
      rw [← both]
      exact List.filter_sublist
    have fewer : (identifiersOf (ref.kids.filter (isBooked sources own))).count name ≤
        (identifiersOf (ref.kids.filter isResolved)).count name :=
      (parts.filterMap _).count_le name
    rw [bookings_cons, List.map_append, List.count_append, count_keys, identifier,
      Option.getD_some]
    rw [identifiers_cons, List.count_append, List.count_append, identifier, Option.toList_some,
      List.count_singleton]
    simp only [beq_iff_eq]
    split
    · next same => rw [if_pos same.symm]; omega
    · omega

theorem bookings_sublist {refs : List Node} {ref : Node} (mem : ref ∈ refs) :
    (bookings sources [ref]).Sublist (bookings sources refs) := by
  rw [bookings, List.flatMap_singleton, bookings, List.flatMap_def]
  exact List.sublist_flatten_of_mem (List.mem_map.2 ⟨ref, mem, rfl⟩)

/-- Without repeated identifiers, the keys of the bibliography are distinct exactly if no entry
books two citations that lack one. -/
theorem nodup_keys_iff {a : Article} (registered : ofReferences sources a.references = .ok r)
    (distinct : a.DistinctIds) : ((bookings sources a.references).map (·.key)).Nodup ↔
      ∀ ref ∈ a.references, unnamedCount sources ref ≤ 1 := by
  constructor
  · intro nodup ref mem
    have once := List.nodup_iff_count.1 (nodup.sublist ((bookings_sublist mem).map _))
      ((ref.attrText? "id").getD "")
    rw [count_keys, if_pos rfl] at once
    omega
  · intro once
    rw [List.nodup_iff_count]
    intro name
    obtain ⟨named, -⟩ := exists_grown_of_registered registered
    have most := List.nodup_iff_count.1 (nodup_identifiers distinct) name
    have fewer := count_keys_le named once name
    omega

/-- Two citations without identifiers in one entry share its key. -/
example :
    let cite (title : String) : Node := branch "mixed-citation" [branch "article-title"
      [.text title]]
    let ref := (branch "ref" [cite "A", cite "B"]).setAttr "id" (.string "r1")
    (ofReferences {} [ref]).toOption.map (·.bibtex) =
      some ["@misc\x7br1,\n  title = \x7bA\x7d\n\x7d",
        "@misc\x7br1,\n  title = \x7bB\x7d\n\x7d"] := by
  decide +kernel

/-! ### Keys in the registry -/

theorem citedAs_of_isBooked {cite : Node} (booked : isBooked sources owner cite = true) :
    isCitation cite = true ∧ citedAs sources owner cite = keyOf owner cite := by
  simp only [isBooked, Bool.and_eq_true, Option.isNone_iff_eq_none] at booked
  rw [citedAs, booked.1.2]
  exact ⟨booked.1.1, rfl⟩

theorem mem_resolved_of_isCitation {parts : List Node} {cite : Node} (mem : cite ∈ parts)
    (isOne : isCitation cite = true) (sources : Sources) (owner : String) (notes : Nat) :
    (cite, .cite (citedAs sources owner cite)) ∈ resolved sources owner notes parts := by
  obtain ⟨front, back, rfl⟩ := List.append_of_mem mem
  rw [resolved_append, resolved, if_pos isOne]
  exact List.mem_append_right _ List.mem_cons_self

/-- The registry has each key of the bibliography as a citation that its identifier stands for. -/
theorem cites_key {a : Article} (registered : ofReferences sources a.references = .ok r)
    (distinct : a.DistinctIds) {b : Booking} (mem : b ∈ bookings sources a.references) :
    ∃ resolutions, r.lookup.find? b.key = some resolutions ∧ .cite b.key ∈ resolutions := by
  obtain ⟨named, next, rfl, -, grown⟩ := exists_grown_of_registered registered
  have found {name : String} {resolutions : List Resolution}
      (entered : (name, resolutions) ∈ entriesFrom sources 0 a.references)
      (cited : .cite name ∈ resolutions) :
      ∃ resolutions, next.inheritAll.lookup.find? name = some resolutions ∧
        .cite name ∈ resolutions :=
    ⟨resolutions, find?_of_grown grown named (nodup_identifiers distinct) entered
      (List.ne_nil_of_mem cited), cited⟩
  obtain ⟨ref, listed, mem⟩ := List.mem_flatMap.1 mem
  obtain ⟨cite, child, rfl⟩ := List.mem_map.1 mem
  obtain ⟨name, identifier⟩ := named ref listed
  obtain ⟨child, booked⟩ := List.mem_filter.1 child
  obtain ⟨isOne, label⟩ := citedAs_of_isBooked booked
  rw [identifier, Option.getD_some] at label ⊢
  obtain ⟨before, after, place⟩ := List.append_of_mem listed
  have part := mem_resolved_of_isCitation child isOne sources name (noteCount (before.flatMap kids))
  rw [label, keyOf] at part
  rw [place] at found
  -- A citation is entered under an identifier of its own, or else for its entry only.
  cases own : cite.attrText? "id" with
  | none =>
    rw [own, Option.getD_none] at part
    simp only [keyOf, own, Option.getD_none]
    exact found (mem_entriesFrom sources before after identifier (.inr rfl))
      (List.mem_map.2 ⟨_, part, rfl⟩)
  | some key =>
    rw [own, Option.getD_some] at part
    simp only [keyOf, own, Option.getD_some]
    refine found (mem_entriesFrom sources before after identifier (.inl ?_))
      (List.mem_singleton_self _)
    exact List.mem_filterMap.2 ⟨_, part, by rw [own]; rfl⟩

end

end Manuscript.Reference.Registry
