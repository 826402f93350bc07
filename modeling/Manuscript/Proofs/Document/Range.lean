import Manuscript.Proofs.Citation.Dashes
import Manuscript.Proofs.Document.Provenance

/-!
Ranges of citations. A dash between two citations gives way to all labels that stand from the one to
the other in the order of the bibliography. If every entry has a label of its own these are the
labels of the entries in between; a label that entries share stands once, at the first of them.
-/

set_option autoImplicit false

namespace Manuscript.Reference.Registry

open Manuscript.Node

theorem firstOccurrences_of_nodup {texts : List String} (distinct : texts.Nodup) :
    firstOccurrences texts = texts := by
  have grow : ∀ (rest out : List String), (out ++ rest).Nodup →
      rest.foldl (fun out s => if out.contains s then out else out ++ [s]) out = out ++ rest := by
    intro rest
    induction rest with
    | nil => exact fun out _ => (List.append_nil out).symm
    | cons s rest ih =>
      intro out distinct
      rw [← List.singleton_append, ← List.append_assoc] at distinct
      have new : out.contains s = false := by
        have apart := List.nodup_append.1 (List.nodup_append.1 distinct).1
        simpa using fun mem => apart.2.2 s mem s (List.mem_singleton_self s) rfl
      rw [List.foldl_cons, new, if_neg Bool.false_ne_true, ih _ distinct, List.append_assoc,
        List.singleton_append]
  exact grow texts [] distinct

theorem order_of_labels {r : Registry} {refs : List Node} {labels : List String}
    (single : refs.map r.labels = labels.map ([·])) (distinct : labels.Nodup) :
    r.order refs = labels := by
  have all : refs.flatMap r.labels = labels := by
    rw [List.flatMap_def, single, ← List.flatMap_def, List.flatMap_singleton']
  rw [order, all, firstOccurrences_of_nodup distinct]

/-- Whether an entry has a name, and as its only resolved part a citation that gets a label. -/
structure CitesOnce (sources : Sources) (ref : Node) (name label : String) : Prop where
  identifier : ref.attrText? "id" = some name
  single : ∃ cite, ref.kids.filter isResolved = [cite] ∧ isCitation cite = true ∧
    citedAs sources name cite = label

theorem CitesOnce.resolved_eq {sources : Sources} {ref : Node} {name label : String}
    (once : CitesOnce sources ref name label) (notes : Nat) :
    (resolved sources name notes ref.kids).map (·.2) = [.cite label] := by
  obtain ⟨cite, only, citation, rfl⟩ := once.single
  obtain ⟨front, back, split, before, isOne, after⟩ := List.filter_eq_cons_iff.1 only
  have silent {parts : List Node} (none : ∀ part ∈ parts, ¬isResolved part = true) (notes : Nat) :
      resolved sources name notes parts = [] := by
    rw [← List.length_eq_zero_iff, length_resolved, List.countP_eq_zero]
    exact none
  rw [split, resolved_append, silent before, resolved, if_pos citation,
    silent (List.filter_eq_nil_iff.1 after)]
  rfl

theorem find?_of_citesOnce {sources : Sources} {refs : List Node} {r : Registry}
    (grown : Grown (entriesFrom sources 0 refs) (refs.flatMap kids) refs.length .empty r)
    (named : ∀ ref ∈ refs, ∃ name, ref.attrText? "id" = some name)
    (distinct : (identifiers refs).Nodup) {ref : Node} {name label : String} (mem : ref ∈ refs)
    (once : CitesOnce sources ref name label) :
    r.inheritAll.lookup.find? name = some [.cite label] := by
  obtain ⟨before, after, rfl⟩ := List.append_of_mem mem
  rw [← once.resolved_eq (noteCount (before.flatMap kids))]
  refine find?_of_grown grown named distinct
    (mem_entriesFrom sources before after once.identifier (.inr rfl)) ?_
  rw [once.resolved_eq]
  exact List.cons_ne_nil _ _

end Manuscript.Reference.Registry

namespace Manuscript.Myst.Citation

open Manuscript.Node Manuscript.Reference

section
variable {order : List String}

/-! ### A dash between two groups -/

theorem cluster_of_onlyCite? {g cite : Node} (isOne : isGroup g = true)
    (only : onlyCite? g = some cite) (bare : ∀ c ∈ g.kids, c.children = none) : Cluster g := by
  obtain ⟨kids, isCite⟩ := onlyCite?_eq_some_iff.1 only
  exact ⟨isOne, by simp [kids, isCite], bare⟩

/-- Two groups of a citation each that bound a range become that range, which stays. -/
theorem groupCitations_range {g dash h range : Node}
    (found : rangeGroup? order g dash h = some range)
    (bare : ∀ n ∈ [g, h], ∀ c ∈ n.kids, c.children = none) :
    groupCitations order (.branch "paragraph" [g, dash, h]) =
      (.branch "paragraph" [range], true) := by
  obtain ⟨left, right, between, first, last, _, _, only, only', _⟩ :=
    rangeGroup?_eq_some_iff.1 found
  obtain ⟨text, isDash⟩ := any_textOf?_iff.1 between
  have dashed : Dashed g dash h :=
    ⟨cluster_of_onlyCite? left only (bare g (by simp)),
      cluster_of_onlyCite? right only' (bare h (by simp)), text, isDash⟩
  have settled : ∀ m ∈ (branch "root" [range]).nodes, Settled order m :=
    settled_of_only uninvolved_root rfl (Dashed.cluster_of_rangeGroup? found)
  have one : grouped order [g, dash, h] = [range] :=
    grouped_of_pass (dashed.alongAll_of_range found fun rule (mem : rule ∈ beforeRanges) => mem)
      settled
  have result : (groupCitations order (.branch "paragraph" [g, dash, h])).1 =
      .branch "paragraph" [range] := by
    have other : Uninvolved "paragraph" := by decide
    rw [groupCitations_eq other, ← one]
    rfl
  refine Prod.ext result (eq_true_of_ne_false fun idle => ?_)
  -- A run that reports nothing would have left three nodes.
  have same : [range].length = [g, dash, h].length :=
    congrArg (·.kids.length) (result.symm.trans (settle_eq_self idle))
  cases same

/-! ### References with a dash between them -/

def cited (label : String) : Node := parenthetical (.branch "citeGroup" [pointer "cite" label])

def citedTogether (labels : List String) : Node :=
  group (some (.string "parenthetical")) (labels.map (citeOf (some (.string "parenthetical"))))

theorem attr?_setAttr_self (n : Node) (key : String) (value : Json) :
    (n.setAttr key value).attr? key = some value := by
  simp [attr?, setAttr, Dict.find?_insert]

theorem onlyCite?_cited (label : String) : onlyCite? (cited label) =
    some ((pointer "cite" label).setAttr "kind" (.string "parenthetical")) := by
  refine onlyCite?_eq_some_iff.2 ⟨rfl, ?_⟩
  have kind : ((pointer "cite" label).setAttr "kind" (.string "parenthetical")).kind =
      (pointer "cite" label).kind := rfl
  rw [isCite, is, kind, kind_pointer]
  rfl

theorem position?_pointer {label : String} (normal : Label.IsNormal label) (mem : label ∈ order)
    (value : Json) :
    position? order ((pointer "cite" label).setAttr "kind" value) = some (order.idxOf label) := by
  refine position?_eq_some_iff.2 ⟨label, ?_, mem, rfl⟩
  rw [attrText?_setKind, attrText?_pointer, Label.ofText?_of_isNormal normal]
  rfl

theorem rangeGroup?_cited {l m s : String} (normal : ∀ label ∈ [l, m], Label.IsNormal label)
    (listed : ∀ label ∈ [l, m], label ∈ order) (lt : order.idxOf l < order.idxOf m)
    (dash : isDash s = true) : rangeGroup? order (cited l) (.text s) (cited m) =
      some (citedTogether
        ((order.drop (order.idxOf l)).take (order.idxOf m - order.idxOf l + 1))) := by
  simp only [List.forall_mem_cons] at normal listed
  refine rangeGroup?_eq_some_iff.2 ⟨rfl, rfl, any_textOf?_iff.2 ⟨rfl, dash⟩, _, _, _, _,
    onlyCite?_cited l, onlyCite?_cited m, position?_pointer normal.1 listed.1 _,
    position?_pointer normal.2.1 listed.2.1 _, lt, ?_⟩
  have kind : (cited l).attr? "kind" = some (.string "parenthetical") := attr?_setAttr_self _ _ _
  rw [kind, attr?_setAttr_self]
  rfl

/-- Two references that are known, with a dash between them, become one group of all labels from
that of the one to that of the other. -/
theorem groupCitations_references {lookup : Lookup} {first last : Node} {l m s : String}
    (start : resolutions? lookup first = some [.cite l])
    (stop : resolutions? lookup last = some [.cite m])
    (normal : ∀ label ∈ [l, m], Label.IsNormal label)
    (listed : ∀ label ∈ [l, m], label ∈ order) (lt : order.idxOf l < order.idxOf m)
    (dash : isDash s = true) :
    groupCitations order
        (resolveBelow lookup (.branch "paragraph" [first, .text s, last])) =
      (.branch "paragraph" [citedTogether
        ((order.drop (order.idxOf l)).take (order.idxOf m - order.idxOf l + 1))], true) := by
  have resolved : resolveBelow lookup (.branch "paragraph" [first, .text s, last]) =
      .branch "paragraph" [cited l, .text s, cited m] := by
    have kept : resolutions? lookup (.text s) = none := rfl
    rw [resolveBelow_eq, branch, mapChildren, Option.map_some, resolveForest_eq]
    simp only [List.flatMap_cons, List.flatMap_nil, start, stop, kept]
    rfl
  have bare (label : String) : ∀ c ∈ (cited label).kids, c.children = none :=
    List.forall_mem_singleton.2 (children_pointer "cite" label)
  rw [resolved]
  refine groupCitations_range (rangeGroup?_cited normal listed lt dash) ?_
  exact List.forall_mem_cons.2 ⟨bare l, List.forall_mem_singleton.2 (bare m)⟩

/-- Where every entry has a label of its own, a range cites the entries that it spans and no
other. -/
theorem range_cites_span {r : Registry} {refs : List Node} {labels : List String}
    (single : refs.map r.labels = labels.map ([·])) (distinct : labels.Nodup)
    (normal : ∀ label ∈ labels, Label.IsNormal label) {i j : Nat} {l m : String} (lt : i < j)
    (front : labels[i]? = some l) (back : labels[j]? = some m) {first last : Node} {s : String}
    (start : resolutions? r.lookup first = some [.cite l])
    (stop : resolutions? r.lookup last = some [.cite m]) (dash : isDash s = true) :
    groupCitations (r.order refs)
        (resolveBelow r.lookup (.branch "paragraph" [first, .text s, last])) =
      (.branch "paragraph" [citedTogether ((labels.drop i).take (j - i + 1))], true) := by
  have ends : ∀ label ∈ [l, m], label ∈ labels :=
    List.forall_mem_cons.2 ⟨List.mem_of_getElem? front,
      List.forall_mem_singleton.2 (List.mem_of_getElem? back)⟩
  -- Without repetitions, the first place of a label is the place of its entry.
  have place {k : Nat} {label : String} (found : labels[k]? = some label) :
      labels.idxOf label = k := idxOf_eq_of_getElem? distinct found
  rw [Registry.order_of_labels single distinct, groupCitations_references start stop
    (fun label mem => normal label (ends label mem)) ends ?_ dash, place front, place back]
  rwa [place front, place back]

/-- The same for the entries of an article: if each has one citation, and these have labels of their
own, a dash between citations of two entries gives way to the labels of all entries from the one to
the other. -/
theorem range_cites_entries (sources : Sources) (a : Article) {name label : Node → String}
    (once : ∀ ref ∈ a.references, Registry.CitesOnce sources ref (name ref) (label ref))
    (named : (Registry.identifiers a.references).Nodup)
    (distinct : (a.references.map label).Nodup)
    (normal : ∀ ref ∈ a.references, Label.IsNormal (label ref)) {i j : Nat} {ref ref' : Node}
    (lt : i < j) (front : a.references[i]? = some ref) (back : a.references[j]? = some ref')
    {first last : Node} {s : String}
    (start : isCite first = true ∧ first.attrText? "label" = some (name ref))
    (stop : isCite last = true ∧ last.attrText? "label" = some (name ref'))
    (dash : isDash s = true) :
    ∃ r, Registry.ofReferences sources a.references = .ok r ∧
      groupCitations (r.order a.references)
          (resolveBelow r.lookup (.branch "paragraph" [first, .text s, last])) =
        (.branch "paragraph"
          [citedTogether (((a.references.map label).drop i).take (j - i + 1))], true) := by
  have names : ∀ ref ∈ a.references, ∃ name, ref.attrText? "id" = some name :=
    fun ref mem => ⟨_, (once ref mem).identifier⟩
  obtain ⟨r, registered, grown⟩ := Registry.exists_grown sources a names
  have found {ref : Node} (mem : ref ∈ a.references) :
      r.inheritAll.lookup.find? (name ref) = some [.cite (label ref)] :=
    Registry.find?_of_citesOnce grown names named mem (once ref mem)
  -- Each entry has one label, and so the order lists the labels as the entries stand.
  have single : a.references.map r.inheritAll.labels = (a.references.map label).map ([·]) := by
    rw [List.map_map]
    refine List.map_congr_left fun ref mem => ?_
    simp [Registry.labels, (once ref mem).identifier, found mem, Resolution.cite?]
  have labelled {k : Nat} {ref : Node} (place : a.references[k]? = some ref) :
      (a.references.map label)[k]? = some (label ref) := by
    rw [List.getElem?_map, place]
    rfl
  refine ⟨r.inheritAll, registered, range_cites_span single distinct
    (List.forall_mem_map.2 normal) lt (labelled front) (labelled back) ?_ ?_ dash⟩
  · exact resolutions?_of_label start.1 start.2 (found (List.mem_of_getElem? front))
  · exact resolutions?_of_label stop.1 stop.2 (found (List.mem_of_getElem? back))

/-- The third of four entries shares the label of the first: a range over it leaves it out, and one
that ends at it stays a pair. -/
example :
    let order := Registry.firstOccurrences ["a", "b", "a", "c"]
    let between (l m : String) := Node.branch "paragraph" [cited l, .text "–", cited m]
    citedLabels (groupCitations order (between "b" "c")).1 = ["b", "c"] ∧
      (groupCitations order (between "b" "a")).1.kids.map (·.kind) =
        ["citeGroup", "text", "citeGroup"] := by
  decide +kernel

end

end Manuscript.Myst.Citation
