import Manuscript.Label
import Manuscript.Myst.Citation.Group
import Manuscript.Text.Letter

/-!
The rules for what stands between and around groups of citations: separators, dashes of ranges,
brackets, superscripts, and the space before a group.
-/

set_option autoImplicit false

namespace Manuscript.Myst.Citation

open Manuscript.Node

def isSeparatorMark (c : Char) : Bool := c == ',' || c == ';'

/-- Whether a text only separates citations: a comma or a semicolon, or `and` maybe behind one of
them. -/
def isSeparator (s : String) : Bool :=
  match Text.trimWhile Text.isBlank s.toList with
  | [] => false
  | c :: cs =>
    if isSeparatorMark c then cs.isEmpty || cs.dropWhile Text.isBlank == ['a', 'n', 'd']
    else c :: cs == ['a', 'n', 'd']

/-- Whether a text is the dash of a range: a hyphen or an en dash. -/
def isDash (s : String) : Bool :=
  let cs := Text.trimWhile Text.isBlank s.toList
  cs == ['-'] || cs == ['–']

/-- Two groups in front with a separator between them become one, which may meet a further one. -/
def joinFront? : List Node → Option (List Node × List Node)
  | g :: t :: h :: ns =>
    if isGroup g && (textOf? t).any isSeparator && isGroup h then some ([], mergeGroups g h :: ns)
    else none
  | _ => none

theorem joinFront?_eq_some_iff {ns done rest : List Node} :
    joinFront? ns = some (done, rest) ↔
      ∃ g t h tail, ns = g :: t :: h :: tail ∧ isGroup g = true ∧
        (textOf? t).any isSeparator = true ∧ isGroup h = true ∧ done = [] ∧
        rest = mergeGroups g h :: tail := by
  match ns with
  | [] | [_] | [_, _] => simp [joinFront?]
  | g :: t :: h :: ns =>
    simp only [joinFront?, Option.ite_none_right_eq_some, Bool.and_eq_true, Option.some.injEq,
      Prod.mk.injEq]
    constructor
    · rintro ⟨⟨⟨left, between⟩, right⟩, rfl, rfl⟩
      exact ⟨g, t, h, ns, rfl, left, between, right, rfl, rfl⟩
    · rintro ⟨g, t, h, tail, same, left, between, right, rfl, rfl⟩
      cases same
      exact ⟨⟨⟨left, between⟩, right⟩, rfl, rfl⟩

def mergeSeparated : Step where
  next? := joinFront?
  shorter := by
    intro ns done rest found
    obtain ⟨g, t, h, tail, rfl, _, _, _, _, rfl⟩ := joinFront?_eq_some_iff.1 found
    simp only [List.length_cons]; omega

theorem lowers_mergeSeparated : mergeSeparated.Lowers := by
  intro bound ns done rest found lower
  obtain ⟨g, t, h, tail, rfl, _, _, _, rfl, rfl⟩ := joinFront?_eq_some_iff.1 found
  refine ⟨by simp, fun n mem => ?_⟩
  rcases List.mem_cons.1 mem with rfl | mem
  · exact height_mergeGroups_lt (lower g (by simp)) (lower h (by simp))
  · exact lower n (by simp [mem])

def dropSeparators : Edit := .ofStep mergeSeparated (fun _ => true) lowers_mergeSeparated

/-! ### Ranges -/

def onlyCite? (g : Node) : Option Node :=
  match g.kids with
  | [cite] => if isCite cite then some cite else none
  | _ => none

def position? (order : List String) (cite : Node) : Option Nat :=
  (cite.attrText? "label").bind fun label => order.findIdx? (· == label)

def citeOf (kind : Option Json) (label : String) : Node :=
  let attrs : Attrs := Dict.empty.insert? "kind" kind
  match Label.ofText? label with
  | some l =>
    .leaf "cite"
      ((attrs.insert "label" (.string l.label)).insert "identifier" (.string l.identifier))
  | none => .leaf "cite" attrs

/-- The group of all citations from that of `g` to that of `h`, if each of the two groups has one
and the first comes before the other in the order. -/
def rangeGroup? (order : List String) (g dash h : Node) : Option Node :=
  if isGroup g && isGroup h && (textOf? dash).any isDash then do
    let first ← onlyCite? g
    let last ← onlyCite? h
    let i ← position? order first
    let j ← position? order last
    if i < j then
      some (group (g.attr? "kind")
        (((order.drop i).take (j - i + 1)).map (citeOf (first.attr? "kind"))))
    else none
  else none

theorem rangeGroup?_eq_some_iff {order : List String} {g dash h range : Node} :
    rangeGroup? order g dash h = some range ↔
      isGroup g = true ∧ isGroup h = true ∧ (textOf? dash).any isDash = true ∧
        ∃ first last i j, onlyCite? g = some first ∧ onlyCite? h = some last ∧
          position? order first = some i ∧ position? order last = some j ∧ i < j ∧
          range = group (g.attr? "kind")
            (((order.drop i).take (j - i + 1)).map (citeOf (first.attr? "kind"))) := by
  simp only [rangeGroup?, Option.ite_none_right_eq_some, Bool.and_eq_true, bind,
    Option.bind_eq_some_iff, Option.some.injEq]
  constructor
  · rintro ⟨⟨⟨left, right⟩, between⟩, first, hf, last, hl, i, hi, j, hj, lt, rfl⟩
    exact ⟨left, right, between, first, last, i, j, hf, hl, hi, hj, lt, rfl⟩
  · rintro ⟨left, right, between, first, last, i, j, hf, hl, hi, hj, lt, rfl⟩
    exact ⟨⟨⟨left, right⟩, between⟩, first, hf, last, hl, i, hi, j, hj, lt, rfl⟩

/-- Two groups in front with a dash between them give way to the range that they bound. -/
def expandFront? (order : List String) : List Node → Option (List Node × List Node)
  | g :: dash :: h :: ns => (rangeGroup? order g dash h).map fun range => ([range], ns)
  | _ => none

theorem expandFront?_eq_some_iff {order : List String} {ns done rest : List Node} :
    expandFront? order ns = some (done, rest) ↔
      ∃ g dash h range, ns = g :: dash :: h :: rest ∧ rangeGroup? order g dash h = some range ∧
        done = [range] := by
  match ns with
  | [] | [_] | [_, _] => simp [expandFront?]
  | g :: dash :: h :: ns =>
    simp only [expandFront?, Option.map_eq_some_iff, Prod.mk.injEq]
    constructor
    · rintro ⟨range, found, rfl, rfl⟩
      exact ⟨g, dash, h, range, rfl, found, rfl⟩
    · rintro ⟨g, dash, h, range, same, found, rfl⟩
      cases same
      exact ⟨range, found, rfl, rfl⟩

def expandRange (order : List String) : Step where
  next? := expandFront? order
  shorter := by
    intro ns done rest found
    obtain ⟨g, dash, h, range, rfl, _⟩ := expandFront?_eq_some_iff.1 found
    simp only [List.length_cons]; omega

theorem onlyCite?_eq_some_iff {g cite : Node} :
    onlyCite? g = some cite ↔ g.kids = [cite] ∧ isCite cite = true := by
  unfold onlyCite?
  split
  · next c only =>
    simp only [Option.ite_none_right_eq_some, Option.some.injEq, only, List.cons.injEq, and_true]
    constructor
    · rintro ⟨isOne, rfl⟩
      exact ⟨rfl, isOne⟩
    · rintro ⟨rfl, isOne⟩
      exact ⟨isOne, rfl⟩
  · next many =>
    constructor
    · intro found
      cases found
    · rintro ⟨only, _⟩
      exact absurd only (many cite)

theorem isCite_citeOf (kind : Option Json) (label : String) :
    isCite (citeOf kind label) = true ∧ (citeOf kind label).children = none := by
  unfold citeOf
  split <;> exact ⟨rfl, rfl⟩

theorem kids_citeOf (kind : Option Json) (label : String) : (citeOf kind label).kids = [] := by
  rw [kids, (isCite_citeOf kind label).2]
  rfl

theorem height_citeOf (kind : Option Json) (label : String) : (citeOf kind label).height = 0 := by
  rw [height_eq, kids_citeOf]
  rfl

theorem lowers_expandRange (order : List String) : (expandRange order).Lowers := by
  intro bound ns done rest found lower
  obtain ⟨g, dash, h, range, rfl, isRange, rfl⟩ := expandFront?_eq_some_iff.1 found
  obtain ⟨_, _, _, first, _, i, j, only, _, _, _, _, rfl⟩ := rangeGroup?_eq_some_iff.1 isRange
  constructor
  · intro n mem
    obtain rfl := List.mem_singleton.1 mem
    -- The group that starts the range has a citation below it, so one of leaves is no higher.
    have high : first.height < g.height :=
      height_lt_of_mem_kids ((onlyCite?_eq_some_iff.1 only).1 ▸ List.mem_singleton_self first)
    have flat : (group (g.attr? "kind") (((order.drop i).take (j - i + 1)).map
        (citeOf (first.attr? "kind")))).height ≤ 1 := by
      rw [height_group, forestHeight_le_iff]
      intro c mem
      obtain ⟨label, _, rfl⟩ := List.mem_map.1 mem
      rw [height_citeOf]
      exact Nat.one_pos
    have := lower g List.mem_cons_self
    omega
  · exact fun n mem => lower n (by simp [mem])

def expandRanges (order : List String) : Edit :=
  .ofStep (expandRange order) (fun _ => true) (lowers_expandRange order)

/-! ### Brackets -/

/-- The bracket that closes what the last character of a text opens. -/
def closer? (s : String) : Option Char :=
  match s.toList.getLast? with
  | some '(' => some ')'
  | some '[' => some ']'
  | _ => none

/-- Whether a group stands between a text that opens a bracket and one that closes it. -/
def isBracketed (before n after : Node) : Bool :=
  isGroup n &&
    match (textOf? before).bind closer?, textOf? after with
    | some c, some s => s.toList.head? == some c
    | _, _ => false

theorem closer?_eq_some_iff {s : String} {c : Char} :
    closer? s = some c ↔ s.toList.getLast? = some '(' ∧ c = ')' ∨
      s.toList.getLast? = some '[' ∧ c = ']' := by
  unfold closer?
  split
  · next round => simp [round, eq_comm]
  · next square => simp [square, eq_comm]
  · next round square =>
    constructor
    · intro found
      cases found
    · rintro (⟨last, _⟩ | ⟨last, _⟩)
      · exact absurd last round
      · exact absurd last square

theorem isBracketed_iff {before n after : Node} :
    isBracketed before n after = true ↔ isGroup n = true ∧ ∃ s c s', textOf? before = some s ∧
      closer? s = some c ∧ textOf? after = some s' ∧ s'.toList.head? = some c := by
  unfold isBracketed
  rw [Bool.and_eq_true]
  apply and_congr_right
  intro _
  split
  · next c s' opened text =>
    obtain ⟨s, first, closes⟩ := Option.bind_eq_some_iff.1 opened
    rw [beq_iff_eq]
    constructor
    · exact fun same => ⟨s, c, s', first, closes, text, same⟩
    · rintro ⟨r, d, r', first', closes', text', same⟩
      rw [first] at first'
      rw [text] at text'
      cases first'
      cases text'
      rw [closes] at closes'
      cases closes'
      exact same
  · next other =>
    constructor
    · intro h
      cases h
    · rintro ⟨s, c, s', first, closes, text, _⟩
      exact absurd text (other c s' (by rw [first]; exact closes))

/-- The group and everything in it marked as parenthetical. -/
def parenthetical (g : Node) : Node :=
  let mark (n : Node) : Node := n.setAttr "kind" (.string "parenthetical")
  mark (g.withKids (g.kids.map mark))

/-- The text node with other text, or nothing if that is empty. -/
def retext (n : Node) (cs : List Char) : List Node :=
  if cs.isEmpty then [] else [{ n with value := some (String.ofList cs) }]

def unbracketFront? : List Node → Option (List Node × List Node)
  | before :: n :: after :: ns =>
    if isBracketed before n after then
      some (retext before (before.value.getD "").toList.dropLast ++ [parenthetical n],
        retext after (after.value.getD "").toList.tail ++ ns)
    else none
  | _ => none

theorem unbracketFront?_eq_some_iff {ns done rest : List Node} :
    unbracketFront? ns = some (done, rest) ↔
      ∃ before n after tail, ns = before :: n :: after :: tail ∧
        isBracketed before n after = true ∧
        done = retext before (before.value.getD "").toList.dropLast ++ [parenthetical n] ∧
        rest = retext after (after.value.getD "").toList.tail ++ tail := by
  match ns with
  | [] | [_] | [_, _] => simp [unbracketFront?]
  | before :: n :: after :: ns =>
    simp only [unbracketFront?, Option.ite_none_right_eq_some, Option.some.injEq, Prod.mk.injEq]
    constructor
    · rintro ⟨flanked, rfl, rfl⟩
      exact ⟨before, n, after, ns, rfl, flanked, rfl, rfl⟩
    · rintro ⟨before, n, after, tail, same, flanked, rfl, rfl⟩
      cases same
      exact ⟨flanked, rfl, rfl⟩

theorem mem_retext {n m : Node} {cs : List Char} (h : m ∈ retext n cs) :
    m = { n with value := some (String.ofList cs) } := by
  unfold retext at h
  split at h
  · simp at h
  · exact List.mem_singleton.1 h

theorem ofList_ne_empty_of_mem_retext {n m : Node} {cs : List Char} (h : m ∈ retext n cs) :
    String.ofList cs ≠ "" := by
  unfold retext at h
  split at h
  · simp at h
  · next some => simpa [List.isEmpty_iff] using some

theorem length_retext_le (n : Node) (cs : List Char) : (retext n cs).length ≤ 1 := by
  unfold retext
  split <;> simp

theorem height_parenthetical (n : Node) : (parenthetical n).height = n.height := by
  have marked : ∀ ns : List Node, forestHeight (ns.map fun m =>
      m.setAttr "kind" (.string "parenthetical")) = forestHeight ns := by
    intro ns
    induction ns with
    | nil => rfl
    | cons m ns ih =>
      have same : (m.setAttr "kind" (.string "parenthetical")).height = m.height := by
        rw [height_eq, height_eq m]
        rfl
      simp only [List.map_cons, forestHeight, same, ih]
  rw [height_eq, height_eq n, ← marked n.kids]
  rfl

def unbracket : Step where
  next? := unbracketFront?
  shorter := by
    intro ns done rest found
    obtain ⟨before, n, after, tail, rfl, _, _, rfl⟩ := unbracketFront?_eq_some_iff.1 found
    have := length_retext_le after (after.value.getD "").toList.tail
    simp only [List.length_append, List.length_cons]
    omega

theorem lowers_unbracket : unbracket.Lowers := by
  intro bound ns done rest found lower
  obtain ⟨before, n, after, tail, rfl, _, rfl, rfl⟩ := unbracketFront?_eq_some_iff.1 found
  have retexted : ∀ m ∈ before :: n :: after :: tail, ∀ (cs : List Char), ∀ k ∈ retext m cs,
      k.height < bound := by
    intro m mem cs k hk
    rw [mem_retext hk, height_eq]
    exact height_eq m ▸ lower m mem
  constructor
  · intro m mem
    rcases List.mem_append.1 mem with mem | mem
    · exact retexted before (by simp) _ m mem
    · rw [List.mem_singleton.1 mem, height_parenthetical]
      exact lower n (by simp)
  · intro m mem
    rcases List.mem_append.1 mem with mem | mem
    · exact retexted after (by simp) _ m mem
    · exact lower m (by simp [mem])

def dropBrackets : Edit := .ofStep unbracket (fun _ => true) lowers_unbracket

/-! ### Superscripts and spaces -/

def raisedGroup? (n : Node) : Option Node :=
  match n.kids with
  | [only] => if n.is "superscript" && isGroup only then some only else none
  | _ => none

theorem raisedGroup?_eq_some_iff {n g : Node} :
    raisedGroup? n = some g ↔ n.is "superscript" = true ∧ n.kids = [g] ∧ isGroup g = true := by
  unfold raisedGroup?
  split
  · next only same =>
    simp only [Option.ite_none_right_eq_some, Bool.and_eq_true, Option.some.injEq, same,
      List.cons.injEq, and_true]
    constructor
    · rintro ⟨⟨raised, isOne⟩, rfl⟩
      exact ⟨raised, rfl, isOne⟩
    · rintro ⟨raised, rfl, isOne⟩
      exact ⟨⟨raised, isOne⟩, rfl⟩
  · next many =>
    constructor
    · intro found
      cases found
    · rintro ⟨_, only, _⟩
      exact absurd only (many g)

def lowerFront? : List Node → Option (List Node × List Node)
  | n :: ns => (raisedGroup? n).map fun g => ([g], ns)
  | [] => none

theorem lowerFront?_eq_some_iff {ns done rest : List Node} :
    lowerFront? ns = some (done, rest) ↔
      ∃ n g, ns = n :: rest ∧ raisedGroup? n = some g ∧ done = [g] := by
  cases ns with
  | nil => simp [lowerFront?]
  | cons n ns =>
    simp only [lowerFront?, Option.map_eq_some_iff, Prod.mk.injEq]
    constructor
    · rintro ⟨g, found, rfl, rfl⟩
      exact ⟨n, g, rfl, found, rfl⟩
    · rintro ⟨n, g, same, found, rfl⟩
      cases same
      exact ⟨g, found, rfl, rfl⟩

def lowerGroup : Step where
  next? := lowerFront?
  shorter := by
    intro ns done rest found
    obtain ⟨n, g, rfl, _⟩ := lowerFront?_eq_some_iff.1 found
    exact Nat.lt_succ_self _

theorem lowers_lowerGroup : lowerGroup.Lowers := by
  intro bound ns done rest found lower
  obtain ⟨n, g, rfl, raised, rfl⟩ := lowerFront?_eq_some_iff.1 found
  obtain ⟨_, only, _⟩ := raisedGroup?_eq_some_iff.1 raised
  constructor
  · intro m mem
    obtain rfl := List.mem_singleton.1 mem
    have inside : m.height < n.height :=
      height_lt_of_mem_kids (by rw [only]; exact List.mem_singleton_self _)
    exact Nat.lt_trans inside (lower n List.mem_cons_self)
  · exact fun m mem => lower m (List.mem_cons_of_mem _ mem)

def lowerGroups : Edit := .ofStep lowerGroup (fun _ => true) lowers_lowerGroup

/-- Whether a text needs a space before a group that follows: it ends neither in a blank nor in an
opening bracket. -/
def needsSpace (s : String) : Bool :=
  match s.toList.getLast? with
  | some c => !(Text.isBlank c || c == '[' || c == '(')
  | none => false

def spaced (n : Node) : Node := { n with value := some (n.value.getD "" ++ " ") }

def spaceFront? : List Node → Option (List Node × List Node)
  | t :: g :: ns =>
    if isGroup g && (textOf? t).any needsSpace then some ([spaced t], g :: ns) else none
  | _ => none

theorem spaceFront?_eq_some_iff {ns done rest : List Node} :
    spaceFront? ns = some (done, rest) ↔
      ∃ t g tail, ns = t :: g :: tail ∧ isGroup g = true ∧ (textOf? t).any needsSpace = true ∧
        done = [spaced t] ∧ rest = g :: tail := by
  match ns with
  | [] | [_] => simp [spaceFront?]
  | t :: g :: ns =>
    simp only [spaceFront?, Option.ite_none_right_eq_some, Bool.and_eq_true, Option.some.injEq,
      Prod.mk.injEq]
    constructor
    · rintro ⟨⟨isOne, tight⟩, rfl, rfl⟩
      exact ⟨t, g, ns, rfl, isOne, tight, rfl, rfl⟩
    · rintro ⟨t, g, tail, same, isOne, tight, rfl, rfl⟩
      cases same
      exact ⟨⟨isOne, tight⟩, rfl, rfl⟩

def addSpace : Step where
  next? := spaceFront?
  shorter := by
    intro ns done rest found
    obtain ⟨t, g, tail, rfl, _, _, _, rfl⟩ := spaceFront?_eq_some_iff.1 found
    exact Nat.lt_succ_self _

theorem lowers_addSpace : addSpace.Lowers := by
  intro bound ns done rest found lower
  obtain ⟨t, g, tail, rfl, _, _, rfl, rfl⟩ := spaceFront?_eq_some_iff.1 found
  constructor
  · intro n mem
    have same : (spaced t).height = t.height := by
      rw [height_eq, height_eq t]
      rfl
    rw [List.mem_singleton.1 mem, same]
    exact lower t List.mem_cons_self
  · exact fun n mem => lower n (List.mem_cons_of_mem _ mem)

def spaceGroups : Edit := .ofStep addSpace (fun _ => true) lowers_addSpace

end Manuscript.Myst.Citation
