import Manuscript.Proofs.Reference.Bibliography

/-!
The braces of the bibliography. Texts of an article go into the fields of an entry as they are, so
that an entry can be told from its neighbours exactly if the braces of its fields nest. How deep a
text stands inside braces is counted from the left; a depth never comes back to where it was before
the first brace until the entry is over.
-/

set_option autoImplicit false

namespace Manuscript.Reference.Bibtex

open Manuscript.Node

/-! ### Depths -/

/-- How many braces are open after some characters, if so many were before; none if one is closed
that was not opened. -/
def openAfter : Nat → List Char → Option Nat
  | n, [] => some n
  | n, c :: cs =>
    if c = '{' then openAfter (n + 1) cs
    else if c = '}' then
      match n with
      | 0 => none
      | n + 1 => openAfter n cs
    else openAfter n cs

def isBrace (c : Char) : Bool := c = '{' || c = '}'

def isBraceless (cs : List Char) : Bool := cs.all (!isBrace ·)

theorem isBraceless_iff {cs : List Char} :
    isBraceless cs = true ↔ ∀ c ∈ cs, isBrace c = false := by
  simp [isBraceless]

/-- Whether every brace of a text has its partner in it. -/
def Balanced (s : String) : Prop := openAfter 0 s.toList = some 0

instance (s : String) : Decidable (Balanced s) := inferInstanceAs (Decidable (_ = _))

section
variable {n m k : Nat} {cs ds : List Char}

theorem openAfter_append (n : Nat) (cs ds : List Char) :
    openAfter n (cs ++ ds) = (openAfter n cs).bind (openAfter · ds) := by
  induction cs generalizing n with
  | nil => rfl
  | cons c cs ih =>
    simp only [List.cons_append, openAfter, ih]
    split
    · rfl
    · split
      · cases n <;> rfl
      · rfl

theorem openAfter_of_isBraceless (plain : isBraceless cs = true) :
    openAfter n cs = some n := by
  rw [isBraceless_iff] at plain
  induction cs with
  | nil => rfl
  | cons c cs ih =>
    obtain ⟨here, later⟩ := List.forall_mem_cons.1 plain
    simp only [isBrace, Bool.or_eq_false_iff, decide_eq_false_iff_not] at here
    simp [openAfter, here.1, here.2, ih later]

theorem openAfter_add (counted : openAfter n cs = some m) (k : Nat) :
    openAfter (n + k) cs = some (m + k) := by
  induction cs generalizing n with
  | nil => cases counted; rfl
  | cons c cs ih =>
    simp only [openAfter] at counted ⊢
    split at counted
    · next opens => simpa [opens, Nat.add_right_comm] using ih counted
    · split at counted
      · next other closes =>
        cases n with
        | zero => cases counted
        | succ n =>
          have later := ih counted
          simpa [other, closes, Nat.add_right_comm] using later
      · next other plain => simpa [other, plain] using ih counted

/-- A text whose depth is lost closes a brace that it did not open. -/
theorem exists_overclosed (lost : openAfter n cs = none) :
    ∃ front back, cs = front ++ '}' :: back ∧ openAfter n front = some 0 := by
  induction cs generalizing n with
  | nil => cases lost
  | cons c cs ih =>
    simp only [openAfter] at lost
    -- The brace stands where the depth is lost, behind what is counted without it.
    split at lost
    · next opens =>
      obtain ⟨front, back, rfl, counted⟩ := ih lost
      exact ⟨c :: front, back, rfl, by simpa [openAfter, opens] using counted⟩
    · split at lost
      · next other closes =>
        cases n with
        | zero => exact ⟨[], cs, by rw [closes, List.nil_append], rfl⟩
        | succ n =>
          obtain ⟨front, back, rfl, counted⟩ := ih lost
          exact ⟨c :: front, back, rfl, by simpa [openAfter, other, closes] using counted⟩
      · next other plain =>
        obtain ⟨front, back, rfl, counted⟩ := ih lost
        exact ⟨c :: front, back, rfl, by simpa [openAfter, other, plain] using counted⟩

theorem exists_openAfter_of_append {back : List Char}
    (counted : openAfter n (cs ++ back) = some m) : ∃ k, openAfter n cs = some k := by
  rw [openAfter_append] at counted
  obtain ⟨k, front, -⟩ := Option.bind_eq_some_iff.1 counted
  exact ⟨k, front⟩

end

/-! ### Entries that delimit themselves -/

/-- Whether a text is over exactly where the brace closes that opens first in it: its braces are
balanced, and no part of it from its start on is closed again before its end. -/
structure SelfDelimiting (s : String) : Prop where
  balanced : Balanced s
  unclosed : ∀ front back, s.toList = front ++ back → back ≠ [] → '{' ∈ front →
    ∃ depth, openAfter 0 front = some depth ∧ 0 < depth

/-- A part that holds the first brace of a text ends among what is inside. -/
theorem exists_inner_of_prefix {head inner front back : List Char}
    (plain : isBraceless head = true)
    (split : head ++ '{' :: (inner ++ ['}']) = front ++ back) (proper : back ≠ [])
    (mem : '{' ∈ front) :
    ∃ part rest, inner = part ++ rest ∧ front = head ++ '{' :: part := by
  have braceless : '{' ∉ head := fun mem => absurd (isBraceless_iff.1 plain _ mem) (by decide)
  rcases List.append_eq_append_iff.1 split with ⟨behind, rfl, brace⟩ | ⟨behind, rfl, brace⟩
  · cases behind with
    | nil => exact absurd (by simpa using mem) braceless
    | cons c part =>
      rw [List.cons_append] at brace
      obtain ⟨rfl, inside⟩ := List.cons.inj brace
      -- The rest is not empty, so it has the last brace.
      rw [← List.dropLast_concat_getLast proper, ← List.append_assoc] at inside
      exact ⟨part, back.dropLast, (List.append_inj' inside rfl).1, rfl⟩
  · exact absurd (List.mem_append_left _ mem) braceless

theorem selfDelimiting_iff {s : String} {head inner : List Char}
    (plain : isBraceless head = true)
    (spelled : s.toList = head ++ '{' :: (inner ++ ['}'])) :
    SelfDelimiting s ↔ openAfter 0 inner = some 0 := by
  have opened (cs : List Char) : openAfter 0 (head ++ '{' :: cs) = openAfter 1 cs := by
    rw [openAfter_append, openAfter_of_isBraceless plain]
    simp [openAfter]
  constructor
  · rintro ⟨balanced, unclosed⟩
    cases counted : openAfter 0 inner with
    | none =>
      -- The brace that is closed too often ends the text early.
      exfalso
      obtain ⟨front, back, split, zero⟩ := exists_overclosed counted
      obtain ⟨depth, early, positive⟩ := unclosed (head ++ '{' :: (front ++ ['}']))
        (back ++ ['}']) (by simp [spelled, split]) (by simp) (by simp)
      have one : openAfter 1 front = some 1 := openAfter_add zero 1
      rw [opened, openAfter_append, one] at early
      cases early
      exact Nat.lt_irrefl 0 positive
    | some depth =>
      have deeper : openAfter 1 inner = some (depth + 1) := by
        simpa [Nat.add_comm] using openAfter_add counted 1
      rw [Balanced, spelled, opened, openAfter_append, deeper] at balanced
      simpa [openAfter] using balanced
  · intro nested
    have deeper : openAfter 1 inner = some 1 := openAfter_add nested 1
    constructor
    · rw [Balanced, spelled, opened, openAfter_append, deeper]
      rfl
    · intro front back split proper mem
      obtain ⟨part, rest, rfl, rfl⟩ := exists_inner_of_prefix plain (spelled.symm.trans split)
        proper mem
      obtain ⟨depth, counted⟩ := exists_openAfter_of_append nested
      refine ⟨depth + 1, ?_, Nat.succ_pos depth⟩
      rw [opened]
      simpa [Nat.add_comm] using openAfter_add counted 1

/-! ### Entries of the bibliography -/

def kindFor (cite : Node) : String :=
  if cite.anyBelow (·.isOneOf ["part-title", "chapter-title"]) then "inbook"
  else kindOf ((cite.attrText? "publication-type").orElse fun _ => cite.attrText? "citation-type")

def draftOf (cite : Node) (key : String) : Draft :=
  let publication :=
    (cite.attrText? "publication-type").orElse fun _ => cite.attrText? "citation-type"
  cite.kids.foldl (Draft.addPart key (kindFor cite) (publication == some "patent")) {}

theorem entry_ofCitation (cite : Node) (key : String) : (ofCitation cite key).entry =
    if (draftOf cite key).fields.isEmpty then none
    else some (entryText (kindFor cite) key (draftOf cite key).fields) :=
  rfl

section
variable {cite : Node} {key entry : String}

theorem isBraceless_kindFor (cite : Node) : isBraceless (kindFor cite).toList = true := by
  unfold kindFor
  split
  · decide
  · unfold kindOf
    split <;> decide

theorem toList_intercalate_cons (sep text : String) (texts : List String) :
    (String.intercalate sep (text :: texts)).toList =
      text.toList ++ texts.flatMap fun next => sep.toList ++ next.toList := by
  induction texts generalizing text with
  | nil => simp
  | cons next texts ih =>
    rw [String.intercalate_cons_cons, String.toList_append, String.toList_append, ih]
    simp

theorem openAfter_separated {sep : List Char} (plain : isBraceless sep = true) (n : Nat)
    (texts : List String) : openAfter n (texts.flatMap fun next => sep ++ next.toList) =
      openAfter n (texts.flatMap String.toList) := by
  induction texts generalizing n with
  | nil => rfl
  | cons next texts ih =>
    simp [openAfter_append, openAfter_of_isBraceless plain, ih]

theorem selfDelimiting_entryText_iff {kind : String} (plainKind : isBraceless kind.toList = true)
    (plainKey : isBraceless key.toList = true) (fields : List String) :
    SelfDelimiting (entryText kind key fields) ↔ Balanced (String.join fields) := by
  have spelled : (entryText kind key fields).toList = ('@' :: kind.toList) ++ '{' ::
      ((key.toList ++ (fields.flatMap fun field => ",\n".toList ++ field.toList) ++ ['\n']) ++
        ['}']) := by
    rw [entryText, String.toList_append, toList_intercalate_cons]
    simp
  have plainHead : isBraceless ('@' :: kind.toList) = true := plainKind
  rw [selfDelimiting_iff plainHead spelled, openAfter_append, openAfter_append,
    openAfter_of_isBraceless plainKey, Option.bind_some, openAfter_separated (by decide), Balanced,
    String.toList_join]
  cases openAfter 0 (fields.flatMap String.toList) <;> simp [openAfter]

end

/-! ### Texts that nest -/

namespace Balanced

variable {s t : String}

theorem append (first : Balanced s) (second : Balanced t) : Balanced (s ++ t) := by
  rw [Balanced] at first second
  rw [Balanced, String.toList_append, openAfter_append, first, Option.bind_some, second]

theorem of_isBraceless (plain : isBraceless s.toList = true) : Balanced s :=
  openAfter_of_isBraceless plain

theorem braced (inner : Balanced s) : Balanced (Bibtex.braced s) := by
  have deeper : openAfter 1 s.toList = some 1 := openAfter_add inner 1
  simp [Balanced, Bibtex.braced, openAfter, openAfter_append, deeper]

theorem field (name : Balanced s) (value : Balanced t) : Balanced (Bibtex.field s t) :=
  ((append (by decide) name).append (by decide)).append value.braced

theorem join {texts : List String} (each : ∀ s ∈ texts, Balanced s) :
    Balanced (String.join texts) := by
  rw [Balanced, String.toList_join]
  induction texts with
  | nil => rfl
  | cons s texts ih =>
    obtain ⟨here, later⟩ := List.forall_mem_cons.1 each
    rw [Balanced] at here
    rw [List.flatMap_cons, openAfter_append, here, Option.bind_some, ih later]

theorem intercalate {sep : String} (plain : isBraceless sep.toList = true)
    {texts : List String} (each : ∀ s ∈ texts, Balanced s) :
    Balanced (String.intercalate sep texts) := by
  cases texts with
  | nil => simp [Balanced, openAfter]
  | cons s texts =>
    obtain ⟨here, later⟩ := List.forall_mem_cons.1 each
    have rest := join later
    rw [Balanced, String.toList_join] at rest
    rw [Balanced] at here
    rw [Balanced, toList_intercalate_cons, openAfter_append, here, Option.bind_some,
      openAfter_separated plain, rest]

end Balanced

/-- The texts that an entry may copy from a part of a citation, the names of persons as they are put
together. -/
def copies (part : Node) : List String :=
  if part.isOneOf ["label", "pub-id"] then []
  else if part.is "uri" then [(part.attrText? "xlink:href").getD (textOf part)]
  else if part.is "person-group" then (part.findAll isPerson).map personName
  else if isPerson part then [personName part]
  else [textOf part]

namespace Draft

/-- Whether the braces of every text in a draft nest. -/
structure Nested (d : Draft) : Prop where
  lines : ∀ s ∈ d.lines, Balanced s
  authors : ∀ s ∈ d.authors, Balanced s
  editors : ∀ s ∈ d.editors, Balanced s
  patent : ∀ s ∈ d.patent, Balanced s
  firstPage : ∀ s ∈ d.firstPage, Balanced s
  lastPage : ∀ s ∈ d.lastPage, Balanced s
  loosePage : ∀ s ∈ d.loosePage, Balanced s

section
variable {d : Draft}

theorem forall_mem_personLines (name : String) (named : Balanced name) {persons : List String}
    (each : ∀ s ∈ persons, Balanced s) : ∀ s ∈ personLines name persons, Balanced s := by
  unfold personLines
  split
  · exact List.forall_mem_nil _
  · have joined : Balanced (String.intercalate " and " persons) :=
      Balanced.intercalate (by decide) each
    simpa using named.field joined

theorem Nested.fields (nested : Nested d) : ∀ s ∈ d.fields, Balanced s := by
  have patent : ∀ s ∈ d.patentLines, Balanced s := by
    unfold patentLines
    split
    · exact List.forall_mem_nil _
    · have joined : Balanced (String.intercalate " " d.patent) :=
        Balanced.intercalate (by decide) nested.patent
      simpa using Balanced.field (s := "title") (by decide) joined
  have pages : ∀ s ∈ d.pageLines, Balanced s := by
    unfold pageLines
    split
    · exact List.forall_mem_nil _
    · next first page =>
      have start : Balanced first := by
        rw [Option.orElse_eq_or, Option.or_eq_some_iff] at page
        rcases page with page | ⟨-, page⟩
        · exact nested.firstPage first page
        · exact nested.loosePage first page
      rw [List.forall_mem_singleton]
      apply Balanced.field (by decide)
      split
      · next last page => exact (start.append (by decide)).append (nested.lastPage last page)
      · exact start
  have authors := forall_mem_personLines "author" (by decide) nested.authors
  have editors := forall_mem_personLines "editor" (by decide) nested.editors
  simp only [Draft.fields, List.forall_mem_append]
  exact ⟨⟨⟨⟨nested.lines, patent⟩, pages⟩, authors⟩, editors⟩

theorem not_isBrace_of_isDigit {c : Char} (digit : Text.isDigit c = true) : isBrace c = false := by
  rw [isBrace, Bool.or_eq_false_iff, decide_eq_false_iff_not, decide_eq_false_iff_not]
  constructor <;>
    · rintro rfl
      cases digit

theorem balanced_of_loosePage? {text page : String} (loose : loosePage? text = some page) :
    Balanced page := by
  unfold loosePage? at loose
  split at loose
  · next rest _ =>
    obtain ⟨-, same⟩ := Option.ite_none_right_eq_some.1 loose
    cases same
    apply Balanced.of_isBraceless
    rw [isBraceless_iff, String.toList_ofList]
    intro c mem
    exact not_isBrace_of_isDigit (List.all_eq_true.1 List.all_takeWhile c mem)
  · cases loose

theorem Nested.empty : Nested {} := by
  constructor <;> simp

theorem Nested.add (nested : Nested d) {name value : String} (named : Balanced name)
    (text : Balanced value) : Nested (d.add name value) :=
  { nested with
    lines := List.forall_mem_append.2 ⟨nested.lines, by simpa using named.field text⟩ }

theorem Nested.addTitle (nested : Nested d) {title : String} (text : Balanced title) :
    Nested (d.addTitle title) :=
  { nested.add (by decide : Balanced "title") text with }

theorem Nested.addText (nested : Nested d) {isPatent : Bool} {text : String}
    (own : Balanced text) : Nested (d.addText isPatent text) := by
  unfold Draft.addText
  split
  · next page loose =>
    exact { nested with loosePage := by simpa using balanced_of_loosePage? loose }
  · split
    · exact { nested with patent := List.forall_mem_cons.2 ⟨own, nested.patent⟩ }
    · exact nested

theorem Nested.addSource (nested : Nested d) {kind text : String} (own : Balanced text) :
    Nested (d.addSource kind text) := by
  unfold Draft.addSource
  split
  · exact nested.addTitle own
  · split
    · exact nested.add (by decide) own
    · exact nested.add (by decide) own

theorem Nested.addPersons (nested : Nested d) {group : Node}
    (names : ∀ s ∈ (group.findAll isPerson).map personName, Balanced s) :
    Nested (d.addPersons group) := by
  unfold Draft.addPersons
  simp only
  split
  · exact { nested with editors := List.forall_mem_append.2 ⟨nested.editors, names⟩ }
  · exact { nested with authors := List.forall_mem_append.2 ⟨nested.authors, names⟩ }

theorem Nested.addPart (nested : Nested d) {key kind : String} {isPatent : Bool} {part : Node}
    (texts : ∀ s ∈ copies part, Balanced s) : Nested (d.addPart key kind isPatent part) := by
  -- One case for each kind: its text goes to one place, and the names of fields have no braces.
  unfold Draft.addPart
  simp only
  split
  all_goals
    rename_i kind
    simp [copies, isPerson, is, isOneOf, kind] at texts
  case h_1 | h_2 => exact nested
  case h_3 => exact nested.addText texts
  case h_4 | h_5 | h_6 | h_7 => exact nested.addTitle texts
  case h_8 => exact nested.addSource texts
  case h_10 =>
    exact { nested with patent := List.forall_mem_append.2 ⟨nested.patent, by simpa using texts⟩ }
  case h_9 | h_11 | h_12 | h_13 | h_14 | h_15 | h_16 | h_17 | h_18 =>
    exact nested.add (by decide) texts
  case h_19 => exact nested.add (by decide) (Balanced.append (by decide) texts.braced)
  case h_20 =>
    apply nested.add (by decide)
    split
    · exact Balanced.append (by decide) texts
    · exact texts
  case h_21 => exact { nested with firstPage := by simpa using texts }
  case h_22 => exact { nested with lastPage := by simpa using texts }
  case h_23 => exact nested.addPersons (by simpa using texts)
  case h_24 | h_25 | h_26 | h_27 =>
    exact { nested with authors := List.forall_mem_append.2 ⟨nested.authors, by simpa using texts⟩ }
  case h_28 => exact { nested with }

theorem Nested.foldl (nested : Nested d) {key kind : String} {isPatent : Bool} {parts : List Node}
    (texts : ∀ part ∈ parts, ∀ s ∈ copies part, Balanced s) :
    Nested (parts.foldl (Draft.addPart key kind isPatent) d) := by
  induction parts generalizing d with
  | nil => exact nested
  | cons part parts ih =>
    obtain ⟨here, later⟩ := List.forall_mem_cons.1 texts
    exact ih (nested.addPart here) later

end

end Draft

/-! ### The joined bibliography -/

/-- Whether an entry behind some text starts outside of all braces, stays inside of one from the
first that it opens, and ends outside of all again. -/
structure StandsApart (front entry : String) : Prop where
  start : Balanced front
  inside : ∀ part rest, entry.toList = part ++ rest → rest ≠ [] → '{' ∈ part →
    ∃ depth, openAfter 0 (front.toList ++ part) = some depth ∧ 0 < depth
  stop : Balanced (front ++ entry)

theorem SelfDelimiting.standsApart {front entry : String} (closed : SelfDelimiting entry)
    (start : Balanced front) : StandsApart front entry where
  start := start
  inside := by
    intro part rest split proper mem
    rw [Balanced] at start
    rw [openAfter_append, start]
    exact closed.unclosed part rest split proper mem
  stop := start.append closed.balanced

theorem intercalate_append_cons (sep entry : String) (before after : List String) :
    String.intercalate sep (before ++ entry :: after) =
      String.join (before.map (· ++ sep)) ++ entry ++ String.join (after.map (sep ++ ·)) := by
  induction before with
  | nil =>
    apply String.toList_inj.1
    rw [List.nil_append, toList_intercalate_cons]
    simp [List.flatMap_map]
  | cons text before ih =>
    have some : before ++ entry :: after ≠ [] := by simp
    rw [List.cons_append, String.intercalate_cons_of_ne_nil some, ih]
    simp [String.append_assoc]

/-- Entries that delimit themselves can be told apart in the bibliography. -/
theorem standsApart_of_bibtex {r : Registry} (each : ∀ e ∈ r.bibtex, SelfDelimiting e)
    {before after : List String} {entry : String} (split : r.bibtex = before ++ entry :: after) :
    ∃ front back, r.bibliography? = some (front ++ entry ++ back) ∧
      front = String.join (before.map (· ++ "\n\n")) ∧ StandsApart front entry := by
  rw [split] at each
  have closed : SelfDelimiting entry := each entry (by simp)
  have start : Balanced (String.join (before.map (· ++ "\n\n"))) := by
    apply Balanced.join
    rw [List.forall_mem_map]
    intro e mem
    exact (each e (List.mem_append_left _ mem)).balanced.append (by decide)
  have some : r.bibtex.isEmpty = false := by simp [split]
  refine ⟨_, String.join (after.map ("\n\n" ++ ·)), ?_, rfl, closed.standsApart start⟩
  rw [Registry.bibliography?, some, split, ← intercalate_append_cons]
  rfl

/-- An entry whose key has no braces delimits itself exactly if the braces of its fields nest. In
particular it does if those of every text nest that is copied from the citation. Entries that do are
told apart in the bibliography. -/
theorem entry_delimits_itself_iff {cite : Node} {key entry : String}
    (plain : isBraceless key.toList = true)
    (stated : (ofCitation cite key).entry = some entry) :
    (SelfDelimiting entry ↔ Balanced (String.join (draftOf cite key).fields)) ∧
    ((∀ s ∈ cite.kids.flatMap copies, Balanced s) → SelfDelimiting entry) ∧
    ∀ (r : Registry) (before after : List String), r.bibtex = before ++ entry :: after →
      (∀ e ∈ r.bibtex, SelfDelimiting e) → ∃ front back,
        r.bibliography? = some (front ++ entry ++ back) ∧
        front = String.join (before.map (· ++ "\n\n")) ∧ StandsApart front entry := by
  rw [entry_ofCitation] at stated
  obtain ⟨-, same⟩ := Option.ite_none_left_eq_some.1 stated
  cases same
  have iff := selfDelimiting_entryText_iff (isBraceless_kindFor cite) plain
    (draftOf cite key).fields
  refine ⟨iff, fun texts => ?_, fun r before after split each => standsApart_of_bibtex each split⟩
  have nested : (draftOf cite key).Nested :=
    Draft.Nested.empty.foldl fun part child s mem => texts s (List.mem_flatMap.2 ⟨part, child, mem⟩)
  exact iff.2 (Balanced.join nested.fields)

/-- A citation of which only a title is known. -/
def titled (title : String) : Node :=
  branch "mixed-citation" [branch "article-title" [.text title]]

theorem titled_delimits_itself :
    isBraceless "r1".toList = true ∧
    (ofCitation (titled "a\x7bb\x7d") "r1").entry =
      some "@misc\x7br1,\n  title = \x7ba\x7bb\x7d\x7d\n\x7d" ∧
    SelfDelimiting "@misc\x7br1,\n  title = \x7ba\x7bb\x7d\x7d\n\x7d" := by
  have plain : isBraceless "r1".toList = true := by decide
  have stated : (ofCitation (titled "a\x7bb\x7d") "r1").entry =
      some "@misc\x7br1,\n  title = \x7ba\x7bb\x7d\x7d\n\x7d" := by decide +kernel
  have copied : (titled "a\x7bb\x7d").kids.flatMap copies = ["a\x7bb\x7d"] := by decide +kernel
  have texts : ∀ s ∈ (titled "a\x7bb\x7d").kids.flatMap copies, Balanced s := by
    rw [copied, List.forall_mem_singleton]
    decide
  exact ⟨plain, stated, (entry_delimits_itself_iff plain stated).2.1 texts⟩

/-- A title goes into its entry as it is, so that one brace of it closes the entry early and another
keeps it open. -/
theorem titled_not_selfDelimiting :
    isBraceless "r1".toList = true ∧
    (ofCitation (titled "a\x7db") "r1").entry =
        some "@misc\x7br1,\n  title = \x7ba\x7db\x7d\n\x7d" ∧
      ¬ SelfDelimiting "@misc\x7br1,\n  title = \x7ba\x7db\x7d\n\x7d" ∧
    (ofCitation (titled "a\x7bb") "r1").entry =
        some "@misc\x7br1,\n  title = \x7ba\x7bb\x7d\n\x7d" ∧
      ¬ SelfDelimiting "@misc\x7br1,\n  title = \x7ba\x7bb\x7d\n\x7d" := by
  refine ⟨by decide, by decide +kernel, fun closed => ?_, by decide +kernel, fun closed => ?_⟩
  · exact absurd closed.balanced (by decide +kernel)
  · exact absurd closed.balanced (by decide +kernel)

end Manuscript.Reference.Bibtex
