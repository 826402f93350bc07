import Manuscript.Proofs.Xml.Tag
import Manuscript.Xml.Reader

/-!
Reading a tree that was written gives the tree back. Each node is written as text that takes the
reader from what it has read to the same with the node added, whatever follows; a run of text needs
that a tag follows.
-/

set_option autoImplicit false

namespace Manuscript.Xml

/-! ### Trees that are read as they are written -/

/-- Whether text ends in a line feed and blanks behind it, one at least. -/
def EndsIndented (cs : List Char) : Prop :=
  ∃ before blanks, cs = before ++ '\n' :: blanks ∧ blanks ≠ [] ∧
    ∀ c ∈ blanks, Text.isBlank c = true

/-- Whether no part of a run of text only lays out the source. -/
structure IsRun (s : String) : Prop where
  some : s ≠ ""
  visible : (∃ c ∈ s.toList, Text.isBlank c = false) ∨ '\n' ∉ s.toList
  flush : ¬ EndsIndented s.toList

/-- Whether no text stands next to another. -/
def TextsApart : List Node → Prop
  | n :: m :: ns => ¬ (n.isText = true ∧ m.isText = true) ∧ TextsApart (m :: ns)
  | _ => True

/-- Trees of elements with names and attributes that can be written, and with texts and marked
sections that are read as they are. -/
inductive Writable : Node → Prop where
  | text {value : String} (run : IsRun value) : Writable (.text value)
  | cdata {value : String} (trimmed : Text.trimWhile Text.isBlank value.toList = value.toList)
      (free : Text.occursIn [']', ']', '>'] value.toList = false) : Writable (.scalar "cdata" value)
  | comment {value : String} (free : Text.occursIn ['-', '-', '>'] value.toList = false) :
      Writable (.scalar "comment" value)
  | code {value : String} {attrs : Attrs} (run : value = "" ∨ IsRun value)
      (entries : ∀ e ∈ attrs.entries, isWritable e = true) : Writable (.scalar "code" value attrs)
  | element {kind : String} {children : List Node} {attrs : Attrs} (name : isName kind = true)
      (other : kind ∉ ["text", "cdata", "comment", "code"])
      (entries : ∀ e ∈ attrs.entries, isWritable e = true) (apart : TextsApart children)
      (below : ∀ c ∈ children, Writable c) : Writable (.branch kind children attrs)

/-! ### Text that is read as it is written -/

theorem dropIndent_eq {cs : List Char} (flush : ¬ EndsIndented cs) : dropIndent cs = cs := by
  obtain ⟨blanks, parts, blank⟩ : ∃ blanks, Text.dropEndWhile Text.isBlank cs ++ blanks = cs ∧
      ∀ c ∈ blanks, Text.isBlank c = true := by
    refine ⟨(cs.reverse.takeWhile Text.isBlank).reverse, ?_, fun c mem => ?_⟩
    · rw [Text.dropEndWhile, ← List.reverse_append, List.takeWhile_append_dropWhile,
        List.reverse_reverse]
    · exact List.all_eq_true.1 List.all_takeWhile c (List.mem_reverse.1 mem)
  have cut := congrArg (List.drop (Text.dropEndWhile Text.isBlank cs).length) parts
  rw [List.drop_left] at cut
  unfold dropIndent
  simp only [← cut]
  split
  · next c d tail found =>
    -- A line feed with a blank behind it would stand in the blanks at the end.
    refine absurd ?_ flush
    have feed := List.head?_dropWhile_not (fun c => decide (c ≠ '\n')) blanks
    have line := List.takeWhile_append_dropWhile (p := fun c => decide (c ≠ '\n')) (l := blanks)
    rw [found] at feed line
    obtain rfl : c = '\n' := by simpa using feed
    refine ⟨Text.dropEndWhile Text.isBlank cs ++ blanks.takeWhile fun c => decide (c ≠ '\n'),
      d :: tail, ?_, by simp, fun e mem => blank e ?_⟩
    · rw [List.append_assoc, line, parts]
    · rw [← line]
      exact List.mem_append_right _ (List.mem_cons_of_mem _ mem)
  · rfl

theorem textNode?_escape {value : String} (run : IsRun value) :
    textNode? (escape value.toList) = some (.text value) := by
  have same : decode textEntity (escape value.toList) = value.toList := by
    rw [decode, decode_escape fun _ _ => textEntity_of_predefined, Option.getD_some]
  have kept : (value.toList.all Text.isBlank &&
      (value.toList.isEmpty || value.toList.contains '\n')) = false := by
    have some : value.toList.isEmpty = false := by simpa using run.some
    rw [some, Bool.false_or, Bool.and_eq_false_iff]
    rcases run.visible with ⟨c, mem, visible⟩ | none
    · exact .inl (List.all_eq_false.2 ⟨c, mem, by simp [visible]⟩)
    · exact .inr (by simpa using none)
  rw [textNode?, same, kept, dropIndent_eq run.flush, String.ofList_toList]
  rfl

/-- A mark of three characters that begins with two of one kind is found where it ends a text. -/
theorem cutAtText_append {x y : Char} (ne : x ≠ y) {cs : List Char}
    (free : Text.occursIn [x, x, y] cs = false) (rest : List Char) :
    Text.cutAtText [x, x, y] (cs ++ x :: x :: y :: rest) = some (cs, rest) := by
  induction cs with
  | nil => simp [Text.cutAtText, Text.rest?]
  | cons c cs ih =>
    rw [Text.occursIn, Bool.or_eq_false_iff] at free
    have none : Text.rest? [x, x, y] (c :: (cs ++ x :: x :: y :: rest)) = none := by
      have here := free.1
      -- The mark has three characters: only where fewer are left it could reach into the end.
      rcases cs with _ | ⟨d, _ | ⟨e, cs⟩⟩
      · simp [Text.rest?, ne.symm]
      · simp [Text.rest?, ne.symm]
      · simpa [Text.rest?] using here
    rw [List.cons_append, Text.cutAtText, none, ih free.2]
    rfl

/-! ### Steps of the reader -/

/-- What the reader has read behind a text whose first character stands at `position`. -/
def readFrom (position : Nat) (cs : List Char) (p : Progress) : Except Error Progress :=
  (tokensFrom position cs).foldlM Progress.step p

/-- Whether reading a text leads from one state to another if `rest` follows. -/
def Leads (p : Progress) (cs rest : List Char) (q : Progress) : Prop :=
  ∀ position, ∃ behind, readFrom position (cs ++ rest) p = readFrom behind rest q

section
variable {p q r : Progress} {cs ds rest : List Char}

theorem Leads.refl (p : Progress) (rest : List Char) : Leads p [] rest p :=
  fun position => ⟨position, rfl⟩

theorem Leads.trans (first : Leads p cs (ds ++ rest) q) (second : Leads q ds rest r) :
    Leads p (cs ++ ds) rest r := by
  intro position
  obtain ⟨mid, here⟩ := first position
  obtain ⟨behind, there⟩ := second mid
  exact ⟨behind, by rw [List.append_assoc, here, there]⟩

theorem leads_markup {marks : Nat} {token : List Char → Token} {otherwise : Fault}
    {content : List Char}
    (cut : ∀ position, markup position (cs ++ rest) =
      .ofCut position marks token otherwise (some (content, rest)))
    (step : ∀ position, p.step ⟨position, token content⟩ = .ok q) : Leads p ('<' :: cs) rest q := by
  intro position
  refine ⟨position + (marks + byteLength content), ?_⟩
  rw [readFrom, List.cons_append, tokensFrom, if_pos rfl, cut, Piece.ofCut, List.foldlM_cons, step]
  rfl

/-- A run of text is one step if it does not go on behind. -/
theorem leads_text {value : String} (run : IsRun value)
    (tag : rest = [] ∨ ∃ ds, rest = '<' :: ds) :
    Leads p (escape value.toList) rest (p.append (.text value)) := by
  intro position
  have plain := plain_escape value.toList
  have node := textNode?_escape run
  have some : value.toList ≠ [] := by simpa using run.some
  obtain ⟨c, cs, same⟩ := List.exists_cons_of_ne_nil (escape_ne_nil some)
  rw [same] at plain node ⊢
  obtain ⟨first, others⟩ := List.forall_mem_cons.1 plain
  have inside : ∀ d ∈ cs, decide (d ≠ '<') = true := fun d mem => by simpa using (others d mem).1
  have ends : rest.takeWhile (fun d => decide (d ≠ '<')) = [] ∧
      rest.dropWhile (fun d => decide (d ≠ '<')) = rest := by
    rcases tag with rfl | ⟨ds, rfl⟩
    · exact ⟨rfl, rfl⟩
    · exact ⟨List.takeWhile_cons_of_neg (by decide), List.dropWhile_cons_of_neg (by decide)⟩
  have step : p.step ⟨position, .text (c :: cs)⟩ = .ok (p.append (.text value)) := by
    simp only [Progress.step, node]
    rfl
  refine ⟨position + byteLength (c :: cs), ?_⟩
  rw [readFrom, List.cons_append, tokensFrom, if_neg first.1, List.takeWhile_append_of_pos inside,
    List.dropWhile_append_of_pos inside, ends.1, ends.2, List.append_nil, List.foldlM_cons, step]
  rfl

theorem leads_comment {value : String}
    (free : Text.occursIn ['-', '-', '>'] value.toList = false) :
    Leads p ('<' :: (['!', '-', '-'] ++ value.toList ++ ['-', '-', '>'])) rest
      (p.append (.scalar "comment" value)) := by
  have ends := cutAtText_append (by decide : '-' ≠ '>') free rest
  have cut (position : Nat) : markup position (['!', '-', '-'] ++ value.toList ++ ['-', '-', '>'] ++
      rest) = .ofCut position 7 .comment .commentNotClosed (some (value.toList, rest)) := by
    simp [markup, Text.rest?, ends]
  refine leads_markup cut fun position => ?_
  simp only [Progress.step, String.ofList_toList]
  rfl

theorem leads_cdata {value : String}
    (trimmed : Text.trimWhile Text.isBlank value.toList = value.toList)
    (free : Text.occursIn [']', ']', '>'] value.toList = false) :
    Leads p ('<' :: (['!', '[', 'C', 'D', 'A', 'T', 'A', '['] ++ value.toList ++ [']', ']', '>']))
      rest (p.append (.scalar "cdata" value)) := by
  have ends := cutAtText_append (by decide : ']' ≠ '>') free rest
  have cut (position : Nat) :
      markup position
          (['!', '[', 'C', 'D', 'A', 'T', 'A', '['] ++ value.toList ++ [']', ']', '>'] ++ rest) =
        .ofCut position 12 .cdata .cdataNotClosed (some (value.toList, rest)) := by
    simp [markup, Text.rest?, ends]
  refine leads_markup cut fun position => ?_
  simp only [Progress.step, trimmed, String.ofList_toList]
  rfl

end

/-! ### Elements -/

section
variable {p : Progress} {rest : List Char} {name : String} {attrs : Attrs}

theorem markup_tagChars (isName : isName name = true) (attrs : Attrs) (cs : List Char)
    (position : Nat) :
    markup position (tagChars name attrs ++ cs) =
      .ofCut position 2 startTag .tagNotClosed (cutTag none (tagChars name attrs ++ cs)) := by
  obtain ⟨some, chars⟩ := isName_iff.1 isName
  obtain ⟨c, tail, same⟩ := List.exists_cons_of_ne_nil some
  have first := chars c (by rw [same]; exact List.mem_cons_self)
  have slash : c ≠ '/' := by rintro rfl; exact absurd first (by decide)
  have question : c ≠ '?' := by rintro rfl; exact absurd first (by decide)
  have bang : c ≠ '!' := by rintro rfl; exact absurd first (by decide)
  rw [tagChars, same, List.append_assoc, List.cons_append]
  unfold markup
  split <;> simp_all

theorem elementAttrs_entries (writable : ∀ e ∈ attrs.entries, isWritable e = true) :
    elementAttrs (attrs.entries.map fun e => (writtenName e.1, e.2.asString?.getD "")) = attrs := by
  have back : ∀ e ∈ attrs.entries,
      (if writtenName e.1 = "type" then "_type" else writtenName e.1,
        Json.string (e.2.asString?.getD "")) = e := by
    intro e mem
    obtain ⟨-, free, value, text⟩ := exists_text (writable e mem)
    obtain ⟨key, v⟩ := e
    subst text
    by_cases hidden : key = "_type"
    · simp [writtenName, hidden, Json.asString?]
    · simp only [] at free
      simp [writtenName, hidden, free, Json.asString?]
  rw [elementAttrs, List.map_map]
  -- Entries are written in the order of their keys, so they make up the same attributes again.
  refine Eq.trans (congrArg Dict.ofList ?_) (Dict.ofList_entries attrs)
  exact (List.map_congr_left back).trans (List.map_id _)

theorem leads_start (isName : isName name = true)
    (writable : ∀ e ∈ attrs.entries, isWritable e = true) :
    Leads p ('<' :: (tagChars name attrs ++ ['>'])) rest
      { p with frames := ⟨name, attrs, []⟩ :: p.frames } := by
  have cut (position : Nat) : markup position (tagChars name attrs ++ ['>'] ++ rest) =
      .ofCut position 2 startTag .tagNotClosed (some (tagChars name attrs, rest)) := by
    rw [List.append_assoc, markup_tagChars isName, List.singleton_append,
      cutTag_append (closed_tagChars isName writable)]
  refine leads_markup cut fun position => ?_
  rw [startTag_tagChars isName writable, Progress.step]
  simp only [elementAttrs_entries writable]
  rfl

theorem leads_closed (isName : isName name = true)
    (writable : ∀ e ∈ attrs.entries, isWritable e = true) :
    Leads p ('<' :: (tagChars name attrs ++ ['/', '>'])) rest
      (p.append (Frame.mk name attrs []).node) := by
  have slash : Closed ['/'] := closed_of_plain (by simp [Plain])
  have cut (position : Nat) : markup position (tagChars name attrs ++ ['/', '>'] ++ rest) =
      .ofCut position 2 startTag .tagNotClosed (some (tagChars name attrs ++ ['/'], rest)) := by
    rw [List.append_assoc, markup_tagChars isName,
      ← cutTag_append ((closed_tagChars isName writable).append slash) rest, List.append_assoc]
    rfl
  refine leads_markup cut fun position => ?_
  rw [startTag_closed isName writable, Progress.step]
  simp only [elementAttrs_entries writable]
  rfl

theorem endTag_name (isName : isName name = true) : endTag name.toList = .finish name := by
  obtain ⟨some, chars⟩ := isName_iff.1 isName
  have kept : Text.dropEndWhile isSpace name.toList = name.toList := by
    obtain ⟨c, cs, last⟩ := List.exists_cons_of_ne_nil (mt List.reverse_eq_nil_iff.1 some)
    have char := chars c (List.mem_reverse.1 (by rw [last]; exact List.mem_cons_self))
    rw [isNameChar, Bool.and_eq_true, Bool.not_eq_true'] at char
    rw [Text.dropEndWhile, last, List.dropWhile_cons_of_neg (by simp [char.1]), ← last,
      List.reverse_reverse]
  simp only [endTag, kept, List.isEmpty_eq_false_iff.2 some, Bool.false_eq_true, if_false,
    String.ofList_toList]

theorem leads_finish {f : Frame} (isName : isName f.name = true) :
    Leads { p with frames := f :: p.frames } ('<' :: '/' :: (f.name.toList ++ ['>'])) rest
      (p.append f.node) := by
  obtain ⟨-, chars⟩ := isName_iff.1 isName
  have closed : Closed f.name.toList :=
    closed_of_plain fun c mem => plain_of_isNameChar (chars c mem)
  have cut (position : Nat) : markup position ('/' :: (f.name.toList ++ ['>']) ++ rest) =
      .ofCut position 3 endTag .tagNotClosed (some (f.name.toList, rest)) := by
    rw [List.cons_append, List.append_assoc, List.singleton_append, markup, cutTag_append closed]
  refine leads_markup cut fun position => ?_
  rw [endTag_name isName, Progress.step]
  simp only [if_true]
  rfl

end

/-! ### Nodes as they are written -/

section
variable {kind : String} {attrs : Attrs}

theorem toList_element (name : String) (attrs : Attrs) (content : Option String) :
    (element name attrs content).toList =
      match content with
      | none => '<' :: (tagChars name attrs ++ ['/', '>'])
      | some inner => '<' :: (tagChars name attrs ++ ['>']) ++
          (inner.toList ++ '<' :: '/' :: (name.toList ++ ['>'])) := by
  cases content <;>
    simp [element, tagChars, attributeChars, String.toList_join, List.flatMap_map]

theorem toList_render_branch (other : kind ∉ ["text", "cdata", "comment", "code"])
    (children : List Node) (attrs : Attrs) :
    (render (.branch kind children attrs)).toList =
      match children with
      | [] => '<' :: (tagChars kind attrs ++ ['/', '>'])
      | _ :: _ => '<' :: (tagChars kind attrs ++ ['>']) ++
          ((renderAll children).toList ++ '<' :: '/' :: (kind.toList ++ ['>'])) := by
  simp only [List.mem_cons, List.not_mem_nil, or_false, not_or] at other
  cases children with
  | nil => rw [Node.branch, render, nodeText, if_neg other.1, if_neg other.2.1, if_neg other.2.2.1,
      toList_element]
  | cons c cs =>
    rw [Node.branch, render, nodeText, if_neg other.1, if_neg other.2.1, if_neg other.2.2.1,
      toList_element, renderAll]

theorem toList_render_code (value : String) (attrs : Attrs) :
    (render (.scalar "code" value attrs)).toList =
      '<' :: (tagChars "code" attrs ++ ['>']) ++
        (escape value.toList ++ '<' :: '/' :: ("code".toList ++ ['>'])) := by
  rw [Node.scalar, render, nodeText, if_neg (by decide), if_neg (by decide), if_neg (by decide),
    toList_element]
  simp [escapeText]

end

theorem toList_render_comment (value : String) :
    (render (.scalar "comment" value)).toList =
      '<' :: (['!', '-', '-'] ++ value.toList ++ ['-', '-', '>']) := by
  simp [Node.scalar, render, nodeText]

theorem toList_render_cdata (value : String) :
    (render (.scalar "cdata" value)).toList =
      '<' :: (['!', '[', 'C', 'D', 'A', 'T', 'A', '['] ++ value.toList ++ [']', ']', '>']) := by
  simp [Node.scalar, render, nodeText]

theorem exists_toList_render {n : Node} (writable : Writable n) (element : n.isText = false) :
    ∃ cs, (render n).toList = '<' :: cs := by
  cases writable with
  | text => exact absurd element (by simp [Node.isText, Node.text, Node.scalar])
  | cdata => exact ⟨_, toList_render_cdata _⟩
  | comment => exact ⟨_, toList_render_comment _⟩
  | code => exact ⟨_, toList_render_code ..⟩
  | @element _ children _ _ other =>
    rw [toList_render_branch other]
    cases children with
    | nil => exact ⟨_, rfl⟩
    | cons => exact ⟨_, rfl⟩

/-! ### Reading what is written -/

/-- Whether a run of text ends where the text goes on. -/
def Opens (rest : List Char) : Prop := rest = [] ∨ ∃ cs, rest = '<' :: cs

/-- Whether reading a written node adds the node, whatever has been read. -/
def ReadsBack (n : Node) : Prop :=
  ∀ p rest, (n.isText = true → Opens rest) → Leads p (render n).toList rest (p.append n)

theorem foldl_append (p : Progress) (f : Frame) (outer : List Frame) (ns : List Node) :
    ns.foldl Progress.append { p with frames := f :: outer } =
      { p with frames := { f with children := f.children ++ ns } :: outer } := by
  induction ns generalizing f with
  | nil => simp
  | cons n ns ih => simp [Progress.append, ih]

theorem leads_renderAll {ns : List Node} (reads : ∀ n ∈ ns, ReadsBack n)
    (writable : ∀ n ∈ ns, Writable n) (apart : TextsApart ns) (p : Progress) {rest : List Char}
    (opens : Opens rest) : Leads p (renderAll ns).toList rest (ns.foldl Progress.append p) := by
  induction ns generalizing p with
  | nil => exact .refl p rest
  | cons n ns ih =>
    obtain ⟨first, reads⟩ := List.forall_mem_cons.1 reads
    obtain ⟨-, writable⟩ := List.forall_mem_cons.1 writable
    rw [renderAll, String.toList_append, List.foldl_cons]
    refine (first p _ fun text => ?_).trans (ih reads writable ?_ (p.append n))
    -- Behind a text comes what follows all nodes, or a node that is no text.
    · cases ns with
      | nil => simpa [renderAll] using opens
      | cons m ns =>
        have other : m.isText = false := Bool.eq_false_iff.2 fun text' => apart.1 ⟨text, text'⟩
        obtain ⟨cs, bracket⟩ := exists_toList_render (writable m List.mem_cons_self) other
        rw [renderAll, String.toList_append, bracket]
        exact .inr ⟨_, rfl⟩
    · cases ns with
      | nil => trivial
      | cons m ns => exact apart.2

theorem readsBack_element {kind : String} {children : List Node} {attrs : Attrs}
    (name : isName kind = true) (other : kind ∉ ["text", "cdata", "comment", "code"])
    (entries : ∀ e ∈ attrs.entries, isWritable e = true)
    (below : ∀ (p : Progress) {rest : List Char}, Opens rest →
      Leads p (renderAll children).toList rest (children.foldl Progress.append p)) :
    ReadsBack (.branch kind children attrs) := by
  intro p rest _
  have node (ns : List Node) : (Frame.mk kind attrs ns).node = .branch kind ns attrs := by
    simp only [List.mem_cons, List.not_mem_nil, or_false, not_or] at other
    exact if_neg other.2.2.2
  rw [toList_render_branch other]
  cases children with
  | nil =>
    rw [← node]
    exact leads_closed name entries
  | cons c cs =>
    -- The children go into the frame that the start tag opens and the end tag closes.
    have added :
        (c :: cs).foldl Progress.append { p with frames := ⟨kind, attrs, []⟩ :: p.frames } =
          { p with frames := ⟨kind, attrs, c :: cs⟩ :: p.frames } := foldl_append ..
    have inner := below { p with frames := ⟨kind, attrs, []⟩ :: p.frames }
      (.inr ⟨'/' :: (kind.toList ++ ['>']) ++ rest, rfl⟩)
    rw [added] at inner
    have close : Leads { p with frames := ⟨kind, attrs, c :: cs⟩ :: p.frames }
        ('<' :: '/' :: (kind.toList ++ ['>'])) rest
        (p.append (Frame.mk kind attrs (c :: cs)).node) :=
      leads_finish name
    rw [node] at close
    exact (leads_start name entries).trans (inner.trans close)

theorem readsBack_code {value : String} {attrs : Attrs} (run : value = "" ∨ IsRun value)
    (entries : ∀ e ∈ attrs.entries, isWritable e = true) :
    ReadsBack (.scalar "code" value attrs) := by
  intro p rest _
  have name : isName "code" = true := by decide
  have close (ns : List Node) : Leads { p with frames := ⟨"code", attrs, ns⟩ :: p.frames }
      ('<' :: '/' :: ("code".toList ++ ['>'])) rest
      (p.append (.scalar "code" (Node.forestText ns) attrs)) :=
    leads_finish name
  rw [toList_render_code]
  refine (leads_start name entries).trans ?_
  rcases run with rfl | run
  · exact close []
  -- The text is a child while the element is open. Closing it makes the child the value.
  · have inner : Leads { p with frames := ⟨"code", attrs, []⟩ :: p.frames } (escape value.toList)
        ('<' :: '/' :: ("code".toList ++ ['>']) ++ rest)
        { p with frames := ⟨"code", attrs, [.text value]⟩ :: p.frames } :=
      leads_text run (.inr ⟨_, rfl⟩)
    have text : Node.forestText [.text value] = value := by
      simp [Node.forestText, Node.text, Node.scalar, Node.toText]
    have whole := inner.trans (close [.text value])
    rwa [text] at whole

theorem readsBack {n : Node} (writable : Writable n) : ReadsBack n := by
  induction writable with
  | text run =>
    intro p rest tag
    have written (value : String) : (render (.text value)).toList = escape value.toList := by
      simp [Node.text, Node.scalar, render, nodeText, escapeText]
    rw [written]
    exact leads_text run (tag rfl)
  | cdata trimmed free =>
    intro p rest _
    rw [toList_render_cdata]
    exact leads_cdata trimmed free
  | comment free =>
    intro p rest _
    rw [toList_render_comment]
    exact leads_comment free
  | code run entries => exact readsBack_code run entries
  | element name other entries apart below ih =>
    exact readsBack_element name other entries fun p _ => leads_renderAll ih below apart p

/-- Reading an element that was written gives the element back, and nothing else. -/
theorem parse_render {t : Node} (writable : Writable t)
    (element : t.isOneOf ["text", "comment", "cdata"] = false) :
    parse (render t) = .ok ⟨none, [t]⟩ := by
  have other : t.isText = false := by
    simp only [Node.isOneOf, List.contains_cons, Bool.or_eq_false_iff] at element
    exact element.1
  obtain ⟨cs, bracket⟩ := exists_toList_render writable other
  have start : tokens (render t) = tokensFrom 0 (render t).toList := by
    unfold tokens
    split
    · next mark => exact absurd (bracket.symm.trans mark) (by simp)
    · rfl
  -- Nothing has been read before and nothing follows, so all that is left is the tree.
  obtain ⟨behind, read⟩ := readsBack writable ⟨none, [], []⟩ [] (by simp [other]) 0
  rw [List.append_nil, readFrom, readFrom, tokensFrom] at read
  have kept : [t].filter (fun n => !n.isOneOf ["text", "comment", "cdata"]) = [t] := by
    simp [element]
  rw [parse, start, read]
  exact congrArg (fun elements => Except.ok (Document.mk none elements)) kept

theorem isRun_of_line {s : String} (some : s ≠ "") (line : '\n' ∉ s.toList) : IsRun s where
  some := some
  visible := .inr line
  flush := by
    rintro ⟨before, blanks, whole, -⟩
    exact line (by rw [whole]; simp)

/-- An element with a node of every form in it. -/
def mixedElement : Node :=
  .branch "p" [.text "a < b", .branch "break" [], .text " & ", .scalar "comment" "c -", .text "\"",
      .scalar "code" "x'" (.ofList [("_type", .string "t>"), ("lang", .string "")]),
      .scalar "cdata" "]]"]
    (.ofList [("id", .string "p<1>")])

theorem parse_render_mixedElement : Writable mixedElement ∧
    parse (render mixedElement) = .ok ⟨none, [mixedElement]⟩ := by
  have line (s : String) (some : s ≠ "") (line : '\n' ∉ s.toList) : Writable (.text s) :=
    .text (isRun_of_line some line)
  have writable : Writable mixedElement := by
    refine .element (by decide) (by decide) (by decide)
      (by simp [TextsApart, Node.isText, Node.text, Node.scalar, Node.branch]) ?_
    simp only [List.forall_mem_cons, List.not_mem_nil, false_implies, implies_true, and_true]
    refine ⟨line _ (by decide) (by decide), ?_, line _ (by decide) (by decide),
      .comment (by decide), line _ (by decide) (by decide), ?_, .cdata (by decide) (by decide)⟩
    · exact .element (by decide) (by decide) (by decide) trivial (List.forall_mem_nil _)
    · exact .code (.inr (isRun_of_line (by decide) (by decide))) (by decide)
  exact ⟨writable, parse_render writable (by decide)⟩

end Manuscript.Xml
