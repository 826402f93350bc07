import Manuscript.Proofs.Xml.RoundTrip

/-!
Indentation does not change what is read. A piece of markup ends where its own characters say, so
that white space put behind it is a run of text of its own; with a line feed in it, it is dropped.
Behind a run of text that ends in something visible, a line feed and the blanks after it are
trimmed off.
-/

set_option autoImplicit false

namespace Manuscript.Xml

/-! ### Pieces of markup -/

/-- Whether a cut takes some first characters off a text and would do so whatever followed them. -/
def Cuts (cut : List Char → Option (List Char × List Char)) (cs before after : List Char) : Prop :=
  ∃ content, content ≠ [] ∧ cs = content ++ after ∧
    ∀ rest, cut (content ++ rest) = some (before, rest)

theorem Cuts.cons {cut cut' : List Char → Option (List Char × List Char)} {c : Char}
    {cs before after : List Char}
    (goes : ∀ ds, cut (c :: ds) = (cut' ds).map fun (before, after) => (c :: before, after))
    (cuts : Cuts cut' cs before after) : Cuts cut (c :: cs) (c :: before) after := by
  obtain ⟨content, -, rfl, here⟩ := cuts
  refine ⟨c :: content, List.cons_ne_nil _ _, rfl, fun rest => ?_⟩
  rw [List.cons_append, goes, here]
  rfl

/-- A cut that keeps a character is made where the cut of the other characters is made. -/
theorem cuts_of_kept {cut : List Char → Option (List Char × List Char)} {c : Char}
    {cs before after : List Char} (cut' : List Char → Option (List Char × List Char))
    (goes : ∀ ds, cut (c :: ds) = (cut' ds).map fun (before, after) => (c :: before, after))
    (ih : ∀ {before after}, cut' cs = some (before, after) → Cuts cut' cs before after)
    (found : cut (c :: cs) = some (before, after)) : Cuts cut (c :: cs) before after := by
  rw [goes] at found
  obtain ⟨⟨inner, behind⟩, inside, same⟩ := Option.map_eq_some_iff.1 found
  obtain ⟨rfl, rfl⟩ := Prod.mk.inj same
  exact (ih inside).cons goes

theorem cuts_cutTag {quote : Option Char} {cs before after : List Char}
    (found : cutTag quote cs = some (before, after)) : Cuts (cutTag quote) cs before after := by
  induction cs generalizing quote before after with
  | nil => simp [cutTag] at found
  | cons c cs ih =>
    cases quote with
    | some q => exact cuts_of_kept (cutTag (if c = q then none else some q)) (fun _ => rfl) ih found
    | none =>
      by_cases close : c = '>'
      · have ends (ds : List Char) : cutTag none (c :: ds) = some ([], ds) := by
          rw [cutTag, if_pos close]
        rw [ends] at found
        cases found
        exact ⟨[c], List.cons_ne_nil _ _, rfl, ends⟩
      · by_cases opens : c = '"' ∨ c = '\''
        · refine cuts_of_kept (cutTag (some c)) (fun ds => ?_) ih found
          rw [cutTag, if_neg close, if_pos opens]
        · refine cuts_of_kept (cutTag none) (fun ds => ?_) ih found
          rw [cutTag, if_neg close, if_neg opens]

theorem cuts_cutBalanced {depth : Nat} {cs before after : List Char}
    (found : cutBalanced depth cs = some (before, after)) :
    Cuts (cutBalanced depth) cs before after := by
  induction cs generalizing depth before after with
  | nil => simp [cutBalanced] at found
  | cons c cs ih =>
    by_cases opens : c = '<'
    · refine cuts_of_kept (cutBalanced (depth + 1)) (fun ds => ?_) ih found
      rw [cutBalanced.eq_def]
      exact if_pos opens
    · by_cases close : c = '>'
      · cases depth with
        | zero =>
          have ends (ds : List Char) : cutBalanced 0 (c :: ds) = some ([], ds) := by
            rw [cutBalanced, if_neg opens, if_pos close]
          rw [ends] at found
          cases found
          exact ⟨[c], List.cons_ne_nil _ _, rfl, ends⟩
        | succ depth =>
          refine cuts_of_kept (cutBalanced depth) (fun ds => ?_) ih found
          rw [cutBalanced, if_neg opens, if_pos close]
      · refine cuts_of_kept (cutBalanced depth) (fun ds => ?_) ih found
        rw [cutBalanced.eq_def]
        exact (if_neg opens).trans (if_neg close)

theorem cuts_cutAtText {stop cs before after : List Char} (marked : stop ≠ [])
    (found : Text.cutAtText stop cs = some (before, after)) :
    Cuts (Text.cutAtText stop) cs before after := by
  obtain ⟨whole, cuts⟩ : cs = before ++ stop ++ after ∧
      ∀ rest, Text.cutAtText stop (before ++ stop ++ rest) = some (before, rest) := by
    induction cs generalizing before with
    | nil => simp [Text.cutAtText] at found
    | cons c cs ih =>
      rw [Text.cutAtText] at found
      cases front : Text.rest? stop (c :: cs) with
      | some tail =>
        rw [front] at found
        cases found
        obtain ⟨d, stop, rfl⟩ := List.exists_cons_of_ne_nil marked
        refine ⟨Text.rest?_eq_some_iff.1 front, fun rest => ?_⟩
        rw [List.nil_append, List.cons_append, Text.cutAtText,
          Text.rest?_eq_some_iff.2 (List.cons_append ..).symm]
      | none =>
        rw [front] at found
        obtain ⟨⟨inner, behind⟩, inside, same⟩ := Option.map_eq_some_iff.1 found
        obtain ⟨rfl, rfl⟩ := Prod.mk.inj same
        obtain ⟨whole, cuts⟩ := ih inside
        refine ⟨by rw [whole]; rfl, fun rest => ?_⟩
        -- A mark in front would end within what has been cut, so that it was there before.
        have none : Text.rest? stop (c :: (inner ++ stop ++ rest)) = none := by
          rw [Option.eq_none_iff_forall_ne_some]
          intro tail here
          have short : stop.length ≤ (c :: (inner ++ stop)).length := by
            simp only [List.length_cons, List.length_append]; omega
          obtain ⟨tail, same⟩ : stop <+: c :: (inner ++ stop) :=
            List.prefix_of_prefix_length_le ⟨tail, (Text.rest?_eq_some_iff.1 here).symm⟩
              ⟨rest, rfl⟩ short
          have found : Text.rest? stop (c :: cs) = some (tail ++ behind) := by
            rw [Text.rest?_eq_some_iff, whole, ← List.append_assoc, same]
            rfl
          rw [front] at found
          cases found
        have later := cuts rest
        rw [List.cons_append, List.cons_append, Text.cutAtText, none, later]
        rfl
  exact ⟨before ++ stop, by simp [marked], whole, cuts⟩

/-- Whether the characters behind an opening bracket are read as a token, whatever follows them. -/
def Takes (content : List Char) (token : Token) : Prop :=
  ∃ width, ∀ position rest, markup position (content ++ rest) = ⟨⟨position, token⟩, width, rest⟩

def Token.isFault : Token → Bool
  | .fault _ => true
  | _ => false

/-- A piece that a cut is made for. Its kind is seen from its `lead` and the character behind. -/
theorem exists_takes_ofCut {place : Nat} {cs : List Char} {marks : Nat}
    {token : List Char → Token} {otherwise : Fault} (lead : List Char)
    (cut : List Char → Option (List Char × List Char))
    (form : ∀ position ds, ds.head? = cs.head? →
      markup position (lead ++ ds) = .ofCut position marks token otherwise (cut ds))
    (cuts : ∀ before after, cut cs = some (before, after) → Cuts cut cs before after)
    (fine : (markup place (lead ++ cs)).placed.token.isFault = false) :
    ∃ content, lead ++ cs = content ++ (markup place (lead ++ cs)).rest ∧
      Takes content (markup place (lead ++ cs)).placed.token := by
  rw [form place cs rfl] at fine ⊢
  cases found : cut cs with
  | none => rw [found] at fine; simp [Piece.ofCut, Piece.ofFault, Token.isFault] at fine
  | some parts =>
    obtain ⟨before, after⟩ := parts
    obtain ⟨content, some, rfl, here⟩ := cuts before after found
    refine ⟨lead ++ content, (List.append_assoc ..).symm, marks + byteLength before,
      fun position rest => ?_⟩
    obtain ⟨c, content, rfl⟩ := List.exists_cons_of_ne_nil some
    rw [List.append_assoc, form position (c :: content ++ rest) rfl, here]
    rfl

/-- A piece with a further mark behind its lead, and another one at its end. -/
theorem exists_takes_marked {place : Nat} {mark stop cs : List Char} {marks : Nat}
    {token : List Char → Token} {otherwise : Fault} (lead : List Char) (marked : stop ≠ [])
    (form : ∀ position ds, markup position (lead ++ ds) = .ofCut position marks token otherwise
      ((Text.rest? mark ds).bind (Text.cutAtText stop)))
    (fine : (markup place (lead ++ cs)).placed.token.isFault = false) :
    ∃ content, lead ++ cs = content ++ (markup place (lead ++ cs)).rest ∧
      Takes content (markup place (lead ++ cs)).placed.token := by
  cases front : Text.rest? mark cs with
  | none => simp [form, front, Piece.ofCut, Piece.ofFault, Token.isFault] at fine
  | some tail =>
    obtain rfl := Text.rest?_eq_some_iff.1 front
    rw [← List.append_assoc] at fine ⊢
    have behind (position : Nat) (ds : List Char) (_ : ds.head? = tail.head?) :
        markup position (lead ++ mark ++ ds) =
          .ofCut position marks token otherwise (Text.cutAtText stop ds) := by
      rw [List.append_assoc, form, Text.rest?_eq_some_iff.2 rfl]
      rfl
    exact exists_takes_ofCut (lead ++ mark) _ behind (fun _ _ => cuts_cutAtText marked) fine

/-- The piece of a document type declaration whose letters are the first of the characters. -/
def doctypePiece (position : Nat) (cs : List Char) : Piece :=
  match cutBalanced 0 cs with
  | none => .ofFault position .doctypeNotClosed
  | some (content, rest) =>
    match afterDoctype? content with
    | none => .ofFault position .doctypeNotClosed
    | some declaration =>
      if declaration.all isSpace then
        .ofFault (position + (3 + byteLength content) - 1) .doctypeWithoutName
      else ⟨⟨position, .doctype (Text.trimWhile Text.isBlank declaration)⟩,
        3 + byteLength content, rest⟩

/-- A document type declaration is the one piece that is checked for its content. -/
theorem exists_takes_doctype {place : Nat} {c : Char} {cs : List Char} (doctype : c = 'D' ∨ c = 'd')
    (fine : (markup place ('!' :: c :: cs)).placed.token.isFault = false) :
    ∃ content, '!' :: c :: cs = content ++ (markup place ('!' :: c :: cs)).rest ∧
      Takes content (markup place ('!' :: c :: cs)).placed.token := by
  have form (position : Nat) (ds : List Char) :
      markup position ('!' :: c :: ds) = doctypePiece position (c :: ds) := by
    rcases doctype with rfl | rfl <;> rfl
  rw [form] at fine ⊢
  unfold doctypePiece at fine ⊢
  cases found : cutBalanced 0 (c :: cs) with
  | none => rw [found] at fine; cases fine
  | some parts =>
    obtain ⟨before, after⟩ := parts
    rw [found] at fine
    obtain ⟨content, some, whole, here⟩ := cuts_cutBalanced found
    obtain ⟨d, content, rfl⟩ := List.exists_cons_of_ne_nil some
    obtain ⟨rfl, rfl⟩ := List.cons.inj whole
    cases named : afterDoctype? before with
    | none => simp only [named] at fine; cases fine
    | some declaration =>
      by_cases blank : declaration.all isSpace = true
      · simp only [named, blank, if_true] at fine; cases fine
      · simp only [named, blank]
        refine ⟨'!' :: c :: content, rfl, 3 + byteLength before, fun position rest => ?_⟩
        have later := here rest
        rw [List.cons_append] at later
        rw [List.cons_append, List.cons_append, form, doctypePiece, later]
        simp only [named, blank]
        rfl

/-- Every piece of markup that is no fault ends where its own characters say. -/
theorem exists_takes {place : Nat} {cs : List Char}
    (fine : (markup place cs).placed.token.isFault = false) :
    ∃ content, cs = content ++ (markup place cs).rest ∧
      Takes content (markup place cs).placed.token := by
  have kinds := fine
  unfold markup at kinds
  split at kinds
  · exact exists_takes_ofCut ['/'] (cutTag none) (fun _ _ _ => rfl)
      (fun _ _ => cuts_cutTag) fine
  · cases kinds
  · next cs other =>
    -- Of what follows the mark only the first character is looked at.
    have form (position : Nat) (ds : List Char) (same : ds.head? = cs.head?) :
        markup position (['?'] ++ ds) = .ofCut position 4 (fun _ => .instruction)
          .instructionNotClosed (Text.cutAtText ['?', '>'] ds) := by
      cases ds with
      | nil => rfl
      | cons d ds =>
        obtain ⟨cs, rfl⟩ := List.head?_eq_some_iff.1 same.symm
        have other : d ≠ '>' := by rintro rfl; exact other _ rfl
        simp [markup, other]
    exact exists_takes_ofCut ['?'] _ form (fun _ _ => cuts_cutAtText (by decide)) fine
  · exact exists_takes_marked ['!', '-'] (by decide) (fun _ _ => rfl) fine
  · exact exists_takes_marked ['!', '['] (by decide) (fun _ _ => rfl) fine
  · next c cs dash bracket =>
    by_cases doctype : c = 'D' ∨ c = 'd'
    · exact exists_takes_doctype doctype fine
    · rw [if_neg doctype] at kinds; cases kinds
  · cases kinds
  · next slash _ question _ _ bang lone =>
    have form (position : Nat) (ds : List Char) (same : ds.head? = cs.head?) :
        markup position ([] ++ ds) =
          .ofCut position 2 startTag .tagNotClosed (cutTag none ds) := by
      rw [List.nil_append]
      cases ds with
      | nil => rfl
      | cons d ds =>
        obtain ⟨cs, rfl⟩ := List.head?_eq_some_iff.1 same.symm
        have slash : d ≠ '/' := by rintro rfl; exact slash _ rfl
        have question : d ≠ '?' := by rintro rfl; exact question _ rfl
        have bang : d ≠ '!' := by
          rintro rfl
          cases cs with
          | nil => exact lone rfl
          | cons c cs => exact bang _ _ rfl
        unfold markup
        split <;> simp_all
    exact exists_takes_ofCut [] _ form (fun _ _ => cuts_cutTag) fine

/-! ### Texts with more indentation -/

/-- White space with a line feed in it. -/
def IsBreak (gap : List Char) : Prop := '\n' ∈ gap ∧ ∀ c ∈ gap, Text.isBlank c = true

/-- A line feed with blanks behind it, one at least. -/
def IsIndent (gap : List Char) : Prop :=
  ∃ blanks, gap = '\n' :: blanks ∧ blanks ≠ [] ∧ ∀ c ∈ blanks, Text.isBlank c = true

def EndsVisible (cs : List Char) : Prop := ∃ before c, cs = before ++ [c] ∧ Text.isBlank c = false

/-- Whether a text differs from another, piece by piece, in white space that has been put in: in
breaks between two pieces of markup and in indents between visible text and markup. -/
inductive Indented : List Char → List Char → Prop where
  | nil : Indented [] []
  | markup {content rest gap rest' : List Char} {token : Token} (piece : Takes content token)
      (inserted : gap = [] ∨ IsBreak gap ∧ rest.head? = some '<') (behind : Indented rest rest') :
      Indented ('<' :: (content ++ rest)) ('<' :: (content ++ (gap ++ rest')))
  | text {run rest gap rest' : List Char} (nonempty : run ≠ []) (plain : '<' ∉ run)
      (ends : Opens rest)
      (inserted : gap = [] ∨
        IsIndent gap ∧ rest.head? = some '<' ∧ EndsVisible (decode textEntity run))
      (behind : Indented rest rest') : Indented (run ++ rest) (run ++ (gap ++ rest'))

theorem Indented.opens {cs cs' : List Char} (indented : Indented cs cs') (opens : Opens cs) :
    Opens cs' := by
  cases indented with
  | nil => exact .inl rfl
  | markup => exact .inr ⟨_, rfl⟩
  | @text run rest gap rest' some plain =>
    obtain ⟨c, run, rfl⟩ := List.exists_cons_of_ne_nil some
    rcases opens with none | ⟨ds, bracket⟩
    · cases none
    · obtain ⟨rfl, -⟩ := List.cons.inj bracket
      exact absurd List.mem_cons_self plain

theorem Indented.head?_eq {cs cs' : List Char} (indented : Indented cs cs')
    (bracket : cs.head? = some '<') : cs'.head? = some '<' := by
  cases indented with
  | nil => exact bracket
  | markup => rfl
  | @text run rest gap rest' some plain =>
    obtain ⟨c, run, rfl⟩ := List.exists_cons_of_ne_nil some
    exact bracket

/-! ### One token at a time -/

theorem bind_eq_ok_iff {ε α β : Type} {x : Except ε α} {f : α → Except ε β} {b : β} :
    x >>= f = .ok b ↔ ∃ a, x = .ok a ∧ f a = .ok b := by
  cases x with
  | error e => simp [bind, Except.bind]
  | ok a => simp [bind, Except.bind]

/-- Where a token stands matters for errors only. -/
theorem step_eq_ok {p q : Progress} {token : Token} {position position' : Nat}
    (ok : p.step ⟨position, token⟩ = .ok q) : p.step ⟨position', token⟩ = .ok q := by
  cases token with
  | finish name =>
    simp only [Progress.step] at ok ⊢
    cases frames : p.frames with
    | nil => rw [frames] at ok; cases ok
    | cons f outer =>
      rw [frames] at ok
      by_cases same : f.name = name
      · simp only [same, if_true] at ok ⊢; exact ok
      · simp only [same, if_false] at ok; cases ok
  | fault cause => cases ok
  | _ => exact ok

def Progress.appendRun (p : Progress) (raw : List Char) : Progress :=
  match textNode? raw with
  | some n => p.append n
  | none => p

section
variable {p q : Progress} {position : Nat} {rest : List Char}

theorem readFrom_markup {content : List Char} {token : Token} {width : Nat}
    (piece : ∀ position rest,
      markup position (content ++ rest) = ⟨⟨position, token⟩, width, rest⟩) :
    readFrom position ('<' :: (content ++ rest)) p =
      (p.step ⟨position, token⟩ >>= fun q => readFrom (position + width) rest q) := by
  rw [readFrom, tokensFrom, if_pos rfl, piece, List.foldlM_cons]
  rfl

theorem readFrom_text {run : List Char} (some : run ≠ []) (plain : '<' ∉ run)
    (opens : Opens rest) :
    readFrom position (run ++ rest) p =
      readFrom (position + byteLength run) rest (p.appendRun run) := by
  obtain ⟨c, cs, rfl⟩ := List.exists_cons_of_ne_nil some
  obtain ⟨first, others⟩ := List.ne_and_not_mem_of_not_mem_cons plain
  have inside : ∀ d ∈ cs, decide (d ≠ '<') = true := by
    intro d mem
    exact decide_eq_true fun same => others (same ▸ mem)
  obtain ⟨taken, dropped⟩ : rest.takeWhile (fun d => decide (d ≠ '<')) = [] ∧
      rest.dropWhile (fun d => decide (d ≠ '<')) = rest := by
    rcases opens with rfl | ⟨ds, rfl⟩
    · exact ⟨rfl, rfl⟩
    · exact ⟨List.takeWhile_cons_of_neg (by decide), List.dropWhile_cons_of_neg (by decide)⟩
  rw [readFrom, List.cons_append, tokensFrom, if_neg first.symm,
    List.takeWhile_append_of_pos inside, List.dropWhile_append_of_pos inside, taken, dropped,
    List.append_nil, List.foldlM_cons]
  rfl

end

/-! ### Runs of text with white space behind them -/

/-- Characters that belong to no reference. -/
def FreeOfReferences (gap : List Char) : Prop := ∀ c ∈ gap, c ≠ '&' ∧ c ≠ ';'

theorem freeOfReferences_of_blank {gap : List Char} (blank : ∀ c ∈ gap, Text.isBlank c = true) :
    FreeOfReferences gap := by
  intro c mem
  have here := blank c mem
  constructor <;> rintro rfl <;> exact absurd here (by decide)

theorem decodeFrom_append {named : List Char → Option Char} {name : Option (List Char)}
    {gap : List Char} (free : FreeOfReferences gap) (cs : List Char) :
    decodeFrom named name (cs ++ gap) = (decodeFrom named name cs).map (· ++ gap) := by
  have plain : decodeFrom named none gap = some gap := by
    induction gap with
    | nil => rfl
    | cons c gap ih =>
      obtain ⟨first, others⟩ := List.forall_mem_cons.1 free
      rw [decodeFrom, if_neg first.1, ih others]
      rfl
  -- A reference that is still open is not closed by blanks, and so is none.
  have unfinished (word : List Char) : decodeFrom named (some word) gap = none := by
    clear plain
    induction gap generalizing word with
    | nil => rfl
    | cons c gap ih =>
      obtain ⟨first, others⟩ := List.forall_mem_cons.1 free
      rw [decodeFrom, if_neg first.2, if_neg first.1, ih others]
  induction cs generalizing name with
  | nil =>
    cases name with
    | none => simpa [decodeFrom] using plain
    | some word => simpa [decodeFrom] using unfinished word
  | cons c cs ih =>
    rw [List.cons_append]
    cases name with
    | none =>
      rw [decodeFrom, decodeFrom]
      by_cases reference : c = '&'
      · rw [if_pos reference, if_pos reference, ih]
      · rw [if_neg reference, if_neg reference, ih, Option.map_map, Option.map_map]
        rfl
    | some word =>
      rw [decodeFrom, decodeFrom]
      by_cases close : c = ';'
      · rw [if_pos close, if_pos close]
        cases reference? named word with
        | none => rfl
        | some d =>
          simp only [ih, Option.map_map]
          rfl
      · rw [if_neg close, if_neg close]
        by_cases reference : c = '&'
        · rw [if_pos reference, if_pos reference]
          rfl
        · rw [if_neg reference, if_neg reference, ih]

/-- White space behind a run of text is not decoded, whether the run itself is or stays raw. -/
theorem decode_append {named : List Char → Option Char} {gap : List Char}
    (free : FreeOfReferences gap) (cs : List Char) :
    decode named (cs ++ gap) = decode named cs ++ gap := by
  rw [decode, decode, decodeFrom_append free]
  cases decodeFrom named none cs with
  | none => rfl
  | some ds => rfl

theorem dropEndWhile_append {before gap : List Char} {c : Char}
    (blank : ∀ d ∈ gap, Text.isBlank d = true) (visible : Text.isBlank c = false) :
    Text.dropEndWhile Text.isBlank (before ++ [c] ++ gap) = before ++ [c] := by
  rw [Text.dropEndWhile, List.reverse_append, List.dropWhile_append_of_pos fun d mem =>
    blank d (List.mem_reverse.1 mem), List.reverse_append, List.reverse_singleton,
    List.singleton_append, List.dropWhile_cons_of_neg (by simp [visible]), List.reverse_cons,
    List.reverse_reverse]

theorem dropIndent_append {before gap : List Char} {c : Char} (indent : IsIndent gap)
    (visible : Text.isBlank c = false) : dropIndent (before ++ [c] ++ gap) = before ++ [c] := by
  obtain ⟨blanks, rfl, some, blank⟩ := indent
  obtain ⟨d, blanks, rfl⟩ := List.exists_cons_of_ne_nil some
  have all : ∀ e ∈ '\n' :: d :: blanks, Text.isBlank e = true :=
    List.forall_mem_cons.2 ⟨by decide, blank⟩
  rw [dropIndent, dropEndWhile_append all visible]
  simp

theorem textNode?_append {run gap : List Char} (indent : IsIndent gap)
    (visible : EndsVisible (decode textEntity run)) :
    textNode? (run ++ gap) = textNode? run := by
  obtain ⟨before, c, ends, visible⟩ := visible
  have blank : ∀ d ∈ gap, Text.isBlank d = true := by
    obtain ⟨blanks, rfl, -, blank⟩ := indent
    exact List.forall_mem_cons.2 ⟨by decide, blank⟩
  have shown (behind : List Char) : (before ++ [c] ++ behind).all Text.isBlank = false := by
    rw [List.all_eq_false]
    exact ⟨c, by simp, by simp [visible]⟩
  have flush : dropIndent (before ++ [c]) = before ++ [c] := by
    refine dropIndent_eq ?_
    rintro ⟨init, blanks, whole, some, blank⟩
    obtain ⟨blanks, d, rfl⟩ := (List.eq_nil_or_concat blanks).resolve_left some
    have ends : before ++ [c] = (init ++ '\n' :: blanks) ++ [d] := by simpa using whole
    obtain ⟨-, last⟩ := List.append_inj' ends rfl
    obtain rfl : c = d := List.singleton_inj.1 last
    exact absurd (blank c (by simp)) (by simp [visible])
  have here := shown []
  rw [List.append_nil] at here
  rw [textNode?, textNode?, decode_append (freeOfReferences_of_blank blank), ends, shown gap, here,
    dropIndent_append indent visible, flush]
  rfl

theorem textNode?_eq_none {gap : List Char} (line : IsBreak gap) : textNode? gap = none := by
  obtain ⟨feed, blank⟩ := line
  have same : decode textEntity gap = gap := by
    have plain : decode textEntity ([] ++ gap) = decode textEntity [] ++ gap :=
      decode_append (freeOfReferences_of_blank blank) []
    exact plain
  have all : gap.all Text.isBlank = true := List.all_eq_true.2 blank
  have feed : gap.contains '\n' = true := List.contains_iff_mem.2 feed
  rw [textNode?, same, all, feed, Bool.or_true]
  rfl

/-! ### Reading -/

theorem readFrom_of_indented {cs cs' : List Char} (indented : Indented cs cs') {p q : Progress}
    {position position' : Nat} (read : readFrom position cs p = .ok q) :
    readFrom position' cs' p = .ok q := by
  induction indented generalizing p position position' with
  | nil => rwa [readFrom, tokensFrom] at read ⊢
  | @markup content rest gap rest' token piece inserted behind ih =>
    obtain ⟨width, piece⟩ := piece
    rw [readFrom_markup piece] at read ⊢
    obtain ⟨p, here, read⟩ := bind_eq_ok_iff.1 read
    refine bind_eq_ok_iff.2 ⟨p, step_eq_ok here, ?_⟩
    rcases inserted with rfl | ⟨line, bracket⟩
    · exact ih read
    -- A break is a run of text of its own, which gives no node.
    · have some : gap ≠ [] := List.ne_nil_of_mem line.1
      have plain : '<' ∉ gap := fun mem => absurd (line.2 _ mem) (by decide)
      have opens : Opens rest' := .inr (List.head?_eq_some_iff.1 (behind.head?_eq bracket))
      rw [readFrom_text some plain opens, Progress.appendRun, textNode?_eq_none line]
      exact ih read
  | @text run rest gap rest' some plain ends inserted behind ih =>
    rw [readFrom_text some plain ends] at read
    rcases inserted with rfl | ⟨indent, bracket, visible⟩
    · rw [List.nil_append, readFrom_text some plain (behind.opens ends)]
      exact ih read
    -- An indent becomes part of the run before it, and is taken off that again.
    · have opens : Opens rest' := .inr (List.head?_eq_some_iff.1 (behind.head?_eq bracket))
      have plain' : '<' ∉ run ++ gap := by
        obtain ⟨blanks, rfl, -, blank⟩ := indent
        rw [List.mem_append, List.mem_cons]
        rintro (mem | mem | mem)
        · exact plain mem
        · exact absurd mem (by decide)
        · exact absurd (blank _ mem) (by decide)
      have some' : run ++ gap ≠ [] := List.append_ne_nil_of_left_ne_nil some gap
      rw [← List.append_assoc, readFrom_text some' plain' opens, Progress.appendRun,
        textNode?_append indent visible]
      exact ih read

/-- The characters of a text without a byte order mark in front. -/
def afterMark : List Char → List Char
  | '\ufeff' :: cs => cs
  | cs => cs

theorem tokens_eq (s : String) : tokens s = tokensFrom 0 (afterMark s.toList) := by
  unfold tokens
  split
  · next cs mark => rw [mark]; rfl
  · next none => rw [afterMark]; exact none

theorem parse_eq_ok {s s' : String} {d : Document}
    (same : ∀ q, readFrom 0 (afterMark s.toList) ⟨none, [], []⟩ = .ok q →
      readFrom 0 (afterMark s'.toList) ⟨none, [], []⟩ = .ok q)
    (accepted : parse s = .ok d) : parse s' = .ok d := by
  rw [parse, tokens_eq] at accepted ⊢
  obtain ⟨q, read, rest⟩ := bind_eq_ok_iff.1 accepted
  exact bind_eq_ok_iff.2 ⟨q, same q read, rest⟩

/-- A text that is read to its end consists of pieces of markup and runs of text. -/
theorem indented_refl (p : Progress) {q : Progress} {cs : List Char} {position : Nat}
    (read : readFrom position cs p = .ok q) : Indented cs cs := by
  rw [readFrom] at read
  fun_induction tokensFrom position cs generalizing p with
  | case1 => exact .nil
  | case2 position cs piece ih =>
    rw [List.foldlM_cons] at read
    obtain ⟨p, here, read⟩ := bind_eq_ok_iff.1 read
    -- What has been read to the end has no fault in it.
    have fine : (markup position cs).placed.token.isFault = false := by
      cases token : (markup position cs).placed.token with
      | fault cause => simp only [piece, Progress.step, token] at here; cases here
      | _ => rfl
    obtain ⟨content, whole, taken⟩ := exists_takes fine
    have same := Indented.markup taken (.inl rfl) (ih p read)
    rwa [List.nil_append, ← whole] at same
  | case3 position c cs other raw ih =>
    rw [List.foldlM_cons] at read
    obtain ⟨p, -, read⟩ := bind_eq_ok_iff.1 read
    have plain : '<' ∉ c :: raw := by
      rw [List.mem_cons, not_or]
      refine ⟨fun same => other same.symm, fun mem => ?_⟩
      exact absurd (List.all_eq_true.1 List.all_takeWhile _ mem) (by decide)
    have opens : Opens (cs.dropWhile fun d => decide (d ≠ '<')) := by
      have first := List.head?_dropWhile_not (fun d => decide (d ≠ '<')) cs
      cases behind : cs.dropWhile fun d => decide (d ≠ '<') with
      | nil => exact .inl rfl
      | cons d ds =>
        rw [behind] at first
        obtain rfl : d = '<' := by simpa using first
        exact .inr ⟨ds, rfl⟩
    have same := Indented.text (List.cons_ne_nil _ _) plain opens (.inl rfl) (ih p read)
    rwa [List.nil_append, List.cons_append, List.takeWhile_append_dropWhile] at same

/-- Laying out a text with breaks between pieces of markup and indents behind visible text changes
nothing in the document that is read from it. -/
theorem parse_indented {s : String} {d : Document} (accepted : parse s = .ok d) :
    Indented (afterMark s.toList) (afterMark s.toList) ∧
      ∀ s', Indented (afterMark s.toList) (afterMark s'.toList) → parse s' = .ok d := by
  refine ⟨?_, fun s' indented => parse_eq_ok (fun q => readFrom_of_indented indented) accepted⟩
  rw [parse, tokens_eq] at accepted
  obtain ⟨q, read, -⟩ := bind_eq_ok_iff.1 accepted
  exact indented_refl _ read

/-- An indent behind the text of an element and a break in front of its end tag. -/
theorem parse_indented_element : ∃ d, parse "<a>x<b/></a>" = .ok d ∧
    Indented "<a>x<b/></a>".toList "<a>x\n  <b/>\n</a>".toList ∧
    parse "<a>x\n  <b/>\n</a>" = .ok d := by
  have reads : (parse "<a>x<b/></a>").isOk = true := by decide +kernel
  obtain ⟨d, accepted⟩ : ∃ d, parse "<a>x<b/></a>" = .ok d := by
    cases read : parse "<a>x<b/></a>" with
    | ok d => exact ⟨d, rfl⟩
    | error e => rw [read] at reads; cases reads
  have opens : Takes ['a', '>'] (startTag ['a']) := ⟨_, fun _ _ => rfl⟩
  have mark : Takes ['b', '/', '>'] (startTag ['b', '/']) := ⟨_, fun _ _ => rfl⟩
  have closes : Takes ['/', 'a', '>'] (endTag ['a']) := ⟨_, fun _ _ => rfl⟩
  have space : Text.isBlank ' ' = true := by decide
  have indent : IsIndent ['\n', ' ', ' '] := ⟨[' ', ' '], rfl, List.cons_ne_nil _ _,
    List.forall_mem_cons.2 ⟨space, List.forall_mem_singleton.2 space⟩⟩
  have line : IsBreak ['\n'] :=
    ⟨List.mem_singleton_self _, List.forall_mem_singleton.2 (by decide)⟩
  have visible : EndsVisible (decode textEntity ['x']) := ⟨[], 'x', rfl, by decide⟩
  have none : ([] : List Char) = [] := rfl
  have finish : Indented "</a>".toList "</a>".toList := .markup closes (.inl none) .nil
  have middle : Indented "<b/></a>".toList "<b/>\n</a>".toList :=
    .markup mark (.inr ⟨line, rfl⟩) finish
  have text : Indented "x<b/></a>".toList "x\n  <b/>\n</a>".toList :=
    .text (by decide) (by decide) (.inr ⟨_, rfl⟩) (.inr ⟨indent, rfl, visible⟩) middle
  have indented : Indented "<a>x<b/></a>".toList "<a>x\n  <b/>\n</a>".toList :=
    .markup opens (.inl none) text
  exact ⟨d, accepted, indented, (parse_indented accepted).2 _ indented⟩

end Manuscript.Xml
