import Manuscript.Formula.Latex
import Manuscript.Proofs.Tree.Everywhere

/-!
The LaTeX of a formula with its structure. The converter joins texts of its own, which are from a
fixed vocabulary, and texts of the formula, some with Greek letters spelled out; only it puts
something in braces. What the converter writes is the print of such a tree, so that a property of
its results is an induction on five forms instead of the elements of MathML.
-/

set_option autoImplicit false

namespace Manuscript.Formula

/-- A text with the commands for its Greek letters, as symbols are set that are no operator. -/
def spell (s : String) : String :=
  String.ofList (Text.dropEndWhile Text.isBlank (s.toList.flatMap letter))

/-- LaTeX with its groups and with where its texts are from. -/
inductive Tex where
  | empty
  /-- A text of the converter's own. -/
  | own (s : String)
  /-- A text of the formula. -/
  | copied (s : String)
  /-- A text of the formula with its Greek letters spelled out. -/
  | spelled (s : String)
  | group (body : Tex)
  | append (front back : Tex)

namespace Tex

def print : Tex → String
  | empty => ""
  | own s => s
  | copied s => s
  | spelled s => spell s
  | group t => braced t.print
  | append s t => s.print ++ t.print

/-! ### Lists -/

def join (ts : List Tex) : Tex := ts.foldr append empty

theorem print_join (ts : List Tex) : (join ts).print = String.join (ts.map print) := by
  induction ts with
  | nil => rfl
  | cons t ts ih =>
    rw [List.map_cons, String.join_cons, ← ih]
    rfl

def separated (sep : Tex) : List Tex → Tex
  | [] => empty
  | [t] => t
  | t :: ts => append t (append sep (separated sep ts))

theorem print_separated (sep : Tex) (ts : List Tex) :
    (separated sep ts).print = String.intercalate sep.print (ts.map print) := by
  induction ts with
  | nil => rfl
  | cons t ts ih =>
    cases ts with
    | nil => simp [separated]
    | cons u ts =>
      rw [separated, print, print, ih, List.map_cons, List.map_cons, List.map_cons,
        String.intercalate_cons_cons, String.append_assoc]
      simp

/-! ### Elements -/

def symbol (s : String) : Tex :=
  match operators.lookup s with
  | some command => own command
  | none => spelled s

def identifier (s : String) : Tex :=
  if functions.contains s then own ("\\" ++ s)
  else if 1 < s.length && s.toList.all Text.isLetter then
    append (own "\\mathrm") (group (copied s))
  else symbol s

def words (s : String) : Tex :=
  if Text.isBlankText s then own "\\ " else append (own "\\text") (group (copied s))

def fence (s : String) : Tex :=
  if s = "" then own "."
  else if s = "\x7b" then own "\\\x7b"
  else if s = "\x7d" then own "\\\x7d"
  else if s = "‖" then own "\\|"
  else copied s

def matrix (rows : List (List Tex)) : Tex :=
  join [own "\\begin\x7bmatrix\x7d",
    separated (own " \\\\ ") (rows.map (separated (own " & "))), own "\\end\x7bmatrix\x7d"]

def element (n : Node) (parts : List Tex) : Tex :=
  let arg (i : Nat) : Tex := group (parts.getD i empty)
  match localName n.kind with
  | "text" | "cdata" => (n.value.map symbol).getD empty
  | "mi" => identifier (Text.trim n.toText)
  | "mn" | "mo" => symbol (Text.trim n.toText)
  | "mtext" => words n.toText
  | "mspace" => own "\\ "
  | "msup" => join [arg 0, own "^", arg 1]
  | "msub" => join [arg 0, own "_", arg 1]
  | "msubsup" | "munderover" => join [arg 0, own "_", arg 1, own "^", arg 2]
  | "mfrac" => join [own "\\frac", arg 0, arg 1]
  | "msqrt" => append (own "\\sqrt") (group (join parts))
  | "mroot" => join [own "\\sqrt[", parts.getD 1 empty, own "]", arg 0]
  | "mover" =>
    match accents.lookup (Text.trim ((n.kids[1]?.map Node.toText).getD "")) with
    | some command => append (own command) (arg 0)
    | none => join [own "\\overset", arg 1, arg 0]
  | "munder" => join [own "\\underset", arg 1, arg 0]
  | "mfenced" =>
    join [own "\\left", fence ((n.attrText? "open").getD "("),
      separated (copied ((n.attrText? "separators").getD ",")) parts,
      own "\\right", fence ((n.attrText? "close").getD ")")]
  | "semantics" => parts.getD 0 empty
  | "annotation" | "annotation-xml" | "comment" => empty
  | _ => join parts

mutual
def ofNode : Node → Tex
  | ⟨k, none, v, a⟩ =>
    if localName k = "mtable" then matrix [] else element ⟨k, none, v, a⟩ []
  | ⟨k, some cs, v, a⟩ =>
    if localName k = "mtable" then matrix (ofRows cs)
    else element ⟨k, some cs, v, a⟩ (ofNodes cs)

def ofNodes : List Node → List Tex
  | [] => []
  | n :: ns => ofNode n :: ofNodes ns

def ofRows : List Node → List (List Tex)
  | [] => []
  | ⟨_, none, _, _⟩ :: ns => [] :: ofRows ns
  | ⟨_, some cs, _, _⟩ :: ns => ofNodes cs :: ofRows ns
end

/-! ### The print is what the converter writes -/

theorem print_symbol (s : String) : (symbol s).print = Formula.symbol s := by
  unfold symbol Formula.symbol
  cases operators.lookup s <;> rfl

theorem print_identifier (s : String) : (identifier s).print = Formula.identifier s := by
  unfold identifier Formula.identifier
  split
  · rfl
  · split
    · rfl
    · exact print_symbol s

theorem print_words (s : String) : (words s).print = Formula.words s := by
  unfold words Formula.words
  split <;> rfl

theorem print_fence (s : String) : (fence s).print = Formula.fence s := by
  unfold fence Formula.fence
  repeat' split
  all_goals rfl

theorem print_matrix (rows : List (List Tex)) :
    (matrix rows).print = Formula.matrix (rows.map (·.map print)) := by
  simp [matrix, Formula.matrix, print_join, print, print_separated, Function.comp_def,
    String.append_assoc]

theorem print_getD (arg : Option Tex) : (arg.getD empty).print = (arg.map print).getD "" := by
  cases arg <;> rfl

theorem print_element (n : Node) (parts : List Tex) :
    (element n parts).print = Formula.element n (parts.map print) := by
  unfold element Formula.element
  generalize localName n.kind = kind
  split
  case h_1 | h_2 =>
    cases n.value with
    | none => rfl
    | some v => exact print_symbol v
  case h_3 => exact print_identifier _
  case h_4 | h_5 => exact print_symbol _
  case h_6 => exact print_words _
  case h_15 =>
    simp only
    cases accents.lookup (Text.trim ((n.kids[1]?.map Node.toText).getD "")) with
    | some command => simp [print, print_getD]
    | none => simp [print_join, print, print_getD, String.append_assoc]
  case h_22 =>
    simp only
    exact print_join parts
  all_goals simp [print_join, print, print_getD, print_separated, print_fence, String.append_assoc]

mutual
theorem print_ofNode : (n : Node) → (ofNode n).print = latex n
  | ⟨k, none, v, a⟩ => by
    rw [ofNode, latex]
    split
    · exact print_matrix []
    · exact print_element _ []
  | ⟨k, some cs, v, a⟩ => by
    rw [ofNode, latex, ← map_print_ofNodes cs, ← map_print_ofRows cs]
    split
    · exact print_matrix _
    · exact print_element _ _

theorem map_print_ofNodes : (ns : List Node) → (ofNodes ns).map print = latexAll ns
  | [] => rfl
  | n :: ns => by
    rw [ofNodes, latexAll, List.map_cons, print_ofNode n, map_print_ofNodes ns]

theorem map_print_ofRows : (ns : List Node) → (ofRows ns).map (·.map print) = latexRows ns
  | [] => rfl
  | ⟨_, none, _, _⟩ :: ns => by
    rw [ofRows, latexRows, List.map_cons, map_print_ofRows ns]
    rfl
  | ⟨_, some cs, _, _⟩ :: ns => by
    rw [ofRows, latexRows, List.map_cons, map_print_ofRows ns, map_print_ofNodes cs]
end

end Tex

/-! ### What formulas are made of -/

/-- The texts that the converter sets around those of a formula. -/
def scaffold : List String :=
  ["\\mathrm", "\\text", "\\ ", "^", "_", "\\frac", "\\sqrt", "\\sqrt[", "]", "\\overset",
    "\\underset", "\\left", "\\right", ".", "\\\x7b", "\\\x7d", "\\|", "\\begin\x7bmatrix\x7d",
    " & ", " \\\\ ", "\\end\x7bmatrix\x7d"]

/-- The texts that the converter writes of its own accord. -/
def vocabulary : List String :=
  greek.map (·.2) ++ operators.map (·.2) ++ functions.map ("\\" ++ ·) ++ accents.map (·.2) ++
    scaffold

/-- Whether a text has no backslash. -/
def Plain (s : String) : Prop := '\\' ∉ s.toList

/-- Whether neither the text of a node nor an attribute has a backslash. -/
structure PlainNode (n : Node) : Prop where
  value : ∀ v ∈ n.value, Plain v
  attrs : ∀ name, ∀ v ∈ n.attrText? name, Plain v

section
variable {s : String}

theorem mem_of_lookup {α : Type} [BEq α] [LawfulBEq α] {key : α} {table : List (α × String)}
    (found : table.lookup key = some s) : s ∈ table.map (·.2) := by
  obtain ⟨before, after, rfl, -⟩ := List.lookup_eq_some_iff.1 found
  simp

theorem mem_vocabulary_of_letter {c : Char} (found : greek.lookup c = some s) :
    s ∈ vocabulary := by
  simp only [vocabulary, List.mem_append]
  exact .inl (.inl (.inl (.inl (mem_of_lookup found))))

theorem mem_vocabulary_of_operator {key : String} (found : operators.lookup key = some s) :
    s ∈ vocabulary := by
  simp only [vocabulary, List.mem_append]
  exact .inl (.inl (.inl (.inr (mem_of_lookup found))))

theorem mem_vocabulary_of_function (named : functions.contains s = true) :
    "\\" ++ s ∈ vocabulary := by
  simp only [vocabulary, List.mem_append]
  exact .inl (.inl (.inr (List.mem_map_of_mem (List.contains_iff_mem.1 named))))

theorem mem_vocabulary_of_accent {key : String} (found : accents.lookup key = some s) :
    s ∈ vocabulary := by
  simp only [vocabulary, List.mem_append]
  exact .inl (.inr (mem_of_lookup found))

theorem Plain.append {t : String} (front : Plain s) (back : Plain t) : Plain (s ++ t) := by
  simpa [Plain, not_or] using ⟨front, back⟩

theorem Plain.trim (plain : Plain s) : Plain (Text.trim s) := by
  obtain ⟨before, after, split, -⟩ := Text.exists_trimWhile Text.isBlank s.toList
  rw [Plain, split] at plain
  rw [Plain, Text.trim, String.toList_ofList]
  exact fun mem => plain (List.mem_append_left _ (List.mem_append_right _ mem))

end

theorem plain_toText {n : Node} (plain : n.Everywhere PlainNode) : Plain n.toText := by
  induction n using Node.induction_on_kids with
  | node n ih =>
    have forest (ns : List Node) (each : ∀ c ∈ ns, Plain c.toText) :
        Plain (Node.forestText ns) := by
      induction ns with
      | nil => simp [Plain, Node.forestText]
      | cons c ns ih =>
        obtain ⟨here, later⟩ := List.forall_mem_cons.1 each
        exact here.append (ih later)
    have own : Plain (n.value.getD "") := by
      cases value : n.value with
      | none => simp [Plain]
      | some v => exact plain.here.value v value
    rw [Node.toText_eq]
    exact own.append (forest n.kids fun c child => ih c child (plain.below c child))

/-! ### Spelled letters -/

/-- How a text reads when its Greek letters are spelled out: behind the command for one stands a
blank, unless only blanks come behind the letter, which are left out. -/
inductive Spells : List Char → List Char → Prop
  | blank {cs : List Char} (blanks : ∀ c ∈ cs, Text.isBlank c = true) : Spells cs []
  | same {c : Char} {cs ds : List Char} (rest : Spells cs ds) : Spells (c :: cs) (c :: ds)
  | letter {c : Char} {command : String} {cs ds : List Char}
      (greek : greek.lookup c = some command) (rest : Spells cs ds) :
      Spells (c :: cs) (command.toList ++ ' ' :: ds)
  | last {c : Char} {command : String} {cs : List Char}
      (greek : greek.lookup c = some command) (blanks : ∀ c ∈ cs, Text.isBlank c = true) :
      Spells (c :: cs) command.toList

theorem dropEndWhile_command {command : String} (mem : command ∈ greek.map (·.2)) :
    Text.dropEndWhile Text.isBlank (command.toList ++ [' ']) = command.toList ∧
      command.toList ≠ [] := by
  have all : ∀ command ∈ greek.map (·.2),
      Text.dropEndWhile Text.isBlank (command.toList ++ [' ']) = command.toList ∧
        command.toList ≠ [] := by
    decide +kernel
  exact all command mem

theorem Spells.blanks {cs ds : List Char} (spells : Spells cs ds) (none : ds = []) :
    ∀ c ∈ cs, Text.isBlank c = true := by
  cases spells with
  | blank blanks => exact blanks
  | same rest => cases none
  | letter greek rest => simp at none
  | last greek blanks => exact absurd none (dropEndWhile_command (mem_of_lookup greek)).2

theorem dropEndWhile_append_eq (p : Char → Bool) (cs ds : List Char) :
    Text.dropEndWhile p (cs ++ ds) = if Text.dropEndWhile p ds = [] then Text.dropEndWhile p cs
      else cs ++ Text.dropEndWhile p ds := by
  simp only [Text.dropEndWhile, List.reverse_append, List.dropWhile_append,
    List.reverse_eq_nil_iff, List.isEmpty_iff]
  split <;> simp

theorem spells_spell (s : String) : Spells s.toList (spell s).toList := by
  rw [spell, String.toList_ofList]
  induction s.toList with
  | nil => exact .blank (List.forall_mem_nil _)
  | cons c cs ih =>
    rw [List.flatMap_cons, dropEndWhile_append_eq]
    split
    · next none =>
      -- Nothing is left of what comes behind, so it is blank.
      have blanks := ih.blanks none
      unfold letter
      split
      · next command found =>
        rw [(dropEndWhile_command (mem_of_lookup found)).1]
        exact .last found blanks
      · cases blank : Text.isBlank c with
        | true =>
          have nothing : Text.dropEndWhile Text.isBlank [c] = [] := by
            simp [Text.dropEndWhile, blank]
          rw [nothing]
          exact .blank (List.forall_mem_cons.2 ⟨blank, blanks⟩)
        | false =>
          have kept : Text.dropEndWhile Text.isBlank [c] = [c] := by
            simp [Text.dropEndWhile, blank]
          rw [kept]
          exact .same (.blank blanks)
    · unfold letter
      split
      · next command found =>
        rw [List.append_assoc]
        exact .letter found ih
      · exact .same ih

/-! ### Ends of texts -/

/-- Whether a text does not end in a backslash, which would escape what comes behind. -/
def Whole (cs : List Char) : Prop := cs.getLast? ≠ some '\\'

section
variable {cs ds : List Char}

theorem Whole.of_plain (plain : '\\' ∉ cs) : Whole cs :=
  fun last => plain (List.mem_of_getLast? last)

theorem Whole.cons {c : Char} (other : c ≠ '\\') (rest : Whole cs) : Whole (c :: cs) := by
  rw [Whole, List.getLast?_cons]
  cases last : cs.getLast? with
  | none => simpa using other
  | some d => exact last ▸ rest

theorem Whole.tail {c : Char} (whole : Whole (c :: cs)) : Whole cs := by
  intro last
  apply whole
  rw [List.getLast?_cons, last]
  rfl

theorem Whole.append (front : Whole cs) (back : Whole ds) : Whole (cs ++ ds) := by
  rw [Whole, List.getLast?_append]
  intro last
  rcases Option.or_eq_some_iff.1 last with last | ⟨-, last⟩
  · exact back last
  · exact front last

theorem whole_of_mem_vocabulary {s : String} (known : s ∈ vocabulary) : Whole s.toList := by
  have all : ∀ s ∈ vocabulary, s.toList.getLast? ≠ some '\\' := by decide +kernel
  exact all s known

theorem whole_of_spells (spells : Spells cs ds) (plain : '\\' ∉ cs) : Whole ds := by
  induction spells with
  | blank => simp [Whole]
  | same rest ih =>
    rw [List.mem_cons, not_or] at plain
    exact .cons (Ne.symm plain.1) (ih plain.2)
  | letter greek rest ih =>
    rw [List.mem_cons, not_or] at plain
    have command := whole_of_mem_vocabulary (mem_vocabulary_of_letter greek)
    exact command.append (.cons (by decide) (ih plain.2))
  | last greek => exact whole_of_mem_vocabulary (mem_vocabulary_of_letter greek)

end

namespace Tex

/-- Whether the texts of the converter are from its vocabulary, and those of the formula have no
backslash. -/
inductive Lawful : Tex → Prop
  | empty : Lawful empty
  | own {s : String} (known : s ∈ vocabulary) : Lawful (own s)
  | copied {s : String} (plain : Plain s) : Lawful (copied s)
  | spelled {s : String} (plain : Plain s) : Lawful (spelled s)
  | group {t : Tex} (body : Lawful t) : Lawful (group t)
  | append {s t : Tex} (front : Lawful s) (back : Lawful t) : Lawful (append s t)

namespace Lawful

theorem scaffold {s : String} (mem : s ∈ scaffold) : (Tex.own s).Lawful :=
  own (List.mem_append_right _ mem)

section
variable {ts : List Tex} (each : ∀ t ∈ ts, t.Lawful)
include each

theorem join : (join ts).Lawful := by
  induction ts with
  | nil => exact empty
  | cons t ts ih =>
    obtain ⟨here, later⟩ := List.forall_mem_cons.1 each
    exact append here (ih later)

theorem separated {sep : Tex} (lawful : sep.Lawful) : (separated sep ts).Lawful := by
  induction ts with
  | nil => exact empty
  | cons t ts ih =>
    obtain ⟨here, later⟩ := List.forall_mem_cons.1 each
    cases ts with
    | nil => exact here
    | cons u ts => exact append here (append lawful (ih later))

theorem getD (i : Nat) : (ts.getD i .empty).Lawful := by
  rw [List.getD_eq_getElem?_getD]
  cases found : ts[i]? with
  | none => exact empty
  | some t => exact each t (List.mem_of_getElem? found)

end

section
variable {s : String} (plain : Plain s)
include plain

theorem symbol : (symbol s).Lawful := by
  unfold Tex.symbol
  split
  · next found => exact own (mem_vocabulary_of_operator found)
  · exact spelled plain

theorem identifier : (identifier s).Lawful := by
  unfold Tex.identifier
  split
  · next named => exact own (mem_vocabulary_of_function named)
  · split
    · exact append (scaffold (by decide)) (group (copied plain))
    · exact symbol plain

theorem words : (words s).Lawful := by
  unfold Tex.words
  split
  · exact scaffold (by decide)
  · exact append (scaffold (by decide)) (group (copied plain))

theorem fence : (fence s).Lawful := by
  unfold Tex.fence
  repeat' split
  case isFalse => exact copied plain
  all_goals exact scaffold (by decide)

end

theorem matrix {rows : List (List Tex)} (each : ∀ row ∈ rows, ∀ t ∈ row, t.Lawful) :
    (matrix rows).Lawful := by
  have lines : ∀ t ∈ rows.map (Tex.separated (.own " & ")), t.Lawful := by
    rw [List.forall_mem_map]
    exact fun row mem => separated (each row mem) (scaffold (by decide))
  have body := separated lines (scaffold (s := " \\\\ ") (by decide))
  exact append (scaffold (by decide)) (append body (append (scaffold (by decide)) empty))

theorem element {n : Node} {parts : List Tex} (plain : n.Everywhere PlainNode)
    (each : ∀ t ∈ parts, t.Lawful) : (element n parts).Lawful := by
  have text := plain_toText plain
  have arg (i : Nat) : (Tex.group (parts.getD i .empty)).Lawful := group (getD each i)
  have attr (name standard : String) (ordinary : Plain standard) :
      Plain ((n.attrText? name).getD standard) := by
    cases found : n.attrText? name with
    | none => exact ordinary
    | some v => exact plain.here.attrs name v found
  -- One case for each kind of element; the texts that are set around its parts are from the list.
  unfold Tex.element
  generalize localName n.kind = kind
  split
  case h_1 | h_2 =>
    cases value : n.value with
    | none => exact empty
    | some v => exact symbol (plain.here.value v value)
  case h_3 => exact identifier text.trim
  case h_4 | h_5 => exact symbol text.trim
  case h_6 => exact words text
  case h_7 => exact scaffold (by decide)
  case h_8 | h_9 => exact append (arg 0) (append (scaffold (by decide)) (append (arg 1) empty))
  case h_10 | h_11 =>
    exact append (arg 0) (append (scaffold (by decide)) (append (arg 1)
      (append (scaffold (by decide)) (append (arg 2) empty))))
  case h_12 => exact append (scaffold (by decide)) (append (arg 0) (append (arg 1) empty))
  case h_13 => exact append (scaffold (by decide)) (group (join each))
  case h_14 =>
    exact append (scaffold (by decide)) (append (getD each 1)
      (append (scaffold (by decide)) (append (arg 0) empty)))
  case h_15 =>
    simp only
    split
    · next found => exact append (own (mem_vocabulary_of_accent found)) (arg 0)
    · exact append (scaffold (by decide)) (append (arg 1) (append (arg 0) empty))
  case h_16 => exact append (scaffold (by decide)) (append (arg 1) (append (arg 0) empty))
  case h_17 =>
    have opening := fence (attr "open" "(" (by simp [Plain]))
    have closing := fence (attr "close" ")" (by simp [Plain]))
    have inner := separated each (copied (attr "separators" "," (by simp [Plain])))
    exact append (scaffold (by decide)) (append opening (append inner
      (append (scaffold (by decide)) (append closing empty))))
  case h_18 => exact getD each 0
  case h_19 | h_20 | h_21 => exact empty
  case h_22 => exact join each

end Lawful

mutual
theorem lawful_ofNode : {n : Node} → n.Everywhere PlainNode → (ofNode n).Lawful
  | ⟨k, none, v, a⟩, plain => by
    rw [ofNode]
    split
    · exact .matrix (List.forall_mem_nil _)
    · exact .element plain (List.forall_mem_nil _)
  | ⟨k, some cs, v, a⟩, plain => by
    rw [ofNode]
    split
    · exact .matrix (lawful_ofRows plain.below)
    · exact .element plain (lawful_ofNodes plain.below)

theorem lawful_ofNodes : {ns : List Node} → (∀ c ∈ ns, c.Everywhere PlainNode) →
    ∀ t ∈ ofNodes ns, t.Lawful
  | [], _ => List.forall_mem_nil _
  | n :: ns, plain => by
    obtain ⟨here, later⟩ := List.forall_mem_cons.1 plain
    exact List.forall_mem_cons.2 ⟨lawful_ofNode here, lawful_ofNodes later⟩

theorem lawful_ofRows : {ns : List Node} → (∀ c ∈ ns, c.Everywhere PlainNode) →
    ∀ row ∈ ofRows ns, ∀ t ∈ row, t.Lawful
  | [], _ => List.forall_mem_nil _
  | ⟨_, none, _, _⟩ :: ns, plain => by
    obtain ⟨-, later⟩ := List.forall_mem_cons.1 plain
    exact List.forall_mem_cons.2 ⟨List.forall_mem_nil _, lawful_ofRows later⟩
  | ⟨_, some cs, _, _⟩ :: ns, plain => by
    obtain ⟨here, later⟩ := List.forall_mem_cons.1 plain
    exact List.forall_mem_cons.2 ⟨lawful_ofNodes here.below, lawful_ofRows later⟩
end

end Tex

/-! ### Conversions -/

/-- The formula that the first element of an XML text is or holds. -/
def formula? (xml : String) : Option Node := do
  let document ← (Xml.parse xml).toOption
  let root ← document.elements.head?
  if localName root.kind = "math" then some root else root.find? (localName ·.kind = "math")

namespace Tex

def ofFormula (math : Node) : Tex := join (ofNodes math.kids)

/-- A conversion prints the tree of the formula, without blanks at its ends. -/
theorem print_of_ofMathml {xml tex : String} (converted : ofMathml xml = some tex) :
    ∃ math, formula? xml = some math ∧ tex = Text.trim (ofFormula math).print := by
  have print (math : Node) : (ofFormula math).print = String.join (latexAll math.kids) := by
    rw [ofFormula, print_join, map_print_ofNodes]
  simp only [ofMathml, Option.bind_eq_bind, Option.bind_eq_some_iff] at converted
  obtain ⟨document, parsed, root, first, rest⟩ := converted
  simp only [formula?, parsed, first, Option.bind_eq_bind, Option.bind_some]
  split at rest
  · next isMath =>
    rw [Option.bind_some] at rest
    obtain ⟨-, same⟩ := Option.ite_none_left_eq_some.1 rest
    exact ⟨root, if_pos (of_decide_eq_true isMath), by rw [print, ← Option.some.inj same]⟩
  · next other =>
    obtain ⟨math, found, rest⟩ := Option.bind_eq_some_iff.1 rest
    obtain ⟨-, same⟩ := Option.ite_none_left_eq_some.1 rest
    refine ⟨math, ?_, by rw [print, ← Option.some.inj same]⟩
    rw [if_neg fun isMath => other (decide_eq_true isMath)]
    exact found

theorem lawful_ofFormula {math : Node} (plain : math.Everywhere PlainNode) :
    (ofFormula math).Lawful :=
  .join (lawful_ofNodes plain.below)

end Tex

end Manuscript.Formula
