import Manuscript.Proofs.Text.Splitting
import Manuscript.Xml.Printer
import Manuscript.Xml.Token

/-!
Tags are read as they are written. An escaped value holds neither a quote nor a bracket, so a tag
ends where it was closed, and its attributes come back in their order.
-/

set_option autoImplicit false

namespace Manuscript.Xml

/-! ### Escaped text -/

/-- Whether a character neither opens nor closes a tag or a value. -/
def Plain (c : Char) : Prop := c ≠ '<' ∧ c ≠ '>' ∧ c ≠ '"' ∧ c ≠ '\''

instance (c : Char) : Decidable (Plain c) := inferInstanceAs (Decidable (_ ∧ _))

theorem plain_escapedChar (d : Char) : ∀ c ∈ escapedChar d, Plain c := by
  unfold escapedChar
  split
  · simp [Plain]
  split
  · simp [Plain]
  split
  · simp [Plain]
  split
  · simp [Plain]
  split
  · simp [Plain]
  · next lt gt amp apos quot => exact List.forall_mem_singleton.2 ⟨lt, gt, quot, apos⟩

theorem plain_escape (cs : List Char) : ∀ c ∈ escape cs, Plain c := by
  intro c mem
  obtain ⟨d, -, mem⟩ := List.mem_flatMap.1 mem
  exact plain_escapedChar d c mem

theorem escape_ne_nil {cs : List Char} (some : cs ≠ []) : escape cs ≠ [] := by
  cases cs with
  | nil => exact absurd rfl some
  | cons c cs =>
    rw [escape, List.flatMap_cons]
    unfold escapedChar
    repeat' split
    all_goals simp

/-! ### Names -/

def isNameChar (c : Char) : Bool :=
  !isSpace c && !List.contains ['<', '>', '/', '=', '\'', '"', '&', '!', '?'] c

def isName (s : String) : Bool := !s.isEmpty && s.toList.all isNameChar

theorem isName_iff {s : String} :
    isName s = true ↔ s.toList ≠ [] ∧ ∀ c ∈ s.toList, isNameChar c = true := by
  simp [isName]

theorem endsName_of_isNameChar {c : Char} (name : isNameChar c = true) : endsName c = false := by
  simp [isNameChar] at name
  simp [endsName, name]

theorem plain_of_isNameChar {c : Char} (name : isNameChar c = true) : Plain c := by
  simp [isNameChar] at name
  simp [Plain, name]

/-! ### Attributes -/

theorem attributesFrom_cons {seen : List (List Char)} {name value : List Char}
    (some : name ≠ []) (plain : ∀ c ∈ name, endsName c = false) (fresh : seen.contains name = false)
    (unquoted : ∀ c ∈ value, c ≠ '"') (rest : List Char) :
    attributesFrom seen (' ' :: (name ++ '=' :: '"' :: (value ++ '"' :: rest))) =
      (name, value) :: attributesFrom (name :: seen) rest := by
  obtain ⟨c, cs, rfl⟩ := List.exists_cons_of_ne_nil some
  obtain ⟨first, others⟩ := List.forall_mem_cons.1 plain
  have blank : isSpace c = false := by
    rw [endsName, Bool.or_eq_false_iff] at first
    exact first.2
  have inside : ∀ d ∈ cs, (!endsName d) = true := fun d mem => by rw [others d mem]; rfl
  -- What is read between the marks: blanks, the name, the equals sign and the opening quote.
  have start : (' ' :: (c :: cs ++ '=' :: '"' :: (value ++ '"' :: rest))).dropWhile isSpace =
      c :: (cs ++ '=' :: '"' :: (value ++ '"' :: rest)) := by
    rw [List.dropWhile_cons_of_pos rfl, List.cons_append,
      List.dropWhile_cons_of_neg (by simp [blank])]
  have read : (cs ++ '=' :: '"' :: (value ++ '"' :: rest)).takeWhile (!endsName ·) = cs := by
    rw [List.takeWhile_append_of_pos inside, List.takeWhile_cons_of_neg (by decide),
      List.append_nil]
  have equals : ((cs ++ '=' :: '"' :: (value ++ '"' :: rest)).dropWhile (!endsName ·)).dropWhile
      isSpace = '=' :: '"' :: (value ++ '"' :: rest) := by
    rw [List.dropWhile_append_of_pos inside, List.dropWhile_cons_of_neg (by decide),
      List.dropWhile_cons_of_neg (by decide)]
  have quote : ('"' :: (value ++ '"' :: rest)).dropWhile isSpace = '"' :: (value ++ '"' :: rest) :=
    List.dropWhile_cons_of_neg (by decide)
  rw [attributesFrom]
  split
  · next none => rw [start] at none; cases none
  next found =>
  rw [start] at found
  obtain ⟨rfl, rfl⟩ := List.cons.inj found
  simp only [read, fresh]
  split
  · next none => rw [equals] at none; cases none
  next found =>
  rw [equals] at found
  obtain ⟨rfl, rfl⟩ := List.cons.inj found
  rw [if_pos rfl, if_neg (by simp)]
  split
  · next none => rw [quote] at none; cases none
  next found =>
  rw [quote] at found
  obtain ⟨rfl, rfl⟩ := List.cons.inj found
  rw [if_pos (.inl rfl)]
  split
  · next cut =>
    rw [Text.cutAt_append unquoted] at cut
    obtain ⟨rfl, rfl⟩ := Prod.mk.inj (Option.some.inj cut)
    rfl
  · next cut => rw [Text.cutAt_append unquoted] at cut; cases cut

def writtenName (name : String) : String := if name = "_type" then "type" else name

/-- Whether an attribute is written so that it can be read: a text under a name that is free. -/
def isWritable (entry : String × Json) : Bool :=
  isName entry.1 && entry.1 != "type" && entry.2.asString?.isSome

theorem toList_attributeText (name value : String) :
    (attributeText name (.string value)).toList =
      ' ' :: ((writtenName name).toList ++ '=' :: '"' :: (escape value.toList ++ ['"'])) := by
  simp [attributeText, writtenName, escapeText]

theorem isName_writtenName {name : String} (isName : isName name = true) :
    Xml.isName (writtenName name) = true := by
  unfold writtenName
  split
  · decide
  · exact isName

theorem writtenName_inj {name other : String} (free : name ≠ "type") (free' : other ≠ "type")
    (same : writtenName name = writtenName other) : name = other := by
  unfold writtenName at same
  split at same <;> split at same
  · simp_all
  · exact absurd same.symm free'
  · exact absurd same free
  · exact same

def attributeChars (entries : List (String × Json)) : List Char :=
  entries.flatMap fun e => (attributeText e.1 e.2).toList

theorem exists_text {entry : String × Json} (writable : isWritable entry = true) :
    isName entry.1 = true ∧ entry.1 ≠ "type" ∧ ∃ value, entry.2 = .string value := by
  obtain ⟨name, value⟩ := entry
  simp only [isWritable, Bool.and_eq_true, bne_iff_ne] at writable
  refine ⟨writable.1.1, writable.1.2, ?_⟩
  cases value <;> simp [Json.asString?] at writable ⊢

theorem attributesFrom_attributeChars {entries : List (String × Json)}
    (writable : ∀ e ∈ entries, isWritable e = true)
    (distinct : entries.Pairwise fun a b => a.1 ≠ b.1) {seen : List (List Char)}
    (fresh : ∀ e ∈ entries, (writtenName e.1).toList ∉ seen) :
    attributesFrom seen (attributeChars entries) =
      entries.map fun e =>
        ((writtenName e.1).toList, escape (e.2.asString?.getD "").toList) := by
  induction entries generalizing seen with
  | nil => simp [attributeChars, attributesFrom]
  | cons e entries ih =>
    obtain ⟨here, others⟩ := List.forall_mem_cons.1 writable
    obtain ⟨apart, distinct⟩ := List.pairwise_cons.1 distinct
    obtain ⟨new, fresh⟩ := List.forall_mem_cons.1 fresh
    obtain ⟨isName, free, value, text⟩ := exists_text here
    obtain ⟨some, chars⟩ := isName_iff.1 (isName_writtenName isName)
    have later : ∀ f ∈ entries, (writtenName f.1).toList ∉ (writtenName e.1).toList :: seen := by
      intro f mem known
      rcases List.mem_cons.1 known with same | known
      · obtain ⟨-, free', -⟩ := exists_text (others f mem)
        exact apart f mem (writtenName_inj free free' (String.toList_inj.1 same.symm))
      · exact fresh f mem known
    rw [attributeChars, List.flatMap_cons, text, toList_attributeText, ← attributeChars]
    simp only [List.cons_append, List.append_assoc, List.nil_append]
    rw [attributesFrom_cons some (fun c mem => endsName_of_isNameChar (chars c mem))
      (by simpa using new) (fun c mem => (plain_escape _ c mem).2.2.1), ih others distinct later,
      List.map_cons, text]
    rfl

theorem attributes_attributeChars {attrs : Attrs}
    (writable : ∀ e ∈ attrs.entries, isWritable e = true) :
    attributes (attributeChars attrs.entries) =
      attrs.entries.map fun e => (writtenName e.1, e.2.asString?.getD "") := by
  have distinct : attrs.entries.Pairwise fun a b => a.1 ≠ b.1 := by
    refine attrs.sorted.imp fun below same => ?_
    rw [same] at below
    exact String.lt_irrefl _ below
  rw [attributes, attributesFrom_attributeChars writable distinct (by simp), List.map_map]
  refine List.map_congr_left fun e mem => ?_
  simp [decode, decode_escape fun _ _ => id]

/-! ### Tags -/

/-- Whether text leaves no quote open where a tag is cut. -/
def Closed (cs : List Char) : Prop :=
  ∀ rest, cutTag none (cs ++ rest) =
    (cutTag none rest).map fun (before, after) => (cs ++ before, after)

theorem Closed.append {cs ds : List Char} (left : Closed cs) (right : Closed ds) :
    Closed (cs ++ ds) := by
  intro rest
  rw [List.append_assoc, left, right, Option.map_map]
  simp [Function.comp_def]

theorem closed_of_plain {cs : List Char} (plain : ∀ c ∈ cs, Plain c) : Closed cs := by
  intro rest
  induction cs with
  | nil => simp
  | cons c cs ih =>
    obtain ⟨⟨-, close, double, single⟩, others⟩ := List.forall_mem_cons.1 plain
    rw [List.cons_append, cutTag]
    simp [close, double, single, ih others, Function.comp_def]

theorem cutTag_quoted {cs : List Char} (plain : ∀ c ∈ cs, Plain c) (rest : List Char) :
    cutTag (some '"') (cs ++ '"' :: rest) =
      (cutTag none rest).map fun (before, after) => (cs ++ '"' :: before, after) := by
  induction cs with
  | nil => simp [cutTag]
  | cons c cs ih =>
    obtain ⟨⟨-, -, double, -⟩, others⟩ := List.forall_mem_cons.1 plain
    rw [List.cons_append, cutTag]
    simp [double, ih others, Function.comp_def]

theorem closed_quoted {cs : List Char} (plain : ∀ c ∈ cs, Plain c) :
    Closed ('"' :: (cs ++ ['"'])) := by
  intro rest
  rw [List.cons_append, List.append_assoc, List.singleton_append, cutTag]
  simp [cutTag_quoted plain rest, Function.comp_def]

theorem closed_attributeText {entry : String × Json} (writable : isWritable entry = true) :
    Closed (attributeText entry.1 entry.2).toList := by
  obtain ⟨isName, -, value, text⟩ := exists_text writable
  obtain ⟨-, chars⟩ := isName_iff.1 (isName_writtenName isName)
  have front : Closed (' ' :: ((writtenName entry.1).toList ++ ['='])) := by
    refine closed_of_plain fun c mem => ?_
    simp only [List.mem_cons, List.mem_append, List.not_mem_nil, or_false] at mem
    rcases mem with rfl | mem | rfl
    · decide
    · exact plain_of_isNameChar (chars c mem)
    · decide
  have whole := front.append (closed_quoted (plain_escape value.toList))
  rw [text, toList_attributeText]
  simpa using whole

theorem closed_attributeChars {entries : List (String × Json)}
    (writable : ∀ e ∈ entries, isWritable e = true) : Closed (attributeChars entries) := by
  induction entries with
  | nil => exact closed_of_plain (List.forall_mem_nil _)
  | cons e entries ih =>
    obtain ⟨here, others⟩ := List.forall_mem_cons.1 writable
    exact (closed_attributeText here).append (ih others)

theorem cutTag_append {content : List Char} (closed : Closed content) (rest : List Char) :
    cutTag none (content ++ '>' :: rest) = some (content, rest) := by
  rw [closed, cutTag]
  simp

def tagChars (name : String) (attrs : Attrs) : List Char :=
  name.toList ++ attributeChars attrs.entries

section
variable {name : String} {attrs : Attrs}

theorem closed_tagChars (isName : isName name = true)
    (writable : ∀ e ∈ attrs.entries, isWritable e = true) : Closed (tagChars name attrs) :=
  .append (closed_of_plain fun c mem => plain_of_isNameChar ((isName_iff.1 isName).2 c mem))
    (closed_attributeChars writable)

theorem head?_attributeChars {entries : List (String × Json)}
    (writable : ∀ e ∈ entries, isWritable e = true) :
    attributeChars entries = [] ∨ ∃ cs, attributeChars entries = ' ' :: cs := by
  cases entries with
  | nil => exact .inl rfl
  | cons e entries =>
    obtain ⟨-, -, value, text⟩ := exists_text (writable e List.mem_cons_self)
    rw [attributeChars, List.flatMap_cons, text, toList_attributeText]
    exact .inr ⟨_, rfl⟩

theorem getLast?_attributeChars {entries : List (String × Json)}
    (writable : ∀ e ∈ entries, isWritable e = true) :
    attributeChars entries = [] ∨ (attributeChars entries).getLast? = some '"' := by
  induction entries with
  | nil => exact .inl rfl
  | cons e entries ih =>
    obtain ⟨here, others⟩ := List.forall_mem_cons.1 writable
    obtain ⟨-, -, value, text⟩ := exists_text here
    have last : (attributeText e.1 e.2).toList.getLast? = some '"' := by
      rw [text, toList_attributeText]
      exact List.getLast?_eq_some_iff.2
        ⟨' ' :: ((writtenName e.1).toList ++ '=' :: '"' :: escape value.toList), by simp⟩
    refine .inr ?_
    rw [attributeChars, List.flatMap_cons, ← attributeChars, List.getLast?_append]
    rcases ih others with none | last'
    · rw [none, List.getLast?_nil, Option.none_or, last]
    · rw [last', Option.some_or]

theorem getLast?_tagChars (isName : isName name = true)
    (writable : ∀ e ∈ attrs.entries, isWritable e = true) :
    (tagChars name attrs).getLast? ≠ some '/' := by
  intro slash
  obtain ⟨-, chars⟩ := isName_iff.1 isName
  rw [tagChars, List.getLast?_append] at slash
  rcases getLast?_attributeChars writable with none | last
  · rw [none] at slash
    exact absurd (chars '/' (List.mem_of_getLast? (by simpa using slash))) (by decide)
  · simp [last] at slash

theorem attributes_tagChars (isName : isName name = true)
    (writable : ∀ e ∈ attrs.entries, isWritable e = true) :
    Token.start (String.ofList ((tagChars name attrs).takeWhile (!isSpace ·)))
        (attributes ((tagChars name attrs).dropWhile (!isSpace ·))) =
      .start name (attrs.entries.map fun e => (writtenName e.1, e.2.asString?.getD "")) := by
  obtain ⟨-, chars⟩ := isName_iff.1 isName
  have inside : ∀ c ∈ name.toList, (!isSpace c) = true := by
    intro c mem
    have char := chars c mem
    rw [isNameChar, Bool.and_eq_true] at char
    exact char.1
  rw [tagChars, List.takeWhile_append_of_pos inside, List.dropWhile_append_of_pos inside]
  have stops : (attributeChars attrs.entries).takeWhile (!isSpace ·) = [] ∧
      (attributeChars attrs.entries).dropWhile (!isSpace ·) = attributeChars attrs.entries := by
    rcases head?_attributeChars writable with none | ⟨cs, blank⟩
    · simp [none]
    · rw [blank]
      exact ⟨List.takeWhile_cons_of_neg (by decide), List.dropWhile_cons_of_neg (by decide)⟩
  rw [stops.1, stops.2, List.append_nil, String.ofList_toList, attributes_attributeChars writable]

theorem startTag_tagChars (isName : isName name = true)
    (writable : ∀ e ∈ attrs.entries, isWritable e = true) :
    startTag (tagChars name attrs) =
      .start name (attrs.entries.map fun e => (writtenName e.1, e.2.asString?.getD "")) false := by
  have opened : ((tagChars name attrs).getLast? == some '/') = false :=
    beq_false_of_ne (getLast?_tagChars isName writable)
  rw [startTag, opened]
  exact congrFun (attributes_tagChars isName writable) false

theorem startTag_closed (isName : isName name = true)
    (writable : ∀ e ∈ attrs.entries, isWritable e = true) :
    startTag (tagChars name attrs ++ ['/']) =
      .start name (attrs.entries.map fun e => (writtenName e.1, e.2.asString?.getD "")) true := by
  rw [startTag]
  simp only [List.getLast?_concat, beq_self_eq_true, if_true, List.dropLast_concat]
  exact congrFun (attributes_tagChars isName writable) true

end

end Manuscript.Xml
