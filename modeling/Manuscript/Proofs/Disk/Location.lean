import Manuscript.Proofs.Disk.Writing
import Manuscript.Proofs.Text.Splitting

/-!
Where paths lead. All that counts of a path is whether it starts at the root and the steps that it
takes; the name of what it leads to is its last step, and the folder that this is in takes the steps
before. So a path that is joined from two takes the steps of one and then those of the other.
-/

set_option autoImplicit false

namespace Manuscript

namespace Disk

namespace Path

/-! ### Parts -/

theorem parts_append (xs ys : List Char) : parts (xs ++ '/' :: ys) = parts xs ++ parts ys :=
  Text.splitWhere_append rfl xs ys

theorem parts_slash (cs : List Char) : parts ('/' :: cs) = [] :: parts cs :=
  parts_append [] cs

theorem parts_of_plain {cs : List Char} (plain : '/' ∉ cs) : parts cs = [cs] :=
  Text.splitWhere_of_none fun _ mem => beq_eq_false_iff_ne.2 fun slash => plain (slash ▸ mem)

theorem plain_of_mem_parts {cs part : List Char} (mem : part ∈ parts cs) : '/' ∉ part := by
  intro slash
  cases Text.not_of_mem_splitWhere mem '/' slash

/-- The parts that lead somewhere. -/
def leading (cs : List Char) : List (List Char) := (parts cs).filter isStep

theorem steps_eq (p : Path) : steps p = (leading p.toList).map String.ofList := rfl

theorem leading_slash (cs : List Char) : leading ('/' :: cs) = leading cs := by
  rw [leading, parts_slash]
  exact List.filter_cons_of_neg (by decide)

theorem leading_append (xs ys : List Char) :
    leading (xs ++ '/' :: ys) = leading xs ++ leading ys := by
  rw [leading, parts_append, List.filter_append]
  rfl

theorem leading_of_plain {cs : List Char} (plain : '/' ∉ cs) (step : isStep cs = true) :
    leading cs = [cs] := by
  rw [leading, parts_of_plain plain]
  exact List.filter_cons_of_pos step

theorem joinParts_cons (p q : List Char) (ps : List (List Char)) :
    joinParts (p :: q :: ps) = p ++ '/' :: joinParts (q :: ps) := rfl

theorem joinParts_parts (cs : List Char) : joinParts (parts cs) = cs := by
  induction cs with
  | nil => rfl
  | cons c cs ih =>
    cases rest : parts cs with
    | nil => exact absurd rest Text.splitWhere_ne_nil
    | cons part more =>
      rw [rest] at ih
      rw [parts, Text.splitWhere, ← parts, rest]
      split
      · next slash => rw [joinParts_cons, ih, List.nil_append, beq_iff_eq.1 slash]
      · rw [← ih]
        cases more <;> rfl

theorem joinParts_isPrefix {ps qs : List (List Char)} (lead : ps <+: qs) :
    joinParts ps <+: joinParts qs := by
  induction ps generalizing qs with
  | nil => exact List.nil_prefix
  | cons p ps ih =>
    obtain ⟨more, rfl⟩ := lead
    cases ps with
    | nil =>
      cases more with
      | nil => exact List.prefix_rfl
      | cons q more => exact List.prefix_append ..
    | cons q ps =>
      have rest := ih (List.prefix_append (q :: ps) more)
      rw [List.cons_append, List.cons_append, joinParts_cons, joinParts_cons,
        List.prefix_append_right_inj, List.cons_prefix_cons]
      exact ⟨rfl, rest⟩

theorem leading_joinParts {ps : List (List Char)} (plain : ∀ part ∈ ps, '/' ∉ part) :
    leading (joinParts ps) = ps.filter isStep := by
  induction ps with
  | nil => rfl
  | cons p ps ih =>
    obtain ⟨first, rest⟩ := List.forall_mem_cons.1 plain
    have single : leading p = [p].filter isStep := by rw [leading, parts_of_plain first]
    cases ps with
    | nil => exact single
    | cons q ps =>
      rw [joinParts_cons, leading_append, single, ih rest]
      exact (List.filter_append [p] (q :: ps)).symm

/-! ### The start of a path -/

/-- What a path starts with leads nowhere, and neither does it in front of something that starts as
the rest does. -/
theorem leading_start {start rest xs : List Char} {cs : List Char}
    (split : splitStart cs = (start, rest)) (lead : xs <+: rest) :
    leading (start ++ xs) = leading xs := by
  unfold splitStart at split
  split at split
  · cases split
    exact leading_slash xs
  · cases split
    rw [List.prefix_nil.1 lead]
    rfl
  · cases split
    rcases List.prefix_cons_iff.1 lead with rfl | ⟨ys, rfl, -⟩
    · rfl
    · rw [leading_slash]
      exact leading_append ['.'] ys
  · cases split
    rfl

theorem append_of_splitStart {start rest cs : List Char} (split : splitStart cs = (start, rest)) :
    start ++ rest = cs := by
  unfold splitStart at split
  split at split <;> cases split <;> rfl

theorem head_start {start rest xs cs : List Char} (split : splitStart cs = (start, rest))
    (lead : xs <+: rest) : ((start ++ xs).head? == some '/') = (cs.head? == some '/') := by
  unfold splitStart at split
  split at split
  · cases split
    rfl
  · cases split
    rfl
  · cases split
    rfl
  · next relative _ _ =>
    cases split
    obtain ⟨ys, rfl⟩ := lead
    cases xs with
    | cons x xs => rfl
    | nil =>
      cases ys with
      | nil => rfl
      | cons y ys =>
        have ne : y ≠ '/' := by
          rintro rfl
          exact relative ys rfl
        simpa using ne

theorem leading_rest {start rest cs : List Char} (split : splitStart cs = (start, rest)) :
    leading cs = leading rest := by
  rw [← append_of_splitStart split]
  exact leading_start split List.prefix_rfl

/-! ### Names and folders -/

theorem filter_dropWhile {α : Type} (q : α → Bool) (xs : List α) :
    (xs.dropWhile (!q ·)).filter q = xs.filter q := by
  induction xs with
  | nil => rfl
  | cons x xs ih =>
    cases here : q x with
    | true => simp [here]
    | false => simpa [here] using ih

/-- The parts up to the last one that leads anywhere are there in reverse order, which is the last
of those that lead anywhere. -/
theorem leading_eq (rest : List Char) :
    leading rest = ((lastParts rest).filter isStep).reverse := by
  rw [lastParts, filter_dropWhile, List.filter_reverse, List.reverse_reverse, leading]

theorem isStep_of_lastParts {rest last : List Char} {before : List (List Char)}
    (found : lastParts rest = last :: before) : isStep last = true := by
  have head := List.head?_dropWhile_not (!isStep ·) (parts rest).reverse
  rw [show (parts rest).reverse.dropWhile (!isStep ·) = last :: before from found] at head
  simpa using head

/-- The name of what a path leads to is the last step, unless this goes upward. -/
theorem name?_eq (p : Path) : name? p = (steps p).getLast?.filter (· != "..") := by
  rcases split : splitStart p.toList with ⟨start, rest⟩
  rw [steps_eq, leading_rest split, leading_eq, name?, split]
  cases found : lastParts rest with
  | nil => rfl
  | cons last before =>
    have step := isStep_of_lastParts found
    have up : last = ['.', '.'] ↔ String.ofList last = ".." := by
      rw [← String.ofList_inj]
    simp only [List.filter_cons_of_pos step, List.reverse_cons, List.map_append, List.map_cons,
      List.map_nil, List.getLast?_concat, up]
    by_cases same : String.ofList last = ".." <;> simp [same, Option.filter]

/-- What is left of the parts in front of the last one is a front part of them all. -/
theorem isPrefix_of_lastParts {rest last : List Char} {before : List (List Char)}
    (found : lastParts rest = last :: before) :
    (before.dropWhile (!isStep ·)).reverse <+: parts rest := by
  have inner : before <:+ lastParts rest := found ▸ List.suffix_cons last before
  have outer : lastParts rest <:+ (parts rest).reverse := List.dropWhile_suffix _
  have back := ((List.dropWhile_suffix (!isStep ·)).trans inner).trans outer
  exact List.reverse_suffix.1 (by rwa [List.reverse_reverse])

/-- The folder that a path is in takes all steps but the last one. -/
theorem steps_of_parent? {p q : Path} (found : parent? p = some q) :
    steps q = (steps p).dropLast ∧ isAbsolute q = isAbsolute p := by
  rcases split : splitStart p.toList with ⟨start, rest⟩
  have whole := append_of_splitStart split
  rw [parent?, split] at found
  rw [steps_eq p, leading_rest split, leading_eq]
  cases last : lastParts rest with
  | nil =>
    simp only [last] at found
    split at found
    · next here =>
      obtain rfl := Option.some.inj found
      refine ⟨rfl, ?_⟩
      rw [isAbsolute, isAbsolute, ← whole, here]
      rfl
    · cases found
  | cons part before =>
    simp only [last] at found
    obtain rfl := Option.some.inj found
    have front := isPrefix_of_lastParts last
    -- The folder is a part of the path in front, so that it starts as the path does.
    have lead : joinParts (before.dropWhile (!isStep ·)).reverse <+: rest := by
      have join := joinParts_isPrefix front
      rwa [joinParts_parts] at join
    constructor
    · rw [steps_eq, String.toList_ofList, leading_start split lead,
        leading_joinParts fun part mem => plain_of_mem_parts (front.subset mem),
        List.filter_reverse, filter_dropWhile,
        List.filter_cons_of_pos (isStep_of_lastParts last), List.reverse_cons, List.map_append]
      simp
    · rw [isAbsolute, isAbsolute, String.toList_ofList]
      exact head_start split lead

theorem isSome_parent? {p : Path} {n : String} (named : name? p = some n) :
    ∃ q, parent? p = some q := by
  rcases split : splitStart p.toList with ⟨start, rest⟩
  simp only [name?, split] at named
  simp only [parent?, split]
  cases last : lastParts rest with
  | nil =>
    rw [last] at named
    cases named
  | cons part before => exact ⟨_, rfl⟩

theorem isSome_name? {p : Path} (file : endsAtFolder p = false) : ∃ n, name? p = some n := by
  rw [endsAtFolder] at file
  rcases List.eq_nil_or_concat (parts p.toList) with none | ⟨front, last, whole⟩
  · exact absurd none Text.splitWhere_ne_nil
  · simp only [whole, List.concat_eq_append, List.getLast?_concat, Bool.or_eq_false_iff,
      Bool.not_eq_false', beq_eq_false_iff_ne] at file
    obtain ⟨step, other⟩ := file
    have name : String.ofList last ≠ ".." := fun up => other (String.ofList_inj.1 up)
    refine ⟨String.ofList last, ?_⟩
    rw [name?_eq, steps_eq, leading, whole, List.concat_eq_append, List.filter_append,
      List.filter_cons_of_pos step]
    simp [Option.filter, name]

/-! ### Joined paths -/

/-- A joined path is the second one alone, or that one behind a slash that ends the first. -/
theorem join_cases (folder p : Path) :
    (isAbsolute p = true ∨ folder = "") ∧ join folder p = p ∨
      isAbsolute p = false ∧ ∃ front, (join folder p).toList = front ++ '/' :: p.toList ∧
        leading front = leading folder.toList ∧ (front ++ ['/']).head? = folder.toList.head? := by
  rw [join]
  cases absolute : isAbsolute p with
  | true => exact .inl ⟨.inl rfl, rfl⟩
  | false =>
    rw [Bool.false_or]
    split
    · next none => exact .inl ⟨.inr (String.isEmpty_iff.1 none), rfl⟩
    · next some =>
      refine .inr ⟨rfl, ?_⟩
      split
      · next slash =>
        obtain ⟨front, whole⟩ := List.getLast?_eq_some_iff.1 slash
        refine ⟨front, by simp [String.toList_append, whole], ?_, by rw [whole]⟩
        rw [whole, leading_append]
        exact (List.append_nil _).symm
      · refine ⟨folder.toList, by simp [String.toList_append], rfl, ?_⟩
        obtain ⟨c, cs, whole⟩ : ∃ c cs, folder.toList = c :: cs :=
          List.exists_cons_of_ne_nil fun none => some (by simpa using none)
        rw [whole]
        rfl

theorem steps_join (folder p : Path) : steps (join folder p) =
    if isAbsolute p then steps p else steps folder ++ steps p := by
  rcases join_cases folder p with ⟨absolute | none, same⟩ | ⟨relative, front, whole, inner, -⟩
  · rw [same, if_pos absolute]
  · rw [same, none]
    exact (ite_self _).symm
  · rw [relative, if_neg Bool.false_ne_true, steps_eq, whole, leading_append, inner,
      List.map_append]
    rfl

theorem isAbsolute_join (folder p : Path) :
    isAbsolute (join folder p) = (isAbsolute p || isAbsolute folder) := by
  rcases join_cases folder p with ⟨absolute | none, same⟩ | ⟨relative, front, whole, -, head⟩
  · rw [same, absolute, Bool.true_or]
  · rw [same, none]
    exact (Bool.or_false _).symm
  · rw [relative, Bool.false_or, isAbsolute, isAbsolute, whole, ← head, List.head?_append,
      List.head?_append]
    rfl

theorem endsAtFolder_join (folder p : Path) :
    endsAtFolder (join folder p) = endsAtFolder p := by
  rcases join_cases folder p with ⟨-, same⟩ | ⟨-, front, whole, -, -⟩
  · rw [same]
  · have last : (parts (front ++ '/' :: p.toList)).getLast? = (parts p.toList).getLast? := by
      rw [parts_append, List.getLast?_append]
      cases found : (parts p.toList).getLast? with
      | some part => rfl
      | none => exact absurd (List.getLast?_eq_none_iff.1 found) Text.splitWhere_ne_nil
    rw [endsAtFolder, whole, last, endsAtFolder]

theorem steps_of_plain {n : String} (plain : '/' ∉ n.toList) (step : isStep n.toList = true) :
    steps n = [n] := by
  rw [steps_eq, leading_of_plain plain step, List.map_singleton, String.ofList_toList]

theorem plain_of_mem_steps {p : Path} {n : String} (mem : n ∈ steps p) :
    '/' ∉ n.toList ∧ isStep n.toList = true := by
  obtain ⟨part, leads, rfl⟩ := List.mem_map.1 mem
  obtain ⟨place, step⟩ := List.mem_filter.1 leads
  rw [String.toList_ofList]
  exact ⟨plain_of_mem_parts place, step⟩

/-! ### Names -/

/-- A name that something can have in a folder. -/
structure IsName (n : String) : Prop where
  plain : '/' ∉ n.toList
  step : isStep n.toList = true
  other : n ≠ ".."

theorem IsName.steps {n : String} (name : IsName n) : steps n = [n] :=
  steps_of_plain name.plain name.step

theorem IsName.relative {n : String} (name : IsName n) : isAbsolute n = false := by
  rw [isAbsolute, beq_eq_false_iff_ne]
  exact fun slash => name.plain (List.mem_of_mem_head? (Option.mem_def.2 slash))

theorem isName_of_name? {p : Path} {n : String} (named : name? p = some n) :
    IsName n ∧ ∃ front, Path.steps p = front ++ [n] := by
  rw [name?_eq] at named
  obtain ⟨last, other⟩ := Option.filter_eq_some_iff.1 named
  obtain ⟨front, whole⟩ := List.getLast?_eq_some_iff.1 last
  have mem : n ∈ Path.steps p := by
    rw [whole]
    exact List.mem_append_right _ List.mem_cons_self
  obtain ⟨plain, step⟩ := plain_of_mem_steps mem
  exact ⟨⟨plain, step, bne_iff_ne.1 other⟩, front, whole⟩

theorem isName_of_length {n : String} (plain : '/' ∉ n.toList) (long : 3 ≤ n.toList.length) :
    IsName n := by
  refine ⟨plain, ?_, fun up => ?_⟩
  · rw [isStep, Bool.and_eq_true, Bool.not_eq_true', bne_iff_ne, List.isEmpty_eq_false_iff]
    constructor <;> intro short <;> rw [short] at long <;> revert long <;> decide
  · rw [up] at long
    revert long
    decide

theorem IsName.append {n : String} (name : IsName n) {ending : String}
    (plain : '/' ∉ ending.toList) (long : 2 ≤ ending.toList.length) : IsName (n ++ ending) := by
  have nonempty : n.toList ≠ [] := by
    intro none
    have step := name.step
    rw [none] at step
    cases step
  have some := List.length_pos_iff.2 nonempty
  apply isName_of_length <;> rw [String.toList_append]
  · rw [List.mem_append, not_or]
    exact ⟨name.plain, plain⟩
  · rw [List.length_append]
    omega

theorem IsName.draft {n : String} (name : IsName n) : IsName (n ++ ".tmp") :=
  name.append (by decide) (by decide)

theorem name?_join {folder n : Path} (name : IsName n) : name? (join folder n) = some n := by
  rw [name?_eq, steps_join, name.relative, if_neg Bool.false_ne_true, name.steps]
  simp [Option.filter, name.other]

theorem plain_of_stem? {p : Path} {s : String} (stem : stem? p = some s) : '/' ∉ s.toList := by
  obtain ⟨n, named, rfl⟩ := Option.map_eq_some_iff.1 stem
  have plain := (isName_of_name? named).1.plain
  rw [splitName?]
  split
  · next after before cut =>
    split
    · exact plain
    · have whole := Text.eq_of_cutAt cut
      rw [List.reverse_eq_iff] at whole
      simp only [Option.map_some, Option.getD_some, String.toList_ofList, List.mem_reverse]
      intro slash
      rw [whole] at plain
      simp [slash] at plain
  · exact plain

end Path

/-! ### Places -/

/-- The place that a path leads to, if it leads anywhere. -/
def placeOf (path : Path) : Place := climb (origin path) (Path.steps path)

theorem keyOf_eq (path : Path) : keyOf path = (placeOf path).key := rfl

theorem climb_append (p : Place) (xs ys : List String) :
    climb p (xs ++ ys) = climb (climb p xs) ys := by
  induction xs generalizing p with
  | nil => rfl
  | cons x xs ih => rw [List.cons_append, climb, climb, ih]

/-- What the key of something in a place starts with. -/
def Place.front (p : Place) : String := if p = [] then "" else p.key ++ "/"

theorem Place.key_cons (m n : String) (p : Place) :
    Place.key (m :: n :: p) = m ++ "/" ++ Place.key (n :: p) := by
  apply String.toList_inj.1
  simp [Place.key, String.toList_intercalate]

theorem Place.key_singleton (n : String) : Place.key [n] = n := rfl

theorem Place.key_concat (p : Place) (n : String) : Place.key (p ++ [n]) = p.front ++ n := by
  induction p with
  | nil => simp [Place.key_singleton, Place.front]
  | cons m p ih =>
    cases p with
    | nil =>
      rw [List.cons_append, List.nil_append, Place.key_cons]
      simp [Place.key_singleton, Place.front]
    | cons k p =>
      rw [List.cons_append, List.cons_append, Place.key_cons, ← List.cons_append, ih]
      simp [Place.front, Place.key_cons, String.append_assoc]

/-- Keys of things tell their names apart, and what is in front of these. -/
theorem Place.key_concat_inj {p q : Place} {m n : String} (left : '/' ∉ m.toList)
    (right : '/' ∉ n.toList) (same : Place.key (p ++ [m]) = Place.key (q ++ [n])) :
    m = n ∧ p.front = q.front := by
  -- The name is the last part between slashes.
  have last (r : Place) {k : String} (plain : '/' ∉ k.toList) :
      (Path.parts (r.front ++ k).toList).getLast? = some k.toList := by
    rw [Place.front]
    split
    · simp [Path.parts_of_plain plain]
    · rw [String.toList_append, String.toList_append, List.append_assoc,
        show "/".toList = ['/'] from rfl, List.singleton_append, Path.parts_append,
        Path.parts_of_plain plain, List.getLast?_concat]
  rw [Place.key_concat, Place.key_concat] at same
  have names := last p left
  rw [same, last q right] at names
  obtain rfl : n = m := String.toList_inj.1 (Option.some.inj names)
  refine ⟨rfl, ?_⟩
  rw [← String.toList_inj, String.toList_append, String.toList_append] at same
  exact String.toList_inj.1 (List.append_cancel_right same)

/-! ### Drafts and outputs -/

/-- The place of the folder that a path is in. -/
def folderOf (path : Path) : Place := climb (origin path) (Path.steps path).dropLast

/-- The names under which outputs and their drafts are written, as they end. -/
def outputEndings : List String := [".myst.json", ".log.json", ".log.yml"]

section
variable {path : Path} {n : String}

theorem steps_of_named (named : Path.name? path = some n) :
    Path.steps path = (Path.steps path).dropLast ++ [n] := by
  obtain ⟨-, front, whole⟩ := Path.isName_of_name? named
  rw [whole, List.dropLast_concat]

theorem placeOf_named (named : Path.name? path = some n) : placeOf path = folderOf path ++ [n] := by
  have other := (Path.isName_of_name? named).1.other
  rw [placeOf, steps_of_named named, climb_append, folderOf, climb, if_neg other, climb]

theorem steps_draftOf (named : Path.name? path = some n) :
    Path.steps (draftOf path) = (Path.steps path).dropLast ++ [n ++ ".tmp"] ∧
      origin (draftOf path) = origin path := by
  obtain ⟨folder, found⟩ := Path.isSome_parent? named
  obtain ⟨steps, absolute⟩ := Path.steps_of_parent? found
  have name := (Path.isName_of_name? named).1.draft
  rw [draftOf, Path.withName, named, found]
  constructor
  · rw [Option.getD_some, Option.getD_some, Path.steps_join, name.relative,
      if_neg Bool.false_ne_true, name.steps, steps]
  · rw [Option.getD_some, Option.getD_some, origin, Path.isAbsolute_join, name.relative,
      Bool.false_or, absolute, origin]

theorem placeOf_draftOf (named : Path.name? path = some n) :
    placeOf (draftOf path) = folderOf path ++ [n ++ ".tmp"] := by
  obtain ⟨steps, start⟩ := steps_draftOf named
  have name := (Path.isName_of_name? named).1.draft
  rw [placeOf, steps, start, climb_append, folderOf, climb, if_neg name.other, climb]

end

section
variable {c : Config} {article : Path} {ending : String}

def stemOf (article : Path) : String := (Path.stem? article).getD "article"

theorem isName_output (isEnding : ending ∈ outputEndings) :
    Path.IsName (stemOf article ++ ending) := by
  have endings : ∀ ending ∈ outputEndings, '/' ∉ ending.toList ∧ 5 ≤ ending.toList.length := by
    decide
  obtain ⟨plain, long⟩ := endings ending isEnding
  have stem : '/' ∉ (stemOf article).toList := by
    rw [stemOf]
    cases stem : Path.stem? article with
    | none => decide
    | some s => exact Path.plain_of_stem? stem
  apply Path.isName_of_length <;> rw [String.toList_append]
  · rw [List.mem_append, not_or]
    exact ⟨stem, plain⟩
  · rw [List.length_append]
    omega

theorem name?_output (isEnding : ending ∈ outputEndings) :
    Path.name? (outputFile c article ending) = some (stemOf article ++ ending) :=
  Path.name?_join (isName_output isEnding)

theorem steps_output (isEnding : ending ∈ outputEndings) :
    (Path.steps (outputFile c article ending)).dropLast = Path.steps (c.outputDir article) ∧
      origin (outputFile c article ending) = origin (c.outputDir article) := by
  have name : Path.IsName (stemOf article ++ ending) := isName_output isEnding
  rw [outputFile, ← stemOf, origin, Path.isAbsolute_join, Path.steps_join, name.relative,
    if_neg Bool.false_ne_true, name.steps, List.dropLast_concat, Bool.false_or]
  exact ⟨rfl, rfl⟩

theorem folderOf_output (isEnding : ending ∈ outputEndings) :
    folderOf (outputFile c article ending) = placeOf (c.outputDir article) := by
  obtain ⟨steps, start⟩ : (Path.steps (outputFile c article ending)).dropLast = _ ∧ _ :=
    steps_output isEnding
  rw [folderOf, steps, start, placeOf]

end

end Disk

end Manuscript
