import Manuscript.Frontmatter.Basic
import Manuscript.Myst.Cleanup
import Manuscript.Text.Blank
import Manuscript.Text.Case
import Manuscript.Text.Search

/-!
Lists of abbreviations that stand in the text of a document: sections and footnotes that hold
nothing else are taken out and their entries become metadata. A list with one bad entry stays.
-/

set_option autoImplicit false

namespace Manuscript.Myst

/-- Whether a character stands between an abbreviation and what it means. -/
def isEntryMark (c : Char) : Bool := c == ',' || c == ':'

def entry? (cs : List Char) : Option (String × String) :=
  match Text.splitWhere isEntryMark cs with
  | [short, long] =>
    let short := Text.trimWhile Text.isBlank short
    let long := Text.trimWhile Text.isBlank long
    if short.isEmpty || long.isEmpty || short.any Text.isBlank then none
    else some (String.ofList short, String.ofList long)
  | _ => none

/-- The entries of a list, blank ones left out; none if any entry is bad. -/
def entries? : List (List Char) → Option (List (String × String))
  | [] => some []
  | cs :: rest =>
    let cs := Text.trimWhile Text.isBlank cs
    if cs.isEmpty then entries? rest
    else do
      let entry ← entry? cs
      let entries ← entries? rest
      pure (entry :: entries)

def withoutStop (cs : List Char) : List Char := if cs.getLast? = some '.' then cs.dropLast else cs

def parseAbbreviations? (s : String) : Option Abbreviations :=
  let cs := withoutStop (Text.trimWhile Text.isBlank s.toList)
  match entries? (Text.splitWhere (· == ';') cs) with
  | some (entry :: entries) => some (Dict.ofList (entry :: entries))
  | _ => none

/-- The abbreviations of a block that is a heading for them and one paragraph. -/
def sectionAbbreviations? (n : Node) : Option Abbreviations :=
  match n.kids with
  | [heading, paragraph] =>
    if n.is "block" && heading.is "heading" && paragraph.is "paragraph"
        && Text.lower (Text.trim heading.toText) == "abbreviations" then
      parseAbbreviations? paragraph.toText
    else none
  | _ => none

/-- What a footnote starts with that lists abbreviations, in any case. -/
def footnoteLead : List Char := "abbreviations: ".toList

/-- The abbreviations of a footnote that nothing refers to and that is one paragraph. -/
def footnoteAbbreviations? (referenced : Dict Unit) (n : Node) : Option Abbreviations :=
  match n.kids with
  | [paragraph] =>
    if isOrphan referenced n && paragraph.is "paragraph" then
      let cs := Text.trimWhile Text.isBlank paragraph.toText.toList
      if (cs.take footnoteLead.length).map Char.toLower = footnoteLead then
        parseAbbreviations? (String.ofList (cs.drop footnoteLead.length))
      else none
    else none
  | _ => none

/-- What taking lists out of a tree gives: the tree without them, how many they were, and the
metadata with their entries. -/
structure Extraction where
  tree : Node
  count : Nat
  frontmatter : Frontmatter

/-- Takes out the outermost nodes that `find?` gives abbreviations for. What is known already
stays, and of two lists the first counts. -/
def extract (find? : Node → Option Abbreviations) (tree : Node) (f : Frontmatter) : Extraction :=
  let isList (n : Node) : Bool := (find? n).isSome
  let lists := tree.outermost isList
  ⟨tree.removeWhere isList, lists.length,
    (lists.filterMap find?).foldl Frontmatter.mergeAbbreviations f⟩

def extractSections (tree : Node) (f : Frontmatter) : Extraction :=
  extract sectionAbbreviations? tree f

def extractFootnotes (tree : Node) (f : Frontmatter) : Extraction :=
  extract (footnoteAbbreviations? (referencedFootnotes tree)) tree f

end Manuscript.Myst
