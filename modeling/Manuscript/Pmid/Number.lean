import Manuscript.Text.Blank
import Manuscript.Text.Case
import Manuscript.Text.Search

/-!
The spellings of PubMed identifiers: a bare number, a number behind `PMID:`, or the address of the
article's page.
-/

set_option autoImplicit false

namespace Manuscript.Pmid

def pathOf (address : String) : String :=
  String.ofList (Text.trimWhile (· == '/') ((address.toList.dropWhile (· ≠ '/')).drop 1))

/-- The bare identifier. What is no known spelling is only trimmed. -/
def normalize (s : String) : String :=
  let s := Text.trim s
  match (Text.after? "https://" s).orElse fun _ => Text.after? "http://" s with
  | some address => pathOf address
  | none =>
    if Text.startsWith "pmid" (Text.lowerAscii s) then
      let number := (s.toList.drop 4).dropWhile fun c => c == ':' || c == ' '
      Text.trim (String.ofList number)
    else s

end Manuscript.Pmid
