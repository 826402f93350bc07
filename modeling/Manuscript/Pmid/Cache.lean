import Manuscript.Data.Dict
import Manuscript.Pmid.Number

/-!
What is known of PubMed identifiers: their digital object identifiers, or that they have none. The
cache is keyed by bare identifiers. After every missing identifier has been entered, none is
missing.
-/

set_option autoImplicit false

namespace Manuscript

/-- Identifiers and what was found for them; `none` records that there is nothing to find. -/
abbrev Pmid.Findings := Dict (Option String)

structure Pmid.Cache where
  entries : Pmid.Findings

namespace Pmid.Cache

def empty : Cache := ⟨.empty⟩

def insert (cache : Cache) (pmid : String) (doi : Option String) : Cache :=
  ⟨cache.entries.insert (normalize pmid) doi⟩

def extend (cache : Cache) (findings : Findings) : Cache :=
  findings.entries.foldl (fun cache (pmid, doi) => cache.insert pmid doi) cache

def ofFindings (findings : Findings) : Cache := empty.extend findings

/-- The digital object identifier, if a non-empty one is known. -/
def doi? (cache : Cache) (pmid : String) : Option String :=
  ((cache.entries.find? (normalize pmid)).bind id).filter (!·.isEmpty)

def contains (cache : Cache) (pmid : String) : Bool := cache.entries.contains (normalize pmid)

/-- The identifiers of a list that have never been asked for, each once, in the order in which
they are first seen. -/
def missing (cache : Cache) (pmids : List String) : List String :=
  pmids.foldl (fun out pmid =>
    let pmid := normalize pmid
    if pmid.isEmpty || cache.entries.contains pmid || out.contains pmid then out
    else out ++ [pmid]) []

end Pmid.Cache

end Manuscript
