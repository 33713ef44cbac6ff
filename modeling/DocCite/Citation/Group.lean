import DocCite.Citation.Kind
import DocCite.Citation.Resolution
import DocCite.Text.Blank

/-!
# Groups of citations

Citations that are shown together form a group. A group keeps its citations in the order in
which they were stored, and beside it the order in which they are presented, as a list of places
in the stored one.
-/

namespace DocCite

/-- One cited key and what is known about it. -/
structure Citation where
  key : String
  resolution : Resolution := .unresolved
  /-- The number of its reference. -/
  number : Option Nat := none
  /-- The letter that tells it from others of the same author and year. -/
  letter : Option String := none
  /-- Whether it is the first citation of its key in the document. -/
  isFirst : Bool := false
  deriving DecidableEq, Repr

/-- Citations shown at one place of the document. -/
structure CitationGroup where
  /-- The name of the group's reference mark. -/
  id : String
  kind : CitationKind
  /-- The citations in the order of the keys in the mark's name. -/
  citations : List Citation
  pageInfo : Option String
  /-- The places of the citations in the order in which they are presented. -/
  localOrder : List Nat
  /-- The place of the group in the order of the document. -/
  position : Option Nat := none
  deriving DecidableEq, Repr

/-- Blank page info is none. -/
def normalizePageInfo (pageInfo : Option String) : Option String := pageInfo.bind trimmed?

namespace CitationGroup

/-- A group in which citations are presented as they are stored. -/
def new (id : String) (kind : CitationKind) (keys : List String) (pageInfo : Option String) :
    CitationGroup :=
  { id := id, kind := kind, citations := keys.map fun k => { key := k },
    pageInfo := normalizePageInfo pageInfo, localOrder := List.range keys.length }

/-- The cited keys as they are stored. -/
def keys (g : CitationGroup) : List String := g.citations.map Citation.key

/-- The citations as they are presented. -/
def presented (g : CitationGroup) : List Citation := g.localOrder.filterMap fun i => g.citations[i]?

/-- Sets the page info. -/
def setPageInfo (g : CitationGroup) (pageInfo : Option String) : CitationGroup :=
  { g with pageInfo := normalizePageInfo pageInfo }

/-- Sorts the order of presentation; citations that compare equal stay as they were. -/
def sortBy (compare : Citation → Citation → Ordering) (g : CitationGroup) : CitationGroup :=
  { g with
    localOrder := g.localOrder.mergeSort fun i j =>
      match g.citations[i]?, g.citations[j]? with
      | some a, some b => compare a b != .gt
      | _, _ => true }

end CitationGroup

end DocCite
