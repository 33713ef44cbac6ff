import DocCite.Citation.Groups
import DocCite.Citation.MarkName
import DocCite.Document.Edit

/-!
# Citation groups in a document

Each group is a reference mark, whose name holds its kind and its keys. Its page info is the
property of the same name. The text of the mark is the marker; while it is written, placeholders
at both ends keep the mark from collapsing.
-/

namespace DocCite.DocumentM

/-! ## Groups -/

/-- Stores the page info of a group; without any, a stale one is removed. -/
def setPageInfo (id : String) (pageInfo : Option String) : DocumentM Unit :=
  match normalizePageInfo pageInfo with
  | some info => setProperty id info
  | none => removeProperty id

/-- Creates a group at the start of a range, and tells where its mark is. -/
def createGroup (keys : List String) (pageInfo : Option String) (kind : CitationKind)
    (place : TextRange) (spaceAfter bare : Bool) : DocumentM (CitationGroup × TextRange) := do
  if keys.isEmpty then throw (.illegalArgument "a citation group needs at least one key")
  let name := MarkName.fresh keys kind (← markNames)
  let r ← placeMark name place spaceAfter bare
  let group := CitationGroup.new name kind keys pageInfo
  setPageInfo name group.pageInfo
  return (group, r)

/-- The group that the name of a mark says; none if it says nothing. -/
def readGroup? (name : String) : DocumentM (Option CitationGroup) :=
  match MarkName.parse? name with
  | none => return none
  | some n => do
    let pageInfo ← property? name
    return some (CitationGroup.new name n.kind n.keys pageInfo)

/-- The groups of a document, in the order in which their marks were created. -/
def loadGroups : DocumentM CitationGroups := do
  let names ← markNames
  return .ofList ((← names.mapM readGroup?).filterMap id)

/-- The range of the mark of a group. -/
def groupRange (id : String) : DocumentM TextRange := do
  match ← markRange? id with
  | some r => return r
  | none => throw (.inconsistent ("citation mark " ++ id ++ " is missing"))

/-- The ranges of all groups, in the order in which they are stored, each with its name. -/
def groupRanges (gs : CitationGroups) : DocumentM (List (TextRange × String)) :=
  gs.groups.mapM fun g => return (← groupRange g.id, g.id)

/-- The text of the mark of a group, placeholders included. -/
def rawText (id : String) : DocumentM String := do text (← groupRange id)

/-- The visible text of the mark of a group. -/
def visibleText (id : String) : DocumentM String := return withoutPlaceholders (← rawText id)

/-- Removes the mark and the page info of a group; its text stays. -/
def removeGroup (id : String) : DocumentM Unit := do
  removeMark id
  removeProperty id

/-! ## Writing into a mark -/

/-- Empties a mark down to its placeholders, if it has at least two characters. The first and the
last one are kept until there are new ones inside, so that the mark is never empty. -/
def emptyMark (id : String) (r : TextRange) : DocumentM (Option TextRange) := do
  let flow := r.flow
  let s := r.start
  let _ ← replace (.new flow (s + 1) (r.stop - 1))
    (String.ofList ['x', placeholder, 'y', placeholder, 'z'])
  let _ ← replace (.new flow s (s + 2)) ""
  let _ ← replace (.new flow (s + 3) (s + 5)) ""
  let _ ← replace (.new flow (s + 1) (s + 2)) ""
  let r ← groupRange id
  if (← text r) = placeholders then return some (.collapsed flow (r.start + 1))
  return none

/-- Tries to make a mark ready to be written into: an empty or nearly empty one is created anew,
any other one is emptied. -/
def prepareMark (id : String) : DocumentM (Option TextRange) := do
  let r ← groupRange id
  if r.length < 2 then
    let _ ← replace r ""
    removeMark id
    let _ ← placeMark id r.startPoint false false
    return none
  emptyMark id r

/-- Empties the mark of a group and gives the place between its placeholders, where text takes the
attributes of the left one. Two tries are enough, as a mark created anew can be emptied. -/
def fillCursor (id : String) : DocumentM TextRange := do
  match ← prepareMark id with
  | some cursor => return cursor
  | none =>
    match ← prepareMark id with
    | some cursor => return cursor
    | none =>
      throw (.inconsistent ("cannot prepare citation mark " ++ id ++ " for writing"))

/-- Deletes the placeholders around what was written. One stays where the mark would have fewer
than two characters, unless it is empty and is to collapse. -/
def cleanFillCursor (id : String) (removeIfEmpty : Bool) : DocumentM Unit := do
  let r ← groupRange id
  let chars := (← text r).toList
  if chars.length < 2 ∨ chars.head? ≠ some placeholder ∨ chars.getLast? ≠ some placeholder then
    throw (.inconsistent ("citation mark " ++ id ++ " lost its placeholders"))
  let count := chars.length - 2
  let collapses := count = 0 ∧ removeIfEmpty
  if 1 ≤ count ∨ collapses then
    let _ ← replace (.new r.flow (r.stop - 1) r.stop) ""
  if 2 ≤ count ∨ collapses then
    let _ ← replace (.new r.flow r.start (r.start + 1)) ""

/-! ## What the user sees of the groups -/

/-- A group as it is listed to the user. -/
structure CitationRow where
  mark : String
  /-- The text around the mark as markup, the mark itself in bold. -/
  context : String
  pageInfo : Option String
  deriving DecidableEq, Repr

/-- How many characters are shown on each side of a mark. -/
def contextLength : Nat := 30

/-- Text of a document as markup in one line. -/
def contextMarkup (s : String) : String :=
  Markup.escape (String.ofList ((withoutPlaceholders s).toList.map fun c =>
    if c = '\n' then ' ' else c))

/-- The text around the mark of a group. -/
def citationContext (id : String) : DocumentM String := do
  let r ← groupRange id
  let length ← flowLength r.flow
  let before ← text (.new r.flow (r.start - contextLength) r.start)
  let cited ← text r
  let after ← text (.new r.flow r.stop (min (r.stop + contextLength) length))
  return contextMarkup before ++ "<b>" ++ contextMarkup cited ++ "</b>" ++ contextMarkup after

/-- The rows of all groups, in the order in which they are stored. -/
def citationRows (gs : CitationGroups) : DocumentM (List CitationRow) :=
  gs.groups.mapM fun g => return ⟨g.id, ← citationContext g.id, g.pageInfo⟩

/-- Stores the page info of marks. -/
def setPageInfos (edits : List (String × Option String)) : DocumentM Unit :=
  edits.forM fun e => setPageInfo e.1 e.2

/-- The properties named like citation marks that are not there. -/
def orphanedPageInfo : DocumentM (List String) := do
  let marks ← markNames
  return (← propertyNames).filter fun name => MarkName.isMark name && !marks.contains name

end DocCite.DocumentM
