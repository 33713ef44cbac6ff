import DocCite.Document.Refresh

/-!
# What a user does with citations

Inserting, joining and separating citations, refreshing them, exporting what they cite, and
looking after their page info. Every change is one action that can be undone, and none begins
while changes are recorded, unless the preferences allow it.
-/

namespace DocCite

/-- A citation to be inserted. -/
structure CitationRequest where
  keys : List String
  kind : CitationKind := .parenthetical
  pageInfo : Option String := none
  /-- Refresh the document afterwards. -/
  sync : Bool := false
  deriving DecidableEq, Repr

/-- The citation keys of entries to be cited; there have to be some, and each needs a key. -/
def keysToCite (entries : List Entry) : Except DocumentError (List String) := do
  if entries.isEmpty then throw .noEntriesSelected
  entries.mapM fun e =>
    match e.citationKey with
    | some key => .ok key
    | none => .error (.illegalArgument "an entry to cite has no citation key")

/-- The entry for a key: that of the first database that knows it, or an empty one. -/
def entryToCite (databases : List Database) (key : String) : Entry :=
  (databases.findSome? fun db => db.lookup key).getD (Entry.new key "misc")

/-- The marker of a new group, before a refresh numbers it or gives it letters. -/
def preliminaryMarker (style : Style) (databases : List Database) (group : CitationGroup) :
    String :=
  if group.kind = .invisible then ""
  else
    let marker :=
      if style.citationKeyMarkers then Marker.citationKeys style group.keys
      else if style.isNumeric then
        Markup.escape style.bracketBefore ++ "-" ++ Markup.escape style.bracketAfter
      else
        Marker.authorYear style databases
          (group.citations.map fun c =>
            { key := c.key, resolution := Resolution.lookup c.key databases })
          group.kind.inParenthesis
    Marker.finish style marker group.pageInfo

/-- What is left of citations that were deleted. -/
structure HealthReport where
  /-- The properties that hold page info of citations that are not there. -/
  orphaned : List String
  deriving DecidableEq, Repr

namespace HealthReport

/-- Whether nothing is left. -/
def isHealthy (r : HealthReport) : Bool := r.orphaned.isEmpty

/-- The text of a report. -/
def text (r : HealthReport) : String :=
  if r.isHealthy then "No problems found.\n"
  else
    "Found " ++ toString r.orphaned.length ++
      " custom properties holding page info of deleted citations:\n" ++
      String.join (r.orphaned.map fun name => "  " ++ name ++ "\n") ++
      "In LibreOffice you may remove these in [File]/[Properties]/[Custom Properties]\n"

end HealthReport

namespace DocumentM

variable {α : Type}

/-! ## Changes -/

/-- Fails if changes are recorded, or some are still open, and the preferences refuse that. -/
def checkChangeTracking (preferences : Preferences) : DocumentM Unit := do
  let recording ← isRecording
  let redlines ← redlineCount
  if (recording || redlines != 0) && preferences.changeTracking == .refuse then
    throw (.changeTracking recording redlines)

/-- Runs a change as one action. -/
def mutate (preferences : Preferences) (label : String) (action : DocumentM α) : DocumentM α := do
  checkChangeTracking preferences
  inUndoGroup label action

/-- Inserts a citation at a place, with a preliminary marker and a space after it, behind which the
cursor goes. -/
def insertAt (place : TextRange) (request : CitationRequest) (databases : List Database)
    (style : Style) : DocumentM Unit := do
  let (group, r) ← createGroup request.keys request.pageInfo request.kind place true false
  writeMarker group.id group.kind (preliminaryMarker style databases group) style
  let stop := (← groupRange group.id).stop
  setViewCursor (.collapsed r.flow (stop + 1))

/-- Inserts a citation at the end of the selection. -/
def insertGroup (request : CitationRequest) (databases : List Database) (style : Style) :
    DocumentM Unit := do
  let place := (← requireViewCursor).endPoint
  if style.formatCitations then checkCharacterStyle place style.citationCharacterFormat
  insertAt place request databases style

/-- Inserts a citation. Gives the keys that no database knows, if the document is refreshed. -/
def insertCitation (preferences : Preferences) (request : CitationRequest)
    (databases : List Database) (style : Style) : DocumentM (List String) :=
  mutate preferences "Insert citation" do
    insertGroup request databases style
    if request.sync then refresh databases style preferences .always else return []

/-- Writes all markers and the bibliography anew. -/
def refreshAll (preferences : Preferences) (databases : List Database) (style : Style) :
    DocumentM (List String) :=
  mutate preferences "Refresh citations and bibliography" do
    refresh databases style preferences .always

/-! ## Joining citations -/

/-- Whether nothing but spaces, and at least one, is between two ranges. -/
def onlySpacesBetween (left right : TextRange) : DocumentM Bool := do
  if !left.sameFlow right || right.start < left.stop then return false
  let gap := (← text (.new left.flow left.stop right.start)).toList
  return !gap.isEmpty && !gap.contains '\n' && Text.isAllBlank gap

/-- Whether a group joins the one before it: both are in brackets, with only spaces between. -/
def joins (left right : CitationGroup × TextRange) : DocumentM Bool :=
  if left.1.kind = .parenthetical ∧ right.1.kind = .parenthetical then
    onlySpacesBetween left.2 right.2
  else return false

/-- Groups in reading order, cut where neighbours do not join. -/
def runsFrom (first : CitationGroup × TextRange) :
    List (CitationGroup × TextRange) → DocumentM (List (List (CitationGroup × TextRange)))
  | [] => return [[first]]
  | second :: rest => do
    let joined ← joins first second
    match ← runsFrom second rest with
    | run :: runs => return if joined then (first :: run) :: runs else [first] :: run :: runs
    | [] => return [[first]]

/-- The runs of groups that are to be joined, each with at least two groups. -/
def joinableRuns (ordered : List (CitationGroup × TextRange)) :
    DocumentM (List (List CitationGroup)) :=
  match ordered with
  | [] => return []
  | first :: rest => do
    let runs ← runsFrom first rest
    return (runs.filter fun run => 1 < run.length).map fun run => run.map Prod.fst

/-- The page info of joined groups: each different one once. -/
def joinedPageInfo (run : List CitationGroup) : Option String :=
  match (run.filterMap CitationGroup.pageInfo).eraseDups with
  | [] => none
  | infos => some ("; ".intercalate infos)

/-- Joins groups into one, in the place of their marks and of what is between them. -/
def joinRun (first : CitationGroup) (rest : List CitationGroup) : DocumentM Unit := do
  let run := first :: rest
  let start ← groupRange first.id
  let stop ← groupRange (rest.getLastD first).id
  let span ← liftExcept (start.through stop)
  run.forM fun g => removeGroup g.id
  let _ ← replace span ""
  let _ ← createGroup (run.flatMap CitationGroup.keys) (joinedPageInfo run) .parenthetical
    span.startPoint false false

/-- The groups of a document, their ranges, and the check that they keep apart. -/
def loadApart (preferences : Preferences) :
    DocumentM (CitationGroups × List (TextRange × String)) := do
  let gs ← loadGroups
  let ranges ← groupRanges gs
  checkOverlaps ranges preferences
  return (gs, ranges)

/-- Joins citations in brackets that have only spaces between them. Tells whether there were
any. -/
def joinAll (preferences : Preferences) : DocumentM Bool := do
  let (gs, ranges) ← loadApart preferences
  let ids ← readingOrder ranges
  let ordered := ids.filterMap fun id => do
    let g ← gs.get? id
    let r ← (ranges.find? fun r => r.2 = id)
    return (g, r.1)
  let runs ← joinableRuns ordered
  withLockedScreen do
    runs.forM fun run =>
      match run with
      | [] => return
      | first :: rest => joinRun first rest
  return !runs.isEmpty

/-- Joins citations in brackets that have only spaces between them, and refreshes the document. -/
def merge (preferences : Preferences) (databases : List Database) (style : Style) :
    DocumentM (List String) :=
  mutate preferences "Merge citations" do
    let _ ← joinAll preferences
    refresh databases style preferences .ifPresent

/-! ## Separating citations -/

/-- Creates a group for each key from a place on, with spaces between; page info goes to the last
one. -/
def splitInto (kind : CitationKind) (pageInfo : Option String) (place : TextRange) :
    List String → DocumentM Unit
  | [] => return
  | [key] => do
    let _ ← createGroup [key] pageInfo kind place false false
  | key :: rest => do
    let (_, created) ← createGroup [key] none kind place true false
    splitInto kind pageInfo (.collapsed created.flow (created.stop + 1)) rest

/-- Separates a group into one for each key. -/
def splitGroup (g : CitationGroup) : DocumentM Unit := do
  let r ← groupRange g.id
  removeGroup g.id
  let _ ← replace r ""
  splitInto g.kind g.pageInfo r.startPoint g.keys

/-- Separates all groups of several keys. Tells whether there were any. -/
def splitAll (preferences : Preferences) : DocumentM Bool := do
  let (gs, _) ← loadApart preferences
  let several := gs.groups.filter fun g => 1 < g.citations.length
  withLockedScreen (several.forM splitGroup)
  return !several.isEmpty

/-- Separates all groups of several keys, and refreshes the document. -/
def split (preferences : Preferences) (databases : List Database) (style : Style) :
    DocumentM (List String) :=
  mutate preferences "Separate citations" do
    let _ ← splitAll preferences
    refresh databases style preferences .ifPresent

/-! ## Looking -/

/-- Stores an entry in a database that does not hold its key yet. -/
def storeNew (db : Database) (e : Entry) : Database :=
  match e.citationKey with
  | some key => if db.contains key then db else db.insert e
  | none => db.insert e

/-- A database of exported entries with one more cited key: its entry and the one that it inherits
from. -/
def exportKey (databases : List Database) (exported : Database) (cited : CitedKey) : Database :=
  match cited.resolution.entryAndDatabase? databases with
  | none => exported
  | some (entry, database) =>
    if (entry.citationKey.map exported.contains).getD false then exported
    else
      let stored := exported.insert entry
      match entry.crossref.bind database.lookup with
      | some parent => storeNew stored parent
      | none => stored

/-- The cited entries with those that they inherit from, as a database, and the keys that no
database knows. -/
def exportCited (databases : List Database) : DocumentM (Database × List String) := do
  let gs := (← loadGroups).resolve databases
  let empty : Database := { mode := (databases.head?.map Database.mode).getD .bibtex }
  return (gs.citedKeys.foldl (exportKey databases) empty, gs.unresolvedKeys)

/-- All groups, as they are listed to the user. -/
def listCitations : DocumentM (List CitationRow) := do citationRows (← loadGroups)

/-- Stores page info that the user edited; markers change with the next refresh. -/
def editPageInfo (preferences : Preferences) (edits : List (String × Option String)) :
    DocumentM Unit :=
  mutate preferences "Edit page info" (setPageInfos edits)

/-- What is left of citations that were deleted. -/
def health : DocumentM HealthReport := return ⟨← orphanedPageInfo⟩

end DocumentM

end DocCite
