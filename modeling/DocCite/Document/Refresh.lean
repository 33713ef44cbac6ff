import DocCite.Document.BibliographySection
import DocCite.Document.CitationMarks
import DocCite.Document.ReadingOrder

/-!
# Bringing a document up to date

A refresh reads the groups of a document, checks that they keep apart, produces their markers and
writes them, and the bibliography with them. All that can be checked is checked before the first
change.
-/

namespace DocCite

/-- Whether a refresh writes the bibliography. -/
inductive BibliographyUpdate
  | always
  /-- Only if the document has one. -/
  | ifPresent
  | never
  deriving DecidableEq, Repr

namespace DocumentM

/-- Fails if some of the ranges or the anchors of footnotes are in each other's way. -/
def checkOverlaps (ranges : List (TextRange × String)) (preferences : Preferences) :
    DocumentM Unit := do
  let anchors ← footnoteAnchors
  let owners := ranges ++ anchors.map fun r => (r, "footnote mark at " ++ toString r.start)
  let found := TextRange.findOverlaps owners preferences.reportTouchingRanges
    preferences.overlapReportLimit
  if !found.isEmpty then
    throw (.overlap (found.map fun o => o.kind.name ++ ": " ++ o.first ++ " and " ++ o.second))

/-- Replaces the text of the mark of a group by a marker. -/
def writeMarker (id : String) (kind : CitationKind) (marker : String) (style : Style) :
    DocumentM Unit := do
  let cursor ← fillCursor id
  let written ← writeMarkup cursor marker
  if !written.isEmpty then
    if style.formatCitations then setCharacterStyle written style.citationCharacterFormat
    if style.italicEtAl then italicize written style.etAlString
  cleanFillCursor id (kind = .invisible)

/-- The marker of a group among produced ones. -/
def CitationMarkers.markerOf (produced : CitationMarkers) (id : String) : String :=
  (Keyed.get? produced.markers id).getD ""

/-- Writes the markers of all groups. Fails if one of them takes the bookmark of the bibliography
with it. -/
def writeMarkers (gs : CitationGroups) (produced : CitationMarkers) (style : Style) :
    DocumentM Unit := do
  let before ← hasBibliography
  gs.groups.forM fun g => do
    writeMarker g.id g.kind (CitationMarkers.markerOf produced g.id) style
    if before then
      if !(← hasBibliography) then
        throw (.inconsistent ("writing citation " ++ g.id ++ " removed the bibliography bookmark"))

/-- Groups put into an order. -/
def imposeOrder (gs : CitationGroups) (ids : List String) : DocumentM CitationGroups :=
  liftExcept ((gs.imposeOrder ids).mapError DocumentError.ofGroupsError)

/-- Whether a refresh is to write the bibliography. -/
def writesBibliography : BibliographyUpdate → DocumentM Bool
  | .always => return true
  | .ifPresent => hasBibliography
  | .never => return false

/-- What a refresh is to write: groups with their entries, their markers, and whether the
bibliography is among it. -/
structure RefreshPlan where
  groups : CitationGroups
  produced : CitationMarkers
  rebuilds : Bool

/-- Fails if the character style of markers is not defined, where there is a marker to write. -/
def checkMarkerStyle (ranges : List (TextRange × String)) (style : Style) : DocumentM Unit := do
  if style.formatCitations then
    if let some first := ranges.head? then
      checkCharacterStyle first.1 style.citationCharacterFormat

/-- Finds out what is to be written, and makes all checks that can be made before. -/
def planRefresh (databases : List Database) (style : Style) (preferences : Preferences)
    (update : BibliographyUpdate) : DocumentM RefreshPlan := do
  let loaded ← loadGroups
  let ranges ← groupRanges loaded
  checkOverlaps ranges preferences
  let ordered ← imposeOrder loaded (← readingOrder ranges)
  let (gs, produced) := ordered.produce databases style
  let rebuilds ← writesBibliography update
  if rebuilds then checkParagraphStyles style
  checkMarkerStyle ranges style
  return ⟨gs, produced, rebuilds⟩

/-- Writes all markers, and the bibliography if the plan says so. -/
def writeRefresh (plan : RefreshPlan) (databases : List Database) (style : Style)
    (preferences : Preferences) : DocumentM Unit :=
  withLockedScreen do
    writeMarkers plan.groups plan.produced style
    if plan.rebuilds then
      writeBibliography (.ofCited plan.groups plan.produced.bibliography databases style) preferences

/-- Writes all markers anew, and the bibliography as asked. Gives the keys that no database
knows. -/
def refresh (databases : List Database) (style : Style) (preferences : Preferences)
    (update : BibliographyUpdate) : DocumentM (List String) := do
  let plan ← planRefresh databases style preferences update
  writeRefresh plan databases style preferences
  return plan.produced.unresolved

end DocumentM

end DocCite
