import DocCite.Citation.Bibliography
import DocCite.Citation.MarkName
import DocCite.Document.Edit
import DocCite.Preferences

/-!
# The bibliography of a document

A bookmark covers the bibliography, and a second, empty one is at its end, so that text that the
user types there is still told from it. Every update writes the whole section anew.
-/

namespace DocCite.DocumentM

/-- Fails if a paragraph style that the bibliography needs is not defined. -/
def checkParagraphStyles (style : Style) : DocumentM Unit :=
  [style.referenceHeaderParagraphFormat, style.referenceParagraphFormat].forM fun name => do
    if !(← hasParagraphStyle name) then throw (.undefinedParagraphFormat name)

/-- Whether there is a bibliography. -/
def hasBibliography : DocumentM Bool :=
  return (← bookmarkRange? MarkName.bibliographyBookmark).isSome

/-- The section between two bookmarks; the end counts only if it is in the body and not before the
start. -/
def sectionBetween (covered : TextRange) (stop : Option TextRange) : TextRange :=
  match stop with
  | some s =>
    if s.flow = .body ∧ covered.start ≤ s.start then
      .inBody covered.start (max s.start covered.stop)
    else .inBody covered.start covered.stop
  | none => .inBody covered.start covered.stop

/-- Creates an empty section, in a paragraph of its own at the end of the body. -/
def createSection : DocumentM TextRange := do
  removeBookmark MarkName.bibliographyEndBookmark
  let length ← flowLength .body
  let breaks ←
    if length = 0 then pure false
    else do
      let last ← text (.inBody (length - 1) length)
      pure (last != "\n")
  if breaks then
    let _ ← replace (.collapsed .body length) "\n"
  let place := TextRange.collapsed .body (if breaks then length + 1 else length)
  createBookmark MarkName.bibliographyBookmark place
  createBookmark MarkName.bibliographyEndBookmark place
  return place

/-- The section of the bibliography, created if it is missing. -/
def bibliographySection : DocumentM TextRange := do
  match ← bookmarkRange? MarkName.bibliographyBookmark with
  | some covered =>
    return sectionBetween covered (← bookmarkRange? MarkName.bibliographyEndBookmark)
  | none => createSection

/-- Fails if a citation mark is inside a section. An empty mark at its start is before it. -/
def checkNoMarkInside (whole : TextRange) : DocumentM Unit := do
  (← markNames).forM fun name => do
    if MarkName.isMark name then
      if let some r ← markRange? name then
        if whole.contains r && !(r.isEmpty && r.start == whole.start) then
          throw (.inconsistent ("citation mark " ++ name ++ " is inside the bibliography"))

/-- Types text at a place of the body and gives the place after it. -/
def typeAt (place : Nat) (s : String) : DocumentM Nat :=
  return (← replace (.collapsed .body place) s).stop

/-- Writes page fields for marks, with commas between, and gives the place after them. -/
def writePageFields : Nat → List String → DocumentM Nat
  | place, [] => return place
  | place, [mark] => return (← insertPageField (.collapsed .body place) mark).stop
  | place, mark :: rest => do
    let field ← insertPageField (.collapsed .body place) mark
    writePageFields (← typeAt field.stop ", ") rest

/-- Writes the paragraph of an entry, after a paragraph break, and gives the place after it. Where
asked for, the pages that cite the entry follow it. -/
def writeEntry (format : String) (withPages : Bool) (place : Nat) (entry : BibliographyEntry) :
    DocumentM Nat := do
  let start ← typeAt place "\n"
  let written ← writeMarkup (.collapsed .body start) entry.markup
  let stop ←
    if !entry.isResolved || withPages then do
      let opened ← typeAt written.stop " (Cited on pages: "
      typeAt (← writePageFields opened entry.citedIn) ")"
    else pure written.stop
  setParagraphStyle (.inBody start stop) format
  return stop

/-- Writes a bibliography into its section, and sets the bookmarks anew. -/
def writeBibliography (bibliography : Bibliography) (preferences : Preferences) :
    DocumentM Unit := do
  let whole ← bibliographySection
  checkNoMarkInside whole
  let _ ← replace whole ""
  let title ← writeMarkup (.collapsed .body whole.start) bibliography.title
  setParagraphStyle title bibliography.headerFormat
  let stop ← bibliography.entries.foldlM
    (writeEntry bibliography.paragraphFormat preferences.alwaysAddCitedOnPages) title.stop
  removeBookmark MarkName.bibliographyBookmark
  removeBookmark MarkName.bibliographyEndBookmark
  createBookmark MarkName.bibliographyBookmark (.inBody whole.start stop)
  createBookmark MarkName.bibliographyEndBookmark (.collapsed .body stop)

end DocCite.DocumentM
