import DocCite.Document.Basic

/-!
# Operations on a document

An operation goes over the connection of a document. It spends one call of the connection; then
it looks at the document or changes it, or it fails and changes nothing. Actions are put together
from operations: when one fails, what the ones before it did to the document stays.
-/

namespace DocCite

/-- An action on a document, which can fail on the way. -/
abbrev DocumentM := ExceptT DocumentError (StateM Document)

namespace DocumentM

variable {α : Type}

/-! ## Putting actions together -/

/-- One call over the connection. -/
def call (f : Document → Except DocumentError (α × Document)) : DocumentM α :=
  fun d =>
    match d.connection.spend? with
    | none => (.error .connectionLost, { d with connection := .lost })
    | some rest =>
      let reached := { d with connection := rest }
      match f reached with
      | .ok (a, next) => (.ok a, next)
      | .error e => (.error e, reached)

/-- A call that looks at the document. -/
def look (f : Document → Except DocumentError α) : DocumentM α :=
  call fun d => (f d).map fun a => (a, d)

/-- A call that looks at the document and cannot fail by itself. -/
def see (f : Document → α) : DocumentM α := look fun d => .ok (f d)

/-- A call that changes the document and cannot fail by itself. -/
def change (f : Document → Document) : DocumentM Unit := call fun d => .ok ((), f d)

/-- The outcome of an action, as a value. -/
def attempt (action : DocumentM α) : DocumentM (Except DocumentError α) :=
  ExceptT.mk do return .ok (← action.run)

/-- Runs an action and then a closing one, whether the first fails or not. The error of the first
wins. -/
def closing (action : DocumentM α) (close : DocumentM Unit) : DocumentM α := do
  let outcome ← attempt action
  let closed ← attempt close
  let a ← liftExcept outcome
  liftExcept closed
  return a

/-- An attempt never fails, and does to the document what the action does. -/
@[simp] theorem run_attempt (action : DocumentM α) (d : Document) :
    (attempt action).run d = (.ok (action.run d).1, (action.run d).2) := rfl

/-- Over a steady connection a call does what it says, and a failing one changes nothing. -/
theorem run_call_of_steady (f : Document → Except DocumentError (α × Document)) {d : Document}
    (h : d.connection = .steady) :
    (call f).run d =
      match f d with
      | .ok (a, next) => (.ok a, next)
      | .error e => (.error e, d) := by
  have hd : { d with connection := .steady } = d := by rw [← h]
  have hs : d.connection.spend? = some .steady := by rw [h]; rfl
  change call f d = _
  simp only [call, hs, hd]

/-! ## Text -/

/-- The title of the document. -/
def title : DocumentM String := see Document.title

/-- How many characters a flow has. -/
def flowLength (flow : Flow) : DocumentM Nat := look fun d => return (← d.cellsOf flow).length

/-- The text under a range. -/
def text (r : TextRange) : DocumentM String := look fun d => d.textUnder r

/-- Replaces the text under a range, and tells where the new text is. -/
def replace (r : TextRange) (new : String) : DocumentM TextRange :=
  call fun d => do
    let _ ← d.cellsAround r
    return (Document.typedRange r new, d.replaceText r new)

/-- Changes the characters under a range. -/
def modifyCells (r : TextRange) (f : Cell → Cell) : DocumentM Unit :=
  call fun d => do
    let _ ← d.cellsAround r
    return ((), d.modifyCells r f)

/-- Adds direct formatting to the text under a range. -/
def applyFormat (r : TextRange) (format : TextFormat) : DocumentM Unit :=
  modifyCells r (Cell.addFormat format)

/-- Takes direct formatting from the text under a range. -/
def clearFormat (r : TextRange) : DocumentM Unit := modifyCells r Cell.clearFormat

/-- Sets the character style of the text under a range. -/
def setCharacterStyle (r : TextRange) (style : String) : DocumentM Unit :=
  call fun d => do
    if !d.characterStyles.contains style then throw (.undefinedCharacterFormat style)
    let _ ← d.cellsAround r
    return ((), d.modifyCells r (Cell.withCharacterStyle style))

/-- Whether a paragraph style is defined. -/
def hasParagraphStyle (style : String) : DocumentM Bool :=
  see fun d => d.paragraphStyles.contains style

/-- Sets the paragraph style of every paragraph that a range touches. -/
def setParagraphStyle (r : TextRange) (style : String) : DocumentM Unit :=
  call fun d => do
    if !d.paragraphStyles.contains style then throw (.undefinedParagraphFormat style)
    let cells ← d.cellsAround r
    let paragraphs :=
      TextRange.new r.flow (Cells.paragraphStart cells r.start) (Cells.paragraphEnd cells r.stop)
    return ((), d.modifyCells paragraphs (Cell.withParagraphStyle style))

/-- Replaces the text under a range by a field that shows the page of a mark. -/
def insertPageField (r : TextRange) (mark : String) : DocumentM TextRange :=
  call fun d => do
    let _ ← d.cellsAround r
    let shown :=
      match (d.marks.get? mark).bind d.page? with
      | some page => toString page
      | none => "?"
    let field := Document.typedRange r shown
    return (field,
      (d.replaceText r shown).modifyCells field fun c => { c with role := .pageField mark })

/-! ## Reference marks, bookmarks and properties -/

/-- The names of the reference marks, in the order in which they were created. -/
def markNames : DocumentM (List String) := see fun d => d.marks.map Prod.fst

/-- The range of a reference mark. -/
def markRange? (name : String) : DocumentM (Option TextRange) := see fun d => d.marks.get? name

/-- Creates a reference mark. -/
def createMark (name : String) (r : TextRange) : DocumentM Unit :=
  call fun d => do
    let _ ← d.cellsAround r
    if (d.marks.get? name).isSome then
      throw (.creation ("reference mark " ++ name ++ " already exists"))
    return ((), { d with marks := d.marks.put name r })

/-- Removes a reference mark; its text stays. -/
def removeMark (name : String) : DocumentM Unit :=
  call fun d => do
    if (d.marks.get? name).isNone then throw (.wrappedTarget ("no reference mark named " ++ name))
    return ((), { d with marks := d.marks.erase name })

/-- The range of a bookmark. -/
def bookmarkRange? (name : String) : DocumentM (Option TextRange) :=
  see fun d => d.bookmarks.get? name

/-- Creates a bookmark. -/
def createBookmark (name : String) (r : TextRange) : DocumentM Unit :=
  call fun d => do
    let _ ← d.cellsAround r
    if (d.bookmarks.get? name).isSome then
      throw (.creation ("bookmark " ++ name ++ " already exists"))
    return ((), { d with bookmarks := d.bookmarks.put name r })

/-- Removes a bookmark, if it is there. -/
def removeBookmark (name : String) : DocumentM Unit :=
  change fun d => { d with bookmarks := d.bookmarks.erase name }

/-- The names of the properties, in the order in which they were first set. -/
def propertyNames : DocumentM (List String) := see fun d => d.properties.map Prod.fst

/-- The value of a property. -/
def property? (name : String) : DocumentM (Option String) := see fun d => d.properties.get? name

/-- Sets a property. -/
def setProperty (name value : String) : DocumentM Unit :=
  change fun d => { d with properties := d.properties.put name value }

/-- Removes a property, if it is there. -/
def removeProperty (name : String) : DocumentM Unit :=
  change fun d => { d with properties := d.properties.erase name }

/-! ## Footnotes -/

/-- The anchor of a footnote in the body. -/
def footnoteAnchor? (footnote : Nat) : DocumentM (Option TextRange) :=
  see fun d => (d.anchorPlace? footnote).map fun i => .inBody i (i + 1)

/-- The anchors of all footnotes, in the order of the body. -/
def footnoteAnchors : DocumentM (List TextRange) :=
  see fun d => d.anchorPlaces.map fun i => .inBody i (i + 1)

/-- The anchor of the footnote that a range is in; none for a range of the body. -/
def anchorOf? (r : TextRange) : DocumentM (Option TextRange) :=
  match r.flow with
  | .body => return none
  | .footnote id => footnoteAnchor? id

/-! ## The cursor -/

/-- The selection, if it is in the text. -/
def viewCursor? : DocumentM (Option TextRange) :=
  see fun d =>
    match d.selection with
    | .text r => some r
    | _ => none

/-- Selects text. -/
def setViewCursor (r : TextRange) : DocumentM Unit :=
  call fun d => do
    let _ ← d.cellsAround r
    return ((), { d with selection := .text r })

/-- Puts the selection back into the text, at its start, unless it is in a comment. Tells whether
it is in the text now. -/
def restoreSelection : DocumentM Bool :=
  call fun d =>
    match d.selection with
    | .text _ => .ok (true, d)
    | .nothing => .ok (true, { d with selection := .text (.collapsed .body 0) })
    | .comment => .ok (false, d)

/-- The selection, put back into the text once if it is not there. -/
def requireViewCursor : DocumentM TextRange := do
  match ← viewCursor? with
  | some cursor => return cursor
  | none =>
    if ← restoreSelection then
      if let some cursor ← viewCursor? then return cursor
    throw (.cursorUnavailable "the selection is not in the document text")

/-- Moves the cursor to the start of a range, and tells where it is on the screen. -/
def viewPosition (r : TextRange) : DocumentM ScreenPoint :=
  call fun d => do
    let _ ← d.cellsAround r
    return (d.screenPoint r, { d with selection := .text r.startPoint })

/-! ## Undo, screen updates and recorded changes -/

/-- Begins an action that can be undone. -/
def enterUndo (label : String) : DocumentM Unit :=
  change fun d => { d with openActions := label :: d.openActions }

/-- Ends the innermost action. An action inside no other can be undone from then on. -/
def leaveUndo : DocumentM Unit :=
  change fun d =>
    match d.openActions with
    | [] => d
    | [label] => { d with openActions := [], undoHistory := d.undoHistory ++ [label] }
    | _ :: outer => { d with openActions := outer }

/-- Runs an action as one that can be undone. -/
def inUndoGroup (label : String) (action : DocumentM α) : DocumentM α := do
  enterUndo label
  closing action leaveUndo

/-- Suspends screen updates once more. -/
def lockScreen : DocumentM Unit := change fun d => { d with lockDepth := d.lockDepth + 1 }

/-- Suspends screen updates once less. -/
def unlockScreen : DocumentM Unit := change fun d => { d with lockDepth := d.lockDepth - 1 }

/-- Whether screen updates are suspended. -/
def isLocked : DocumentM Bool := see fun d => 0 < d.lockDepth

/-- Runs an action with screen updates suspended. -/
def withLockedScreen (action : DocumentM α) : DocumentM α := do
  lockScreen
  closing action unlockScreen

/-- Whether changes are recorded. -/
def isRecording : DocumentM Bool := see Document.isRecording

/-- How many recorded changes are neither accepted nor rejected. -/
def redlineCount : DocumentM Nat := see Document.redlines

end DocumentM

end DocCite
