import DocCite.Document.Cell
import DocCite.Document.LiveRange
import DocCite.Keyed

/-!
# Documents

A document is a body, footnotes anchored in it, and ranges that move with the text: named
reference marks, named bookmarks and the selection. It also keeps named properties, the names of
its styles, a record of undoable actions, and the state of its connection. This file says what
typing and deleting do to a document; the operations that go over the connection are built from
that.
-/

namespace DocCite

/-- Whether operations still reach a document. -/
inductive Connection
  | steady
  /-- A connection that breaks after so many operations. -/
  | failingAfter (operations : Nat)
  | lost
  deriving DecidableEq, Repr, Inhabited

/-- The connection after one more operation; none if the operation does not get through. -/
def Connection.spend? : Connection → Option Connection
  | steady => some steady
  | failingAfter 0 => none
  | failingAfter (n + 1) => some (failingAfter n)
  | lost => none

/-- What the user has selected. -/
inductive Selection
  | text (range : TextRange)
  /-- A place without text, like a comment, from which the cursor does not come back. -/
  | comment
  | nothing
  deriving DecidableEq, Repr

/-- A document of a word processor. -/
structure Document where
  title : String
  connection : Connection := .steady
  body : List Cell := []
  /-- The footnotes in the order in which they came in; the first has the number one. -/
  footnotes : List (List Cell) := []
  marks : Keyed String TextRange := []
  bookmarks : Keyed String TextRange := []
  properties : Keyed String String := []
  characterStyles : List String := ["Standard", "Default Style"]
  paragraphStyles : List String :=
    ["Standard", "Default Paragraph Style", "Heading 1", "Text body"]
  selection : Selection := .text (.collapsed .body 0)
  /-- The labels of the actions under way, innermost first. -/
  openActions : List String := []
  /-- The labels of the actions that can be undone, oldest first. -/
  undoHistory : List String := []
  /-- How often screen updates are suspended. -/
  lockDepth : Nat := 0
  isRecording : Bool := false
  /-- How many recorded changes are neither accepted nor rejected. -/
  redlines : Nat := 0
  lineWidth : Nat := 60
  linesPerPage : Nat := 40
  deriving DecidableEq, Repr

/-- A place on the screen. -/
structure ScreenPoint where
  x : Nat
  y : Nat
  deriving DecidableEq, Repr

namespace Document

/-! ## The text of a document -/

/-- The characters of a flow, if it is there. -/
def cells? (d : Document) : Flow → Option (List Cell)
  | .body => some d.body
  | .footnote 0 => none
  | .footnote (n + 1) => d.footnotes[n]?

/-- Changes the characters of a flow. -/
def editCells (d : Document) (flow : Flow) (f : List Cell → List Cell) : Document :=
  match flow with
  | .body => { d with body := f d.body }
  | .footnote 0 => d
  | .footnote (n + 1) => { d with footnotes := d.footnotes.modify n f }

/-- The characters of a flow, or the error that it is not there. -/
def cellsOf (d : Document) (flow : Flow) : Except DocumentError (List Cell) :=
  match d.cells? flow with
  | some cells => .ok cells
  | none => .error (.illegalArgument ("no " ++ flow.name))

/-- The characters of the flow of a range, or the error that the range is not inside them. -/
def cellsAround (d : Document) (r : TextRange) : Except DocumentError (List Cell) := do
  let cells ← d.cellsOf r.flow
  if r.stop ≤ cells.length then return cells
  throw (.illegalArgument
    ("range " ++ r.display ++ " is outside the text (length " ++ toString cells.length ++ ")"))

/-- The text under a range. -/
def textUnder (d : Document) (r : TextRange) : Except DocumentError String := do
  return Cells.text (Cells.slice (← d.cellsAround r) r.start r.stop)

/-- Changes the characters under a range. -/
def modifyCells (d : Document) (r : TextRange) (f : Cell → Cell) : Document :=
  d.editCells r.flow fun cells => Cells.modify f cells r.start r.stop

/-! ## Typing and deleting -/

/-- Moves the ranges of a flow, each as its holder asks. -/
def relocate (d : Document) (flow : Flow) (f : RangeHolder → TextRange → TextRange) : Document :=
  let move := fun holder (r : TextRange) => if r.flow = flow then f holder r else r
  { d with
    marks := d.marks.map fun m => (m.1, move .mark m.2)
    bookmarks := d.bookmarks.map fun b => (b.1, move .bookmark b.2)
    selection :=
      match d.selection with
      | .text r => .text (move .selection r)
      | other => other }

/-- Puts characters into a flow; what is at their place moves behind them. -/
def spliceCells (d : Document) (flow : Flow) (place : Nat) (new : List Cell) : Document :=
  (d.editCells flow fun cells => Cells.splice cells place new).relocate flow fun holder r =>
    r.afterTyping holder ⟨place, new.length, new.any fun c => c.char = '\n'⟩

/-- Types text at a place; it takes the attributes of what is before it. -/
def type (d : Document) (flow : Flow) (place : Nat) (text : String) : Document :=
  d.spliceCells flow place (Cells.typed ((d.cells? flow).getD []) place text.toList)

/-- Whether deleting the text under a range takes a bookmark with it: all of its text goes. -/
def isDeletedWith (deleted bookmark : TextRange) : Bool :=
  !bookmark.isEmpty && deleted.contains bookmark

/-- Deletes the text under a range, and the bookmarks that lose all their text. -/
def delete (d : Document) (r : TextRange) : Document :=
  if r.isEmpty then d
  else
    ({ (d.editCells r.flow fun cells => Cells.cut cells r.start r.stop) with
        bookmarks := d.bookmarks.filter fun b => !isDeletedWith r b.2 }).relocate r.flow
      fun _ range => range.afterDeleting r.start r.stop

/-- The range of text typed at the start of a range. -/
def typedRange (r : TextRange) (text : String) : TextRange :=
  .new r.flow r.start (r.start + text.length)

/-- Replaces the text under a range. -/
def replaceText (d : Document) (r : TextRange) (text : String) : Document :=
  (d.delete r).type r.flow r.start text

/-! ## Building a document -/

/-- Types text at the end of the body. -/
def append (d : Document) (text : String) : Document := d.type .body d.body.length text

/-- A document with a body; the cursor is at its end. -/
def ofText (title text : String) : Document := Document.append { title := title } text

/-- Adds a footnote, anchored at a place of the body or at its end. -/
def addFootnote (d : Document) (place : Nat) (text : String) : Document :=
  let anchor : Cell := { char := Cell.anchorChar, role := .anchor (d.footnotes.length + 1) }
  let cells := text.toList.map fun c =>
    { char := c, attributes := { paragraphStyle := some "Standard" } : Cell }
  { d.spliceCells .body (min place d.body.length) [anchor] with
    footnotes := d.footnotes ++ [cells] }

/-- Loses the connection after so many operations; a lost one stays lost. -/
def failAfter (d : Document) (operations : Nat) : Document :=
  { d with connection := if d.connection = .lost then .lost else .failingAfter operations }

/-! ## Where things are -/

/-- The place of the anchor of a footnote in the body. -/
def anchorPlace? (d : Document) (footnote : Nat) : Option Nat :=
  d.body.findIdx? fun c => c.role == .anchor footnote

/-- The places of all anchors in the body. -/
def anchorPlaces (d : Document) : List Nat :=
  (List.range d.body.length).filter fun i => d.body[i]?.any Cell.isAnchor

/-- The line and the column of a place of the body. -/
def bodyPosition (d : Document) (place : Nat) : Nat × Nat :=
  Cells.lineAndColumn d.lineWidth (d.body.take place)

/-- The page of a range; a footnote is on the page of its anchor. -/
def page? (d : Document) (r : TextRange) : Option Nat :=
  let place :=
    match r.flow with
    | .body => some r.start
    | .footnote n => d.anchorPlace? n
  place.map fun p => (d.bodyPosition p).1 / max d.linesPerPage 1 + 1

/-- The line and the column where a range starts. Footnotes are below the lines of the body of
their page. -/
def position (d : Document) (r : TextRange) : Nat × Nat :=
  match r.flow with
  | .body => d.bodyPosition r.start
  | .footnote _ =>
    let (line, column) :=
      Cells.lineAndColumn d.lineWidth (((d.cells? r.flow).getD []).take r.start)
    ((d.page? r).getD 1 * d.linesPerPage + line, column)

/-- The place on the screen where a range starts: characters are ten units wide and lines twenty
units high. -/
def screenPoint (d : Document) (r : TextRange) : ScreenPoint :=
  let (line, column) := d.position r
  ⟨10 * column, 20 * line⟩

end Document

end DocCite
