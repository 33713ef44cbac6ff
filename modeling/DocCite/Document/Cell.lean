import DocCite.Markup.Format

/-!
# The characters of a document

A document holds characters with attributes. Most are ordinary text; an anchor stands for a
footnote, and a page field shows the page of a reference mark. Characters are laid out on lines of
one width, which gives every place a line and a column.
-/

namespace DocCite

/-- What a character of a document carries beside itself: direct formatting and the names of its
styles. -/
structure CellAttributes where
  format : TextFormat := {}
  characterStyle : Option String := none
  paragraphStyle : Option String := none
  deriving DecidableEq, Repr, Inhabited

/-- What a character of a document stands for. -/
inductive CellRole
  | text
  /-- The anchor of a footnote. -/
  | anchor (footnote : Nat)
  /-- Part of a field that shows the page of a mark. -/
  | pageField (mark : String)
  deriving DecidableEq, Repr, Inhabited

/-- A character of a document. -/
structure Cell where
  char : Char
  attributes : CellAttributes := {}
  role : CellRole := .text
  deriving DecidableEq, Repr, Inhabited

namespace Cell

/-- The character that stands for a footnote. -/
def anchorChar : Char := '*'

/-- Whether a character stands for a footnote. -/
def isAnchor (c : Cell) : Bool :=
  match c.role with
  | .anchor _ => true
  | _ => false

/-- The mark whose page a character shows. -/
def pageOf? (c : Cell) : Option String :=
  match c.role with
  | .pageField mark => some mark
  | _ => none

/-- Adds direct formatting. -/
def addFormat (format : TextFormat) (c : Cell) : Cell :=
  { c with attributes := { c.attributes with format := c.attributes.format.union format } }

/-- Takes direct formatting away. -/
def clearFormat (c : Cell) : Cell := { c with attributes := { c.attributes with format := {} } }

/-- Sets the character style. -/
def withCharacterStyle (style : String) (c : Cell) : Cell :=
  { c with attributes := { c.attributes with characterStyle := some style } }

/-- Sets the paragraph style. -/
def withParagraphStyle (style : String) (c : Cell) : Cell :=
  { c with attributes := { c.attributes with paragraphStyle := some style } }

end Cell

namespace Cells

/-- The characters of a text. -/
def chars (cells : List Cell) : List Char := cells.map Cell.char

/-- The characters of a text, as a string. -/
def text (cells : List Cell) : String := String.ofList (chars cells)

/-! ## Cutting and splicing -/

/-- The characters from one place to another. -/
def slice (cells : List Cell) (start stop : Nat) : List Cell :=
  (cells.take stop).drop start

/-- The text without the characters from one place to another. -/
def cut (cells : List Cell) (start stop : Nat) : List Cell :=
  cells.take start ++ cells.drop stop

/-- The text with new characters at a place. -/
def splice (cells : List Cell) (place : Nat) (new : List Cell) : List Cell :=
  cells.take place ++ new ++ cells.drop place

/-- Changes the characters from one place to another. -/
def modify (f : Cell → Cell) (cells : List Cell) (start stop : Nat) : List Cell :=
  cells.take start ++ (slice cells start stop).map f ++ cells.drop stop

/-- The attributes of text typed at a place: those of the character before it, and at the start
only the paragraph style of the character behind it. -/
def attributesAt (cells : List Cell) (place : Nat) : CellAttributes :=
  match (cells.take place).getLast? with
  | some before => before.attributes
  | none => { paragraphStyle := cells.head?.bind fun c => c.attributes.paragraphStyle }

/-- Text typed at a place. -/
def typed (cells : List Cell) (place : Nat) (new : List Char) : List Cell :=
  new.map fun c => { char := c, attributes := attributesAt cells place }

/-! ## Paragraphs and lines -/

/-- The start of the paragraph that a place is in. -/
def paragraphStart (cells : List Cell) (place : Nat) : Nat :=
  place - ((cells.take place).reverse.takeWhile fun c => c.char ≠ '\n').length

/-- The end of the paragraph that a place is in. -/
def paragraphEnd (cells : List Cell) (place : Nat) : Nat :=
  place + ((cells.drop place).takeWhile fun c => c.char ≠ '\n').length

/-- The line and the column after one more character, on lines of a width. -/
def advance (width : Nat) : Nat × Nat → Cell → Nat × Nat
  | (line, column), c =>
    if c.char = '\n' ∨ column + 1 = max width 1 then (line + 1, 0) else (line, column + 1)

/-- The line and the column after some text. -/
def lineAndColumn (width : Nat) (cells : List Cell) : Nat × Nat :=
  cells.foldl (advance width) (0, 0)

/-! ## Stretches of equal characters -/

/-- The maximal stretches of neighbours that agree in what `f` tells of them, from a place on:
start, end and what they agree in. -/
def stretchesFrom {α : Type} [DecidableEq α] (f : Cell → α) : Nat → List Cell → List (Nat × Nat × α)
  | _, [] => []
  | i, c :: rest =>
    match stretchesFrom f (i + 1) rest with
    | (_, stop, a) :: more =>
      if f c = a then (i, stop, a) :: more else (i, i + 1, f c) :: (i + 1, stop, a) :: more
    | [] => [(i, i + 1, f c)]

/-- The maximal stretches of equal attributes, those without any left out. -/
def attributeStretches (cells : List Cell) : List (Nat × Nat × CellAttributes) :=
  (stretchesFrom Cell.attributes 0 cells).filter fun s => s.2.2 ≠ {}

/-- The fields that show the page of a mark: start, end and the mark. -/
def pageFields (cells : List Cell) : List (Nat × Nat × String) :=
  (stretchesFrom Cell.pageOf? 0 cells).filterMap fun s => s.2.2.map fun mark => (s.1, s.2.1, mark)

end Cells

end DocCite
