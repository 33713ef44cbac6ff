import DocCite.Document.Operation

/-!
# The order in which a document is read

Items of a document are ordered by where they are on the screen, from top to bottom and from left
to right. What is in a footnote stands where the footnote is anchored; footnotes without an anchor
come after the body, one after another.
-/

namespace DocCite

/-- An item with its range, and with the range that it is ordered by. -/
structure PlacedItem (α : Type) where
  item : α
  range : TextRange
  /-- The range itself, or the anchor of the footnote it is in. -/
  sortRange : TextRange
  deriving DecidableEq, Repr

/-- Whether a list comes no later than another one, compared element by element. -/
def lexLE {α : Type} [BEq α] (lt : α → α → Bool) (a b : List α) : Bool := !b.lex a lt

/-- The order of the text: by the range that counts, and inside a footnote by the range itself. -/
def PlacedItem.key {α : Type} (p : PlacedItem α) : List Nat :=
  [p.sortRange.start, p.sortRange.stop, p.range.start, p.range.stop]

/-- The items of each flow, sorted as in the text: those of the body first, the rest in the order
in which their flows first occur. -/
def PlacedItem.inTextOrder {α : Type} (items : List (PlacedItem α)) :
    List (List (PlacedItem α)) :=
  let parts := TextRange.partitionByFlow (items.map fun p => (p.sortRange, p))
  let bodyFirst := parts.filter (·.1 = .body) ++ parts.filter (·.1 ≠ .body)
  bodyFirst.map fun part => (part.2.map Prod.snd).mergeSort fun a b => lexLE (· < ·) a.key b.key

namespace DocumentM

variable {α : Type}

/-- An item with the range that it is ordered by. -/
def placeItem (item : TextRange × α) : DocumentM (PlacedItem α) := do
  match ← anchorOf? item.1 with
  | some anchor => return ⟨item.2, item.1, anchor⟩
  | none => return ⟨item.2, item.1, item.1⟩

/-- Sorts items of one flow by where they are on the screen; those at one place stay as they
were. -/
def sortByScreen (items : List (PlacedItem α)) : DocumentM (List α) := do
  let placed ← items.mapM fun p => return (← viewPosition p.sortRange.startPoint, p.item)
  return (placed.mergeSort fun a b => lexLE (· < ·) [a.1.y, a.1.x] [b.1.y, b.1.x]).map Prod.snd

/-- Orders items by where they are on the screen, flow by flow. The cursor moves along. -/
def orderByScreen (items : List (TextRange × α)) : DocumentM (List α) := do
  let placed ← items.mapM placeItem
  return (← (PlacedItem.inTextOrder placed).mapM sortByScreen).flatten

/-- The items in the order in which they are read. The cursor is put back where it was. -/
def readingOrder (items : List (TextRange × α)) : DocumentM (List α) := do
  if items.isEmpty then return []
  let saved ← requireViewCursor
  closing (orderByScreen items) (setViewCursor saved)

end DocumentM

end DocCite
