import DocCite.Document.Error

/-!
# Ranges of text

The body of a document and each footnote is a flow of characters. A range is a stretch of one
flow, given by the places before its first character and after its last one. Ranges of different
flows cannot be compared.
-/

namespace DocCite

/-- A text of its own: the body of a document, or a footnote. -/
inductive Flow
  | body
  | footnote (id : Nat)
  deriving DecidableEq, Repr, Inhabited

/-- The name of a flow. -/
def Flow.name : Flow → String
  | body => "body"
  | footnote id => "footnote " ++ toString id

/-- A stretch of a flow, from before the character `start` to before the character `stop`. -/
structure TextRange where
  flow : Flow
  start : Nat
  stop : Nat
  start_le_stop : start ≤ stop := by omega
  deriving DecidableEq, Repr

namespace TextRange

/-- The range between two places, in either order. -/
def new (flow : Flow) (a b : Nat) : TextRange := ⟨flow, min a b, max a b, by omega⟩

/-- The empty range at a place. -/
def collapsed (flow : Flow) (place : Nat) : TextRange := ⟨flow, place, place, Nat.le_refl _⟩

/-- A range of the body. -/
def inBody (a b : Nat) : TextRange := new .body a b

/-- How many characters a range covers. -/
def length (r : TextRange) : Nat := r.stop - r.start

/-- Whether a range covers no character. -/
def isEmpty (r : TextRange) : Bool := r.start == r.stop

/-- The empty range at the start. -/
def startPoint (r : TextRange) : TextRange := collapsed r.flow r.start

/-- The empty range at the end. -/
def endPoint (r : TextRange) : TextRange := collapsed r.flow r.stop

/-- The text of a range. -/
def display (r : TextRange) : String :=
  r.flow.name ++ "[" ++ toString r.start ++ ".." ++ toString r.stop ++ "]"

/-- Whether two ranges are in one flow. -/
def sameFlow (a b : TextRange) : Bool := a.flow == b.flow

/-- Whether one range covers another. -/
def contains (a b : TextRange) : Bool := a.sameFlow b && a.start ≤ b.start && b.stop ≤ a.stop

/-- Whether two ranges share a character, or one is empty and strictly inside the other. -/
def intersects (a b : TextRange) : Bool :=
  a.sameFlow b &&
    match a.isEmpty, b.isEmpty with
    | false, false => a.start < b.stop && b.start < a.stop
    | true, false => b.start < a.start && a.start < b.stop
    | false, true => a.start < b.start && b.start < a.stop
    | true, true => false

/-- The error that two ranges cannot be compared. -/
def incomparable (a b : TextRange) : DocumentError :=
  .illegalArgument ("ranges " ++ a.display ++ " and " ++ b.display ++ " are in different flows")

/-- The range from the start of one range to the end of another. -/
def through (a b : TextRange) : Except DocumentError TextRange :=
  if a.sameFlow b then .ok (new a.flow a.start b.stop) else .error (a.incomparable b)

/-- Compares the starts of two ranges. -/
def compareStarts (a b : TextRange) : Except DocumentError Ordering :=
  if a.sameFlow b then .ok (compare a.start b.start) else .error (a.incomparable b)

/-- Compares the ends of two ranges. -/
def compareEnds (a b : TextRange) : Except DocumentError Ordering :=
  if a.sameFlow b then .ok (compare a.stop b.stop) else .error (a.incomparable b)

/-- Compares the starts of two ranges, and then their ends. -/
def compareBoth (a b : TextRange) : Except DocumentError Ordering := do
  return (← a.compareStarts b).then (← a.compareEnds b)

/-! ## Ranges in each other's way -/

/-- Items with their ranges, flow by flow, in the order in which the flows first occur. -/
def partitionByFlow {α : Type} (items : List (TextRange × α)) :
    List (Flow × List (TextRange × α)) :=
  ((items.map fun item => item.1.flow).eraseDups).map fun flow =>
    (flow, items.filter fun item => item.1.flow = flow)

/-- How two ranges are in each other's way. -/
inductive OverlapKind
  | equal
  | overlap
  | touch
  deriving DecidableEq, Repr

/-- The word for a kind of overlap. -/
def OverlapKind.name : OverlapKind → String
  | equal => "EQUAL"
  | overlap => "OVERLAP"
  | touch => "TOUCH"

/-- Two items whose ranges are in each other's way. -/
structure Overlap (α : Type) where
  kind : OverlapKind
  first : α
  second : α
  deriving DecidableEq, Repr

/-- How a range is in the way of one that starts no earlier. -/
def overlapKind? (touching : Bool) (earlier later : TextRange) : Option OverlapKind :=
  if earlier.start = later.start ∧ earlier.stop = later.stop then some .equal
  else if later.start < earlier.stop then some .overlap
  else if later.start = earlier.stop ∧ touching then some .touch
  else none

/-- The order by starts and then by ends. -/
def startsBefore {α : Type} (a b : TextRange × α) : Bool :=
  a.1.start < b.1.start || (a.1.start == b.1.start && a.1.stop ≤ b.1.stop)

/-- Scans the sorted items of one flow, each against the item before it that reaches furthest, and
adds to what was found before. Where there would be more than the limit the scan ends with an error,
which is what has been found. -/
def scanFlow {α : Type} (touching : Bool) (limit : Nat) :
    Option (TextRange × α) → List (Overlap α) → List (TextRange × α) →
      Except (List (Overlap α)) (List (Overlap α))
  | _, found, [] => .ok found
  | none, found, item :: rest => scanFlow touching limit (some item) found rest
  | some widest, found, item :: rest =>
    let next := if widest.1.stop ≤ item.1.stop then item else widest
    match overlapKind? touching widest.1 item.1 with
    | none => scanFlow touching limit (some next) found rest
    | some kind =>
      if limit ≤ found.length then .error found
      else scanFlow touching limit (some next) (found ++ [⟨kind, widest.2, item.2⟩]) rest

/-- The overlaps among items, flow by flow, at most `limit` of them. -/
def findOverlaps {α : Type} (items : List (TextRange × α)) (touching : Bool) (limit : Nat) :
    List (Overlap α) :=
  let flows := (partitionByFlow items).map fun part => part.2.mergeSort startsBefore
  match flows.foldlM (scanFlow touching limit none) [] with
  | .ok found => found
  | .error found => found

end TextRange

end DocCite
