import DocCite.Document.Operation
import DocCite.Markup.Runs
import DocCite.Text.Blank
import DocCite.Text.Split

/-!
# Ways of editing

Reference marks take in text typed at their ends, unless it breaks the paragraph. New text beside
a mark is therefore typed between two paragraph breaks, which are deleted again.
-/

namespace DocCite.DocumentM

/-- The invisible character that holds a mark open while it is filled: a space without width. -/
def placeholder : Char := '\u200b'

/-- The placeholders of an empty mark, one for each end. -/
def placeholders : String := String.ofList [placeholder, placeholder]

/-- The text without placeholders. -/
def withoutPlaceholders (s : String) : String :=
  String.ofList (s.toList.filter fun c => c ≠ placeholder)

/-- Types spaces at the start of a range, and no mark takes them in. -/
def insertSpaces (place : TextRange) (count : Nat) : DocumentM TextRange := do
  let flow := place.flow
  let p := place.start
  let _ ← replace place.startPoint "\n\n"
  let _ ← replace (.collapsed flow (p + 1)) (String.ofList (List.replicate count ' '))
  let _ ← replace (.new flow (p + 1 + count) (p + 2 + count)) ""
  let _ ← replace (.new flow p (p + 1)) ""
  return .new flow p (p + count)

/-- Creates a reference mark at the start of a range, over placeholders or, if `bare`, over
nothing. It is created between two new spaces, so that it stays apart from its neighbours. The
space before it is deleted then, and the one after it unless it is to stay. -/
def placeMark (name : String) (place : TextRange) (spaceAfter bare : Bool) :
    DocumentM TextRange := do
  let flow := place.flow
  let p := place.start
  let _ ← insertSpaces place 2
  let inserted ← replace (.collapsed flow (p + 1)) (if bare then "" else placeholders)
  createMark name inserted
  let _ ← replace (.new flow p (p + 1)) ""
  if !spaceAfter then
    let _ ← replace (.new flow (p + inserted.length) (p + inserted.length + 1)) ""
  match ← markRange? name with
  | some r => return r
  | none => throw (.creation ("reference mark " ++ name ++ " was not created"))

/-- Applies the formats of runs to the text from a place on. -/
def formatRuns (flow : Flow) : Nat → List Markup.Run → DocumentM Unit
  | _, [] => return
  | p, run :: rest => do
    let next := p + run.text.length
    if !run.format.isPlain then applyFormat (.new flow p next) run.format
    formatRuns flow next rest

/-- Replaces the text under a range by markup, and tells where the new text is. -/
def writeMarkup (r : TextRange) (markup : String) : DocumentM TextRange := do
  let runs := Markup.runs markup
  let written ← replace r (String.join (runs.map Markup.Run.text))
  if written.isEmpty then return written
  clearFormat written
  formatRuns written.flow written.start runs
  return written

/-- Makes every occurrence of a text under a range italic. -/
def italicize (r : TextRange) (piece : String) : DocumentM Unit := do
  let piece := Text.trim piece.toList
  if piece.isEmpty then return
  let found := Text.occurrences piece (← text r).toList
  found.forM fun i =>
    applyFormat (.new r.flow (r.start + i) (r.start + i + piece.length)) { italic := true }

/-- Fails if a character style is not defined. The style is tried on a character typed at the start
of a range, which is deleted again. -/
def checkCharacterStyle (place : TextRange) (style : String) : DocumentM Unit := do
  let probe ← replace place.startPoint "x"
  let outcome ← attempt (setCharacterStyle probe style)
  let _ ← replace probe ""
  liftExcept outcome

end DocCite.DocumentM
