import DocCite.Citation.Kind
import DocCite.Text.Letter
import DocCite.Text.Split

/-!
# Names of reference marks

The name of a mark holds the whole citation: a fixed stem, a serial number, the kind and the
cited keys, as in `JR_cite4_1_smith,jones`. The serial is absent on the first group with some
keys and counts up from zero on later ones.
-/

namespace DocCite

/-- What the name of a reference mark says. -/
structure MarkName where
  serial : Option Nat
  kind : CitationKind
  keys : List String
  deriving DecidableEq, Repr

namespace MarkName

/-- The stem of every name. -/
def stem : String := "JR_cite"

/-- The bookmark that covers the bibliography. -/
def bibliographyBookmark : String := "JR_bib"

/-- The collapsed bookmark at the end of the bibliography. -/
def bibliographyEndBookmark : String := "JR_bib_end"

/-- Serial numbers are 32-bit words. -/
def serialBound : Nat := 0x100000000

/-- The three parts of a name after its stem: digits, the digit of the kind, and the keys with
commas between, which stay in one line. -/
def split? (name : List Char) : Option (List Char × CitationKind × List Char) := do
  let body ← Text.after? stem.toList name
  let digits := body.takeWhile Text.isDecimalDigit
  match body.dropWhile Text.isDecimalDigit with
  | '_' :: digit :: '_' :: keys =>
    if keys.contains '\n' then none
    else
      match digit with
      | '1' => some (digits, .parenthetical, keys)
      | '2' => some (digits, .inText, keys)
      | '3' => some (digits, .invisible, keys)
      | _ => none
  | _ => none

/-- Whether a name has the form of the name of a citation mark. -/
def isMark (name : String) : Bool := (split? name.toList).isSome

/-- The number that decimal digits denote. -/
def ofDigits (digits : List Char) : Nat :=
  digits.foldl (fun n c => 10 * n + (c.toNat - 48)) 0

/-- The serial that digits denote: none for no digits, and an error for digits of another script
or a number that is too large. -/
def serial? (digits : List Char) : Option (Option Nat) :=
  if digits.isEmpty then some none
  else if digits.all Text.isAsciiDigit && ofDigits digits < serialBound then
    some (some (ofDigits digits))
  else none

/-- Reads the name of a mark; a name with an empty key says nothing. -/
def parse? (name : String) : Option MarkName := do
  let (digits, kind, keys) ← split? name.toList
  let serial ← serial? digits
  let parts := Text.splitOn ',' keys
  if parts.any List.isEmpty then none else some ⟨serial, kind, parts.map String.ofList⟩

/-- Writes the name of a mark. -/
def render (n : MarkName) : String :=
  stem ++ (match n.serial with | some i => toString i | none => "") ++ "_" ++
    toString n.kind.code ++ "_" ++ ",".intercalate n.keys

/-- A name for a new mark that is not among the used ones: without serial if that is free,
otherwise with the smallest free serial. One of the first `used.length + 1` serials is free, unless
all serials there are have been used; then it is the name without serial again. -/
def fresh (keys : List String) (kind : CitationKind) (used : List String) : String :=
  let candidate := fun serial => render ⟨serial, kind, keys⟩
  if !used.contains (candidate none) then candidate none
  else
    let serials := List.range (min (used.length + 1) serialBound)
    match serials.find? fun i => !used.contains (candidate (some i)) with
    | some i => candidate (some i)
    | none => candidate none

end MarkName

end DocCite
