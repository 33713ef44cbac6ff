import DocCite.Marker.AuthorYear

/-!
# Markers of numbers and of keys

A marker of numbers lists each number once; numbers that follow one another become a range where
enough of them stand together. A marker of keys lists citation keys.
-/

namespace DocCite.Marker

/-- What a marker of numbers lists. -/
inductive NumericItem
  | number (n : Nat)
  | unresolved (key : String)
  deriving DecidableEq, Repr

/-- A part of a marker of numbers: an item by itself, or a range of numbers. -/
inductive NumericPart
  | item (item : NumericItem)
  | range (first last : Nat)
  deriving DecidableEq, Repr

/-- How many items at the front of a list are the numbers that follow a number, one by one. -/
def following (n : Nat) : List NumericItem → Nat
  | .number m :: rest => if m = n + 1 then following m rest + 1 else 0
  | _ => 0

/-- The parts for items of which the first ones, as many as `done`, are in a range already. A number
starts a range if it and those that follow it are at least two and at least as many as `least`. -/
def numericParts (least : Nat) : Nat → List NumericItem → List NumericPart
  | _, [] => []
  | done + 1, _ :: rest => numericParts least done rest
  | 0, .unresolved key :: rest => .item (.unresolved key) :: numericParts least 0 rest
  | 0, .number n :: rest =>
    let more := following n rest
    if 2 ≤ least ∧ least ≤ more + 1 then .range n (n + more) :: numericParts least more rest
    else .item (.number n) :: numericParts least 0 rest

/-- An item as it stands in a marker. -/
def NumericItem.text : NumericItem → String
  | .number n => toString n
  | .unresolved key => Marker.unresolved key

/-- A part as it stands in a marker. -/
def NumericPart.text (style : Style) : NumericPart → String
  | .item i => i.text
  | .range first last =>
    toString first ++ Markup.escape style.groupedNumbersSeparator ++ toString last

/-- The marker for numbers in the order given; a repeated item counts where it is first. -/
def numeric (style : Style) (items : List NumericItem) (inList : Bool) : String :=
  let parts := (numericParts style.minimumGroupingCount 0 items.eraseDups).map
    (NumericPart.text style)
  let (before, after) :=
    if inList then (style.bracketBeforeInList, style.bracketAfterInList)
    else (style.bracketBefore, style.bracketAfter)
  Markup.escape before ++ (Markup.escape style.citationSeparator).intercalate parts ++
    Markup.escape after

/-- The marker that shows citation keys. -/
def citationKeys (style : Style) (keys : List String) : String :=
  bracketed style ((Markup.escape style.citationSeparator).intercalate (keys.map Markup.escape))

end DocCite.Marker
