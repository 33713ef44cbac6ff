import DocCite.Keyed
import DocCite.Text.Letter
import DocCite.Text.Split

/-!
# Data of configuration files

A file in a data format is read as a tree of scalars, lists and maps. Records are read from such
trees by the names of their fields: a field may be absent, an unknown one is ignored, a field
given twice is refused.

An undecided scalar is one whose type is settled by whoever reads it: as a text it is its own
characters, as a truth value or a number it must be spelled as one. A tag names a type or, after an
exclamation mark, a choice.
-/

namespace DocCite

/-- A tree of data. -/
inductive Datum
  | null
  | bool (b : Bool)
  /-- A number; its value is known if it is a natural number. -/
  | number (n : Option Nat)
  | text (s : String)
  /-- A scalar without quotes, whose type is open. -/
  | undecided (s : String)
  /-- A scalar written as a block of lines, whose type is that of its tag. -/
  | block (s : String)
  | tagged (tag : String) (d : Datum)
  /-- A list; `positional` says whether it can also stand for a record. -/
  | list (positional : Bool) (items : List Datum)
  | map (pairs : List (String × Datum))
  /-- A value that no field can hold, though it can be passed over. -/
  | unusable
  deriving Repr, Inhabited

namespace Datum

/-- The largest natural number that a field can hold. -/
def wordBound : Nat := 0x10000000000000000

/-- The value of a digit in a base of at most sixteen. -/
def digitValue? (base : Nat) (c : Char) : Option Nat :=
  let n := c.toNat
  let v :=
    if Text.isAsciiDigit c then n - 48
    else if 97 ≤ n && n ≤ 102 then n - 87
    else if 65 ≤ n && n ≤ 70 then n - 55
    else 16
  if v < base then some v else none

/-- The number that digits of a base denote, if it fits a word. -/
def digits? (base : Nat) (s : List Char) : Option Nat :=
  if s.isEmpty then none
  else
    match s.foldl (fun acc c => do return base * (← acc) + (← digitValue? base c)) (some 0) with
    | some n => if n < wordBound then some n else none
    | none => none

/-- Reads an undecided scalar as a natural number: an optional plus sign and digits of base ten
without leading zeros, or a marked base. -/
def natOfScalar? (s : List Char) : Option Nat :=
  let unsigned := if s.head? = some '+' then s.drop 1 else s
  match unsigned with
  | '0' :: 'x' :: rest => digits? 16 rest
  | '0' :: 'o' :: rest => digits? 8 rest
  | '0' :: 'b' :: rest => digits? 2 rest
  | '0' :: _ :: _ => none
  | _ => digits? 10 unsigned

/-- The spellings of an absent scalar that is not empty. -/
def isNullWord (s : String) : Bool := ["~", "null", "Null", "NULL"].contains s

/-- The spellings of an absent scalar. -/
def isNullScalar (s : String) : Bool := s.isEmpty || isNullWord s

/-- The tag of the type that a word names. -/
def typeTag (word : String) : String := "tag:yaml.org,2002:" ++ word

/-- A map of keys of which some may be no texts. -/
def ofPairs (pairs : List (Option String × Datum)) : Datum :=
  match pairs.mapM fun p => p.1.map fun key => (key, p.2) with
  | some pairs => map pairs
  | none => unusable

/-- The datum as a text. -/
def text? : Datum → Option String
  | text s | undecided s | block s => some s
  | tagged _ d => text? d
  | _ => none

/-- The datum as a text that may be absent. A tag makes a text of whatever it stands at, unless it
is the tag of what is absent. -/
def optionalText? : Datum → Option (Option String)
  | null => some none
  | undecided s => some (if isNullScalar s then none else some s)
  | tagged tag (undecided s) =>
    if tag = typeTag "null" then if isNullWord s then some none else none else some (some s)
  | d => d.text?.map some

/-- The characters of a scalar that is to be read as a value of the type that a word names: those
of an undecided scalar, or of a block with the tag of that type. -/
def spelling? (word : String) : Datum → Option String
  | undecided s => some s
  | tagged _ (undecided s) => some s
  | tagged tag (block s) => if tag = typeTag word then some s else none
  | _ => none

/-- The datum as a truth value. -/
def bool? : Datum → Option Bool
  | bool b => some b
  | d => do
    let s ← d.spelling? "bool"
    if ["true", "True", "TRUE"].contains s then some true
    else if ["false", "False", "FALSE"].contains s then some false
    else none

/-- The datum as a natural number. -/
def nat? : Datum → Option Nat
  | number n => n
  | d => (d.spelling? "int").bind fun s => natOfScalar? s.toList

/-- The datum as a list. An empty scalar is an empty list. -/
def list? : Datum → Option (List Datum)
  | list _ items => some items
  | undecided "" => some []
  | tagged _ d => list? d
  | _ => none

/-- The datum as a map, pair by pair. An empty scalar is an empty map. -/
def map? : Datum → Option (List (String × Datum))
  | map pairs => some pairs
  | undecided "" => some []
  | tagged _ d => map? d
  | _ => none

/-- The datum as one of several named choices: its name as a text, as the key of an absent value or
as the tag of one. -/
def choice? {α : Type} (choices : List (String × α)) (d : Datum) : Option α :=
  match d with
  | map [(s, null)] => choices.lookup s
  | tagged tag value =>
    if tag.toList.head? = some '!' then
      match value with
      | undecided s =>
        if isNullScalar s then choices.lookup (String.ofList (tag.toList.drop 1)) else none
      | _ => none
    else value.text?.bind fun s => choices.lookup s
  | _ => d.text?.bind fun s => choices.lookup s

/-- The datum as a record with the named fields, in their order; the result has the value of
each field that is given. A field given twice is refused, as is a list that is too long. -/
def record? (names : List String) : Datum → Option (List (Option Datum))
  | list true items =>
    if items.length ≤ names.length then
      some (names.zipIdx.map fun (_, i) => items[i]?)
    else none
  | d =>
    match d.map? with
    | none => none
    | some pairs =>
      if names.any fun name => 1 < (pairs.filter fun p => p.1 = name).length then none
      else some (names.map fun name => pairs.lookup name)

/-- The value of a field that may be absent, given how to read it and what it is otherwise. -/
def fieldOr {α : Type} (read : Datum → Option α) (fallback : α) : Option Datum → Option α
  | none => some fallback
  | some d => read d

/-- The items of a list, each read in the same way. -/
def readAll {α : Type} (read : Datum → Option α) (items : List Datum) : Option (List α) :=
  items.mapM read

end Datum

end DocCite
