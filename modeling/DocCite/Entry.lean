import DocCite.Keyed
import DocCite.Text.Blank
import DocCite.Text.Case
import DocCite.Text.Letter

/-!
# Bibliographic entries

An entry has a citation key, a type and fields. Names of fields are looked up in lowercase, and
a blank field counts as absent. Some names stand for one another, and a year can be read off a
date.
-/

namespace DocCite

/-- A bibliographic entry; the fields keep the order in which they were first set. -/
structure Entry where
  key : Option String := none
  type : String := ""
  fields : Keyed String String := []
  deriving DecidableEq, Repr, Inhabited

namespace Entry

/-- An entry without fields. -/
def new (key type : String) : Entry := { key := some key, type := lowercase type }

/-- Sets a field; its name counts in lowercase. -/
def setField (e : Entry) (name value : String) : Entry :=
  { e with fields := e.fields.put (lowercase name) value }

/-- Sets fields one after another. -/
def setFields (e : Entry) (fields : List (String × String)) : Entry :=
  fields.foldl (fun e f => e.setField f.1 f.2) e

/-- The citation key; an empty one counts as absent. -/
def citationKey (e : Entry) : Option String := e.key.filter (· ≠ "")

/-- The value of a field as it stands. A blank value counts as absent. -/
def field (e : Entry) (name : String) : Option String :=
  (e.fields.get? (lowercase name)).filter fun v => !isBlankText v

/-- The key of the entry this one inherits from. -/
def crossref (e : Entry) : Option String := e.field "crossref"

/-- The year of a date: four digits at its start. -/
def yearOfDate (date : String) : Option String :=
  let digits := (Text.trim date.toList).takeWhile Text.isAsciiDigit
  if digits.length = 4 then some (String.ofList digits) else none

/-- The field that stands in for a missing one. -/
def alias? (name : String) : Option String :=
  match name with
  | "journal" => some "journaltitle"
  | "journaltitle" => some "journal"
  | "address" => some "location"
  | "location" => some "address"
  | "school" => some "institution"
  | "institution" => some "school"
  | "date" => some "year"
  | _ => none

/-- The value of a field, or of the one that stands in for it. -/
def fieldOrAlias (e : Entry) (name : String) : Option String :=
  let name := lowercase name
  match e.field name with
  | some value => some value
  | none =>
    if name = "year" then (e.field "date").bind yearOfDate
    else (alias? name).bind e.field

/-- What an entry hands down to those that name it in a `crossref`: a title becomes the title of
the book, and titles and keys are not handed down as such. -/
def handedDown (parent : Entry) (name : String) : Option String :=
  match lowercase name with
  | "booktitle" => (parent.fieldOrAlias "title").or (parent.fieldOrAlias "booktitle")
  | "title" | "crossref" | "key" => none
  | other => parent.fieldOrAlias other

/-- The entry as a record of a BibTeX file. -/
def toBibtex (e : Entry) : String :=
  "@" ++ e.type ++ "\x7b" ++ e.key.getD "" ++
    String.join (e.fields.map fun f => ",\n  " ++ f.1 ++ " = \x7b" ++ f.2 ++ "\x7d") ++
    "\n\x7d\n"

end Entry

end DocCite
