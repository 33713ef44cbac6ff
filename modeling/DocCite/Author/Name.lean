import DocCite.Text.Blank
import DocCite.Text.Split

/-!
# Names of authors

A name has four optional parts. It is printed family name first or given name first, and given
names shrink to initials. A list of names is printed with `and` between them, the form in which
it is also stored.
-/

namespace DocCite

/-- A personal or corporate name: given names, a lowercase particle, the family name and what
follows it. -/
structure Author where
  first : Option String := none
  von : Option String := none
  last : Option String := none
  jr : Option String := none
  deriving DecidableEq, Repr, Inhabited

namespace Author

/-- The family name with its particle. -/
def family (a : Author) : String := " ".intercalate (a.von.toList ++ a.last.toList)

/-- One given name as initials; the pieces around a hyphen keep it. -/
def initials (part : List Char) : List Char :=
  Text.join ['-'] ((Text.splitOn '-' part).filterMap fun piece =>
    piece.head?.map fun c => [c, '.'])

/-- Given names reduced to initials. -/
def abbreviate (first : String) : String :=
  String.ofList (Text.join [' '] ((Text.words first.toList).map initials))

/-- The given names reduced to initials. -/
def abbreviatedFirst (a : Author) : Option String := a.first.map abbreviate

/-- The parts after the family name, each with the comma before it. -/
def afterComma (part : Option String) : String :=
  match part with
  | some text => ", " ++ text
  | none => ""

/-- Family name, what follows it, and given names, with commas between. -/
def lastFirst (abbreviated : Bool) (a : Author) : String :=
  a.family ++ afterComma a.jr ++
    afterComma (if abbreviated then a.abbreviatedFirst else a.first)

/-- Given names, family name, and after a comma what follows it. -/
def firstLast (a : Author) : String :=
  " ".intercalate (a.first.toList ++ (if a.family = "" then [] else [a.family])) ++
    afterComma a.jr

/-! ## Lists of names -/

/-- The names family name first, with `and` between them. -/
def listLastFirst (abbreviated : Bool) (names : List Author) : String :=
  " and ".intercalate (names.map (lastFirst abbreviated))

/-- The names given name first, with `and` between them. -/
def listFirstLast (names : List Author) : String :=
  " and ".intercalate (names.map firstLast)

end Author

/-- Texts joined with a separator, and the last one with a separator of its own. -/
def joinWithLast (separator lastSeparator : String) (texts : List String) : String :=
  match texts.getLast? with
  | none => ""
  | some last =>
    match texts.dropLast with
    | [] => last
    | earlier => separator.intercalate earlier ++ lastSeparator ++ last

end DocCite
