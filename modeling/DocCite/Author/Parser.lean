import DocCite.Author.Name
import DocCite.Text.Letter

/-!
# Reading lists of names

Names are separated by the word `and` outside braces, in any case. A name without commas is
given names, particle, family name; with one comma the family name comes first; with two what
follows the family name stands between them. The particle is the run of lowercase words.
-/

namespace DocCite.Author

/-! ## Cutting at brace depth zero -/

/-- The blanks that may stand around the word `and`. -/
def isSeparatorBlank (c : Char) : Bool :=
  c = ' ' || c = '\t' || c = '\n' || c = '\r' || c = '\x0c'

/-- Whether the text starts with the word `and` between blanks. -/
def startsWithAnd : List Char → Bool
  | b :: c₁ :: c₂ :: c₃ :: b' :: _ =>
    isSeparatorBlank b && [c₁, c₂, c₃].map Char.toLower == ['a', 'n', 'd'] && isSeparatorBlank b'
  | _ => false

/-- The depth of braces after one more character; a brace that closes nothing does not count. -/
def braceDepth (depth : Nat) (c : Char) : Nat :=
  if c = '{' then depth + 1 else if c = '}' then depth - 1 else depth

/-- Cuts a list of names at each `and` outside braces; `name` is the name read so far, in
reverse. The blank after an `and` stays, so that it can also open the next one. -/
def cutNames (depth : Nat) (name : List Char) : List Char → List (List Char)
  | [] => [name.reverse]
  | c :: rest =>
    if depth = 0 ∧ startsWithAnd (c :: rest) then name.reverse :: cutNames 0 [] (rest.drop 3)
    else cutNames (braceDepth depth c) (c :: name) rest
termination_by s => s.length
decreasing_by all_goals simp only [List.length_drop, List.length_cons]; omega

/-- Cuts a name at the commas outside braces; `part` is the part read so far, in reverse. -/
def cutCommas (depth : Nat) (part : List Char) : List Char → List (List Char)
  | [] => [part.reverse]
  | c :: rest =>
    if depth = 0 ∧ c = ',' then part.reverse :: cutCommas 0 [] rest
    else cutCommas (braceDepth depth c) (c :: part) rest

/-- The words of a text, where braces hold words together; `word` is the word read so far, in
reverse. -/
def bracedWordsFrom (depth : Nat) (word : List Char) : List Char → List (List Char)
  | [] => if word.isEmpty then [] else [word.reverse]
  | c :: rest =>
    if Text.isBlank c ∧ depth = 0 then
      if word.isEmpty then bracedWordsFrom 0 [] rest
      else word.reverse :: bracedWordsFrom 0 [] rest
    else bracedWordsFrom (braceDepth depth c) (c :: word) rest

/-- The words of a text, where braces hold words together. -/
def bracedWords (s : List Char) : List (List Char) := bracedWordsFrom 0 [] s

/-! ## Parts of a name -/

/-- A part without blanks around it and without braces; a blank part is absent. -/
def part? (s : List Char) : Option String :=
  match Text.trim s with
  | [] => none
  | t => some (String.ofList (t.filter fun c => c ≠ '{' && c ≠ '}'))

/-- Whether the first letter of a word is lowercase; a brace before it hides it. -/
def isLowercaseWord (word : List Char) : Bool :=
  match word.find? fun c => Text.isAlphabetic c || c = '{' with
  | some c => Text.isLowercase c
  | none => false

/-- The words of a part, joined again. -/
def partOfWords? (words : List (List Char)) : Option String := part? (Text.join [' '] words)

/-- How many words at the start of a list satisfy a test; the last word is not looked at. -/
def leadingCount (test : List Char → Bool) (words : List (List Char)) : Nat :=
  (words.dropLast.takeWhile test).length

/-- Particle and family name: the particle is the run of lowercase words at the start, of which
the last word is never one. -/
def splitFamily (s : List Char) : Option String × Option String :=
  let words := bracedWords s
  let n := leadingCount isLowercaseWord words
  (partOfWords? (words.take n), partOfWords? (words.drop n))

/-- A name without commas. A single word is a family name. -/
def ofGivenFirst (name : List Char) : Author :=
  let words := bracedWords name
  if words.length ≤ 1 then { last := part? name }
  else
    let n := leadingCount (fun w => !isLowercaseWord w) words
    let family := words.drop n
    let m := leadingCount isLowercaseWord family
    { first := partOfWords? (words.take n)
      von := partOfWords? (family.take m)
      last := partOfWords? (family.drop m) }

/-- One name. What follows a third part is ignored. -/
def ofChars (name : List Char) : Author :=
  match (cutCommas 0 [] name).map Text.trim with
  | [] => {}
  | [single] => ofGivenFirst single
  | [family, first] =>
    { first := part? first, von := (splitFamily family).1, last := (splitFamily family).2 }
  | family :: jr :: first :: _ =>
    { first := part? first, von := (splitFamily family).1, last := (splitFamily family).2,
      jr := part? jr }

/-- The texts of the names in a list of names. -/
def nameTexts (value : List Char) : List (List Char) :=
  ((cutNames 0 [] value).map Text.trim).filter fun name => !name.isEmpty

/-- The names in a list of names. -/
def parseList (value : String) : List Author := (nameTexts value.toList).map ofChars

end DocCite.Author
