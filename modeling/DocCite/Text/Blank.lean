import DocCite.Text.CodeRanges

/-!
# Blank characters, trimming and words

A character is blank when Unicode gives it the property White_Space. Trimming drops blanks at the
ends; the words of a text are its maximal stretches without blanks.
-/

namespace DocCite.Text

/-- The code points with the property White_Space. -/
def blankRanges : CodeRanges :=
  [(9, 13), (32, 32), (133, 133), (160, 160), (5760, 5760), (8192, 8202), (8232, 8233),
   (8239, 8239), (8287, 8287), (12288, 12288)]

/-- Whether the character is white space in the sense of Unicode. -/
def isBlank (c : Char) : Bool := blankRanges.has c.toNat

/-- The text without blanks at its start. -/
def trimStart (s : List Char) : List Char := s.dropWhile isBlank

/-- The text without blanks at its end. -/
def trimEnd : List Char → List Char
  | [] => []
  | c :: rest =>
    match trimEnd rest with
    | [] => if isBlank c then [] else [c]
    | kept => c :: kept

/-- The text without blanks at either end. -/
def trim (s : List Char) : List Char := trimEnd (trimStart s)

/-- Whether the text holds nothing but blanks. -/
def isAllBlank (s : List Char) : Bool := s.all isBlank

/-- Walks a text with the word read so far, in reverse. -/
def wordsFrom : List Char → List Char → List (List Char)
  | acc, [] => if acc.isEmpty then [] else [acc.reverse]
  | acc, c :: rest =>
    if isBlank c then
      if acc.isEmpty then wordsFrom [] rest else acc.reverse :: wordsFrom [] rest
    else wordsFrom (c :: acc) rest

/-- The maximal stretches without blanks, in order. -/
def words (s : List Char) : List (List Char) := wordsFrom [] s

end DocCite.Text

namespace DocCite

/-- The string without blanks at either end. -/
def trimmed (s : String) : String := String.ofList (Text.trim s.toList)

/-- Whether the string is empty or holds only blanks. -/
def isBlankText (s : String) : Bool := Text.isAllBlank s.toList

/-- The trimmed string, or nothing when it is blank. -/
def trimmed? (s : String) : Option String :=
  if isBlankText s then none else some (trimmed s)

end DocCite
