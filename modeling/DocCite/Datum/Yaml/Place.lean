/-!
# Lines and columns of YAML text

What a line end and a blank are, and where in a text a reader stands. Structure is told by
columns, so a reader counts them; a key ends on the line it starts on, so it counts lines and
characters too.
-/

namespace DocCite.Yaml

/-- A place in a text: its line, its column on that line, and how many characters stand before. -/
structure Place where
  line : Nat := 0
  column : Nat := 0
  offset : Nat := 0

/-- The place after some characters of the same line. -/
def Place.after (p : Place) (n : Nat) : Place :=
  { p with column := p.column + n, offset := p.offset + n }

/-- The place after one character of the same line. -/
def Place.next (p : Place) : Place := p.after 1

/-- The place after a line end. -/
def Place.nextLine (p : Place) : Place :=
  { line := p.line + 1, column := 0, offset := p.offset + 1 }

/-- A blank inside a line. -/
def isSpace (c : Char) : Bool := c = ' ' || c = '\t'

/-- A character that ends a line. -/
def isBreak (c : Char) : Bool := c = '\n' || c = '\r' || [0x85, 0x2028, 0x2029].contains c.toNat

/-- Whether a character is a carriage return that makes one line end with the line feed after it. -/
def isHalfBreak (c : Char) (rest : List Char) : Bool := c = '\r' && rest.head? = some '\n'

/-- What a line end stands for in a scalar. The two separators of Unicode stand for themselves. -/
def breakText (c : Char) : Char := if 0x2028 ≤ c.toNat then c else '\n'

/-- Whether a token ends here: at a blank, a line end or the end of the text. -/
def atGap : List Char → Bool
  | [] => true
  | c :: _ => isSpace c || isBreak c

/-- Whether a text starts with three of a character and a gap. -/
def startsMarker (mark : Char) : List Char → Bool
  | a :: b :: c :: rest => a = mark && b = mark && c = mark && atGap rest
  | _ => false

/-- Whether the marker that opens a document or the one that closes it stands at a place. -/
def atMarker (p : Place) (s : List Char) : Bool :=
  p.column = 0 && (startsMarker '-' s || startsMarker '.' s)

/-- Whether a character can stand in a text at all. -/
def isAllowed (c : Char) : Bool :=
  let n := c.toNat
  n = 9 || n = 10 || n = 13 || (32 ≤ n && n ≤ 126) || n = 0x85 || (0xA0 ≤ n && n ≤ 0xFFFD) ||
    0x10000 ≤ n

/-- A letter of ASCII, a digit, a hyphen or an underscore. -/
def isWordChar (c : Char) : Bool :=
  c.isAlphanum || c = '-' || c = '_'

end DocCite.Yaml
