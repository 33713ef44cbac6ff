import DocCite.Bibtex.Value
import DocCite.Text.Letter

/-!
# Records of a BibTeX file

A file is a sequence of items that start with `@`; text between them and comments are passed
over. What stands in an item is read as it is written; the meaning of values comes later.
-/

namespace DocCite.Bibtex

/-- A part of a value as it is written. -/
inductive Piece
  /-- Text in braces or quotes, or a number. -/
  | literal (s : List Char)
  /-- A name that stands for a text. -/
  | named (name : String)

/-- A name and the parts of its value, which are strung together. -/
abbrev Assignment := String × List Piece

/-- An item of a file. -/
inductive Item
  | record (type key : String) (fields : List Assignment)
  /-- Names and the texts they stand for. -/
  | strings (names : List Assignment)
  /-- An item without effect on the entries. -/
  | other

/-- Whether a character ends a line, and with it a comment. -/
def endsLine (c : Char) : Bool :=
  (10 ≤ c.toNat && c.toNat ≤ 13) || [0x85, 0x2028, 0x2029].contains c.toNat

/-- Passes over blanks. -/
def skipBlanks (s : List Char) : List Char := s.dropWhile Text.isBlank

/-- Passes over blanks and at most one comment: a comment that follows another is no blank. -/
def skipComment (s : List Char) : List Char :=
  match skipBlanks s with
  | '%' :: rest => skipBlanks (rest.dropWhile (!endsLine ·))
  | rest => rest

/-- Reads a name. -/
def name (s : List Char) : Option (String × List Char) :=
  match s with
  | [] => none
  | c :: _ =>
    if startsName c then some (String.ofList (s.takeWhile isNameChar), s.dropWhile isNameChar)
    else none

/-- Reads one character that has to be there. -/
def expect (c : Char) (s : List Char) : Option (List Char) :=
  match s with
  | [] => none
  | d :: rest => if d = c then some rest else none

/-- The text up to the brace that closes a group, and what follows that brace. Braces inside
count, except after a backslash. -/
def group? : Nat → List Char → Option (List Char × List Char)
  | _, [] => none
  | depth, '\\' :: c :: rest =>
    (group? depth rest).map fun (text, after) => ('\\' :: c :: text, after)
  | depth, c :: rest =>
    if c = '}' ∧ depth = 0 then some ([], rest)
    else
      (group? (if c = '{' then depth + 1 else if c = '}' then depth - 1 else depth) rest).map
        fun (text, after) => (c :: text, after)

/-- The text up to a closing quote, and what follows the quote. Braces do not count, and a quote
after a backslash closes nothing. -/
def quoted? : List Char → Option (List Char × List Char)
  | [] => none
  | '\\' :: c :: rest => (quoted? rest).map fun (text, after) => ('\\' :: c :: text, after)
  | c :: rest =>
    if c = '"' then some ([], rest)
    else (quoted? rest).map fun (text, after) => (c :: text, after)

/-- Reads a number: digits with at most one point among or after them. -/
def number? (s : List Char) : Option (List Char × List Char) :=
  let whole := s.takeWhile Text.isAsciiDigit
  match s.dropWhile Text.isAsciiDigit with
  | '.' :: rest =>
    let after := rest.dropWhile Text.isAsciiDigit
    if after.head? = some '.' then none
    else some (whole ++ ['.'] ++ rest.takeWhile Text.isAsciiDigit, after)
  | rest => some (whole, rest)

/-- Reads one part of a value. -/
def piece (s : List Char) : Option (Piece × List Char) :=
  match s with
  | [] => none
  | c :: rest =>
    if c = '{' then (group? 0 rest).map fun (text, after) => (.literal text, after)
    else if c = '"' then (quoted? rest).map fun (text, after) => (.literal text, after)
    else if Text.isAsciiDigit c then
      (number? s).map fun (digits, after) => (.literal digits, after)
    else (name s).map fun (word, after) => (.named word, after)

/-- Reads a value: parts with `#` between them. The first argument bounds the number of parts. -/
def pieces : Nat → List Char → Option (List Piece × List Char)
  | 0, _ => none
  | n + 1, s => do
    let (first, afterFirst) ← piece s
    match skipBlanks afterFirst with
    | '#' :: rest =>
      let (more, after) ← pieces n (skipBlanks rest)
      some (first :: more, after)
    | rest => some ([first], rest)

/-- Reads assignments with commas between them, up to the closing brace. A comment may stand
before an assignment, and after it in front of the comma or the brace. The first argument bounds
the number of assignments. -/
def assignments : Nat → List Char → Option (List Assignment × List Char)
  | 0, _ => none
  | n + 1, s =>
    match skipComment s with
    | '}' :: rest => some ([], rest)
    | s' => do
      let (field, afterField) ← name s'
      let afterEquals ← expect '=' (skipBlanks afterField)
      let (value, afterValue) ← pieces n (skipBlanks afterEquals)
      match skipComment afterValue with
      | ',' :: rest =>
        let (more, after) ← assignments n rest
        some ((field, value) :: more, after)
      | '}' :: rest => some ([(field, value)], rest)
      | _ => none

/-- Whether a character can stand in a citation key. -/
def isKeyChar (c : Char) : Bool := c ≠ ',' && c ≠ '}' && !Text.isBlank c && !isControl c

/-- Reads an item after its `@`. -/
def item (n : Nat) (s : List Char) : Option (Item × List Char) := do
  let (word, afterWord) ← name s
  let body ← expect '{' (skipBlanks afterWord)
  let type := String.ofList (word.toList.map Char.toLower)
  if type = "string" then
    let (names, after) ← assignments n body
    some (.strings names, after)
  else if type = "preamble" then
    let quote ← expect '"' (skipBlanks body)
    let (_, afterQuote) ← quoted? quote
    let after ← expect '}' (skipBlanks afterQuote)
    some (.other, after)
  else if type = "comment" then
    let after ← expect '}' (body.dropWhile (· ≠ '}'))
    some (.other, after)
  else
    let start := skipBlanks body
    let afterComma ← expect ',' (skipBlanks (start.dropWhile isKeyChar))
    let (fields, after) ← assignments n afterComma
    some (.record type (String.ofList (start.takeWhile isKeyChar)) fields, after)

/-- Reads the items of a file. The first argument bounds the number of items and comments. -/
def items : Nat → List Char → Option (List Item)
  | 0, _ => none
  | n + 1, s =>
    match s.dropWhile fun c => c ≠ '@' && c ≠ '%' with
    | [] => some []
    | '@' :: rest => do
      let (first, after) ← item n rest
      let more ← items n after
      some (first :: more)
    | rest => items n (rest.dropWhile (!endsLine ·))

/-- The items of a file. Every one takes a character, so the length of the file bounds their
number. -/
def parse? (source : String) : Option (List Item) :=
  items (source.toList.length + 2) source.toList

end DocCite.Bibtex
