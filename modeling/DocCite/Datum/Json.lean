import DocCite.Datum.Basic

/-!
# JSON text

Reading and writing JSON. Reading is strict: one value, nothing after it but blanks. Writing
puts each item on a line of its own, two blanks deeper than the line that opens it.
-/

namespace DocCite.Json

/-- A blank between tokens. -/
def isBlank (c : Char) : Bool := c = ' ' || c = '\n' || c = '\t' || c = '\r'

/-- The text without blanks at its start. -/
def skipBlank (s : List Char) : List Char := s.dropWhile isBlank

/-! ## Reading -/

/-- The number that four digits of base sixteen denote. -/
def hex4? (a b c d : Char) : Option Nat := Datum.digits? 16 [a, b, c, d]

/-- The character a backslash and a letter stand for. -/
def escape? : Char → Option Char
  | '"' => some '"'
  | '\\' => some '\\'
  | '/' => some '/'
  | 'b' => some '\x08'
  | 'f' => some '\x0c'
  | 'n' => some '\n'
  | 'r' => some '\r'
  | 't' => some '\t'
  | _ => none

/-- The numbers of the characters of a string after its opening quote, as they are written, and
what follows the string. An escape may give half of a surrogate pair. -/
def stringBody : List Char → Option (List Nat × List Char)
  | [] => none
  | '"' :: rest => some ([], rest)
  | '\\' :: 'u' :: a :: b :: c :: d :: rest => do
    let n ← hex4? a b c d
    let (more, after) ← stringBody rest
    some (n :: more, after)
  | '\\' :: c :: rest => do
    let escaped ← escape? c
    let (more, after) ← stringBody rest
    some (escaped.toNat :: more, after)
  | c :: rest =>
    if c.toNat < 32 || c = '\\' then none
    else (stringBody rest).map fun (more, after) => (c.toNat :: more, after)

/-- The text of numbers in which the halves of a surrogate pair follow each other; nothing if a half
stands on its own. -/
def textOf? : List Nat → Option (List Char)
  | [] => some []
  | [n] => if n.isValidChar then some [Char.ofNat n] else none
  | high :: low :: rest =>
    if 0xD800 ≤ high ∧ high < 0xDC00 ∧ 0xDC00 ≤ low ∧ low < 0xE000 then
      (textOf? rest).map (Char.ofNat (0x10000 + (high - 0xD800) * 0x400 + (low - 0xDC00)) :: ·)
    else if high.isValidChar then (textOf? (low :: rest)).map (Char.ofNat high :: ·)
    else none

/-- The string that numbers stand for. -/
def stringOf? (codes : List Nat) : Option String := (textOf? codes).map String.ofList

/-- Reads at least one digit. -/
def digits (s : List Char) : Option (List Char × List Char) :=
  match s.takeWhile Text.isAsciiDigit with
  | [] => none
  | ds => some (ds, s.dropWhile Text.isAsciiDigit)

/-- Reads the part after a decimal point, if there is one. -/
def fraction (s : List Char) : Option (Bool × List Char) :=
  match s with
  | '.' :: rest => (digits rest).map fun (_, after) => (true, after)
  | _ => some (false, s)

/-- Reads an exponent, if there is one. -/
def exponent (s : List Char) : Option (Bool × List Char) :=
  match s with
  | 'e' :: rest | 'E' :: rest =>
    let unsigned := match rest with
      | '+' :: r | '-' :: r => r
      | r => r
    (digits unsigned).map fun (_, after) => (true, after)
  | _ => some (false, s)

/-- Reads a number. Leading zeros are refused. -/
def number (s : List Char) : Option (Datum × List Char) := do
  let negative := s.head? = some '-'
  let (ds, afterDigits) ← digits (if negative then s.drop 1 else s)
  if ds.length > 1 ∧ ds.head? = some '0' then none
  let (hasFraction, afterFraction) ← fraction afterDigits
  let (hasExponent, rest) ← exponent afterFraction
  let whole := !negative && !hasFraction && !hasExponent
  some (.number (if whole then Datum.digits? 10 ds else none), rest)

mutual

/-- Reads a value. The first argument bounds the number of steps. -/
def value : Nat → List Char → Option (Datum × List Char)
  | 0, _ => none
  | n + 1, s =>
    match skipBlank s with
    | 'n' :: 'u' :: 'l' :: 'l' :: rest => some (.null, rest)
    | 't' :: 'r' :: 'u' :: 'e' :: rest => some (.bool true, rest)
    | 'f' :: 'a' :: 'l' :: 's' :: 'e' :: rest => some (.bool false, rest)
    | '"' :: rest =>
      (stringBody rest).map fun (codes, after) =>
        ((stringOf? codes).elim .unusable .text, after)
    | '[' :: rest =>
      match skipBlank rest with
      | ']' :: after => some (.list true [], after)
      | _ => (items n rest).map fun (ds, after) => (.list true ds, after)
    | '{' :: rest =>
      match skipBlank rest with
      | '}' :: after => some (.map [], after)
      | _ => (members n rest).map fun (ps, after) => (.ofPairs ps, after)
    | t => number t

/-- Reads the items of a list up to its closing bracket. -/
def items : Nat → List Char → Option (List Datum × List Char)
  | 0, _ => none
  | n + 1, s => do
    let (d, afterItem) ← value n s
    match skipBlank afterItem with
    | ']' :: rest => some ([d], rest)
    | ',' :: rest =>
      let (ds, after) ← items n rest
      some (d :: ds, after)
    | _ => none

/-- Reads the members of a map up to its closing brace. -/
def members : Nat → List Char → Option (List (Option String × Datum) × List Char)
  | 0, _ => none
  | n + 1, s =>
    match skipBlank s with
    | '"' :: afterQuote => do
      let (name, afterName) ← stringBody afterQuote
      match skipBlank afterName with
      | ':' :: afterColon =>
        let (d, afterValue) ← value n afterColon
        match skipBlank afterValue with
        | '}' :: rest => some ([(stringOf? name, d)], rest)
        | ',' :: rest =>
          let (ps, after) ← members n rest
          some ((stringOf? name, d) :: ps, after)
        | _ => none
      | _ => none
    | _ => none

end

/-- Reads a text that is one value. Every step takes a character, so the length of the text
bounds their number. -/
def parse? (s : String) : Option Datum := do
  let (d, rest) ← value (s.toList.length + 1) s.toList
  if (skipBlank rest).isEmpty then some d else none

/-! ## Writing -/

/-- A value to be written. -/
inductive Out
  | bool (b : Bool)
  | int (n : Int)
  | str (s : String)
  | arr (items : List Out)
  | obj (members : List (String × Out))

/-- A digit of base sixteen. -/
def hexDigit (n : Nat) : Char := Char.ofNat (if n < 10 then 48 + n else 87 + n)

/-- A character inside quotes. -/
def quoteChar (c : Char) : List Char :=
  if c = '"' then ['\\', '"']
  else if c = '\\' then ['\\', '\\']
  else if c = '\n' then ['\\', 'n']
  else if c = '\r' then ['\\', 'r']
  else if c = '\t' then ['\\', 't']
  else if c = '\x08' then ['\\', 'b']
  else if c = '\x0c' then ['\\', 'f']
  else if c.toNat < 32 then
    ['\\', 'u', '0', '0', hexDigit (c.toNat / 16), hexDigit (c.toNat % 16)]
  else [c]

/-- A text in quotes. -/
def quote (s : String) : String := "\"" ++ String.ofList (s.toList.flatMap quoteChar) ++ "\""

/-- A line end and the blanks that a depth asks for. -/
def newline (depth : Nat) : String := "\n" ++ String.ofList (List.replicate (2 * depth) ' ')

mutual

/-- A value at a depth. -/
def Out.render (depth : Nat) : Out → String
  | .bool b => if b then "true" else "false"
  | .int n => toString n
  | .str s => quote s
  | .arr [] => "[]"
  | .arr (item :: rest) =>
    "[" ++ newline (depth + 1) ++ item.render (depth + 1) ++ renderItems (depth + 1) rest ++
      newline depth ++ "]"
  | .obj [] => "\x7b\x7d"
  | .obj ((name, v) :: rest) =>
    "\x7b" ++ newline (depth + 1) ++ quote name ++ ": " ++ v.render (depth + 1) ++
      renderMembers (depth + 1) rest ++ newline depth ++ "\x7d"

/-- The items after the first one. -/
def renderItems (depth : Nat) : List Out → String
  | [] => ""
  | item :: rest => "," ++ newline depth ++ item.render depth ++ renderItems depth rest

/-- The members after the first one. -/
def renderMembers (depth : Nat) : List (String × Out) → String
  | [] => ""
  | (name, v) :: rest =>
    "," ++ newline depth ++ quote name ++ ": " ++ v.render depth ++ renderMembers depth rest

end

/-- A value on lines of its own. -/
def Out.pretty (v : Out) : String := v.render 0

end DocCite.Json
