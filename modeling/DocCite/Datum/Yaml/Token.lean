import DocCite.Datum.Yaml.Scalar

/-!
# Tokens of YAML text

The tokens of a text, and the reading of those that are neither scalars nor single signs: anchors,
aliases, tags and directives.
-/

namespace DocCite.Yaml

/-- A token. Collections in block style are opened and closed by tokens of their own, which the
indentation stands for. -/
inductive Token
  | version (major minor : Nat)
  /-- What a handle stands for in tags. -/
  | tagHandle (handle expansion : String)
  | documentStart
  | documentEnd
  | openItems
  | openPairs
  | close
  /-- The sign before an item of a list in block style. -/
  | item
  /-- What comes next is a key. -/
  | key
  /-- What comes next is the value of a key. -/
  | value
  | openList
  | closeList
  | openMap
  | closeMap
  | comma
  | anchor (name : String)
  | alias (name : String)
  | tag (handle suffix : String)
  | scalar (form : Form) (text : String)
  deriving DecidableEq

/-! ## Names -/

/-- Reads the name of an anchor or an alias. -/
def anchorName? (s : List Char) : Option (List Char × List Char) :=
  let name := s.takeWhile isWordChar
  let rest := s.dropWhile isWordChar
  let ends := atGap rest || (rest.head?.map
    (['?', ':', ',', ']', '}', '%', '@', Char.ofNat 96].contains ·)).getD false
  if name.isEmpty || !ends then none else some (name, rest)

/-! ## Tags -/

/-- A character that can stand in a tag; lists and commas only if `verbatim`. -/
def isTagChar (verbatim : Bool) (c : Char) : Bool :=
  isWordChar c ||
    [';', '/', '?', ':', '@', '&', '=', '+', '$', '.', '!', '~', '*', '\'', '(', ')'].contains c ||
    (verbatim && [',', '[', ']'].contains c)

/-- The value of two digits of base sixteen after a percent sign. -/
def octet? : List Char → Option (Nat × List Char)
  | '%' :: a :: b :: rest => (Datum.digits? 16 [a, b]).map fun n => (n, rest)
  | _ => none

/-- Reads the octets after the first one of a character, each of which adds six bits. -/
def furtherOctets? : Nat → Nat → List Char → Option (Nat × List Char)
  | 0, n, s => some (n, s)
  | k + 1, n, s => do
    let (o, rest) ← octet? s
    if o / 64 = 2 then furtherOctets? k (n * 64 + o % 64) rest else none

/-- Reads a character that is written by its octets. -/
def escapedChar? (s : List Char) : Option (Char × List Char) := do
  let (o, rest) ← octet? s
  let (n, rest) ←
    if o < 0x80 then some (o, rest)
    else if o / 32 = 6 then furtherOctets? 1 (o % 32) rest
    else if o / 16 = 14 then furtherOctets? 2 (o % 16) rest
    else if o / 8 = 30 then furtherOctets? 3 (o % 8) rest
    else none
  some (Char.ofNat n, rest)

/-- Reads the characters of a tag; the first argument bounds their number. -/
def tagText? (verbatim : Bool) : Nat → List Char → Option (List Char × List Char)
  | 0, s => some ([], s)
  | n + 1, s =>
    match s with
    | [] => some ([], [])
    | c :: rest =>
      if c = '%' then do
        let (d, rest) ← escapedChar? s
        let (text, after) ← tagText? verbatim n rest
        some (d :: text, after)
      else if isTagChar verbatim c then
        (tagText? verbatim n rest).map fun (text, after) => (c :: text, after)
      else some ([], s)

/-- Reads the characters of a tag, of which there has to be one. -/
def someTagText? (verbatim : Bool) (s : List Char) : Option (List Char × List Char) := do
  let (text, rest) ← tagText? verbatim s.length s
  if text.isEmpty then none else some (text, rest)

/-- Reads the handle of a tag: an exclamation mark, and a word with another one if there is one. -/
def tagHandle (s : List Char) : List Char × List Char :=
  let word := s.takeWhile isWordChar
  match s.dropWhile isWordChar with
  | '!' :: rest => (['!'] ++ word ++ ['!'], rest)
  | rest => (['!'] ++ word, rest)

/-- Reads a tag after its exclamation mark, as a handle and a suffix. A tag without a handle has the
handle of one exclamation mark; that mark alone is a suffix. -/
def tag? (flow : Bool) (s : List Char) : Option (Token × List Char) := do
  let (handle, suffix, rest) ←
    match s with
    | '<' :: body => do
      let (text, rest) ← someTagText? true body
      match rest with
      | '>' :: after => some (([] : List Char), text, after)
      | _ => none
    | _ =>
      let (handle, rest) := tagHandle s
      if 1 < handle.length ∧ handle.getLast? = some '!' then do
        let (text, after) ← someTagText? false rest
        some (handle, text, after)
      else do
        let (text, after) ← tagText? false rest.length rest
        let suffix := handle.drop 1 ++ text
        some (if suffix.isEmpty then ([], ['!'], after) else (['!'], suffix, after))
  if atGap rest || (flow && rest.head? = some ',') then
    some (.tag (String.ofList handle) (String.ofList suffix), rest)
  else none

/-! ## Directives -/

/-- Reads a number of at most nine digits. -/
def versionNumber? (s : List Char) : Option (Nat × List Char) :=
  let digits := s.takeWhile Text.isAsciiDigit
  if digits.isEmpty || 9 < digits.length then none
  else (Datum.digits? 10 digits).map fun n => (n, s.dropWhile Text.isAsciiDigit)

/-- Reads a directive after its percent sign. One of another name is refused. -/
def directive? (s : List Char) : Option (Token × List Char) :=
  let name := s.takeWhile isWordChar
  let rest := s.dropWhile isWordChar
  if !atGap rest then none
  else if name = ['Y', 'A', 'M', 'L'] then do
    let (major, rest) ← versionNumber? (skipSpaces rest)
    match rest with
    | '.' :: rest => do
      let (minor, rest) ← versionNumber? rest
      some (.version major minor, rest)
    | _ => none
  else if name = ['T', 'A', 'G'] then
    match skipSpaces rest with
    | '!' :: body =>
      let (handle, rest) := tagHandle body
      if (handle = ['!'] ∨ (1 < handle.length ∧ handle.getLast? = some '!')) ∧
          (rest.head?.map isSpace).getD false then do
        let (expansion, rest) ← someTagText? true (skipSpaces rest)
        if atGap rest then
          some (.tagHandle (String.ofList handle) (String.ofList expansion), rest)
        else none
      else none
    | _ => none
  else none

end DocCite.Yaml
