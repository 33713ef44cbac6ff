import DocCite.Style.Layout
import DocCite.Text.Letter

/-!
# Reading layouts

A layout is read by ordered choice: at a backslash a block is tried first, then a call of
formatters, a field, an escaped character and last the backslash as text. What fails gives way
to the next, so unclosed blocks and malformed calls are text. Only a `\end` that closes nothing
stops the reading.
-/

namespace DocCite.LayoutNode

/-- A character of the name of a field. -/
def isFieldChar (c : Char) : Bool :=
  Text.isAsciiLetter c || Text.isAsciiDigit c || c = '_' || c = '-'

/-- A character of the name of a formatter. -/
def isFormatterChar (c : Char) : Bool :=
  Text.isAsciiLetter c || Text.isAsciiDigit c || c = '_'

/-- A character of literal text. -/
def isTextChar (c : Char) : Bool := c ≠ '\\' && c ≠ '}'

/-- A rest that is shorter than a text. -/
abbrev Shorter (s : List Char) := { rest : List Char // rest.length < s.length }

/-- A rest that is not longer than a text. -/
abbrev Rest (s : List Char) := { rest : List Char // rest.length ≤ s.length }

theorem length_dropWhile_le (p : Char → Bool) (s : List Char) :
    (s.dropWhile p).length ≤ s.length :=
  (List.dropWhile_sublist p).length_le

/-- Reads a nonempty name and a character that closes it. -/
def nameUpTo (closing : Char) (s : List Char) : Option (List Char × Shorter s) :=
  let name := s.takeWhile isFieldChar
  match h : s.dropWhile isFieldChar with
  | [] => none
  | c :: rest =>
    if name ≠ [] ∧ c = closing then
      some (name, ⟨rest, by
        have := length_dropWhile_le isFieldChar s
        rw [h] at this
        simpa [Nat.succ_le_iff] using this⟩)
    else none

/-- Reads a fixed start of a text. -/
def literal (start s : List Char) : Option (Rest s) :=
  match h : Text.after? start s with
  | none => none
  | some rest => some ⟨rest, by have := Text.length_of_after? h; omega⟩

/-- A blank between the names of formatters. -/
def isSpacing (c : Char) : Bool := c = ' ' || c = '\t'

/-- What follows the name of a formatter and the blanks around it. -/
def afterFormatter (s : List Char) : List Char :=
  ((s.dropWhile isSpacing).dropWhile isFormatterChar).dropWhile isSpacing

theorem length_afterFormatter_le (s : List Char) : (afterFormatter s).length ≤ s.length :=
  Nat.le_trans (length_dropWhile_le _ _)
    (Nat.le_trans (length_dropWhile_le _ _) (length_dropWhile_le _ _))

/-- Reads the names of formatters up to the closing bracket. -/
def formatterNames (s : List Char) : Option (List (List Char) × Shorter s) :=
  let name := (s.dropWhile isSpacing).takeWhile isFormatterChar
  match h : afterFormatter s with
  | [] => none
  | c :: rest =>
    have shorter : rest.length < s.length := by
      have := length_afterFormatter_le s
      rw [h] at this
      simpa [Nat.succ_le_iff] using this
    if name = [] then none
    else if c = ']' then some ([name], ⟨rest, shorter⟩)
    else if c = ',' then
      match formatterNames rest with
      | some (names, after) => some (name :: names, ⟨after.1, Nat.lt_trans after.2 shorter⟩)
      | none => none
    else none
termination_by s.length

/-- The names that are no fields. -/
def isReserved (name : List Char) : Bool :=
  name == "begin".toList || name == "end".toList || name == "format".toList

/-- The name of a field as it is looked up. -/
def fieldName (name : List Char) : String := String.ofList (name.map Char.toLower)

/-- Reads an escaped character after its backslash. -/
def escapedChar (s : List Char) : Option (LayoutNode × Rest s) :=
  match s with
  | '\\' :: after => some (text "\\", ⟨after, by simp⟩)
  | '{' :: after => some (text "\x7b", ⟨after, by simp⟩)
  | '}' :: after => some (text "\x7d", ⟨after, by simp⟩)
  | _ => none

/-- Reads a field, an escaped character, or nothing at all for a backslash that stands for
itself, after the backslash. -/
def afterBackslash (s : List Char) : Option (LayoutNode × Rest s) :=
  let name := s.takeWhile isFieldChar
  if name ≠ [] ∧ !isReserved name then
    some (field (fieldName name), ⟨s.dropWhile isFieldChar, length_dropWhile_le isFieldChar s⟩)
  else
    match escapedChar s with
    | some found => some found
    | none =>
      if (Text.after? "end\x7b".toList s).isSome then none
      else some (text "\\", ⟨s, Nat.le_refl _⟩)

mutual

/-- Reads one part of a layout. -/
def readOne (s : List Char) : Option (LayoutNode × Shorter s) :=
  match s with
  | [] => none
  | c :: rest =>
    if c = '\\' then
      match readBlock rest with
      | some (node, ⟨after, h⟩) => some (node, ⟨after, Nat.lt_succ_of_lt h⟩)
      | none =>
        match readFormat rest with
        | some (node, ⟨after, h⟩) => some (node, ⟨after, Nat.lt_succ_of_lt h⟩)
        | none =>
          (afterBackslash rest).map fun (node, after) =>
            (node, ⟨after.1, Nat.lt_succ_of_le after.2⟩)
    else if c = '}' then none
    else
      some (text (String.ofList (c :: rest.takeWhile isTextChar)),
        ⟨rest.dropWhile isTextChar, Nat.lt_succ_of_le (length_dropWhile_le isTextChar rest)⟩)
termination_by (s.length, 0)

/-- Reads a block after its backslash. -/
def readBlock (s : List Char) : Option (LayoutNode × Shorter s) :=
  match literal "begin\x7b".toList s with
  | none => none
  | some ⟨opened, h₁⟩ =>
    match nameUpTo '}' opened with
    | none => none
    | some (name, ⟨inside, h₂⟩) =>
      match readMany inside with
      | (body, ⟨stopped, h₃⟩) =>
        match literal "\\end\x7b".toList stopped with
        | none => none
        | some ⟨closing, h₄⟩ =>
          match nameUpTo '}' closing with
          | none => none
          | some (name', ⟨after, h₅⟩) =>
            if name'.map Char.toLower = name.map Char.toLower then
              some (block (fieldName name) body, ⟨after, by omega⟩)
            else none
termination_by (s.length, 2)

/-- Reads a call of formatters after its backslash. -/
def readFormat (s : List Char) : Option (LayoutNode × Shorter s) :=
  match literal "format[".toList s with
  | none => none
  | some ⟨opened, h₁⟩ =>
    match formatterNames opened with
    | none => none
    | some (names, ⟨called, h₂⟩) =>
      match literal ['{'] called with
      | none => none
      | some ⟨inside, h₃⟩ =>
        match readMany inside with
        | (body, ⟨stopped, h₄⟩) =>
          match literal ['}'] stopped with
          | none => none
          | some ⟨after, h₅⟩ =>
            some (format (names.map fun name => Formatter.ofName (String.ofList name)) body,
              ⟨after, by omega⟩)
termination_by (s.length, 2)

/-- Reads parts until none can be read. -/
def readMany (s : List Char) : List LayoutNode × Rest s :=
  match readOne s with
  | none => ([], ⟨s, Nat.le_refl _⟩)
  | some (node, ⟨after, h⟩) =>
    match readMany after with
    | (nodes, ⟨stopped, h'⟩) => (node :: nodes, ⟨stopped, by omega⟩)
termination_by (s.length, 1)

end

/-- Reads the parts of a whole layout, where a brace that closes nothing is text, and returns
what is left where reading stops. -/
def readTop (s : List Char) : List LayoutNode × List Char :=
  match readOne s with
  | some (node, ⟨after, _⟩) =>
    let (nodes, stopped) := readTop after
    (node :: nodes, stopped)
  | none =>
    match s with
    | '}' :: after =>
      let (nodes, stopped) := readTop after
      (text "\x7d" :: nodes, stopped)
    | _ => ([], s)
termination_by s.length

end DocCite.LayoutNode

namespace DocCite.Layout

/-! ## Where reading stopped -/

/-- The report on a layout of one line: the layout, and below it a caret under the byte where
reading stopped. -/
def oneLineReport (source : String) (offset : Nat) : String :=
  source ++ "\n" ++ String.ofList (List.replicate offset ' ') ++ "^\n"

/-- The report on a layout of several lines: line and column, and the line with a caret. -/
def manyLinesReport (source before : List Char) : String :=
  let line := before.count '\n'
  let column := (before.reverse.takeWhile (· ≠ '\n')).length
  let number := toString (line + 1)
  let gutter := String.ofList (List.replicate number.length ' ')
  "parse error at line " ++ number ++ ", column " ++ toString (column + 1) ++ "\n" ++
    gutter ++ " |\n" ++
    number ++ " | " ++ String.ofList ((Text.splitOn '\n' source).getD line []) ++ "\n" ++
    gutter ++ " | " ++ String.ofList (List.replicate column ' ') ++ "^\n"

/-- The report on a layout of which the given rest was not read. -/
def report (source : String) (stopped : List Char) : String :=
  let chars := source.toList
  let before := chars.take (chars.length - stopped.length)
  if chars.contains '\n' then manyLinesReport chars before
  else oneLineReport source (String.ofList before).utf8ByteSize

/-- Reads a layout, with neighbouring texts joined, or reports where reading stopped. -/
def parse (source : String) : Except String Layout :=
  match LayoutNode.readTop source.toList with
  | (nodes, []) => .ok (LayoutNode.mergeTexts nodes)
  | (_, stopped) => .error (report source stopped)

end DocCite.Layout
