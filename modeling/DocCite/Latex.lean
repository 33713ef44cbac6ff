import DocCite.Text.Letter
import DocCite.Markup.Runs

/-!
# LaTeX field values as markup

Font commands become tags, escaped specials become plain characters, accents combine with their
letter, protective braces disappear. Braces are followed by a stack of the texts owed when they
close: nothing for a plain group, the closing tag for the argument of a font command.
-/

namespace DocCite.Latex

/-- The attribute set by a font command. -/
def fontAttribute? (command : String) : Option Attribute :=
  match command with
  | "emph" | "textit" | "textsl" => some .italic
  | "textbf" => some .bold
  | "textsc" => some .smallCaps
  | "texttt" => some .monospace
  | "textsuperscript" => some .superscript
  | "textsubscript" => some .subscript
  | "underline" => some .underline
  | "sout" => some .strikeout
  | _ => none

/-- The characters a symbol command stands for. -/
def symbol? (command : String) : Option String :=
  match command with
  | "ss" => some "ß"
  | "o" => some "ø"
  | "O" => some "Ø"
  | "aa" => some "å"
  | "AA" => some "Å"
  | "ae" => some "æ"
  | "AE" => some "Æ"
  | "oe" => some "œ"
  | "OE" => some "Œ"
  | "l" => some "ł"
  | "L" => some "Ł"
  | "ldots" | "dots" => some "…"
  | "textendash" => some "–"
  | "textemdash" => some "—"
  | "LaTeX" => some "LaTeX"
  | "TeX" => some "TeX"
  | _ => none

/-! ## Accents -/

/-- For each accent command the letters it has a character of its own with, and those characters
in the same order. -/
def precomposed : List (Char × String × String) :=
  [('"', "aeiouyAEIOU", "äëïöüÿÄËÏÖÜ"),
   ('\'', "aeiouycnszAEIOU", "áéíóúýćńśźÁÉÍÓÚ"),
   ('`', "aeiouAE", "àèìòùÀÈ"),
   ('^', "aeiou", "âêîôû"),
   ('~', "anoN", "ãñõÑ"),
   ('c', "cCs", "çÇş")]

/-- The character for a letter under an accent, where there is one. -/
def compose? (accent letter : Char) : Option Char :=
  match precomposed.lookup accent with
  | none => none
  | some (letters, results) => (letters.toList.zip results.toList).lookup letter

/-- The mark that follows a letter without a character of its own under an accent. -/
def combiningMark (accent : Char) : Char :=
  match accent with
  | '"' => '\u0308'
  | '\'' => '\u0301'
  | '`' => '\u0300'
  | '^' => '\u0302'
  | '~' => '\u0303'
  | '=' => '\u0304'
  | '.' => '\u0307'
  | _ => '\u0327'

/-- Whether a character after a backslash puts an accent on the letter that follows. -/
def isAccent (c : Char) : Bool := ['"', '\'', '`', '^', '~', '=', '.'].contains c

/-- A letter under an accent; an accent without a letter leaves nothing. -/
def accented (accent : Char) : Option Char → List Char
  | none => []
  | some letter =>
    match compose? accent letter with
    | some c => [c]
    | none => [letter, combiningMark accent]

/-- The letter an accent command applies to and the text after it: the next character, or the
first one of a braced group. -/
def accentArgument : List Char → Option Char × List Char
  | [] => (none, [])
  | '{' :: rest =>
    (rest.head?.filter (· ≠ '}'), (rest.dropWhile (· ≠ '}')).drop 1)
  | ' ' :: rest => accentArgument rest
  | c :: rest => (some c, rest)

theorem length_accentArgument (s : List Char) : (accentArgument s).2.length ≤ s.length := by
  fun_induction accentArgument s with
  | case1 => simp
  | case2 rest =>
    have := (List.dropWhile_sublist (l := rest) (· ≠ '}')).length_le
    simp only [List.length_drop, List.length_cons]
    omega
  | case3 rest ih => simp only [List.length_cons]; omega
  | case4 => simp

/-! ## Commands -/

/-- What a command contributes: the text written for it, what is owed when the group it opened
closes, if it opened one, and the text after it. -/
structure Command where
  written : List Char
  owed : Option (List Char) := none
  rest : List Char

/-- The tag that opens an attribute. -/
def openTag (a : Attribute) : List Char := ['<'] ++ (Markup.tagName a).toList ++ ['>']

/-- The tag that closes an attribute. -/
def closeTag (a : Attribute) : List Char := ['<', '/'] ++ (Markup.tagName a).toList ++ ['>']

/-- A command whose name consists of letters; an unknown one is dropped and its argument kept. -/
def Command.named (name : String) (rest : List Char) : Command :=
  match fontAttribute? name with
  | some a =>
    match rest with
    | '{' :: inner => ⟨openTag a, some (closeTag a), inner⟩
    | _ => ⟨openTag a ++ closeTag a, none, rest⟩
  | none =>
    if name = "c" then
      ⟨accented 'c' (accentArgument rest).1, none, (accentArgument rest).2⟩
    else
      match symbol? name with
      | some text => ⟨text.toList, none, if rest.head? = some ' ' then rest.drop 1 else rest⟩
      | none => ⟨[], none, rest⟩

/-- A command that starts with the given character. -/
def Command.start (c : Char) (rest : List Char) : Command :=
  if Text.isAsciiLetter c then
    Command.named (String.ofList ((c :: rest).takeWhile Text.isAsciiLetter))
      ((c :: rest).dropWhile Text.isAsciiLetter)
  else if isAccent c then ⟨accented c (accentArgument rest).1, none, (accentArgument rest).2⟩
  else if c = '\\' then ⟨[' '], none, rest⟩
  else if c = '&' then ⟨Markup.escapeChar '&', none, rest⟩
  else ⟨[c], none, rest⟩

/-- Reads a command after its backslash. -/
def Command.read : List Char → Command
  | [] => ⟨[], none, []⟩
  | c :: rest => Command.start c rest

theorem Command.length_named (name : String) (rest : List Char) :
    (Command.named name rest).rest.length ≤ rest.length := by
  unfold Command.named
  split
  · split
    · simp
    · exact Nat.le_refl _
  · split
    · exact length_accentArgument rest
    · split
      · dsimp only
        split
        · simp
        · exact Nat.le_refl _
      · exact Nat.le_refl _

theorem Command.length_read (s : List Char) : (Command.read s).rest.length ≤ s.length := by
  cases s with
  | nil => exact Nat.le_refl _
  | cons c rest =>
    have h₁ := Command.length_named (String.ofList ((c :: rest).takeWhile Text.isAsciiLetter))
      ((c :: rest).dropWhile Text.isAsciiLetter)
    have h₂ := (List.dropWhile_sublist (l := c :: rest) Text.isAsciiLetter).length_le
    have h₃ := length_accentArgument rest
    simp only [Command.read, Command.start]
    split
    · omega
    · split
      · simp only [List.length_cons]; omega
      · split
        · simp
        · split <;> simp

/-! ## Values -/

/-- What a stretch of hyphens becomes: one stays, two are an en dash, three an em dash, more
stay as they are. -/
def dashes : Nat → List Char
  | 2 => ['–']
  | 3 => ['—']
  | n => List.replicate n '-'

/-- Converts a value, with the texts owed at the closing braces that are still to come. A brace
that closes nothing is dropped; what is still owed at the end is written there. -/
def convert (owed : List (List Char)) : List Char → List Char
  | [] => owed.flatten
  | c :: rest =>
    if c = '\\' then
      let command := Command.read rest
      command.written ++ convert (command.owed.toList ++ owed) command.rest
    else if c = '{' then convert ([] :: owed) rest
    else if c = '}' then owed.headD [] ++ convert owed.tail rest
    else if c = '$' then convert owed rest
    else if c = '~' then '\u00a0' :: convert owed rest
    else if c = '-' then
      dashes (1 + (rest.takeWhile (· = '-')).length) ++ convert owed (rest.dropWhile (· = '-'))
    else Markup.escapeChar c ++ convert owed rest
termination_by s => s.length
decreasing_by
  · have := Command.length_read rest
    simp; omega
  all_goals try simp
  have := (List.dropWhile_sublist (l := rest) (· = '-')).length_le
  simpa [Nat.lt_succ_iff] using this

/-- A LaTeX field value as inline markup. -/
def toMarkup (value : String) : String := String.ofList (convert [] value.toList)

/-- A LaTeX field value as plain text. -/
def toPlain (value : String) : String := Markup.plain (toMarkup value)

end DocCite.Latex
