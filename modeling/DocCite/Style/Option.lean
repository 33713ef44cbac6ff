import DocCite.Text.Blank
import DocCite.Text.Case
import DocCite.Text.Letter

/-!
# Values of options

The value of an option is an integer, a truth value or a text, told apart by its spelling. One
pair of quotes around a value protects blanks at its ends and is not part of it.
-/

namespace DocCite

/-- The value of an option of a style. -/
inductive OptionValue
  | int (n : Int)
  | bool (b : Bool)
  | text (s : String)
  deriving DecidableEq, Repr

namespace OptionValue

/-- The value as a text. -/
def asText : OptionValue → String
  | int n => toString n
  | bool b => if b then "true" else "false"
  | text s => s

/-- The value without one pair of quotes around it. -/
def unquote (s : List Char) : List Char :=
  match s with
  | '"' :: rest => if rest.getLast? = some '"' then rest.dropLast else s
  | _ => s

/-- The number that digits denote. -/
def ofDigits (digits : List Char) : Nat :=
  digits.foldl (fun n c => 10 * n + (c.toNat - 48)) 0

/-- Integers are 64-bit words. -/
def fitsWord (n : Int) : Bool := -0x8000000000000000 ≤ n && n < 0x8000000000000000

/-- Reads an integer: digits after an optional minus sign. -/
def int? (s : List Char) : Option Int :=
  let (negative, digits) := match s with
    | '-' :: rest => (true, rest)
    | _ => (false, s)
  if digits.isEmpty || !digits.all Text.isAsciiDigit then none
  else
    let n : Int := if negative then -(ofDigits digits : Int) else ofDigits digits
    if fitsWord n then some n else none

/-- The value that a text without quotes spells. -/
def ofSpelling (s : List Char) : OptionValue :=
  match int? s with
  | some n => int n
  | none =>
    if s.map Char.toLower = ['t', 'r', 'u', 'e'] then bool true
    else if s.map Char.toLower = ['f', 'a', 'l', 's', 'e'] then bool false
    else text (String.ofList s)

/-- Reads what stands after the equals sign. -/
def parse (s : List Char) : OptionValue := ofSpelling (unquote (Text.trim s))

end OptionValue

end DocCite
