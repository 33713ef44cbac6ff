/-!
# Letters that tell sources apart

Sources of one author and year get the letters `a` to `z`, then `aa`, `ab` and so on: the words
over the alphabet in the order of their length and then of the alphabet.
-/

namespace DocCite.Marker

/-- The letter at a place of the alphabet. -/
def letterChar (n : Nat) : Char := Char.ofNat (97 + n)

/-- The letters at an index, from the last one to the first. -/
def lettersReversed (n : Nat) : List Char :=
  if n < 26 then [letterChar n]
  else letterChar (n % 26) :: lettersReversed (n / 26 - 1)
termination_by n
decreasing_by omega

/-- The letters at an index. -/
def uniqueLetter (index : Nat) : String := String.ofList (lettersReversed index).reverse

end DocCite.Marker
