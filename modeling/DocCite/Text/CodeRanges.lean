/-!
# Classes of characters as intervals of code points

A class of characters is an ascending list of disjoint closed intervals, read from the left and
left as soon as an interval starts above the code point asked for.
-/

namespace DocCite.Text

/-- An ascending list of disjoint closed intervals of code points. -/
abbrev CodeRanges := List (Nat × Nat)

namespace CodeRanges

/-- Membership of a code point in an ascending list of intervals. -/
def has : CodeRanges → Nat → Bool
  | [], _ => false
  | (lo, hi) :: rest, n => if n < lo then false else if n ≤ hi then true else has rest n

theorem has_cons (lo hi : Nat) (rest : CodeRanges) (n : Nat) :
    has ((lo, hi) :: rest) n = if n < lo then false else if n ≤ hi then true else has rest n :=
  rfl

end CodeRanges

end DocCite.Text
