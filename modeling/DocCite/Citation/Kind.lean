/-!
# Kinds of citation

A citation group stands in brackets, is part of the sentence, or is invisible: listed in the
bibliography without being shown. Each kind has a digit, the one that mark names carry.
-/

namespace DocCite

/-- How a citation group is shown in the text. -/
inductive CitationKind
  /-- Author and year in brackets. -/
  | parenthetical
  /-- The author in the sentence, the year in brackets. -/
  | inText
  /-- Listed in the bibliography, not shown. -/
  | invisible
  deriving DecidableEq, Repr, Inhabited

namespace CitationKind

/-- The digit of a kind. -/
def code : CitationKind → Nat
  | parenthetical => 1
  | inText => 2
  | invisible => 3

/-- The kind with a digit. -/
def ofCode? : Nat → Option CitationKind
  | 1 => some parenthetical
  | 2 => some inText
  | 3 => some invisible
  | _ => none

@[simp] theorem ofCode?_code (k : CitationKind) : ofCode? k.code = some k := by cases k <;> rfl

/-- The kind chosen by the two boxes of an insertion dialog. -/
def ofOptions (withText inParenthesis : Bool) : CitationKind :=
  if !withText then invisible else if inParenthesis then parenthetical else inText

/-- Whether the group stands in brackets. -/
def inParenthesis (k : CitationKind) : Bool := k != inText

/-- Whether the group is shown. -/
def withText (k : CitationKind) : Bool := k != invisible

/-- The name of a kind. -/
def name : CitationKind → String
  | parenthetical => "parenthetical"
  | inText => "in-text"
  | invisible => "invisible"

end CitationKind

end DocCite
