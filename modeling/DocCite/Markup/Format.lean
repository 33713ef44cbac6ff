/-!
# Character formats

Eight direct attributes a stretch of text can carry. A format is a set of them; its names are
listed in one fixed order, and markup nests its tags in another.
-/

namespace DocCite

/-- A direct character attribute. -/
inductive Attribute
  | bold
  | italic
  | superscript
  | subscript
  | underline
  | strikeout
  | smallCaps
  | monospace
  deriving DecidableEq, Repr

/-- The direct attributes of a stretch of text. -/
structure TextFormat where
  bold : Bool := false
  italic : Bool := false
  superscript : Bool := false
  subscript : Bool := false
  underline : Bool := false
  strikeout : Bool := false
  smallCaps : Bool := false
  monospace : Bool := false
  deriving DecidableEq, Repr, Inhabited

namespace Attribute

/-- Every attribute, in the order in which formats are named. -/
def all : List Attribute :=
  [bold, italic, superscript, subscript, underline, strikeout, smallCaps, monospace]

/-- The name of an attribute. -/
def name : Attribute → String
  | bold => "bold"
  | italic => "italic"
  | superscript => "superscript"
  | subscript => "subscript"
  | underline => "underline"
  | strikeout => "strikeout"
  | smallCaps => "small_caps"
  | monospace => "monospace"

end Attribute

namespace TextFormat

/-- The format without attributes. -/
def plain : TextFormat := {}

/-- The format with exactly the attributes a test accepts. -/
def ofTest (on : Attribute → Bool) : TextFormat :=
  ⟨on .bold, on .italic, on .superscript, on .subscript, on .underline, on .strikeout,
    on .smallCaps, on .monospace⟩

/-- Whether a format has an attribute. -/
def has (f : TextFormat) : Attribute → Bool
  | .bold => f.bold
  | .italic => f.italic
  | .superscript => f.superscript
  | .subscript => f.subscript
  | .underline => f.underline
  | .strikeout => f.strikeout
  | .smallCaps => f.smallCaps
  | .monospace => f.monospace

/-- A format and a test of its attributes are the same thing. -/
theorem has_ofTest (on : Attribute → Bool) (a : Attribute) : (ofTest on).has a = on a := by
  cases a <;> rfl

@[simp] theorem ofTest_has (f : TextFormat) : ofTest f.has = f := rfl

/-- Whether no attribute is set. -/
def isPlain (f : TextFormat) : Bool := f == plain

/-- Attributes set in either format. -/
def union (f g : TextFormat) : TextFormat := ofTest fun a => f.has a || g.has a

/-- The format with the attributes listed. -/
def ofList (attributes : List Attribute) : TextFormat := ofTest fun a => attributes.contains a

/-- The attributes of a format, in the order in which they are named. -/
def attributes (f : TextFormat) : List Attribute := Attribute.all.filter f.has

end TextFormat

end DocCite
