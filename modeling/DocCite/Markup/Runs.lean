import DocCite.Markup.Format

/-!
# Inline markup

Markers and bibliography entries are strings with a small set of tags and entities. Reading
markup gives each visible character its format (`glyphs`); neighbouring characters of one format
form a run (`runs`). `escape` writes text that reads back as itself, `wrap` puts text into the
tags of a format.
-/

namespace DocCite.Markup

/-! ## Tags and entities -/

/-- The attribute a tag name stands for; letters count in either case. -/
def attribute? (name : List Char) : Option Attribute :=
  match name.map Char.toLower with
  | ['b'] => some .bold
  | ['i'] => some .italic
  | ['e', 'm'] => some .italic
  | ['s', 'u', 'p'] => some .superscript
  | ['s', 'u', 'b'] => some .subscript
  | ['u'] => some .underline
  | ['s'] => some .strikeout
  | ['s', 'm', 'a', 'l', 'l', 'c', 'a', 'p', 's'] => some .smallCaps
  | ['t', 't'] => some .monospace
  | _ => none

/-- The name of the tag written for an attribute. -/
def tagName : Attribute → String
  | .bold => "b"
  | .italic => "i"
  | .superscript => "sup"
  | .subscript => "sub"
  | .underline => "u"
  | .strikeout => "s"
  | .smallCaps => "smallcaps"
  | .monospace => "tt"

/-- One unit of markup: a visible character, or a tag. -/
inductive Token
  | char (c : Char)
  | opening (a : Attribute)
  | closing (a : Attribute)
  deriving DecidableEq, Repr

/-- Reads the name of a tag up to `>` and looks it up. -/
def readTagName (s : List Char) : Option (Attribute × List Char) :=
  match s.dropWhile (· ≠ '>') with
  | [] => none
  | _ :: rest => (attribute? (s.takeWhile (· ≠ '>'))).map fun a => (a, rest)

theorem length_of_readTagName {s : List Char} {r : Attribute × List Char}
    (h : readTagName s = some r) : r.2.length < s.length := by
  unfold readTagName at h
  have hle : (s.dropWhile (· ≠ '>')).length ≤ s.length := (List.dropWhile_sublist _).length_le
  split at h
  · simp at h
  · next c rest heq =>
    rw [heq] at hle
    simp only [Option.map_eq_some_iff] at h
    obtain ⟨a, _, rfl⟩ := h
    simpa [Nat.succ_le_iff] using hle

/-- Reads a known tag after its `<`. -/
def readTag : List Char → Option (Token × List Char)
  | '/' :: s => (readTagName s).map fun (a, rest) => (.closing a, rest)
  | s => (readTagName s).map fun (a, rest) => (.opening a, rest)

theorem length_of_readTag {s : List Char} {r : Token × List Char} (h : readTag s = some r) :
    r.2.length ≤ s.length := by
  unfold readTag at h
  split at h
  · simp only [Option.map_eq_some_iff] at h
    obtain ⟨p, hp, rfl⟩ := h
    have := length_of_readTagName hp
    simp only [List.length_cons]
    omega
  · simp only [Option.map_eq_some_iff] at h
    obtain ⟨p, hp, rfl⟩ := h
    have := length_of_readTagName hp
    exact Nat.le_of_lt this

/-- Reads a known entity after its `&`. -/
def readEntity : List Char → Option (Char × List Char)
  | 'a' :: 'm' :: 'p' :: ';' :: rest => some ('&', rest)
  | 'l' :: 't' :: ';' :: rest => some ('<', rest)
  | 'g' :: 't' :: ';' :: rest => some ('>', rest)
  | 'q' :: 'u' :: 'o' :: 't' :: ';' :: rest => some ('"', rest)
  | 'a' :: 'p' :: 'o' :: 's' :: ';' :: rest => some ('\'', rest)
  | 'n' :: 'b' :: 's' :: 'p' :: ';' :: rest => some (Char.ofNat 160, rest)
  | _ => none

theorem length_of_readEntity {s : List Char} {r : Char × List Char}
    (h : readEntity s = some r) : r.2.length ≤ s.length := by
  unfold readEntity at h
  split at h <;> simp at h <;> subst h <;> simp <;> omega

/-- The units of a markup text. A `<` that opens no known tag and a `&` that opens no known
entity are visible characters. -/
def tokens : List Char → List Token
  | [] => []
  | c :: s =>
    if c = '<' then
      match _found : readTag s with
      | some r => r.1 :: tokens r.2
      | none => .char c :: tokens s
    else if c = '&' then
      match _found : readEntity s with
      | some r => .char r.1 :: tokens r.2
      | none => .char c :: tokens s
    else .char c :: tokens s
termination_by s => s.length
decreasing_by
  · have := length_of_readTag _found
    simp only [List.length_cons]; omega
  · simp
  · have := length_of_readEntity _found
    simp only [List.length_cons]; omega
  · simp
  · simp

/-! ## Formats of characters -/

/-- A visible character and its format. -/
structure Glyph where
  char : Char
  format : TextFormat
  deriving DecidableEq, Repr

/-- How many tags of each attribute are open. -/
abbrev Depths := Attribute → Nat

namespace Depths

/-- No tag is open. -/
def zero : Depths := fun _ => 0

/-- One more tag of an attribute is open. -/
def push (d : Depths) (a : Attribute) : Depths := fun b => if b = a then d b + 1 else d b

/-- One tag of an attribute less is open; closing what is not open changes nothing. -/
def pop (d : Depths) (a : Attribute) : Depths := fun b => if b = a then d b - 1 else d b

/-- The attributes of which some tag is open. -/
def format (d : Depths) : TextFormat := TextFormat.ofTest fun a => d a != 0

end Depths

/-- The characters of a sequence of units, each with the attributes open where it stands. -/
def glyphsOf : Depths → List Token → List Glyph
  | _, [] => []
  | d, .char c :: rest => ⟨c, d.format⟩ :: glyphsOf d rest
  | d, .opening a :: rest => glyphsOf (d.push a) rest
  | d, .closing a :: rest => glyphsOf (d.pop a) rest

/-- The visible characters of a markup text with their formats. -/
def glyphs (markup : List Char) : List Glyph := glyphsOf Depths.zero (tokens markup)

/-! ## Runs -/

/-- Text with uniform formatting. -/
structure Run where
  text : String
  format : TextFormat
  deriving DecidableEq, Repr

/-- The maximal stretches of one format, as characters. -/
def stretches : List Glyph → List (List Char × TextFormat)
  | [] => []
  | g :: rest =>
    match stretches rest with
    | [] => [([g.char], g.format)]
    | (text, format) :: more =>
      if format = g.format then (g.char :: text, format) :: more
      else ([g.char], g.format) :: (text, format) :: more

/-- The runs of a markup text: no text is empty, and neighbours differ in format. -/
def runs (markup : String) : List Run :=
  (stretches (glyphs markup.toList)).map fun (text, format) => ⟨String.ofList text, format⟩

/-- The characters of a markup text with tags removed and entities decoded. -/
def plainChars (markup : List Char) : List Char := (glyphs markup).map Glyph.char

/-- Markup with tags removed and entities decoded. -/
def plain (markup : String) : String := String.ofList (plainChars markup.toList)

theorem flatMap_stretches (gs : List Glyph) :
    (stretches gs).flatMap Prod.fst = gs.map Glyph.char := by
  induction gs with
  | nil => rfl
  | cons g rest ih =>
    rw [stretches]
    split
    · next h => rw [h] at ih; rw [List.map_cons, ← ih]; rfl
    · next text format more h =>
      rw [h] at ih
      rw [List.map_cons, ← ih]
      split <;> rfl

/-- **The runs of a markup text hold its visible characters.** -/
theorem join_text_runs (markup : String) :
    (String.join ((runs markup).map Run.text)).toList = plainChars markup.toList := by
  rw [String.toList_join, runs, List.map_map, List.flatMap_map, plainChars, ← flatMap_stretches]
  refine congrArg (fun f => List.flatMap f _) (funext fun part => ?_)
  exact String.toList_ofList

/-! ## Writing markup -/

/-- One character as markup that reads back as it. -/
def escapeChar (c : Char) : List Char :=
  if c = '&' then ['&', 'a', 'm', 'p', ';']
  else if c = '<' then ['&', 'l', 't', ';']
  else if c = '>' then ['&', 'g', 't', ';']
  else [c]

/-- Text as markup that reads back as it. -/
def escapeChars (s : List Char) : List Char := s.flatMap escapeChar

/-- Text as markup that reads back as it. -/
def escape (s : String) : String := String.ofList (escapeChars s.toList)

/-- The attributes in the order in which their tags are put around a text, innermost first. -/
def nesting : List Attribute :=
  [.italic, .bold, .superscript, .subscript, .underline, .strikeout, .smallCaps, .monospace]

/-- Puts a markup text into the tags of the attributes of a format. -/
def wrap (inner : String) (format : TextFormat) : String :=
  (nesting.filter format.has).foldl
    (fun text a => "<" ++ tagName a ++ ">" ++ text ++ "</" ++ tagName a ++ ">") inner

end DocCite.Markup
