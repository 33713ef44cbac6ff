import DocCite.Datum.Basic
import DocCite.Datum.Yaml.Place

/-!
# Scalars of YAML text

Plain, quoted and block scalars. In the first two a line end stands for a blank and further line
ends for themselves; a block keeps its lines, or folds those that are not set in further.
-/

namespace DocCite.Yaml

/-- How a scalar is written, as far as it bears on its type: without quotes it may be anything, as
a literal block what its tag says, and else a text. -/
inductive Form
  | plain
  | literal
  | text
  deriving DecidableEq

/-! ## Line folding -/

/-- Blanks and line ends inside a scalar, before it is known whether the scalar goes on. -/
structure Gap where
  /-- The blanks of the first line, the last one first. -/
  blanks : List Char := []
  /-- Whether a line end has come. -/
  folded : Bool := false
  first : Option Char := none
  /-- The line ends after the first, the last one first. -/
  further : List Char := []

namespace Gap

/-- The gap with one more blank. Blanks at the start of a line do not count. -/
def blank (g : Gap) (c : Char) : Gap :=
  if g.folded then g else { g with blanks := c :: g.blanks }

/-- The gap with one more line end. -/
def lineEnd (g : Gap) (c : Char) : Gap :=
  if g.folded then { g with further := breakText c :: g.further }
  else { blanks := [], folded := true, first := some (breakText c), further := [] }

/-- Whether nothing has come. -/
def isEmpty (g : Gap) : Bool := g.blanks.isEmpty && !g.folded

/-- What a gap inside a scalar stands for, the last character first. -/
def text (g : Gap) : List Char :=
  if !g.folded then g.blanks
  else
    match g.first with
    | some '\n' => if g.further.isEmpty then [' '] else g.further
    | some c => g.further ++ [c]
    | none => g.further

end Gap

/-! ## Plain scalars -/

/-- A character that structures flow collections. -/
def isFlowMark (c : Char) : Bool := [',', '[', ']', '{', '}'].contains c

/-- Whether a plain scalar can start here. -/
def startsPlain (flow : Bool) : List Char → Bool
  | [] => false
  | c :: rest =>
    if c = '-' then !(rest.head?.map isSpace).getD false
    else if c = '?' || c = ':' then !flow && !atGap rest
    else
      !isSpace c && !isBreak c && !isFlowMark c &&
        !(['#', '&', '*', '!', '|', '>', '\'', '"', '%', '@', Char.ofNat 96].contains c)

/-- What has been read of a scalar, and where it ends. -/
structure Reading where
  text : List Char
  /-- Whether the scalar is followed by the start of a line. -/
  freshLine : Bool := false
  place : Place
  rest : List Char

/-- Reads a plain scalar whose further lines stand at a column of at least `indent`. What has been
read comes last character first. A colon in front of a flow mark is refused in a flow collection,
and so is a tab in the indentation. -/
def plainFrom (flow : Bool) (indent : Int) (done : List Char) (gap : Gap) (p : Place) :
    List Char → Option Reading
  | [] => some ⟨done.reverse, gap.folded, p, []⟩
  | c :: rest =>
    if isSpace c then
      if gap.folded && p.column < indent && c = '\t' then none
      else plainFrom flow indent done (gap.blank c) p.next rest
    else if isHalfBreak c rest then plainFrom flow indent done gap p.next rest
    else if isBreak c then plainFrom flow indent done (gap.lineEnd c) p.nextLine rest
    else if !gap.isEmpty &&
        ((!flow && p.column < indent) || atMarker p (c :: rest) || c = '#') then
      some ⟨done.reverse, gap.folded, p, c :: rest⟩
    else if flow && c = ':' && (rest.head?.map fun d => isFlowMark d || d = '?').getD false then none
    else if (c = ':' && atGap rest) || (flow && isFlowMark c) then
      some ⟨done.reverse, gap.folded, p, c :: rest⟩
    else plainFrom flow indent (c :: (gap.text ++ done)) {} p.next rest

/-! ## Quoted scalars -/

/-- Reads a scalar in single quotes after the opening one; two quotes stand for one. -/
def singleFrom (done : List Char) (gap : Gap) (p : Place) : List Char → Option Reading
  | [] => none
  | c :: rest =>
    if isSpace c then singleFrom done (gap.blank c) p.next rest
    else if isHalfBreak c rest then singleFrom done gap p.next rest
    else if isBreak c then singleFrom done (gap.lineEnd c) p.nextLine rest
    else if atMarker p (c :: rest) then none
    else if c = '\'' then
      match rest with
      | '\'' :: more => singleFrom ('\'' :: (gap.text ++ done)) {} (p.after 2) more
      | _ => some ⟨(gap.text ++ done).reverse, false, p.next, rest⟩
    else singleFrom (c :: (gap.text ++ done)) {} p.next rest

/-- The characters that a backslash and a letter stand for. -/
def escapes : List (Char × Nat) :=
  [('0', 0), ('a', 7), ('b', 8), ('t', 9), ('\t', 9), ('n', 10), ('v', 11), ('f', 12), ('r', 13),
    ('e', 27), (' ', 32), ('"', 34), ('/', 47), ('\\', 92), ('N', 0x85), ('_', 0xA0),
    ('L', 0x2028), ('P', 0x2029)]

/-- How many digits of base sixteen follow the letter of an escape. -/
def escapeWidth : Char → Nat
  | 'x' => 2
  | 'u' => 4
  | 'U' => 8
  | _ => 0

/-- Reads an escape after its backslash: the character it stands for, and its length. -/
def escape? (c : Char) (rest : List Char) : Option (Char × Nat) :=
  match escapeWidth c with
  | 0 => (escapes.lookup c).map fun n => (Char.ofNat n, 0)
  | width =>
    let digits := rest.take width
    match Datum.digits? 16 digits with
    | some n => if digits.length = width && n.isValidChar then some (Char.ofNat n, width) else none
    | none => none

/-- Reads a scalar in double quotes after the opening one. A backslash at the end of a line joins
it with the next one, without a blank. -/
def doubleFrom (done : List Char) (gap : Gap) (p : Place) (s : List Char) : Option Reading :=
  match s with
  | [] => none
  | c :: rest =>
    if isSpace c then doubleFrom done (gap.blank c) p.next rest
    else if isHalfBreak c rest then doubleFrom done gap p.next rest
    else if isBreak c then doubleFrom done (gap.lineEnd c) p.nextLine rest
    else if atMarker p (c :: rest) then none
    else if c = '"' then some ⟨(gap.text ++ done).reverse, false, p.next, rest⟩
    else if c = '\\' then
      match rest with
      | [] => none
      | d :: more =>
        if isBreak d then
          doubleFrom (gap.text ++ done) { folded := true } p.nextLine
            (if isHalfBreak d more then more.drop 1 else more)
        else
          match escape? d more with
          | none => none
          | some (e, width) =>
            doubleFrom (e :: (gap.text ++ done)) {} (p.after (2 + width)) (more.drop width)
    else doubleFrom (c :: (gap.text ++ done)) {} p.next rest
termination_by s.length
decreasing_by
  · simp
  · simp
  · simp
  · split <;> simp only [List.length_drop, List.length_cons] <;> omega
  · simp only [List.length_drop, List.length_cons]; omega
  · simp

/-! ## Block scalars -/

/-- How the line ends at the end of a block scalar are kept. -/
inductive Chomping
  | strip
  | clip
  | keep
  deriving DecidableEq

/-- The chomping that a sign stands for. -/
def Chomping.ofSign? : Char → Option Chomping
  | '+' => some .keep
  | '-' => some .strip
  | _ => none

/-- Reads what follows the indicator of a block scalar: how it is chomped and how far it is set in,
in either order; nothing if it is set in by zero. -/
def blockHeader? (s : List Char) : Option (Chomping × Option Nat × List Char) :=
  let depth? (s : List Char) : Option (Option Nat × List Char) :=
    match s with
    | d :: rest =>
      if d = '0' then none
      else if Text.isAsciiDigit d then some (some (d.toNat - 48), rest)
      else some (none, s)
    | [] => some (none, [])
  match s.head?.bind Chomping.ofSign? with
  | some chomping => do
    let (depth, rest) ← depth? (s.drop 1)
    some (chomping, depth, rest)
  | none => do
    let (depth, rest) ← depth? s
    match depth, rest.head?.bind Chomping.ofSign? with
    | some depth, some chomping => some (chomping, some depth, rest.drop 1)
    | _, _ => some (.clip, depth, rest)

/-- The lines without text in a block scalar: the widest column they reach, their line ends, the
last one first, and where they end. -/
structure EmptyLines where
  widest : Nat
  breaks : List Char
  place : Place
  rest : List Char

/-- Passes over the indentation of a line, and over lines that hold nothing else. The indentation
is `indent` columns wide, or as wide as can be if that is zero; a tab in it is refused. -/
def emptyLines (indent widest : Nat) (breaks : List Char) (p : Place) :
    List Char → Option EmptyLines
  | [] => some ⟨max widest p.column, breaks, p, []⟩
  | c :: rest =>
    let inside := indent = 0 || p.column < indent
    if inside && c = ' ' then emptyLines indent widest breaks p.next rest
    else if inside && c = '\t' then none
    else if isHalfBreak c rest then emptyLines indent (max widest p.column) breaks p.next rest
    else if isBreak c then
      emptyLines indent (max widest p.column) (breakText c :: breaks) p.nextLine rest
    else some ⟨max widest p.column, breaks, p, c :: rest⟩

/-- What has been read of a block scalar. -/
structure BlockReading where
  /-- The text, last character first, without the line ends after it. -/
  done : List Char := []
  /-- The line end of the last line of text. -/
  lineEnd : Option Char := none
  /-- Whether the last line of text starts with a blank. -/
  setIn : Bool := false

/-- Reads the lines of a block scalar that is set in by `indent`, where empty lines have been read
already. The first argument bounds the number of lines. -/
def blockLines (folded : Bool) (indent : Nat) :
    Nat → BlockReading → EmptyLines → Option (BlockReading × EmptyLines)
  | 0, read, empty => some (read, empty)
  | n + 1, read, empty =>
    match empty.rest with
    | [] => some (read, empty)
    | c :: _ =>
      if empty.place.column = indent then do
        let setIn := isSpace c
        let joined := folded && read.lineEnd = some '\n' && !read.setIn && !setIn
        let between :=
          if joined then (if empty.breaks.isEmpty then [' '] else [])
          else read.lineEnd.toList
        let line := empty.rest.takeWhile (!isBreak ·)
        let p := empty.place.after line.length
        let read' := line.reverse ++ (empty.breaks ++ (between ++ read.done))
        match empty.rest.dropWhile (!isBreak ·) with
        | [] => some (⟨read', none, setIn⟩, ⟨0, [], p, []⟩)
        | b :: rest =>
          let more ← emptyLines indent 0 [] p.nextLine (if isHalfBreak b rest then rest.drop 1 else rest)
          blockLines folded indent n ⟨read', some (breakText b), setIn⟩ more
      else some (read, empty)

/-- The text from its first character that is no blank. -/
def skipSpaces (s : List Char) : List Char := s.dropWhile isSpace

/-- Passes over blanks, a comment and the line end that has to follow. -/
def endOfLine? (p : Place) (s : List Char) : Option (Place × List Char) :=
  let start := skipSpaces s
  let stop := if start.head? = some '#' then start.dropWhile (!isBreak ·) else start
  let p := p.after (s.length - stop.length)
  match stop with
  | [] => some (p, [])
  | c :: rest =>
    if isHalfBreak c rest then some (p.nextLine, rest.drop 1)
    else if isBreak c then some (p.nextLine, rest)
    else none

/-- Reads a block scalar after its indicator, in a collection whose lines start at the column
`parent`. Without a number in its header its first line of text says how far it is set in. -/
def blockFrom (folded : Bool) (parent : Int) (p : Place) (s : List Char) : Option Reading := do
  let (chomping, depth, afterHeader) ← blockHeader? s
  let (p, body) ← endOfLine? (p.after (s.length - afterHeader.length)) afterHeader
  let given := match depth with
    | some depth => parent.toNat + depth
    | none => 0
  let empty ← emptyLines given 0 [] p body
  let indent := if given = 0 then max (max empty.widest (parent + 1).toNat) 1 else given
  let (read, empty) ← blockLines folded indent body.length {} empty
  let closing := match chomping with
    | .strip => []
    | .clip => read.lineEnd.toList
    | .keep => empty.breaks ++ read.lineEnd.toList
  some ⟨(closing ++ read.done).reverse, true, empty.place, empty.rest⟩

end DocCite.Yaml
