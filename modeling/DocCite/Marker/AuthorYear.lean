import DocCite.Author.Parser
import DocCite.Citation.Group
import DocCite.Latex
import DocCite.Style.Basic

/-!
# Markers of author and year

Each citation shows its authors and its year; neighbours that show the same and carry letters
share one piece that lists their letters. In brackets a marker reads `(Smith, 2000a, b)`, within
the sentence `Smith (2000a, b)`.
-/

namespace DocCite.Marker

/-- What stands for a key that no database knows. -/
def unresolved (key : String) : String := "Unresolved(" ++ Markup.escape key ++ ")"

/-- The authors in a marker: all of them up to a limit, otherwise the first one and what sums up
the rest. A negative limit is none. -/
def authorList (style : Style) (authors : List Author) (limit : Int) (lastSeparator : String) :
    String :=
  let names := authors.map fun a => Latex.toMarkup a.family
  match names with
  | [] => ""
  | first :: rest =>
    if 0 ≤ limit ∧ limit < (names.length : Int) then first ++ Markup.escape style.etAlString
    else
      match rest.getLast? with
      | none => first
      | some last =>
        (Markup.escape style.authorSeparator).intercalate names.dropLast ++
          (if names.length > 2 then Markup.escape style.oxfordComma else "") ++
          Markup.escape lastSeparator ++ last

/-- The limit on authors that holds for a citation. -/
def authorLimit (style : Style) (isFirst : Bool) : Int :=
  if isFirst ∧ 0 < style.maxAuthorsFirst then style.maxAuthorsFirst else style.maxAuthors

/-- The part of a marker that one source or several alike contribute. -/
inductive Piece
  /-- A key that no database knows. -/
  | unresolved (text : String)
  | source (authors year : String) (letters : List String)
  deriving DecidableEq, Repr

/-- The piece of one citation. -/
def Piece.of (style : Style) (databases : List Database) (inParenthesis : Bool) (limit : Int)
    (c : Citation) : Piece :=
  if c.resolution.isResolved then
    let names := c.resolution.firstField style.authorFields databases
    let lastSeparator :=
      if inParenthesis then style.authorLastSeparator else style.authorLastSeparatorInText
    .source (authorList style (Author.parseList names) limit lastSeparator)
      (Latex.toMarkup (c.resolution.firstField style.yearFields databases))
      (c.letter.toList.map Markup.escape)
  else .unresolved (Marker.unresolved c.key)

/-- The limit on authors for a citation; without a cutoff all authors are shown. -/
def shownLimit (style : Style) (uncut : Bool) (c : Citation) : Int :=
  if uncut then -1 else authorLimit style c.isFirst

/-- Adds a piece behind others. If it carries a letter, and the last of the others shows the same
and has letters too, its letter joins them. -/
def addPiece (shown : List Piece) (p : Piece) : List Piece :=
  match shown.getLast?, p with
  | some (.source authors year (first :: letters)), .source authors' year' [letter] =>
    if authors = authors' ∧ year = year' then
      shown.dropLast ++ [.source authors year (first :: letters ++ [letter])]
    else shown ++ [p]
  | _, _ => shown ++ [p]

/-- The pieces of a marker, without a cutoff if it is to be left out. -/
def pieces (style : Style) (databases : List Database) (inParenthesis uncut : Bool)
    (citations : List Citation) : List Piece :=
  citations.foldl
    (fun shown c =>
      addPiece shown (Piece.of style databases inParenthesis (shownLimit style uncut c) c))
    []

/-- Two texts with a separator between, unless one of them is empty. -/
def joinNonEmpty (a separator b : String) : String :=
  if a = "" then b else if b = "" then a else a ++ separator ++ b

/-- The year of a piece with its letters. -/
def yearText (style : Style) (year : String) (letters : List String) : String :=
  year ++ (Markup.escape style.uniquefierSeparator).intercalate letters

/-- A piece in brackets that it shares with others. -/
def Piece.parenthetical (style : Style) : Piece → String
  | .unresolved text => text
  | .source authors year letters =>
    joinNonEmpty authors (Markup.escape style.yearSeparator) (yearText style year letters)

/-- A piece within the sentence, with brackets of its own around the year. -/
def Piece.inText (style : Style) : Piece → String
  | .unresolved text => text
  | .source authors year letters =>
    let shown := yearText style year letters
    if shown = "" then authors
    else
      authors ++ Markup.escape style.inTextYearSeparator ++ Markup.escape style.bracketBefore ++
        shown ++ Markup.escape style.bracketAfter

/-- Puts a text into the brackets of markers. -/
def bracketed (style : Style) (text : String) : String :=
  Markup.escape style.bracketBefore ++ text ++ Markup.escape style.bracketAfter

/-- The marker of author and year for citations in the order given. -/
def authorYear (style : Style) (databases : List Database) (citations : List Citation)
    (inParenthesis : Bool) : String :=
  let separator := Markup.escape style.citationSeparator
  let shown := pieces style databases inParenthesis false citations
  if inParenthesis then
    bracketed style (separator.intercalate (shown.map (Piece.parenthetical style)))
  else separator.intercalate (shown.map (Piece.inText style))

/-- The marker of one source without cutoff and letter; sources whose markers agree in this form
need letters. -/
def normalized (style : Style) (databases : List Database) (key : String)
    (resolution : Resolution) : String :=
  bracketed style
    ((Piece.of style databases true (-1) { key := key, resolution := resolution }).parenthetical
      style)

end DocCite.Marker
