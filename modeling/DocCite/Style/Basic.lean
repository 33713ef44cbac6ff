import DocCite.Markup.Format
import DocCite.Style.Layout
import DocCite.Style.Option
import DocCite.Keyed

/-!
# Styles

A style says how markers and references look. It has a name, layouts by type of entry, options of
the bibliography and of the markers, and a list of journals. Options that are not set have
defaults; an option of the wrong type counts as zero, as false, or as its spelling.
-/

namespace DocCite

/-- A style; every option of `properties` and `citationOptions` is set at most once. -/
structure Style where
  name : String := ""
  journals : List String := []
  layouts : Keyed String Layout := []
  defaultLayout : Layout := []
  properties : Keyed String OptionValue := []
  citationOptions : Keyed String OptionValue := []

namespace Style

/-! ## Defaults -/

/-- The options of the bibliography that are set from the start. -/
def defaultProperties : Keyed String OptionValue :=
  [("Title", .text "Bibliography"),
   ("SortAlgorithm", .text "alphanumeric"),
   ("IsSortByPosition", .bool false),
   ("IsNumberEntries", .bool false),
   ("ReferenceParagraphFormat", .text "Standard"),
   ("ReferenceHeaderParagraphFormat", .text "Heading 1")]

/-- The options of markers that are set from the start. -/
def defaultCitationOptions : Keyed String OptionValue :=
  [("AuthorField", .text "author/editor"),
   ("YearField", .text "year"),
   ("MaxAuthors", .int 3),
   ("MaxAuthorsFirst", .int (-1)),
   ("AuthorSeparator", .text ", "),
   ("AuthorLastSeparator", .text " & "),
   ("OxfordComma", .text ""),
   ("EtAlString", .text " et al."),
   ("YearSeparator", .text ", "),
   ("InTextYearSeparator", .text " "),
   ("BracketBefore", .text "("),
   ("BracketAfter", .text ")"),
   ("CitationSeparator", .text "; "),
   ("PageInfoSeparator", .text "; "),
   ("UniquefierSeparator", .text ", "),
   ("GroupedNumbersSeparator", .text "-"),
   ("MinimumGroupingCount", .int 3),
   ("FormatCitations", .bool false),
   ("CitationCharacterFormat", .text "Standard"),
   ("ItalicCitations", .bool false),
   ("BoldCitations", .bool false),
   ("SuperscriptCitations", .bool false),
   ("SubscriptCitations", .bool false),
   ("MultiCiteChronological", .bool true),
   ("CitationKeyCiteMarkers", .bool false),
   ("ItalicEtAl", .bool false),
   ("CitationGroupMarkupBefore", .text ""),
   ("CitationGroupMarkupAfter", .text "")]

/-- A style in which nothing has been set. -/
def blank : Style :=
  { properties := defaultProperties, citationOptions := defaultCitationOptions }

/-! ## Reading options -/

/-- The spelling of an option of the bibliography. -/
def property (s : Style) (name : String) : String :=
  ((s.properties.get? name).map OptionValue.asText).getD ""

/-- Whether an option of the bibliography is set to true. -/
def propertyHolds (s : Style) (name : String) : Bool :=
  s.properties.get? name == some (.bool true)

/-- The spelling of an option of markers, if it is set. -/
def citationText? (s : Style) (name : String) : Option String :=
  (s.citationOptions.get? name).map OptionValue.asText

/-- The spelling of an option of markers. -/
def citationText (s : Style) (name : String) : String := (s.citationText? name).getD ""

/-- The number an option of markers is set to. -/
def citationInt (s : Style) (name : String) : Int :=
  match s.citationOptions.get? name with
  | some (.int n) => n
  | _ => 0

/-- Whether an option of markers is set to true. -/
def citationHolds (s : Style) (name : String) : Bool :=
  s.citationOptions.get? name == some (.bool true)

/-- The names of fields in a list with slashes between them. -/
def fieldNames (value : String) : List String :=
  ((Text.splitOn '/' value.toList).map fun f => String.ofList (Text.lower (Text.trim f))).filter
    (· ≠ "")

/-! ## The bibliography -/

/-- The heading of the bibliography. -/
def title (s : Style) : String := s.property "Title"

/-- The name of the order of the bibliography. -/
def sortAlgorithm (s : Style) : String := s.property "SortAlgorithm"

/-- Whether the bibliography is in order of first citation. -/
def isSortByPosition (s : Style) : Bool := s.propertyHolds "IsSortByPosition"

/-- Whether references are numbered. -/
def isNumeric (s : Style) : Bool := s.propertyHolds "IsNumberEntries"

/-- The paragraph style of references. -/
def referenceParagraphFormat (s : Style) : String := s.property "ReferenceParagraphFormat"

/-- The paragraph style of the heading. -/
def referenceHeaderParagraphFormat (s : Style) : String :=
  s.property "ReferenceHeaderParagraphFormat"

/-! ## Markers -/

/-- The fields tried in order for the authors. -/
def authorFields (s : Style) : List String := fieldNames (s.citationText "AuthorField")

/-- The fields tried in order for the year. -/
def yearFields (s : Style) : List String := fieldNames (s.citationText "YearField")

/-- How many authors are named before the rest is summed up. -/
def maxAuthors (s : Style) : Int := s.citationInt "MaxAuthors"

/-- The same for the first citation of a source; negative when there is no such limit. -/
def maxAuthorsFirst (s : Style) : Int := s.citationInt "MaxAuthorsFirst"

def authorSeparator (s : Style) : String := s.citationText "AuthorSeparator"

def authorLastSeparator (s : Style) : String := s.citationText "AuthorLastSeparator"

/-- What stands before the last author in a marker that is part of the sentence. -/
def authorLastSeparatorInText (s : Style) : String :=
  (s.citationText? "AuthorLastSeparatorInText").getD s.authorLastSeparator

def oxfordComma (s : Style) : String := s.citationText "OxfordComma"

def etAlString (s : Style) : String := s.citationText "EtAlString"

def yearSeparator (s : Style) : String := s.citationText "YearSeparator"

def inTextYearSeparator (s : Style) : String := s.citationText "InTextYearSeparator"

def bracketBefore (s : Style) : String := s.citationText "BracketBefore"

def bracketAfter (s : Style) : String := s.citationText "BracketAfter"

/-- The bracket that faces another one. -/
def facing? : Char → Option Char
  | '(' => some ')'
  | ')' => some '('
  | '[' => some ']'
  | ']' => some '['
  | '{' => some '}'
  | '}' => some '{'
  | '<' => some '>'
  | '>' => some '<'
  | _ => none

/-- The brackets that face others, from right to left; nothing if some character is none. -/
def facingAll? (brackets : String) : Option String :=
  match brackets.toList.reverse.mapM facing? with
  | some [] => none
  | some mirrored => some (String.ofList mirrored)
  | none => none

/-- The bracket before a number in the bibliography: the one that is set, else the one that
faces the closing one, else the one of markers. -/
def bracketBeforeInList (s : Style) : String :=
  match s.citationText? "BracketBeforeInList", s.citationText? "BracketAfterInList" with
  | some before, _ => before
  | none, some after => (facingAll? after).getD s.bracketBefore
  | none, none => s.bracketBefore

/-- The bracket after a number in the bibliography. -/
def bracketAfterInList (s : Style) : String :=
  match s.citationText? "BracketBeforeInList", s.citationText? "BracketAfterInList" with
  | _, some after => after
  | some before, none => (facingAll? before).getD s.bracketAfter
  | none, none => s.bracketAfter

def citationSeparator (s : Style) : String := s.citationText "CitationSeparator"

def pageInfoSeparator (s : Style) : String := s.citationText "PageInfoSeparator"

/-- What stands between the letters of one author and year. -/
def uniquefierSeparator (s : Style) : String := s.citationText "UniquefierSeparator"

def groupedNumbersSeparator (s : Style) : String := s.citationText "GroupedNumbersSeparator"

/-- How many numbers in a row are written as a range; zero when it is negative. -/
def minimumGroupingCount (s : Style) : Nat := (s.citationInt "MinimumGroupingCount").toNat

/-- Whether markers carry a character style. -/
def formatCitations (s : Style) : Bool := s.citationHolds "FormatCitations"

/-- The character style of markers. -/
def citationCharacterFormat (s : Style) : String := s.citationText "CitationCharacterFormat"

/-- The direct format of markers. -/
def citationFormat (s : Style) : TextFormat :=
  { italic := s.citationHolds "ItalicCitations"
    bold := s.citationHolds "BoldCitations"
    superscript := s.citationHolds "SuperscriptCitations"
    subscript := s.citationHolds "SubscriptCitations" }

/-- Whether the citations of one group are in order of their years. -/
def multiCiteChronological (s : Style) : Bool := s.citationHolds "MultiCiteChronological"

/-- Whether markers show citation keys. -/
def citationKeyMarkers (s : Style) : Bool :=
  s.citationHolds "CitationKeyCiteMarkers" || s.citationHolds "BibTeXKeyCitations"

def italicEtAl (s : Style) : Bool := s.citationHolds "ItalicEtAl"

def citationGroupMarkupBefore (s : Style) : String := s.citationText "CitationGroupMarkupBefore"

def citationGroupMarkupAfter (s : Style) : String := s.citationText "CitationGroupMarkupAfter"

/-! ## Layouts and journals -/

/-- The layout for a type of entries. -/
def layoutFor (s : Style) (type : String) : Layout :=
  (s.layouts.get? (lowercase type)).getD s.defaultLayout

/-- The types with a layout of their own. -/
def layoutTypes (s : Style) : List String := s.layouts.map Prod.fst

/-- A journal put into a sorted list in which no journal occurs twice. -/
def insertJournal (name : String) : List String → List String
  | [] => [name]
  | other :: rest =>
    if name = other then other :: rest
    else if name < other then name :: other :: rest
    else other :: insertJournal name rest

/-- Whether a journal is listed. -/
def isJournal (s : Style) (name : String) : Bool := s.journals.contains name

end Style

end DocCite
