import DocCite.Citation.Markers
import DocCite.Style.Reference

/-!
# Bibliographies

The reference of each cited key, with its label, and the groups that cite it.
-/

namespace DocCite

/-- One paragraph of a bibliography. -/
structure BibliographyEntry where
  key : String := ""
  markup : String
  isResolved : Bool := true
  /-- The groups that cite the key, in the order of the document, each once. -/
  citedIn : List String := []
  deriving DecidableEq, Repr

/-- A bibliography that can be written into a document. -/
structure Bibliography where
  /-- The heading, as markup. -/
  title : String
  headerFormat : String
  paragraphFormat : String
  entries : List BibliographyEntry
  deriving DecidableEq, Repr

namespace Bibliography

/-- What stands before the reference of a key. -/
def label? (style : Style) (ck : CitedKey) : Option String :=
  if style.citationKeyMarkers then
    some (Markup.escape style.bracketBeforeInList ++ Markup.escape ck.key ++
      Markup.escape style.bracketAfterInList)
  else if style.isNumeric then ck.number.map fun n => Marker.numeric style [.number n] true
  else none

/-- The paragraph of a key, as markup. -/
def entryMarkup (databases : List Database) (style : Style) (ck : CitedKey) : String :=
  match ck.resolution.entryAndDatabase? databases with
  | none => Marker.unresolved ck.key
  | some (entry, database) =>
    let body := (style.layoutFor entry.type).fill
      { entry := entry, database := database, letter := ck.letter }
    match label? style ck with
    | some label => label ++ " " ++ body
    | none => body

/-- The groups that cite a key, each once. -/
def citedIn (gs : CitationGroups) (ck : CitedKey) : List String :=
  (ck.occurrences.filterMap fun p => (gs.groups[p.group]?).map CitationGroup.id).eraseDups

/-- The bibliography of cited keys. -/
def ofCited (gs : CitationGroups) (cited : List CitedKey) (databases : List Database)
    (style : Style) : Bibliography :=
  { title := Markup.escape style.title
    headerFormat := style.referenceHeaderParagraphFormat
    paragraphFormat := style.referenceParagraphFormat
    entries := cited.map fun ck =>
      { key := ck.key
        markup := entryMarkup databases style ck
        isResolved := ck.resolution.isResolved
        citedIn := citedIn gs ck } }

end Bibliography

end DocCite
