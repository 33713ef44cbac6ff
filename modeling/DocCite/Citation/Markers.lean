import DocCite.Citation.EntryOrder
import DocCite.Marker.Finish
import DocCite.Marker.Letter
import DocCite.Marker.Numeric

/-!
# Producing markers

The groups of a document are looked up, ordered, numbered or given letters, and each gets its
marker. Which of the three kinds of marker is produced is up to the style.
-/

namespace DocCite

/-- What a document is to show for its citations. -/
structure CitationMarkers where
  /-- The marker of each group, in the order in which the groups are stored. -/
  markers : List (String × String)
  bibliography : List CitedKey
  /-- The keys that no database knows. -/
  unresolved : List String
  deriving Repr

namespace CitationGroups

/-- The marker of every group; an invisible group has an empty one. -/
def render (gs : CitationGroups) (style : Style) (marker : CitationGroup → String) :
    List (String × String) :=
  gs.groups.map fun g =>
    (g.id, if g.kind = .invisible then "" else Marker.finish style (marker g) g.pageInfo)

/-- Sorts every group by the rule of the style. -/
def sortByStyle (databases : List Database) (style : Style) (gs : CitationGroups) :
    CitationGroups :=
  gs.sortGroups ((EntryOrder.withinGroup style).compareCitations databases)

/-- The order of the bibliography by the rule of the style. -/
def bibliographyOrder (databases : List Database) (style : Style) :
    CitedKey → CitedKey → Ordering :=
  (EntryOrder.ofBibliography style).compareCited databases

/-! ## Markers of keys -/

/-- Groups made ready for markers of keys. -/
def forKeys (databases : List Database) (style : Style) (gs : CitationGroups) : CitationGroups :=
  let sorted := gs.sortByStyle databases style
  { sorted with
    bibliography := some (sortCited (bibliographyOrder databases style) sorted.citedKeys) }

/-- The marker of keys of a group. -/
def keyMarker (style : Style) (g : CitationGroup) : String :=
  Marker.citationKeys style (g.presented.map Citation.key)

/-! ## Markers of numbers -/

/-- Groups made ready for markers of numbers; their own order stays. -/
def forNumbers (databases : List Database) (style : Style) (gs : CitationGroups) :
    CitationGroups :=
  (if style.isSortByPosition then gs.numberByAppearance
    else gs.numberBy (bibliographyOrder databases style)).markFirst

/-- What a marker of numbers lists for a citation. -/
def numericItem (c : Citation) : Marker.NumericItem :=
  match c.number with
  | some n => .number n
  | none => .unresolved c.key

/-- The marker of numbers of a group. -/
def numberMarker (style : Style) (g : CitationGroup) : String :=
  Marker.numeric style (g.presented.map numericItem) false

/-! ## Markers of author and year -/

/-- The marker that tells whether a cited key needs a letter; none if no database knows it. -/
def normalizedMarker (databases : List Database) (style : Style) (ck : CitedKey) :
    Option String :=
  if ck.resolution.isResolved then
    some (Marker.normalized style databases ck.key ck.resolution)
  else none

/-- The letter of the next key with a normalized marker, given the markers of all keys and of
those before it: none if the marker is the key's alone. -/
def letterAfter (all before : List (Option String)) (own : Option String) : Option String :=
  match own with
  | none => none
  | some _ => if 1 < all.count own then some (Marker.uniqueLetter (before.count own)) else none

/-- Gives letters to keys, in their order, after the keys with the given normalized markers. -/
def assignFrom (all : List (Option String)) (databases : List Database) (style : Style) :
    List (Option String) → List CitedKey → List CitedKey
  | _, [] => []
  | before, ck :: rest =>
    let own := normalizedMarker databases style ck
    { ck with normalizedMarker := own, letter := letterAfter all before own } ::
      assignFrom all databases style (before ++ [own]) rest

/-- Gives letters, in the order of the keys, to those whose normalized markers agree. -/
def assignLetters (databases : List Database) (style : Style) (cited : List CitedKey) :
    List CitedKey :=
  assignFrom (cited.map (normalizedMarker databases style)) databases style [] cited

/-- Groups made ready for markers of author and year. -/
def forAuthorYear (databases : List Database) (style : Style) (gs : CitationGroups) :
    CitationGroups :=
  let sorted := gs.sortByStyle databases style
  let cited := assignLetters databases style sorted.citedKeys
  ({ sorted with
      bibliography := some (sortCited (bibliographyOrder databases style) cited)
    }.distributeLetters).markFirst

/-- The marker of author and year of a group. -/
def authorYearMarker (databases : List Database) (style : Style) (g : CitationGroup) : String :=
  Marker.authorYear style databases g.presented g.kind.inParenthesis

/-! ## All three -/

/-- Groups made ready for the kind of markers of the style. -/
def prepare (databases : List Database) (style : Style) (gs : CitationGroups) : CitationGroups :=
  let found := gs.resolve databases
  if style.citationKeyMarkers then found.forKeys databases style
  else if style.isNumeric then found.forNumbers databases style
  else found.forAuthorYear databases style

/-- The marker of a group that has been made ready. -/
def markerOf (databases : List Database) (style : Style) (g : CitationGroup) : String :=
  if style.citationKeyMarkers then keyMarker style g
  else if style.isNumeric then numberMarker style g
  else authorYearMarker databases style g

/-- Makes groups ready and produces their markers. -/
def produce (databases : List Database) (style : Style) (gs : CitationGroups) :
    CitationGroups × CitationMarkers :=
  let ready := gs.prepare databases style
  (ready,
    { markers := ready.render style (markerOf databases style)
      bibliography := ready.bibliography.getD []
      unresolved := ready.unresolvedKeys })

end CitationGroups

end DocCite
