import DocCite.Author.Parser
import DocCite.Citation.Groups
import DocCite.Latex
import DocCite.Style.Basic

/-!
# Orders of entries

Entries are compared by author, year and title, or by year first, in lowercase and without
markup. What no database knows comes first, and entries that are alike are told apart by their
citation keys.
-/

namespace DocCite

/-- What entries are compared by first. -/
inductive EntryOrder
  | authorYearTitle
  | yearAuthorTitle
  deriving DecidableEq, Repr, Inhabited

/-- The texts an entry is compared by. -/
structure SortKey where
  author : String
  year : String
  title : String
  deriving DecidableEq, Repr

namespace SortKey

/-- A value as it is compared. -/
def normalize (value : String) : String := lowercase (Latex.toPlain value)

/-- A name as it is compared: the family name, then the given names. -/
def nameText (a : Author) : String :=
  match a.first with
  | some first => a.family ++ " " ++ first
  | none => a.family

/-- The texts a found entry is compared by; editors stand in for authors. -/
def of (r : Resolution) (databases : List Database) : SortKey :=
  let field := fun name => (r.field name databases).getD ""
  let names := if field "author" = "" then field "editor" else field "author"
  { author := normalize (", ".intercalate ((Author.parseList names).map nameText))
    year := normalize (field "year")
    title := normalize (field "title") }

end SortKey

namespace EntryOrder

/-- The order of citations within a group. -/
def withinGroup (style : Style) : EntryOrder :=
  if style.multiCiteChronological then yearAuthorTitle else authorYearTitle

/-- The order of a bibliography that does not follow the document. -/
def ofBibliography (style : Style) : EntryOrder :=
  match lowercase style.sortAlgorithm with
  | "chronological" | "year" => yearAuthorTitle
  | _ => authorYearTitle

/-- The texts of an entry in the order in which they count. -/
def parts (o : EntryOrder) (k : SortKey) : List String :=
  match o with
  | authorYearTitle => [k.author, k.year, k.title]
  | yearAuthorTitle => [k.year, k.author, k.title]

/-- The first difference between two lists of texts decides. -/
def compareParts : List String → List String → Ordering
  | a :: as, b :: bs => (compare a b).then (compareParts as bs)
  | _, _ => .eq

/-- Compares what was found for two keys. -/
def compareFound (o : EntryOrder) (databases : List Database) (a b : Resolution) : Ordering :=
  match a.isResolved, b.isResolved with
  | false, true => .lt
  | true, false => .gt
  | false, false => .eq
  | true, true =>
    compareParts (o.parts (SortKey.of a databases)) (o.parts (SortKey.of b databases))

/-- Compares two keys with what was found for them. -/
def compareResolved (o : EntryOrder) (databases : List Database)
    (a b : String × Resolution) : Ordering :=
  (o.compareFound databases a.2 b.2).then (compare a.1 b.1)

/-- Compares two citations. -/
def compareCitations (o : EntryOrder) (databases : List Database) (a b : Citation) : Ordering :=
  o.compareResolved databases (a.key, a.resolution) (b.key, b.resolution)

/-- Compares two cited keys. -/
def compareCited (o : EntryOrder) (databases : List Database) (a b : CitedKey) : Ordering :=
  o.compareResolved databases (a.key, a.resolution) (b.key, b.resolution)

end EntryOrder

end DocCite
