import DocCite.Entry

/-!
# Databases of entries

A database holds entries under their citation keys, which count in lowercase, in the order in
which the keys came in. Entries without a key are not stored. A field that an entry lacks can be
inherited from the entry its `crossref` names.
-/

namespace DocCite

/-- The dialect of a database. -/
inductive DatabaseMode
  | bibtex
  | biblatex
  deriving DecidableEq, Repr, Inhabited

/-- The name of a dialect. -/
def DatabaseMode.name : DatabaseMode → String
  | bibtex => "bibtex"
  | biblatex => "biblatex"

/-- Entries under their citation keys in lowercase. -/
structure Database where
  mode : DatabaseMode := .bibtex
  slots : Keyed String Entry := []
  deriving DecidableEq, Repr, Inhabited

namespace Database

/-- The entries, in the order in which their keys first came in. -/
def entries (db : Database) : List Entry := db.slots.map Prod.snd

/-- How many entries there are. -/
def size (db : Database) : Nat := db.slots.length

/-- The entry with a citation key, whose case does not count. -/
def lookup (db : Database) (key : String) : Option Entry := db.slots.get? (lowercase key)

/-- Whether there is an entry with a citation key. -/
def contains (db : Database) (key : String) : Bool := (db.lookup key).isSome

/-- Stores an entry, in place of the one with its key, if there is one. -/
def insert (db : Database) (e : Entry) : Database :=
  match e.citationKey with
  | some key => { db with slots := db.slots.put (lowercase key) e }
  | none => db

/-- The entry that storing `e` replaces. -/
def replacedBy (db : Database) (e : Entry) : Option Entry := e.citationKey.bind db.lookup

/-- A database with entries stored one after another. -/
def ofEntries (mode : DatabaseMode) (entries : List Entry) : Database :=
  entries.foldl insert { mode := mode }

/-- The database as a BibTeX file. -/
def toBibtex (db : Database) : String :=
  (match db.mode with
    | .biblatex => "@Comment\x7bjabref-meta: databaseType:biblatex;\x7d\n\n"
    | .bibtex => "") ++
    String.join (db.entries.map fun e => e.toBibtex ++ "\n")

end Database

/-- The value of a field of an entry, of one that stands in for it, or of the entry it inherits
from. -/
def Entry.resolvedField (e : Entry) (name : String) (db : Database) : Option String :=
  match e.fieldOrAlias name with
  | some value => some value
  | none =>
    match e.crossref.bind db.lookup with
    | none => none
    | some parent => if parent.citationKey = e.citationKey then none else parent.handedDown name

end DocCite
