import DocCite.Database.Basic

/-!
# Looking up citation keys

A key is looked up in several databases, and the first one that knows it counts. What is found
keeps the number of its database, where inherited fields are looked up later.
-/

namespace DocCite

/-- The outcome of looking up a citation key. -/
inductive Resolution
  | unresolved
  /-- An entry, and the place of its database in the list of databases. -/
  | resolved (entry : Entry) (database : Nat)
  deriving DecidableEq, Repr, Inhabited

namespace Resolution

/-- Looks a key up in databases that start at a place. -/
def lookupFrom (key : String) : Nat → List Database → Resolution
  | _, [] => unresolved
  | i, db :: rest =>
    match db.lookup key with
    | some entry => resolved entry i
    | none => lookupFrom key (i + 1) rest

/-- Looks a key up; the first database that knows it counts. -/
def lookup (key : String) (databases : List Database) : Resolution := lookupFrom key 0 databases

/-- Whether an entry was found. -/
def isResolved : Resolution → Bool
  | unresolved => false
  | resolved _ _ => true

/-- The place of the database of the entry. -/
def database? : Resolution → Option Nat
  | unresolved => none
  | resolved _ i => some i

/-- The entry and the database it inherits fields in. -/
def entryAndDatabase? (r : Resolution) (databases : List Database) : Option (Entry × Database) :=
  match r with
  | unresolved => none
  | resolved entry i => databases[i]?.map fun db => (entry, db)

/-- The value of a field, inherited ones included where the database is at hand. -/
def field (r : Resolution) (name : String) (databases : List Database) : Option String :=
  match r with
  | unresolved => none
  | resolved entry i =>
    match databases[i]? with
    | some db => entry.resolvedField name db
    | none => entry.fieldOrAlias name

/-- The first of several fields that has a value; empty if none has. -/
def firstField (r : Resolution) (names : List String) (databases : List Database) : String :=
  (names.findSome? fun name => r.field name databases).getD ""

end Resolution

end DocCite
