import DocCite.Bibtex.Inheritance
import DocCite.Bibtex.Source
import DocCite.Database.Basic
import DocCite.Text.Split

/-!
# Databases from BibTeX files

Records become entries: names that stand for a text are replaced by it, fields are sorted by
name, and what a record lacks is taken over from the records its `crossref` and `xdata` name. A
record may have further keys in the field `ids`.
-/

namespace DocCite.Bibtex

/-- A record with the values of its fields. -/
structure Record where
  type : String
  key : String
  fields : Fields

/-- The value of a field. A name stands for the value it was given, which is never verbatim, or
for a month; the first argument bounds how often names stand for names. -/
def valueIn (names : List Assignment) (field : String) : Nat → List Piece → Option Content
  | _, [] => some []
  | n, .literal s :: rest => do
    let first ← fieldContent field s
    let more ← valueIn names field n rest
    some (first ++ more)
  | n, .named name :: rest => do
    let first ←
      match names.lookup name, n with
      | some _, 0 => none
      | some value, n + 1 => valueIn names "" n value
      | none, _ => (monthName? name).map fun month => [.text month.toList]
    let more ← valueIn names field n rest
    some (first ++ more)
termination_by n ps => (n, ps.length)

/-- The values of the fields of a record; of a field given twice the last value counts. -/
def fieldsOf (names : List Assignment) (fields : List Assignment) : Option Fields :=
  fields.foldlM
    (fun done f => do
      let name := asciiLowercase f.1
      let value ← valueIn names name names.length f.2
      some (done.put name value))
    []

namespace Record

/-- The keys that a field lists, with commas between them. -/
def keysIn (r : Record) (field : String) : List String :=
  match r.fields.get? field with
  | none => []
  | some value => (Text.splitOn ',' value.written).map fun key => String.ofList (Text.trim key)

/-- All keys of a record. -/
def keys (r : Record) : List String := r.key :: r.keysIn "ids"

/-- The keys of the records that a record takes fields over from, in order. -/
def references (r : Record) : List String :=
  ((r.fields.get? "crossref").map fun key => String.ofList key.written).toList ++ r.keysIn "xdata"

/-- The record with the fields it takes over from those it refers to, which have taken over
theirs first; the first argument bounds how long a chain of records is followed. What `xdata`
says is then used up. -/
def fillIn? (known : Keyed String Record) : Nat → Record → Option Record
  | 0, r => some r
  | n + 1, r => do
    let filled ← r.references.foldlM
      (fun fields key =>
        match known.get? key with
        | none => some fields
        | some parent => do
          let parent ← fillIn? known n parent
          inherit? r.type parent.type fields parent.fields)
      r.fields
    some { r with fields := filled.erase "xdata" }

/-- The entry of a record, with its fields sorted by name and without formulas. -/
def toEntry (r : Record) : Entry :=
  let sorted := r.fields.mergeSort fun a b => !(b.1 < a.1)
  (Entry.new r.key r.type).setFields
    (sorted.map fun f => (f.1, String.ofList (Text.trim f.2.plain)))

end Record

/-- The records of a file, in their order and by all their keys. -/
structure Library where
  records : List Record := []
  byKey : Keyed String Record := []

/-- The library with one more record, unless it has a record of that key. A further key of the
new record takes the place of the same key before it. -/
def Library.add? (library : Library) (r : Record) : Option Library :=
  if (library.byKey.get? r.key).isSome then none
  else
    some
      { records := library.records ++ [r]
        byKey := library.byKey.putAll (r.keys.map fun key => (key, r)) }

/-- The entries of a file, in their order; nothing if a record has a key that a record before it
has or a value cannot be read. -/
def entries? (items : List Item) : Option (List Entry) := do
  let names := items.flatMap fun
    | .strings names => names
    | _ => []
  let library ← items.foldlM
    (fun (library : Library) item =>
      match item with
      | .record type key fields => do
        let values ← fieldsOf names fields
        library.add? ⟨entryType type, key, values⟩
      | _ => some library)
    {}
  library.records.mapM fun r =>
    (r.fillIn? library.byKey library.records.length).map Record.toEntry

end DocCite.Bibtex

namespace DocCite.Database

/-- The mark of files in the newer dialect. -/
def biblatexMark : String := "databaseType:biblatex"

/-- Reads a BibTeX file; nothing if it is malformed. -/
def ofBibtex? (source : String) : Option Database := do
  let items ← Bibtex.parse? source
  let entries ← Bibtex.entries? items
  let mode := if Text.occursIn biblatexMark.toList source.toList then
    DatabaseMode.biblatex else DatabaseMode.bibtex
  some (ofEntries mode entries)

end DocCite.Database
