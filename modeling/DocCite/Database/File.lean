import DocCite.Database.Bibtex
import DocCite.Datum.Json
import DocCite.Datum.Yaml
import DocCite.FileName
import DocCite.LoadError

/-!
# Databases from files

The extension of a file decides how it is read: as BibTeX, or as a record of a dialect and a
list of entries in JSON or YAML. Entries of such records are taken as they stand, names of
fields included.
-/

namespace DocCite.Database

/-- A map of texts. -/
def fieldsOfDatum (d : Datum) : Option (Keyed String String) := do
  let pairs ← d.map?
  pairs.foldlM (fun fields p => do some (fields.put p.1 (← p.2.text?))) []

/-- An entry as a record. -/
def entryOfDatum (d : Datum) : Option Entry := do
  match ← d.record? ["key", "type", "fields"] with
  | [key, type, fields] =>
    some {
      key := ← Datum.fieldOr Datum.optionalText? none key
      type := ← Datum.fieldOr Datum.text? "misc" type
      fields := ← Datum.fieldOr fieldsOfDatum [] fields }
  | _ => none

/-- The names of the dialects. -/
def modes : List (String × DatabaseMode) := [("bibtex", .bibtex), ("biblatex", .biblatex)]

/-- A list of entries. -/
def entriesOfDatum (d : Datum) : Option (List Entry) := do
  Datum.readAll entryOfDatum (← d.list?)

/-- A database as a record. -/
def ofDatum? (d : Datum) : Option Database := do
  match ← d.record? ["mode", "entries"] with
  | [mode, entries] =>
    some (ofEntries (← Datum.fieldOr (Datum.choice? modes) .bibtex mode)
      (← Datum.fieldOr entriesOfDatum [] entries))
  | _ => none

/-- Reads a BibTeX source. -/
def ofBibtex (source : String) : Except LoadError Database :=
  match ofBibtex? source with
  | some db => .ok db
  | none => .error (.parse .bibtex)

/-- Reads a database from the content of a file, or from the reason why it cannot be read. -/
def ofFile (path : String) (content : Except String String) : Except LoadError Database :=
  match content with
  | .error reason => .error (.io reason)
  | .ok text =>
    match lowercase (extension path) with
    | "bib" => ofBibtex text
    | "json" =>
      match (Json.parse? text).bind ofDatum? with
      | some db => .ok db
      | none => .error (.parse .json)
    | "yaml" | "yml" =>
      match (Yaml.parse? text).bind ofDatum? with
      | some db => .ok db
      | none => .error (.parse .yaml)
    | _ => .error (.unsupportedFormat path)

end DocCite.Database
