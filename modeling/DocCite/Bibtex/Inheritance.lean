import DocCite.Bibtex.Date
import DocCite.Bibtex.Value
import DocCite.Keyed

/-!
# Types of entries and what they inherit

The types of entries that BibTeX files know, and the fields that an entry of each type takes
over from the entries it refers to. A title handed down becomes the title of the book, the
journal or the series of volumes; titles and notes are not handed down as such. An entry of a
type that has a date takes the date over even if it has one of its own.
-/

namespace DocCite.Bibtex

/-- The type an entry is given for the word after `@`, in lowercase; a word that is no type gives
the type `unknown`. -/
def entryType (word : String) : String :=
  if word = "conference" then "inproceedings"
  else if word = "electronic" ∨ word = "www" then "online"
  else if ["article", "book", "booklet", "inbook", "incollection", "inproceedings", "manual",
      "mastersthesis", "phdthesis", "misc", "proceedings", "report", "techreport", "thesis",
      "unpublished", "mvbook", "bookinbook", "suppbook", "periodical", "suppperiodical",
      "collection", "mvcollection", "suppcollection", "reference", "mvreference", "inreference",
      "mvproceedings", "online", "patent", "set", "xdata", "dataset", "software"].contains word then
    word
  else "unknown"

/-! ## The fields of a type -/

/-- The fields that entries of every type have. -/
def commonFields : List String :=
  ["subtitle", "url", "urldate", "doi", "eprint", "eprintclass", "eprinttype", "pubstate",
    "language"]

/-- The fields of a part of a volume. -/
def volumeFields : List String :=
  ["maintitle", "mainsubtitle", "maintitleaddon", "origlanguage", "volume", "part", "edition",
    "volumes", "series", "number", "publisher", "location", "isbn", "translator", "annotator",
    "commentator", "introduction", "foreword", "afterword"]

/-- The fields of a part of a book. -/
def bookPartFields : List String := ["booktitle", "booksubtitle", "booktitleaddon", "type"]

/-- The fields of an event and of what is published about it. -/
def eventFields : List String :=
  ["eventtitle", "eventtitleaddon", "eventdate", "venue", "organization", "maintitle",
    "mainsubtitle", "maintitleaddon", "volume", "part", "volumes", "series", "number",
    "publisher", "location", "isbn"]

/-- The further fields of a type. -/
def typeFields (type : String) : List String :=
  match type with
  | "article" | "suppperiodical" =>
    ["author", "editor", "journaltitle", "journalsubtitle", "issuetitle", "issuesubtitle",
      "translator", "annotator", "commentator", "origlanguage", "series", "volume", "number",
      "eid", "issue", "version", "issn", "pages"]
  | "book" | "mvbook" =>
    ["author", "editor"] ++ volumeFields ++ ["chapter", "pages", "pagetotal"]
  | "inbook" | "bookinbook" | "suppbook" =>
    ["author", "editor", "bookauthor"] ++ bookPartFields ++ volumeFields ++ ["chapter", "pages"]
  | "incollection" | "suppcollection" | "inreference" =>
    ["author", "editor"] ++ bookPartFields ++ volumeFields ++ ["chapter", "pages"]
  | "collection" | "mvcollection" | "reference" | "mvreference" =>
    ["editor"] ++ volumeFields ++ ["chapter", "pages", "pagetotal"]
  | "inproceedings" =>
    ["author", "editor", "booktitle", "booksubtitle", "booktitleaddon"] ++ eventFields ++
      ["chapter", "pages"]
  | "proceedings" | "mvproceedings" =>
    ["editor"] ++ eventFields ++ ["chapter", "pages", "pagetotal"]
  | "booklet" =>
    ["author", "editor", "howpublished", "type", "location", "chapter", "pages", "pagetotal"]
  | "manual" =>
    ["author", "editor", "type", "version", "edition", "series", "number", "organization",
      "publisher", "location", "isbn", "chapter", "pages", "pagetotal"]
  | "misc" | "dataset" | "software" =>
    ["author", "editor", "howpublished", "type", "version", "organization", "location"]
  | "online" => ["author", "editor", "version", "organization"]
  | "patent" => ["author", "number", "holder", "type", "version", "location"]
  | "periodical" =>
    ["editor", "issuetitle", "issuesubtitle", "series", "volume", "number", "issue", "issn"]
  | "report" =>
    ["author", "type", "institution", "location", "number", "version", "isrn", "chapter", "pages",
      "pagetotal"]
  | "techreport" => ["author", "type", "institution", "location", "number"]
  | "thesis" =>
    ["author", "type", "institution", "location", "isbn", "chapter", "pages", "pagetotal"]
  | "mastersthesis" | "phdthesis" => ["author", "type", "school", "location"]
  | "unpublished" =>
    ["author", "howpublished", "type", "location", "isbn", "eventtitle", "eventtitleaddon",
      "eventdate", "venue"]
  | _ => ["author", "editor", "location"]

/-- Whether entries of a type have a date. -/
def hasDate (type : String) : Bool :=
  !(["booklet", "manual", "misc", "unpublished", "set", "xdata", "unknown"].contains type)

/-! ## Handing down -/

/-- The types of entries whose title is the title of a book. -/
def bookTypes : List String := ["book", "collection", "periodical", "reference", "proceedings"]

/-- The types of entries whose title is the title of several volumes. -/
def volumesTypes : List String := ["mvbook", "mvcollection", "mvreference", "mvproceedings"]

/-- The field of the parent that a field of the child is taken from. What stands under the title
of several volumes is their title's addition. -/
def inheritedFrom? (parentType field : String) : Option String :=
  if ["title", "addendum", "note"].contains field then none
  else if parentType = "periodical" ∧ field = "journaltitle" then some "title"
  else if parentType = "periodical" ∧ field = "journalsubtitle" then some "subtitle"
  else if bookTypes.contains parentType ∧ field = "booktitle" then some "title"
  else if bookTypes.contains parentType ∧ field = "booksubtitle" then some "subtitle"
  else if bookTypes.contains parentType ∧ field = "booktitleaddon" then some "titleaddon"
  else if volumesTypes.contains parentType ∧ field = "maintitle" then some "titleaddon"
  else if volumesTypes.contains parentType ∧ field = "mainsubtitle" then some "subtitle"
  else if volumesTypes.contains parentType ∧ field = "maintitleaddon" then some "titleaddon"
  else some field

/-- The fields of a record. -/
abbrev Fields := Keyed String Content

/-- The date that fields give, in its one form. A date field that cannot be read is kept as it
is; without one, a year is needed, and what cannot be read then makes all fail. -/
def dateOf (fields : Fields) : Option (Option Content) :=
  match fields.get? "date" with
  | some text =>
    match Date.parse? text.written with
    | some date => some (some [.text date.write])
    | none => some (some text)
  | none =>
    match fields.get? "year" with
    | none => some none
    | some year => do
      let date ← Date.ofParts? year.written ((fields.get? "month").map Content.written)
        ((fields.get? "day").map Content.written)
      some (some [.text date.write])

/-- The fields with a date instead of whatever gave one before. -/
def setDate (fields : Fields) (date : Content) : Fields :=
  (((fields.put "date" date).erase "year").erase "month").erase "day"

/-- The fields of a child of a type, filled up from the fields of its parent; nothing if the date
of the parent cannot be read. -/
def inherit? (type parentType : String) (fields parent : Fields) : Option Fields :=
  let filled := (commonFields ++ typeFields type).foldl
    (fun fields name =>
      if (fields.get? name).isSome then fields
      else
        match (inheritedFrom? parentType name).bind parent.get? with
        | some value => fields.put name value
        | none => fields)
    fields
  if hasDate type then do
    match ← dateOf parent with
    | some date => some (setDate filled date)
    | none => some filled
  else some filled

end DocCite.Bibtex
