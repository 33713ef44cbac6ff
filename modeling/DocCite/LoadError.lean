/-!
# Why a style or a database cannot be loaded
-/

namespace DocCite

/-- The formats whose files can be malformed. -/
inductive FileFormat
  | bibtex
  | json
  | yaml
  deriving DecidableEq, Repr

/-- The name of a format. -/
def FileFormat.name : FileFormat → String
  | bibtex => "BibTeX"
  | json => "JSON"
  | yaml => "YAML"

/-- The reasons why a style or a database cannot be loaded. -/
inductive LoadError
  /-- The named style has no layout for entries of other types. -/
  | missingDefaultLayout (style : String)
  /-- The layout for a type of entries cannot be read. -/
  | layout (type report : String)
  | parse (format : FileFormat)
  | unsupportedFormat (path : String)
  | io (reason : String)
  deriving DecidableEq, Repr

/-- The text of an error. -/
def LoadError.message : LoadError → String
  | missingDefaultLayout style => "style `" ++ style ++ "` has no default layout"
  | layout type report => "invalid layout for `" ++ type ++ "`: " ++ report
  | parse format => "parse error in " ++ format.name ++ " source"
  | unsupportedFormat path => "unsupported file type: " ++ path
  | io reason => "IO error: " ++ reason

/-- What is said of a file that is not there. -/
def missingFile : String := "No such file or directory (os error 2)"

end DocCite
