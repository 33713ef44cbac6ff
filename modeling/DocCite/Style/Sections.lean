import DocCite.LoadError
import DocCite.Style.Basic
import DocCite.Style.LayoutParser

/-!
# Reading style files

A style file has sections, each opened by a line that is its header. A line is read by the rule
of the section it stands in and touches one part of the style only. Blank lines and lines that
start with `#` are passed over everywhere.
-/

namespace DocCite.Style

/-- The sections of a style file. -/
inductive Section
  | name
  | layout
  | properties
  | citation
  | journals
  deriving DecidableEq, Repr

/-- The section a header opens. -/
def Section.ofHeader? (line : List Char) : Option Section :=
  match String.ofList line with
  | "NAME" => some .name
  | "LAYOUT" => some .layout
  | "PROPERTIES" => some .properties
  | "CITATION" => some .citation
  | "JOURNALS" => some .journals
  | _ => none

/-- What has been read so far: the section at hand, the style, and the layout for entries
without one of their own. -/
structure Progress where
  current : Option Section := none
  style : Style := Style.blank
  default? : Option Layout := none

/-- The parts of a line before and after its first equals sign. -/
def assignment? (line : List Char) : Option (List Char × List Char) :=
  match line.dropWhile (· ≠ '=') with
  | [] => none
  | _ :: value => some (line.takeWhile (· ≠ '='), value)

/-- Sets the option a line assigns. -/
def setOption (options : Keyed String OptionValue) (line : List Char) :
    Keyed String OptionValue :=
  match assignment? line with
  | some (name, value) => options.put (String.ofList (Text.trim name)) (OptionValue.parse value)
  | none => options

/-- Reads a line of the section of layouts. -/
def Progress.addLayout (p : Progress) (line : List Char) : Except LoadError Progress :=
  match assignment? line with
  | none => .ok p
  | some (name, source) =>
    let type := String.ofList (Text.lower (Text.trim name))
    match Layout.parse (String.ofList source) with
    | .error report => .error (.layout type report)
    | .ok layout =>
      if type = "default" then .ok { p with default? := some layout }
      else .ok { p with style := { p.style with layouts := p.style.layouts.put type layout } }

/-- Reads a line that is neither a header nor passed over. -/
def Progress.addContent (p : Progress) (line : List Char) : Except LoadError Progress :=
  match p.current with
  | none => .ok p
  | some .name => .ok { p with style := { p.style with name := String.ofList (Text.trim line) } }
  | some .layout => p.addLayout line
  | some .properties =>
    .ok { p with style := { p.style with properties := setOption p.style.properties line } }
  | some .citation =>
    .ok { p with
      style := { p.style with citationOptions := setOption p.style.citationOptions line } }
  | some .journals =>
    let journal := String.ofList (Text.trim line)
    .ok { p with style := { p.style with journals := insertJournal journal p.style.journals } }

/-- Reads a line. -/
def Progress.add (p : Progress) (raw : List Char) : Except LoadError Progress :=
  let line := Text.dropReturn raw
  if Text.isAllBlank line || line.head? = some '#' then .ok p
  else
    match Section.ofHeader? (Text.trim line) with
    | some s => .ok { p with current := some s }
    | none => p.addContent line

/-- The style that has been read; a style needs a default layout. -/
def Progress.finish (p : Progress) : Except LoadError Style :=
  match p.default? with
  | some layout => .ok { p.style with defaultLayout := layout }
  | none => .error (.missingDefaultLayout p.style.name)

/-- Reads a style file. -/
def parse (source : String) : Except LoadError Style := do
  let p ← (Text.splitOn '\n' source.toList).foldlM Progress.add {}
  p.finish

end DocCite.Style
