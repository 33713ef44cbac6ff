import DocCite.Command.Arguments

/-!
# Commands

Three commands: showing what a style declares, turning the placeholders of a text into citations,
and showing the marker of a single citation.
-/

namespace DocCite

/-- A command with its arguments; styles, databases and texts are given by their paths. -/
inductive Command
  | checkStyle (style : String) (asJson : Bool)
  | cite (style : String) (databases : List String) (preferences exported : Option String)
      (text : String)
  | markers (style : String) (databases : List String) (inText : Bool) (page : Option String)
      (keys : List String)
  deriving DecidableEq, Repr

namespace Command

/-- A path; an empty text is none. -/
def path? (s : String) : Option String := if s = "" then none else some s

/-- A path that may be absent. -/
def optionalPath? (s : Option String) : Option (Option String) :=
  match s with
  | none => some none
  | some s => (path? s).map some

/-- The style and the databases that a command works with; it needs one and at least one. -/
def sources? (a : Arguments) : Option (String × List String) := do
  let style ← (← a.one? "style") |> path?
  let databases ← (a.values "bib").mapM path?
  if databases.isEmpty then none else some (style, databases)

/-- The options that name the style and the databases. -/
def sourceForms : List OptionForm := [.value "style" (some 's'), .value "bib" (some 'b')]

/-- Reads the arguments of the command that shows a style. -/
def checkStyle? (args : List String) : Option Command := do
  let a ← Arguments.read? [.flag "json"] args
  match a.others with
  | [style] => some (.checkStyle (← path? style) (← a.isGiven? "json"))
  | _ => none

/-- Reads the arguments of the command that cites. -/
def cite? (args : List String) : Option Command := do
  let a ← Arguments.read?
    (sourceForms ++ [.value "preferences" (some 'p'), .value "export" none]) args
  let (style, databases) ← sources? a
  let preferences ← (← a.atMostOne? "preferences") |> optionalPath?
  let exported ← (← a.atMostOne? "export") |> optionalPath?
  match a.others with
  | [text] => some (.cite style databases preferences exported (← path? text))
  | _ => none

/-- Reads the arguments of the command that shows a marker. -/
def markers? (args : List String) : Option Command := do
  let a ← Arguments.read? (sourceForms ++ [.flag "in-text", .value "page" none]) args
  let (style, databases) ← sources? a
  if a.others.isEmpty then none
  else
    some (.markers style databases (← a.isGiven? "in-text") (← a.atMostOne? "page") a.others)

/-- Reads a command line; none if it is none of the commands. -/
def ofArguments? : List String → Option Command
  | "check-style" :: args => checkStyle? args
  | "cite" :: args => cite? args
  | "markers" :: args => markers? args
  | _ => none

end Command

end DocCite
