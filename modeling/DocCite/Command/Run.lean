import DocCite.Command.Basic
import DocCite.Command.Folder
import DocCite.Database.File
import DocCite.Document.Citing
import DocCite.Placeholder
import DocCite.Style.Sections

/-!
# Running commands

A command reads files, prints text and may write one file. It is a function of its arguments and
the files within reach; what it printed before it failed stays printed.
-/

namespace DocCite

/-- What a command leaves behind. -/
structure Report where
  /-- Zero for success, two for arguments that make no command, one for any other failure. -/
  code : Nat := 0
  output : String := ""
  messages : String := ""
  folder : Folder
  deriving Repr

/-- Why a command fails. -/
inductive CommandError
  | document (error : DocumentError)
  | other (message : String)
  deriving DecidableEq, Repr

/-- What is printed about a failure. -/
def CommandError.text : CommandError → String
  | document e => e.userMessage ++ "\n"
  | other message => "Error: " ++ message ++ "\n"

namespace Command

/-! ## Reading files -/

/-- The style in a file. -/
def loadStyle (folder : Folder) (path : String) : Except CommandError Style :=
  match folder.read path with
  | .error reason => .error (.other (LoadError.io reason).message)
  | .ok source => (Style.parse source).mapError fun e => .other e.message

/-- The databases in files. -/
def loadDatabases (folder : Folder) (paths : List String) : Except CommandError (List Database) :=
  paths.mapM fun path =>
    (Database.ofFile path (folder.read path)).mapError fun e => .other (path ++ ": " ++ e.message)

/-- The preferences in a file, or the ones that hold without a file. -/
def loadPreferences (folder : Folder) (path : Option String) : Except CommandError Preferences :=
  match path with
  | none => .ok {}
  | some path => (Preferences.ofFile path (folder.read path)).mapError .document

/-- The text in a file. -/
def loadText (folder : Folder) (path : String) : Except CommandError String :=
  (folder.read path).mapError .other

/-! ## Showing a style -/

/-- What sort of markers a style makes. -/
def markerSort (style : Style) : String :=
  if style.citationKeyMarkers then "citation keys"
  else if style.isNumeric then "numeric"
  else "author-year"

/-- How a style sorts the bibliography. -/
def sortName (style : Style) : String :=
  if style.isSortByPosition then "by position" else style.sortAlgorithm

/-- What a style declares, as JSON. -/
def styleAsJson (style : Style) : String :=
  (Json.Out.obj [
    ("journals", .arr (style.journals.map .str)),
    ("kind", .str (markerSort style)),
    ("layouts", .arr (style.layoutTypes.map .str)),
    ("name", .str style.name),
    ("sort", .str (sortName style))]).pretty ++ "\n"

/-- What a style declares, as lines of text. -/
def styleAsText (style : Style) : String :=
  "Style: " ++ style.name ++ "\n" ++
    "  markers:  " ++ markerSort style ++ "\n" ++
    "  sorting:  " ++ sortName style ++ "\n" ++
    "  layouts:  " ++ ", ".intercalate style.layoutTypes ++ "\n" ++
    (if style.journals.isEmpty then ""
      else "  journals: " ++ ", ".intercalate style.journals ++ "\n")

/-! ## Citing -/

/-- Puts a citation in place of a placeholder. The citation brings a space of its own, so the one
after the placeholder goes with it. -/
def citePlaceholder (preferences : Preferences) (databases : List Database) (style : Style)
    (p : Placeholder) : DocumentM Unit := do
  let length ← DocumentM.flowLength .body
  let next ← DocumentM.text (.inBody p.stop (min (p.stop + 1) length))
  let stop := if next = " " then p.stop + 1 else p.stop
  let _ ← DocumentM.replace (.inBody p.start stop) ""
  DocumentM.setViewCursor (.collapsed .body p.start)
  let keys ← liftExcept (keysToCite (p.keys.map (entryToCite databases)))
  let _ ← DocumentM.insertCitation preferences ⟨keys, p.kind, p.pageInfo, false⟩ databases style

/-- Puts citations in place of the placeholders of a text, from the last to the first, and
refreshes the document if the preferences ask for it. Gives the keys that no database knows. -/
def citeAll (preferences : Preferences) (databases : List Database) (style : Style)
    (text : String) : DocumentM (List String) := do
  (Placeholder.findAll text).reverse.forM (citePlaceholder preferences databases style)
  if preferences.syncWhenCiting then DocumentM.refreshAll preferences databases style
  else return []

/-- The body of a document as it is printed: without placeholders, and ending in a line end. -/
def printedBody (d : Document) : String :=
  let body := Cells.text d.body
  DocumentM.withoutPlaceholders body ++ (if body.toList.getLast? = some '\n' then "" else "\n")

/-- The messages about keys that no database knows. -/
def unresolvedMessages (keys : List String) : String :=
  String.join (keys.map fun key => "Unresolved citation key: " ++ key ++ "\n")

/-- What is said about exported entries. -/
def exportMessage (exported : Database) (path : String) (unresolved : List String) : String :=
  "Wrote " ++ toString exported.size ++ " entries to " ++ path ++ " (" ++
    toString unresolved.length ++ " unresolved)\n"

/-- The report with a failure added to it. -/
def Report.failing (report : Report) (e : CommandError) : Report :=
  { report with code := 1, messages := report.messages ++ e.text }

/-- Exports the cited entries of a document into a file. -/
def exportTo (report : Report) (path : String) (databases : List Database) (d : Document) :
    Report :=
  match ((DocumentM.exportCited databases).run d).1 with
  | .error e => Report.failing report (.document e)
  | .ok (exported, unresolved) =>
    match report.folder.write path exported.toBibtex with
    | .error reason => Report.failing report (.other reason)
    | .ok folder =>
      { report with
        folder := folder
        messages := report.messages ++ exportMessage exported path unresolved }

/-- Cites the placeholders of a text and prints the result. -/
def citeText (folder : Folder) (databases : List Database) (style : Style)
    (preferences : Preferences) (exported : Option String) (path text : String) :
    Except CommandError Report := do
  let (outcome, d) := (citeAll preferences databases style text).run (Document.ofText path text)
  let unresolved ← outcome.mapError CommandError.document
  let report : Report :=
    { output := printedBody d, messages := unresolvedMessages unresolved, folder := folder }
  match exported with
  | none => return report
  | some path => return exportTo report path databases d

/-! ## Showing a marker -/

/-- The marker of one citation, and the keys that no database knows. -/
def showMarker (folder : Folder) (databases : List Database) (style : Style) (inText : Bool)
    (page : Option String) (keys : List String) : Report :=
  let group := CitationGroup.new "marker" (.ofOptions true !inText) keys page
  let (_, produced) := (CitationGroups.ofList [group]).produce databases style
  { output := String.join (produced.markers.map fun m => Markup.plain m.2 ++ "\n")
    messages := unresolvedMessages produced.unresolved
    folder := folder }

/-! ## All commands -/

/-- Runs a command on the files within reach. -/
def execute (folder : Folder) : Command → Except CommandError Report
  | .checkStyle style asJson => do
    let style ← loadStyle folder style
    return { output := if asJson then styleAsJson style else styleAsText style, folder := folder }
  | .cite style databases preferences exported path => do
    let style ← loadStyle folder style
    let databases ← loadDatabases folder databases
    let preferences ← loadPreferences folder preferences
    citeText folder databases style preferences exported path (← loadText folder path)
  | .markers style databases inText page keys => do
    let style ← loadStyle folder style
    return showMarker folder (← loadDatabases folder databases) style inText page keys

/-- Runs a command line on the files within reach. -/
def run (args : List String) (folder : Folder) : Report :=
  match ofArguments? args with
  | none => { code := 2, folder := folder }
  | some command =>
    match execute folder command with
    | .ok report => report
    | .error e => Report.failing { folder := folder } e

/-- The paths that a command reads. -/
def inputs : Command → List String
  | .checkStyle style _ => [style]
  | .cite style databases preferences _ text => style :: databases ++ preferences.toList ++ [text]
  | .markers style databases _ _ _ => style :: databases

/-- The path that a command writes. -/
def output? : Command → Option String
  | .cite _ _ _ exported _ => exported
  | _ => none

end Command

end DocCite
