import DocCite.Command.Run

/-!
# The command line

The outermost layer: it reads the files that a command names, runs the command, prints what it
reports and writes the file that it exports.
-/

namespace DocCite

/-- The content of a file, if it can be read. -/
def readFile? (path : String) : IO (Option (String × String)) := do
  match ← (IO.FS.readFile path).toBaseIO with
  | .ok content => return some (path, content)
  | .error _ => return none

/-- The folder of a path, unless it is the one the command runs in. -/
def folderOf? (path : String) : Option String :=
  match (path.splitOn "/").dropLast with
  | [] => none
  | parts => some ("/".intercalate parts)

/-- The files and the folders that a command names, as far as they are there. -/
def gatherFolder (args : List String) : IO Folder := do
  match Command.ofArguments? args with
  | none => return {}
  | some command =>
    let files ← command.inputs.mapM readFile?
    let folders := (command.output?.bind folderOf?).toList
    return .ofFiles (files.filterMap id) folders

/-- Writes the file that a command exported, if there is one, and tells whether that succeeded. -/
def writeOutput (args : List String) (report : Report) : IO Bool := do
  let path? := (Command.ofArguments? args).bind Command.output?
  match path?, path?.bind report.folder.file? with
  | some path, some content =>
    if report.code ≠ 0 then return true
    match ← (IO.FS.writeFile path content).toBaseIO with
    | .ok _ => return true
    | .error _ => return false
  | _, _ => return true

/-- Prints a report and gives its code. -/
def printReport (report : Report) : IO UInt32 := do
  (← IO.getStdout).putStr report.output
  (← IO.getStderr).putStr report.messages
  return report.code.toUInt32

end DocCite

/-- Runs the command that the arguments name. A file that cannot be written is reported like one
in a folder that is not there. -/
def main (args : List String) : IO UInt32 := do
  let folder ← DocCite.gatherFolder args
  let report := DocCite.Command.run args folder
  if ← DocCite.writeOutput args report then DocCite.printReport report
  else DocCite.printReport (DocCite.Command.run args { folder with folders := [] })
