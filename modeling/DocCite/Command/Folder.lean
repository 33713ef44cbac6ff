import DocCite.FileName
import DocCite.Keyed
import DocCite.LoadError

/-!
# Folders

A command reads and writes files by their paths, seen from the folder it runs in. A file can be
written in that folder, and in folders known to be there.
-/

namespace DocCite

/-- What is said of a folder that is taken for a file. -/
def folderAsFile : String := "Is a directory (os error 21)"

/-- The files within reach of a command. -/
structure Folder where
  /-- The content of each file under the parts of its path. -/
  files : Keyed (List (List Char)) String := []
  /-- The folders, other than the one the command runs in, where files can be written. -/
  folders : List (List (List Char)) := []
  deriving Repr

namespace Folder

/-- Where a path leads; an absolute one begins with an empty part. -/
def placeOf (path : String) : List (List Char) :=
  if path.toList.head? = some '/' then [] :: pathParts path else pathParts path

/-- Files under their paths, and the folders where files can be written. -/
def ofFiles (files : List (String × String)) (folders : List String) : Folder :=
  { files := Keyed.putAll [] (files.map fun f => (placeOf f.1, f.2))
    folders := folders.map placeOf }

/-- The content of a file. -/
def file? (folder : Folder) (path : String) : Option String := folder.files.get? (placeOf path)

/-- The content of a file, or the reason why it cannot be read. -/
def read (folder : Folder) (path : String) : Except String String :=
  match placeOf path with
  | [] => .error folderAsFile
  | parts =>
    match folder.files.get? parts with
    | some content => .ok content
    | none => .error (if folder.folders.contains parts then folderAsFile else missingFile)

/-- The folder with a file written, or the reason why it cannot be. -/
def write (folder : Folder) (path content : String) : Except String Folder :=
  match placeOf path with
  | [] => .error folderAsFile
  | parts =>
    if folder.folders.contains parts then .error folderAsFile
    else if parts.length = 1 ∨ folder.folders.contains parts.dropLast then
      .ok { folder with files := folder.files.put parts content }
    else .error missingFile

end Folder

end DocCite
