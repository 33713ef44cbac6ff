import DocCite.Text.Split

/-!
# Names of files

A path is cut at slashes, and parts that lead nowhere do not count. The extension of a path is
what follows the last dot of its last part. A part that starts with its only dot has none.
-/

namespace DocCite

/-- The parts of a path, without those that lead nowhere. -/
def pathParts (path : String) : List (List Char) :=
  (Text.splitOn '/' path.toList).filter fun p => !p.isEmpty && p != ['.']

/-- The last part of a path. -/
def lastPart (path : String) : List Char :=
  match (pathParts path).getLast? with
  | some ['.', '.'] => []
  | some part => part
  | none => []

/-- The extension of a path; empty if it has none. -/
def extension (path : String) : String :=
  let part := lastPart path
  let after := (part.reverse.takeWhile (· ≠ '.')).reverse
  if part.length ≤ after.length + 1 then "" else String.ofList after

end DocCite
