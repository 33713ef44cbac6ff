import DocCite.Citation.Groups
import DocCite.LoadError

/-!
# What can go wrong with a document

Each reason has a text, and for the user a hint at what to do where there is one.
-/

namespace DocCite

/-- The reasons why an operation on a document fails. -/
inductive DocumentError
  | noDocument
  | connectionLost
  | cursorUnavailable (reason : String)
  | undefinedParagraphFormat (name : String)
  | undefinedCharacterFormat (name : String)
  | noEntriesSelected
  | overlap (pairs : List String)
  | parseStyle (reason : String)
  | creation (reason : String)
  | wrappedTarget (reason : String)
  | illegalArgument (reason : String)
  | changeTracking (recording : Bool) (redlines : Nat)
  | inconsistent (reason : String)
  | config (reason : String)
  deriving DecidableEq, Repr

namespace DocumentError

/-- The text of an error. -/
def message : DocumentError → String
  | noDocument => "not connected to a document"
  | connectionLost => "connection to the document was lost"
  | cursorUnavailable reason => "cannot get a usable cursor: " ++ reason
  | undefinedParagraphFormat name =>
    "paragraph style `" ++ name ++ "` is not defined in the document"
  | undefinedCharacterFormat name =>
    "character style `" ++ name ++ "` is not defined in the document"
  | noEntriesSelected => "no entries selected for citation"
  | overlap pairs => "overlapping citation ranges: " ++ "; ".intercalate pairs
  | parseStyle reason => "cannot parse style: " ++ reason
  | creation reason => "the document rejected the change: " ++ reason
  | wrappedTarget reason => "document error: " ++ reason
  | illegalArgument reason => "illegal argument: " ++ reason
  | changeTracking recording redlines =>
    "change tracking is active (recording: " ++ (if recording then "true" else "false") ++
      ", tracked changes: " ++ toString redlines ++ ")"
  | inconsistent reason => "document is inconsistent: " ++ reason
  | config reason => "cannot read preferences: " ++ reason

/-- What the user can do about an error. -/
def hint? : DocumentError → Option String
  | noDocument => some "Select a Writer document first."
  | connectionLost => some "Reconnect to the document and try again."
  | cursorUnavailable _ =>
    some "Please move the cursor into the document text and try again."
  | undefinedParagraphFormat _ =>
    some "Define the paragraph style in the document, or change the citation style file."
  | undefinedCharacterFormat _ =>
    some "Define the character style in the document, or change the citation style file."
  | noEntriesSelected => some "Select at least one entry to cite."
  | overlap _ => some "Move or remove the overlapping citations, then try again."
  | changeTracking _ _ =>
    some "Accept or reject the tracked changes and switch off change recording."
  | inconsistent _ => some "Remove the damaged bibliography and refresh again."
  | _ => none

/-- The text of an error for the user. -/
def userMessage (e : DocumentError) : String :=
  match e.hint? with
  | some hint => e.message ++ ". " ++ hint
  | none => e.message

/-- A style that cannot be loaded. -/
def ofLoadError (e : LoadError) : DocumentError := parseStyle e.message

/-- Groups that cannot be ordered. -/
def ofGroupsError (e : GroupsError) : DocumentError := inconsistent e.message

end DocumentError

end DocCite
