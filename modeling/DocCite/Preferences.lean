import DocCite.Datum.Json
import DocCite.Datum.Yaml
import DocCite.Document.Error
import DocCite.FileName

/-!
# Preferences

What a user can set about the work on documents, and how it is read from a file.
-/

namespace DocCite

/-- What to do when a document records changes or holds some that are not accepted. -/
inductive ChangeTrackingPolicy
  /-- Fail before the document is touched. -/
  | refuse
  /-- Go ahead. -/
  | warn
  deriving DecidableEq, Repr, Inhabited

/-- The name of a policy. -/
def ChangeTrackingPolicy.name : ChangeTrackingPolicy → String
  | refuse => "refuse"
  | warn => "warn"

/-- The settings of a user. -/
structure Preferences where
  /-- Name the citing pages for resolved entries as well. -/
  alwaysAddCitedOnPages : Bool := false
  /-- Refresh the document after each citation. -/
  syncWhenCiting : Bool := true
  changeTracking : ChangeTrackingPolicy := .refuse
  overlapReportLimit : Nat := 10
  reportTouchingRanges : Bool := false
  deriving DecidableEq, Repr, Inhabited

namespace Preferences

/-- The names of the policies. -/
def policies : List (String × ChangeTrackingPolicy) := [("refuse", .refuse), ("warn", .warn)]

/-- Preferences as a record; what is absent keeps its default. -/
def ofDatum? (d : Datum) : Option Preferences := do
  match ← d.record? ["always-add-cited-on-pages", "sync-when-citing", "change-tracking",
      "overlap-report-limit", "report-touching-ranges"] with
  | [pages, sync, tracking, limit, touching] =>
    some {
      alwaysAddCitedOnPages := ← Datum.fieldOr Datum.bool? false pages
      syncWhenCiting := ← Datum.fieldOr Datum.bool? true sync
      changeTracking := ← Datum.fieldOr (Datum.choice? policies) .refuse tracking
      overlapReportLimit := ← Datum.fieldOr Datum.nat? 10 limit
      reportTouchingRanges := ← Datum.fieldOr Datum.bool? false touching }
  | _ => none

/-- Reads preferences from the content of a file, or from the reason why it cannot be read. -/
def ofFile (path : String) (content : Except String String) : Except DocumentError Preferences :=
  let fail := fun reason => Except.error (.config (path ++ ": " ++ reason))
  match content with
  | .error reason => fail reason
  | .ok text =>
    match extension path with
    | "yaml" | "yml" =>
      match (Yaml.parse? text).bind ofDatum? with
      | some p => .ok p
      | none => fail "malformed YAML"
    | "json" =>
      match (Json.parse? text).bind ofDatum? with
      | some p => .ok p
      | none => fail "malformed JSON"
    | ext => fail ("unsupported preferences format `" ++ ext ++ "`")

end Preferences

end DocCite
