import DocCite.Style.Basic
import DocCite.Markup.Runs
import DocCite.Text.Blank

/-!
# Finished markers

Page info goes just inside the closing bracket of a marker; after that a marker takes the direct
format of the style and the markup that the style puts around every group.
-/

namespace DocCite.Marker

/-- The text before a given end, if it ends so. -/
def before? (ending s : List Char) : Option (List Char) :=
  (Text.after? ending.reverse s.reverse).map List.reverse

/-- Puts page info before the closing bracket of a marker, or at its end if it has none. Blank
page info changes nothing. -/
def insertPageInfo (style : Style) (marker : String) (pageInfo : Option String) : String :=
  match pageInfo.bind trimmed? with
  | none => marker
  | some info =>
    let added := Markup.escape style.pageInfoSeparator ++ Markup.escape info
    let closing := Markup.escape style.bracketAfter
    match before? closing.toList marker.toList with
    | some head => String.ofList head ++ added ++ closing
    | none => marker ++ added

/-- Adds page info, the direct format of markers and the markup around a group. -/
def finish (style : Style) (marker : String) (pageInfo : Option String) : String :=
  let text := insertPageInfo style marker pageInfo
  style.citationGroupMarkupBefore ++
    (if style.formatCitations then Markup.wrap text style.citationFormat else text) ++
    style.citationGroupMarkupAfter

end DocCite.Marker
