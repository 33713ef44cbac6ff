import DocCite.Style.Layout
import DocCite.Database.Basic
import DocCite.Latex

/-!
# References

A reference is a layout filled in with the values of an entry. Values are LaTeX and become
markup; formatters act on the value of a field that stands alone, and otherwise on the markup.
-/

namespace DocCite

/-- What a layout is filled in with. -/
structure ReferenceSource where
  entry : Entry
  database : Database
  letter : Option String := none

namespace ReferenceSource

/-- The value a name in a layout stands for, before conversion; an empty one counts as absent. -/
def value (r : ReferenceSource) (name : String) : Option String :=
  (match name with
    | "uniq" => r.letter
    | "key" | "bibtexkey" | "citationkey" => r.entry.citationKey
    | "entrytype" => some r.entry.type
    | _ => r.entry.resolvedField name r.database).filter (· ≠ "")

end ReferenceSource

namespace LayoutNode

mutual

/-- The markup of a part of a layout. -/
def fill (r : ReferenceSource) : LayoutNode → String
  | text s => s
  | field name => ((r.value name).map Latex.toMarkup).getD ""
  | block name body => if (r.value name).isSome then fillAll r body else ""
  | format formatters [field name] =>
    ((r.value name).map fun v => Latex.toMarkup (Formatter.applyAll formatters v)).getD ""
  | format formatters body => Formatter.applyAll formatters (fillAll r body)

/-- The markup of a sequence of parts. -/
def fillAll (r : ReferenceSource) : List LayoutNode → String
  | [] => ""
  | node :: rest => fill r node ++ fillAll r rest

end

end LayoutNode

/-- The reference a layout gives, as markup. -/
def Layout.fill (layout : Layout) (r : ReferenceSource) : String := LayoutNode.fillAll r layout

end DocCite
