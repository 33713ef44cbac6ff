import DocCite.Author.Parser
import DocCite.Text.Case
import DocCite.Text.Split

/-!
# Layouts of references

A layout says how the reference of one entry type is put together: literal text, fields, blocks
that are shown only when a field has a value, and parts that pass through named formatters. The
written form of a layout is read back by the parser of layouts.
-/

namespace DocCite

/-- A named transformation of text. -/
inductive Formatter
  | authorLastFirst
  | authorFirstFirst
  | authorLastFirstAbbreviator
  | authorAndsReplacer
  | upper
  | lower
  | formatPagesForHtml
  | htmlChars
  | unknown (name : String)
  deriving DecidableEq, Repr

namespace Formatter

/-- The formatter a name stands for. -/
def ofName (name : String) : Formatter :=
  match name with
  | "AuthorLastFirst" => authorLastFirst
  | "AuthorFirstFirst" => authorFirstFirst
  | "AuthorLastFirstAbbreviator" | "AuthorLastFirstAbbr" => authorLastFirstAbbreviator
  | "AuthorAndsReplacer" => authorAndsReplacer
  | "Upper" | "ToUpperCase" => upper
  | "Lower" | "ToLowerCase" => lower
  | "FormatPagesForHTML" => formatPagesForHtml
  | "HTMLChars" => htmlChars
  | other => unknown other

/-- The name a formatter is written with. -/
def name : Formatter → String
  | authorLastFirst => "AuthorLastFirst"
  | authorFirstFirst => "AuthorFirstFirst"
  | authorLastFirstAbbreviator => "AuthorLastFirstAbbreviator"
  | authorAndsReplacer => "AuthorAndsReplacer"
  | upper => "Upper"
  | lower => "Lower"
  | formatPagesForHtml => "FormatPagesForHTML"
  | htmlChars => "HTMLChars"
  | unknown name => name

/-- The `and` between names replaced: a comma between the earlier ones, `&` before the last. -/
def replaceAnds (value : String) : String :=
  joinWithLast ", " " & " ((Text.splitOnPiece " and ".toList value.toList).map String.ofList)

/-- What a formatter makes of a text. An unknown one leaves it as it is. -/
def apply (f : Formatter) (value : String) : String :=
  match f with
  | authorLastFirst => Author.listLastFirst false (Author.parseList value)
  | authorFirstFirst => Author.listFirstLast (Author.parseList value)
  | authorLastFirstAbbreviator => Author.listLastFirst true (Author.parseList value)
  | authorAndsReplacer => replaceAnds value
  | upper => uppercase value
  | lower => lowercase value
  | formatPagesForHtml => String.ofList (Text.replaceAll ['-', '-'] ['–'] value.toList)
  | htmlChars | unknown _ => value

/-- What formatters make of a text, one after another. -/
def applyAll (formatters : List Formatter) (value : String) : String :=
  formatters.foldl (fun text f => f.apply text) value

end Formatter

/-- A part of a layout. -/
inductive LayoutNode
  /-- Literal text, which may hold markup. -/
  | text (s : String)
  /-- The value of a field. -/
  | field (name : String)
  /-- A body that is shown only when a field has a value. -/
  | block (field : String) (body : List LayoutNode)
  /-- A body that passes through formatters. -/
  | format (formatters : List Formatter) (body : List LayoutNode)
  deriving Repr

/-- A layout is a sequence of parts. -/
abbrev Layout := List LayoutNode

namespace LayoutNode

mutual

/-- The written form of a part. -/
def render : LayoutNode → String
  | text s => s
  | field name => "\\" ++ name
  | block name body =>
    "\\begin\x7b" ++ name ++ "\x7d" ++ renderAll body ++ "\\end\x7b" ++ name ++ "\x7d"
  | format formatters body =>
    "\\format[" ++ ",".intercalate (formatters.map Formatter.name) ++ "]\x7b" ++
      renderAll body ++ "\x7d"

/-- The written form of a sequence of parts. -/
def renderAll : List LayoutNode → String
  | [] => ""
  | node :: rest => render node ++ renderAll rest

end

/-- Joins neighbouring literal texts. -/
def mergeTexts : List LayoutNode → List LayoutNode
  | [] => []
  | text s :: rest =>
    match mergeTexts rest with
    | text t :: more => text (s ++ t) :: more
    | merged => text s :: merged
  | node :: rest => node :: mergeTexts rest

end LayoutNode

end DocCite
