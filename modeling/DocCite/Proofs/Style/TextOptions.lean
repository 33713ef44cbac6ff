import DocCite.Proofs.Style.LayoutSpelling
import DocCite.Proofs.Style.OptionSpelling
import DocCite.Proofs.Style.SectionLines

/-!
# Options that are texts

Brackets, separators, names of formats and the heading are options that a style file gives as
texts. Each is set by the last line for it (`get?_foldl_setOption`), to a value that the spelling of
the text makes an integer, a truth value or a text. It is read as the text that was spelled unless
that is another spelling of an integer or a truth value than the one it is written with
(`TextOption.read_eq_iff`).
-/

namespace DocCite.Style

/-! ## Options that are read as texts -/

/-- **The options that are read as texts.** -/
inductive TextOption
  | title
  | sortAlgorithm
  | referenceParagraphFormat
  | referenceHeaderParagraphFormat
  | authorSeparator
  | authorLastSeparator
  | authorLastSeparatorInText
  | oxfordComma
  | etAlString
  | yearSeparator
  | inTextYearSeparator
  | bracketBefore
  | bracketAfter
  | bracketBeforeInList
  | bracketAfterInList
  | citationSeparator
  | pageInfoSeparator
  | uniquefierSeparator
  | groupedNumbersSeparator
  | citationCharacterFormat
  | citationGroupMarkupBefore
  | citationGroupMarkupAfter
  deriving DecidableEq, Repr

namespace TextOption

/-- The name of an option in a style file. -/
def name : TextOption → String
  | title => "Title"
  | sortAlgorithm => "SortAlgorithm"
  | referenceParagraphFormat => "ReferenceParagraphFormat"
  | referenceHeaderParagraphFormat => "ReferenceHeaderParagraphFormat"
  | authorSeparator => "AuthorSeparator"
  | authorLastSeparator => "AuthorLastSeparator"
  | authorLastSeparatorInText => "AuthorLastSeparatorInText"
  | oxfordComma => "OxfordComma"
  | etAlString => "EtAlString"
  | yearSeparator => "YearSeparator"
  | inTextYearSeparator => "InTextYearSeparator"
  | bracketBefore => "BracketBefore"
  | bracketAfter => "BracketAfter"
  | bracketBeforeInList => "BracketBeforeInList"
  | bracketAfterInList => "BracketAfterInList"
  | citationSeparator => "CitationSeparator"
  | pageInfoSeparator => "PageInfoSeparator"
  | uniquefierSeparator => "UniquefierSeparator"
  | groupedNumbersSeparator => "GroupedNumbersSeparator"
  | citationCharacterFormat => "CitationCharacterFormat"
  | citationGroupMarkupBefore => "CitationGroupMarkupBefore"
  | citationGroupMarkupAfter => "CitationGroupMarkupAfter"

/-- The section of a style file that sets an option. -/
def kind : TextOption → Section
  | title | sortAlgorithm | referenceParagraphFormat | referenceHeaderParagraphFormat => .properties
  | _ => .citation

/-- The text of an option of a style. -/
def read : TextOption → Style → String
  | title => Style.title
  | sortAlgorithm => Style.sortAlgorithm
  | referenceParagraphFormat => Style.referenceParagraphFormat
  | referenceHeaderParagraphFormat => Style.referenceHeaderParagraphFormat
  | authorSeparator => Style.authorSeparator
  | authorLastSeparator => Style.authorLastSeparator
  | authorLastSeparatorInText => Style.authorLastSeparatorInText
  | oxfordComma => Style.oxfordComma
  | etAlString => Style.etAlString
  | yearSeparator => Style.yearSeparator
  | inTextYearSeparator => Style.inTextYearSeparator
  | bracketBefore => Style.bracketBefore
  | bracketAfter => Style.bracketAfter
  | bracketBeforeInList => Style.bracketBeforeInList
  | bracketAfterInList => Style.bracketAfterInList
  | citationSeparator => Style.citationSeparator
  | pageInfoSeparator => Style.pageInfoSeparator
  | uniquefierSeparator => Style.uniquefierSeparator
  | groupedNumbersSeparator => Style.groupedNumbersSeparator
  | citationCharacterFormat => Style.citationCharacterFormat
  | citationGroupMarkupBefore => Style.citationGroupMarkupBefore
  | citationGroupMarkupAfter => Style.citationGroupMarkupAfter

end TextOption

variable {options : Keyed String OptionValue} {line value text : List Char} {name source : String}
  {lines : List (List Char)} {kind : Section} {style : Style}

/-! ## Lines that assign -/

/-- **A line that assigns a value to an option**: the name, with or without blanks around it, is
before its first equals sign and the value behind that. -/
def Assigns (line : List Char) (name : String) (value : List Char) : Prop :=
  ∃ given, line = given ++ '=' :: value ∧ '=' ∉ given ∧ Text.TrimsTo given name.toList

/-- **The last of some lines that assigns a value to an option.** -/
def LastAssigns (lines : List (List Char)) (name : String) (value : List Char) : Prop :=
  ∃ before line after, lines = before ++ line :: after ∧ Assigns line name value ∧
    ∀ later ∈ after, ∀ value, ¬ Assigns later name value

theorem assignment?_eq_some_iff {given : List Char} :
    assignment? line = some (given, value) ↔ line = given ++ '=' :: value ∧ '=' ∉ given := by
  constructor
  · intro h
    unfold assignment? at h
    split at h
    · cases h
    · next c rest hdrop =>
      cases h
      have hc : c = '=' := by
        have hhead := List.head?_dropWhile_not (fun c : Char => decide (c ≠ '=')) line
        rw [hdrop] at hhead
        simpa using hhead
      subst hc
      refine ⟨?_, fun hmem => ?_⟩
      · rw [← hdrop, List.takeWhile_append_dropWhile]
      · simpa using List.mem_takeWhile_imp hmem
  · rintro ⟨rfl, hgiven⟩
    have hplain : ∀ c ∈ given, decide (c ≠ '=') = true :=
      fun c hc => decide_eq_true fun heq => hgiven (heq ▸ hc)
    rw [assignment?, List.dropWhile_append_of_pos hplain, List.takeWhile_append_of_pos hplain]
    simp

theorem assigns_iff :
    Assigns line name value ↔
      ∃ given, assignment? line = some (given, value) ∧ String.ofList (Text.trim given) = name := by
  refine exists_congr fun given => ?_
  rw [assignment?_eq_some_iff, and_assoc, Text.trimsTo_iff, ← String.toList_inj,
    String.toList_ofList, eq_comm (a := name.toList)]

theorem get?_setOption_of_assigns (h : Assigns line name value) :
    (setOption options line).get? name = some (OptionValue.parse value) := by
  obtain ⟨given, hassign, hname⟩ := assigns_iff.mp h
  rw [setOption, hassign]
  exact (Keyed.get?_put _ _ _ _).trans (if_pos hname)

theorem get?_setOption_of_not_assigns (h : ∀ value, ¬ Assigns line name value) :
    (setOption options line).get? name = options.get? name := by
  unfold setOption
  split
  · next given value hassign =>
    exact (Keyed.get?_put _ _ _ _).trans
      (if_neg fun hname => h value (assigns_iff.mpr ⟨given, hassign, hname⟩))
  · rfl

theorem get?_foldl_setOption_of_not_assigns
    (h : ∀ line ∈ lines, ∀ value, ¬ Assigns line name value) :
    (lines.foldl setOption options).get? name = options.get? name := by
  induction lines generalizing options with
  | nil => rfl
  | cons line lines ih =>
    obtain ⟨hline, hlines⟩ := List.forall_mem_cons.mp h
    exact (ih hlines).trans (get?_setOption_of_not_assigns hline)

/-- **The last line for an option counts.** -/
theorem get?_foldl_setOption (h : LastAssigns lines name value) :
    (lines.foldl setOption options).get? name = some (OptionValue.parse value) := by
  obtain ⟨before, line, after, rfl, hline, hafter⟩ := h
  rw [List.foldl_append, List.foldl_cons, get?_foldl_setOption_of_not_assigns hafter,
    get?_setOption_of_assigns hline]

/-! ## Options of a style -/

/-- The options of a style that a section of its file sets. -/
def optionsIn (s : Style) : Section → Keyed String OptionValue
  | .properties => s.properties
  | .citation => s.citationOptions
  | .name | .layout | .journals => []

/-- Options are set by the lines of their section. -/
theorem optionsIn_of_parse (h : parse source = .ok style)
    (hkind : kind = .properties ∨ kind = .citation) :
    style.optionsIn kind = (linesOf source kind).foldl setOption (blank.optionsIn kind) := by
  rw [parse_eq] at h
  cases hlayouts : (linesOf source .layout).foldlM Progress.addLayout {} with
  | error e =>
    rw [hlayouts] at h
    cases h
  | ok p =>
    rw [hlayouts] at h
    replace h : (p.withOthers (Progress.fill {} (linesOf source))).finish = .ok style := h
    unfold Progress.finish at h
    split at h
    · cases h
      rcases hkind with rfl | rfl <;> rfl
    · cases h

/-- An option of a style is what the last line for it says. -/
theorem get?_optionsIn_of_parse (h : parse source = .ok style)
    (hkind : kind = .properties ∨ kind = .citation)
    (hlast : LastAssigns (linesOf source kind) name value) :
    (style.optionsIn kind).get? name = some (OptionValue.parse value) := by
  rw [optionsIn_of_parse h hkind, get?_foldl_setOption hlast]

/-! ## Files with one layout -/

/-- A file with no layout but that of a title. -/
theorem parse_of_titleLayout (h : linesOf source .layout = ["default=\\title".toList]) :
    parse source = .ok { (Progress.fill {} (linesOf source)).style with
      defaultLayout := [.field "title"] } := by
  have hspelled : Layout.SpelledBy [.field "title"] _ :=
    .field (by decide) rfl (fun _ hnext => nomatch hnext) .nil
  have hlayout : Layout.parse "\\title" = .ok [.field "title"] := Layout.parse_renderAll hspelled
  have hread : Progress.addLayout {} "default=\\title".toList =
      .ok { default? := some [.field "title"] } := by
    have hassign : assignment? "default=\\title".toList =
        some ("default".toList, "\\title".toList) := by decide
    rw [Progress.addLayout, hassign]
    dsimp only
    rw [String.ofList_toList, hlayout]
    rfl
  rw [parse_eq, h, List.foldlM_cons, hread]
  rfl

/-! ## Texts as they are spelled -/

namespace TextOption

theorem kind_eq (o : TextOption) : o.kind = .properties ∨ o.kind = .citation := by
  cases o <;> decide

/-- **An option that is set is read as its value.** -/
theorem read_of_get? {v : OptionValue} (o : TextOption)
    (h : (style.optionsIn o.kind).get? o.name = some v) : o.read style = v.asText := by
  cases o
  case title | sortAlgorithm | referenceParagraphFormat | referenceHeaderParagraphFormat =>
    exact congrArg (fun found => (found.map OptionValue.asText).getD "") h
  case bracketBeforeInList =>
    have hset : style.citationText? "BracketBeforeInList" = some v.asText :=
      congrArg (Option.map OptionValue.asText) h
    rw [read, Style.bracketBeforeInList, hset]
  case bracketAfterInList =>
    have hset : style.citationText? "BracketAfterInList" = some v.asText :=
      congrArg (Option.map OptionValue.asText) h
    rw [read, Style.bracketAfterInList, hset]
  case authorLastSeparatorInText =>
    exact congrArg (fun found => (found.map OptionValue.asText).getD style.authorLastSeparator) h
  all_goals exact congrArg (fun found => (found.map OptionValue.asText).getD "") h

end TextOption

/-- **What a value spells**: the text between the blanks at its ends, without one pair of quotes
around it. -/
def SpellsText (value text : List Char) : Prop :=
  ∃ trimmed, Text.TrimsTo value trimmed ∧ OptionValue.Unquotes trimmed text

theorem spellsText_iff : SpellsText value text ↔ text = OptionValue.unquote (Text.trim value) := by
  simp only [SpellsText, Text.trimsTo_iff, OptionValue.unquotes_iff, exists_eq_left]

/-- **Texts reach the style as they are spelled**, by the last line for each, unless that spells an
integer or a truth value in another way than it is written. -/
theorem TextOption.read_eq_iff (o : TextOption) (hparse : parse source = .ok style)
    (hlast : LastAssigns (linesOf source o.kind) o.name value) (htext : SpellsText value text) :
    o.read style = String.ofList text ↔ ¬ OptionValue.IsRespelled text := by
  have hset := get?_optionsIn_of_parse hparse o.kind_eq hlast
  rw [o.read_of_get? hset, OptionValue.parse, ← spellsText_iff.mp htext,
    OptionValue.asText_ofSpelling_eq_iff]

/-- A style with a bracket that is set twice, the second time with a blank that quotes protect. -/
def spacedBracket : String :=
  "LAYOUT\ndefault=\\title\n\n" ++
    "CITATION\nBracketBefore=(\r\n BracketBefore = \" [\" \nYearSeparator=="

/-- A bracket is read with its blank. -/
theorem TextOption.read_eq_iff_spacedBracket :
    ∃ style, parse spacedBracket = .ok style ∧
      LastAssigns (linesOf spacedBracket .citation) "BracketBefore" " \" [\" ".toList ∧
      SpellsText " \" [\" ".toList " [".toList ∧ ¬ OptionValue.IsRespelled " [".toList ∧
      style.bracketBefore = " [" := by
  have hlayout : linesOf spacedBracket .layout = ["default=\\title".toList] := rfl
  have hlines : linesOf spacedBracket .citation =
      ["BracketBefore=(".toList, " BracketBefore = \" [\" ".toList, "YearSeparator==".toList] :=
    rfl
  have hlast : LastAssigns (linesOf spacedBracket .citation) "BracketBefore" " \" [\" ".toList := by
    rw [hlines]
    refine ⟨["BracketBefore=(".toList], _, ["YearSeparator==".toList], rfl,
      ⟨" BracketBefore ".toList, by decide, by decide, Text.trimsTo_iff.mpr (by decide)⟩, ?_⟩
    intro later hlater value hassigns
    obtain ⟨given, hassign, hname⟩ := assigns_iff.mp hassigns
    have hother : assignment? "YearSeparator==".toList =
        some ("YearSeparator".toList, "=".toList) := by decide
    rw [List.mem_singleton.mp hlater, hother] at hassign
    cases hassign
    exact absurd hname (by decide)
  have htext : SpellsText " \" [\" ".toList " [".toList := spellsText_iff.mpr (by decide)
  have hspelling : ¬ OptionValue.IsRespelled " [".toList := by
    rw [OptionValue.isRespelled_iff_of_int?_eq_none (by decide)]
    decide
  obtain ⟨style, hparse⟩ : ∃ style, parse spacedBracket = .ok style :=
    ⟨_, parse_of_titleLayout hlayout⟩
  exact ⟨style, hparse, hlast, htext, hspelling,
    (TextOption.bracketBefore.read_eq_iff hparse hlast htext).mpr hspelling⟩

/-- A style with a number for its heading. -/
def paddedTitle : String := "PROPERTIES\nTitle=007\n\nLAYOUT\ndefault=\\title\n"

/-- A heading loses the zeros before its digits. -/
theorem TextOption.not_read_paddedTitle :
    ∃ style, parse paddedTitle = .ok style ∧
      LastAssigns (linesOf paddedTitle .properties) "Title" "007".toList ∧
      SpellsText "007".toList "007".toList ∧ style.title = "7" ∧ style.title ≠ "007" := by
  have hlayout : linesOf paddedTitle .layout = ["default=\\title".toList] := rfl
  have hlines : linesOf paddedTitle .properties = ["Title=007".toList] := rfl
  have hlast : LastAssigns (linesOf paddedTitle .properties) "Title" "007".toList := by
    rw [hlines]
    exact ⟨[], _, [], rfl, ⟨"Title".toList, by decide, by decide,
      Text.trimsTo_iff.mpr (by decide)⟩, fun _ hlater => nomatch hlater⟩
  have htext : SpellsText "007".toList "007".toList := spellsText_iff.mpr (by decide)
  obtain ⟨style, hparse⟩ : ∃ style, parse paddedTitle = .ok style :=
    ⟨_, parse_of_titleLayout hlayout⟩
  have htitle : style.title = "7" :=
    (TextOption.title.read_of_get? (get?_optionsIn_of_parse hparse (Or.inl rfl) hlast)).trans
      (by decide)
  exact ⟨style, hparse, hlast, htext, htitle, htitle ▸ by decide⟩

end DocCite.Style
