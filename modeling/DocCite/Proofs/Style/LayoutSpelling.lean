import DocCite.Proofs.Style.LayoutReading

/-!
# Layouts and the texts that spell them

A layout can be written in more than one way, since some formatters have two names. `SpelledBy` says
which texts spell it: its parts are written one after another, and parts that would be read as one
do not stand next to each other. The parser gives back the layout that a text spells
(`parse_of_spelledBy`). The written form of such a layout spells it too (`SpelledBy.renderAll`), so
it is read back as well (`parse_renderAll`).
-/

namespace DocCite

namespace Formatter

theorem eq_of_ofName_eq_unknown {name other : String} (h : ofName name = unknown other) :
    name = other := by
  unfold ofName at h
  split at h <;> cases h
  rfl

/-- A formatter is told by the name it is written with. -/
theorem ofName_name_ofName (name : String) : ofName (ofName name).name = ofName name := by
  cases h : ofName name with
  | unknown other =>
    obtain rfl := eq_of_ofName_eq_unknown h
    exact h
  | _ => rfl

end Formatter

namespace LayoutNode

theorem IsFormatterName.name_ofName {name : String} (h : IsFormatterName name.toList) :
    IsFormatterName (Formatter.ofName name).name.toList := by
  cases hname : Formatter.ofName name with
  | unknown other => exact Formatter.eq_of_ofName_eq_unknown hname ▸ h
  | _ => decide

/-- A literal text: it is not empty, and has no backslash and no closing brace. -/
abbrev IsLiteral (s : String) : Prop := IsWordOf isTextChar s.toList

/-- A name of a field in lower case, as it is looked up. -/
abbrev IsLowerName (name : String) : Prop :=
  IsFieldName name.toList ∧ name.toList.map Char.toLower = name.toList

theorem fieldName_of_isLowerName {name : String} (h : IsLowerName name) :
    fieldName name.toList = name := by
  rw [fieldName, h.2, String.ofList_toList]

/-- Whether a part is told from the one behind it: texts run into each other, and the name of a
field into a text that goes on like a name. -/
def Apart : LayoutNode → LayoutNode → Prop
  | text _, text _ => False
  | field _, text s => StopsAt isFieldChar s.toList
  | _, _ => True

end LayoutNode

namespace Layout

open LayoutNode

/-- **A text spells a layout**: literal text as it is, fields behind a backslash, blocks between
their beginning and their end, and formatters with any of their names. -/
inductive SpelledBy : Layout → String → Prop
  | nil : SpelledBy [] ""
  | text {s source : String} {rest : Layout} (literal : IsLiteral s)
      (apart : ∀ next ∈ rest.head?, Apart (.text s) next) (behind : SpelledBy rest source) :
      SpelledBy (.text s :: rest) (s ++ source)
  | field {name source : String} {rest : Layout} (lower : IsLowerName name)
      (unreserved : isReserved name.toList = false)
      (apart : ∀ next ∈ rest.head?, Apart (.field name) next) (behind : SpelledBy rest source) :
      SpelledBy (.field name :: rest) ("\\" ++ name ++ source)
  | block {name inner source : String} {body rest : Layout} (lower : IsLowerName name)
      (inside : SpelledBy body inner) (behind : SpelledBy rest source) :
      SpelledBy (.block name body :: rest)
        ("\\begin\x7b" ++ name ++ "\x7d" ++ inner ++ "\\end\x7b" ++ name ++ "\x7d" ++ source)
  | format {names : List String} {inner source : String} {body rest : Layout} (called : names ≠ [])
      (formatters : ∀ name ∈ names, IsFormatterName name.toList) (inside : SpelledBy body inner)
      (behind : SpelledBy rest source) :
      SpelledBy (.format (names.map Formatter.ofName) body :: rest)
        ("\\format[" ++ ",".intercalate names ++ "]\x7b" ++ inner ++ "\x7d" ++ source)

namespace SpelledBy

/-! ## The characters of what is spelled -/

theorem toList_field (name source : String) (rest : List Char) :
    ("\\" ++ name ++ source).toList ++ rest = '\\' :: (name.toList ++ (source.toList ++ rest)) := by
  simp only [String.toList_append, List.append_assoc]
  rfl

theorem toList_block (name inner source : String) (rest : List Char) :
    ("\\begin\x7b" ++ name ++ "\x7d" ++ inner ++ "\\end\x7b" ++ name ++ "\x7d" ++
        source).toList ++ rest =
      '\\' :: ("begin\x7b".toList ++ (name.toList ++ '}' :: (inner.toList ++
        ("\\end\x7b".toList ++ (name.toList ++ '}' :: (source.toList ++ rest)))))) := by
  simp only [String.toList_append, List.append_assoc]
  rfl

theorem toList_format (names : List String) (inner source : String) (rest : List Char) :
    ("\\format[" ++ ",".intercalate names ++ "]\x7b" ++ inner ++ "\x7d" ++ source).toList ++ rest =
      '\\' :: ("format[".toList ++ (Text.join [','] (names.map String.toList) ++ ']' :: '{' ::
        (inner.toList ++ '}' :: (source.toList ++ rest)))) := by
  simp only [String.toList_append, String.toList_intercalate, Text.intercalate_eq_join,
    List.append_assoc]
  rfl

variable {layout : Layout} {source : String}

/-- What is spelled does not go on like what stands before it, if a text it begins with does
not. -/
theorem stopsAt {p : Char → Bool} (h : SpelledBy layout source)
    (htext : ∀ s, LayoutNode.text s ∈ layout.head? → StopsAt p s.toList)
    (hbackslash : p '\\' = false) (hbrace : p '}' = false) {rest : List Char}
    (hrest : Closes rest) : StopsAt p (source.toList ++ rest) := by
  cases h with
  | nil =>
    cases hrest with
    | nil => exact fun c hc => nomatch hc
    | brace rest => exact stopsAt_cons hbrace rest
    | ending rest => exact stopsAt_cons hbackslash _
  | text literal apart behind =>
    rw [String.toList_append, List.append_assoc]
    exact (htext _ rfl).append literal.1 _
  | field lower unreserved apart behind =>
    rw [toList_field]
    exact stopsAt_cons hbackslash _
  | block lower inside behind =>
    rw [toList_block]
    exact stopsAt_cons hbackslash _
  | format called formatters inside behind =>
    rw [toList_format]
    exact stopsAt_cons hbackslash _

/-- **What is spelled is read**, up to where the layout, the call or the block around it ends. -/
theorem readsMany (h : SpelledBy layout source) {rest : List Char} (hrest : Closes rest) :
    ReadsMany (source.toList ++ rest) layout rest := by
  -- what closes a body is given with the body, so the induction is for any such rest
  induction h generalizing rest with
  | nil => exact readsMany_nil_iff.mpr ⟨hrest.readOne_eq_none, rfl⟩
  | @text s source layout literal apart behind ih =>
    have hstop : StopsAt isTextChar (source.toList ++ rest) :=
      behind.stopsAt (fun t ht => absurd (apart _ ht) id) (by decide) (by decide) hrest
    have hone := readsOne_text literal hstop
    rw [String.ofList_toList] at hone
    rw [String.toList_append, List.append_assoc]
    exact readsMany_cons_iff.mpr ⟨_, hone, ih hrest⟩
  | @field name source layout lower unreserved apart behind ih =>
    have hstop : StopsAt isFieldChar (source.toList ++ rest) :=
      behind.stopsAt (fun t ht => apart _ ht) (by decide) (by decide) hrest
    have hone := readsOne_field lower.1 unreserved hstop
    rw [fieldName_of_isLowerName lower] at hone
    rw [toList_field]
    exact readsMany_cons_iff.mpr ⟨_, hone, ih hrest⟩
  | @block name inner source body layout lower inside behind ihInside ih =>
    have hbody := ihInside (.ending (name.toList ++ '}' :: (source.toList ++ rest)))
    have hone := readsOne_block lower.1 hbody
    rw [fieldName_of_isLowerName lower] at hone
    rw [toList_block]
    exact readsMany_cons_iff.mpr ⟨_, hone, ih hrest⟩
  | @format names inner source body layout called formatters inside behind ihInside ih =>
    have hne : names.map String.toList ≠ [] := List.map_eq_nil_iff.not.mpr called
    have hnames : ∀ name ∈ names.map String.toList, IsFormatterName name :=
      List.forall_mem_map.mpr formatters
    have hformatters : (names.map String.toList).map (fun name => Formatter.ofName
        (String.ofList name)) = names.map Formatter.ofName := by
      rw [List.map_map]
      exact List.map_congr_left fun name _ => by rw [Function.comp_apply, String.ofList_toList]
    have hone := readsOne_format hne hnames (ihInside (.brace (source.toList ++ rest)))
    rw [hformatters] at hone
    rw [toList_format]
    exact readsMany_cons_iff.mpr ⟨_, hone, ih hrest⟩

/-- A whole layout is read, and nothing is left. -/
theorem readTop_eq (h : SpelledBy layout source) : readTop source.toList = (layout, []) := by
  have hmany := h.readsMany .nil
  rw [List.append_nil] at hmany
  have hnil : readTop [] = ([], []) := by rw [readTop.eq_def, Closes.nil.readOne_eq_none]
  rw [hmany.readTop_eq, hnil, List.append_nil]

/-- Texts of a spelled layout do not stand next to each other, so none of them are joined. -/
theorem mergeTexts_eq (h : SpelledBy layout source) : mergeTexts layout = layout := by
  induction h with
  | nil => rfl
  | @text s source rest literal apart behind ih =>
    rw [mergeTexts, ih]
    cases rest with
    | nil => rfl
    | cons next rest =>
      cases next with
      | text t => exact absurd (apart _ rfl) id
      | field | block | format => rfl
  | field lower unreserved apart behind ih => simp [mergeTexts, ih]
  | block lower inside behind ihInside ih => simp [mergeTexts, ih]
  | format called formatters inside behind ihInside ih => simp [mergeTexts, ih]

/-- **The written form** of a layout spells it, if any text does. -/
theorem renderAll (h : SpelledBy layout source) :
    SpelledBy layout (LayoutNode.renderAll layout) := by
  induction h with
  | nil => exact .nil
  | text literal apart behind ih => exact .text literal apart ih
  | field lower unreserved apart behind ih => exact .field lower unreserved apart ih
  | block lower inside behind ihInside ih => exact .block lower ihInside ih
  | @format names inner source body rest called formatters inside behind ihInside ih =>
    have hnames : (names.map fun name => (Formatter.ofName name).name).map Formatter.ofName =
        names.map Formatter.ofName := by
      rw [List.map_map]
      exact List.map_congr_left fun name _ => Formatter.ofName_name_ofName name
    have hformatters : ∀ name ∈ names.map fun name => (Formatter.ofName name).name,
        IsFormatterName name.toList :=
      List.forall_mem_map.mpr fun name hname => (formatters name hname).name_ofName
    have hspelled := SpelledBy.format (List.map_eq_nil_iff.not.mpr called) hformatters ihInside ih
    rw [hnames] at hspelled
    rw [LayoutNode.renderAll, LayoutNode.render, List.map_map]
    exact hspelled

end SpelledBy

/-! ## Reading back -/

variable {layout : Layout} {source : String}

/-- The written form of a layout is read back, if any text spells the layout. -/
theorem parse_renderAll (h : SpelledBy layout source) :
    parse (LayoutNode.renderAll layout) = .ok layout := by
  rw [parse, h.renderAll.readTop_eq]
  exact congrArg Except.ok h.mergeTexts_eq

/-- **Layouts are parsed to what they spell**: the parser gives back the layout that a text
spells. -/
theorem parse_of_spelledBy (h : SpelledBy layout source) : parse source = .ok layout := by
  rw [parse, h.readTop_eq]
  exact congrArg Except.ok h.mergeTexts_eq

/-- Blocks of one field in each other, each closed behind a part, a formatter by its other name, an
unknown one, and fields of which the names begin like keywords. -/
theorem parse_of_spelledBy_nested :
    parse ("\\begin\x7bnote\x7d\\format-x\\begin\x7bnote\x7din \\year\\end\x7bnote\x7d" ++
        "\\end\x7bnote\x7d: \\format[ToUpperCase,No_1]\x7b\\end2\x7d") =
      .ok [.block "note" [.field "format-x", .block "note" [.text "in ", .field "year"]],
        .text ": ", .format [.upper, .unknown "No_1"] [.field "end2"]] := by
  have hfield (name : String) (hname : IsLowerName name)
      (hunreserved : isReserved name.toList = false) : SpelledBy [.field name] _ :=
    .field hname hunreserved (fun _ hnext => nomatch hnext) .nil
  have hinner : SpelledBy (.text "in " :: _) _ :=
    .text (by decide) (fun _ hnext => by cases hnext; trivial) (hfield "year" (by decide) rfl)
  have hblock : SpelledBy [.block "note" [.text "in ", .field "year"]] _ :=
    .block (by decide) hinner .nil
  have hbody : SpelledBy (.field "format-x" :: _) _ :=
    .field (by decide) rfl (fun _ hnext => by cases hnext; trivial) hblock
  have hformat : SpelledBy [.format (["ToUpperCase", "No_1"].map Formatter.ofName) _] _ :=
    .format (by decide) (by decide) (hfield "end2" (by decide) rfl) .nil
  have hbehind : SpelledBy (.text ": " :: _) _ :=
    .text (by decide) (fun _ hnext => by cases hnext; trivial) hformat
  exact parse_of_spelledBy (.block (by decide) hbody hbehind)

end Layout

end DocCite
