import DocCite.Proofs.Style.SectionLines
import Mathlib.Data.List.Nodup
import Mathlib.Data.List.Perm.Basic

/-!
# Rearranged style files

A style file with each section at most once can be written in many ways. What is read of a section
are its own lines (`linesOf_ofLines_flatMap`), so neither the order of the sections nor lines that
are passed over, text before the first header or carriage returns at the ends of lines make a
difference (`parse_rearranged`), whether the file can be read or not.
-/

namespace DocCite.Style

variable {current : Option Section} {kind : Section} {line : List Char}
  {lines loose preamble : List (List Char)}

/-! ## Files of lines -/

/-- The file with some lines. -/
def ofLines (lines : List (List Char)) : String := String.ofList (Text.join ['\n'] lines)

/-- The lines of a file are read back; one without lines has an empty one. -/
theorem contents_splitOn_ofLines (h : ∀ line ∈ lines, '\n' ∉ line) :
    contents none (Text.splitOn '\n' (ofLines lines).toList) = contents none lines := by
  rw [ofLines, String.toList_ofList]
  by_cases hnil : lines = []
  · subst hnil
    rfl
  · rw [Text.splitOn_join hnil h]

/-! ## Sections -/

/-- A section as it stands in a file: its header and the lines behind it. -/
structure SectionText where
  kind : Section
  opening : List Char
  lines : List (List Char)

namespace SectionText

/-- All lines of a section. -/
def text (t : SectionText) : List (List Char) := t.opening :: t.lines

/-- What is read of a section. -/
def read (t : SectionText) : List (List Char) :=
  (t.lines.filter fun line => !isPassedOver line).map Text.dropReturn

end SectionText

/-- **Sections of a style file**, each at most once: behind the header no line is a header or ends
in a carriage return. -/
structure AreSections (sections : List SectionText) : Prop where
  distinct : (sections.map SectionText.kind).Nodup
  opens : ∀ t ∈ sections, IsHeaderOf t.kind t.opening
  plain : ∀ t ∈ sections, ∀ line ∈ t.lines,
    (∀ kind, ¬ IsHeaderOf kind line) ∧ line.getLast? ≠ some '\r'

theorem header?_eq_none_iff : header? line = none ↔ ∀ kind, ¬ IsHeaderOf kind line := by
  rw [Option.eq_none_iff_forall_ne_some]
  exact forall_congr' fun kind => not_congr header?_eq_some_iff

/-- Lines before the first header stand in no section. -/
theorem contents_preamble (h : ∀ line ∈ preamble, header? line = none)
    (lines : List (List Char)) : contents none (preamble ++ lines) = contents none lines := by
  induction preamble with
  | nil => rfl
  | cons line preamble ih =>
    obtain ⟨hline, hpreamble⟩ := List.forall_mem_cons.mp h
    rw [List.cons_append, contents, hline]
    split
    · exact ih hpreamble
    · exact ih hpreamble

/-- Lines without headers stand in the section that is open. -/
theorem contents_append (h : ∀ line ∈ lines, header? line = none) (kind : Section)
    (behind : List (List Char)) :
    contents (some kind) (lines ++ behind) =
      ((lines.filter fun line => !isPassedOver line).map
          fun line => (kind, Text.dropReturn line)) ++
        contents (some kind) behind := by
  induction lines with
  | nil => rfl
  | cons line lines ih =>
    obtain ⟨hline, hlines⟩ := List.forall_mem_cons.mp h
    rw [List.cons_append, contents, hline]
    split
    · next hpassed => rw [List.filter_cons_of_neg (by simp [hpassed]), ih hlines]
    · next hpassed =>
      rw [List.filter_cons_of_pos (by simp [hpassed]), List.map_cons, List.cons_append, ih hlines]
      rfl

/-- What is read of sections, one after the other. -/
theorem contents_flatMap {sections : List SectionText}
    (hopens : ∀ t ∈ sections, IsHeaderOf t.kind t.opening)
    (hplain : ∀ t ∈ sections, ∀ line ∈ t.lines, header? line = none) (current : Option Section) :
    contents current (sections.flatMap SectionText.text) =
      sections.flatMap fun t => t.read.map fun line => (t.kind, line) := by
  induction sections generalizing current with
  | nil => rfl
  | cons t sections ih =>
    obtain ⟨hopen, hopens⟩ := List.forall_mem_cons.mp hopens
    obtain ⟨hlines, hplain⟩ := List.forall_mem_cons.mp hplain
    rw [List.flatMap_cons, SectionText.text, List.cons_append, contents,
      if_neg (by simp [isPassedOver_of_isHeaderOf hopen]), header?_eq_some_iff.mpr hopen]
    dsimp only
    rw [contents_append hlines, ih hopens hplain, List.flatMap_cons, SectionText.read, List.map_map]
    rfl

/-- What is read of the sections of a kind. -/
theorem linesIn_flatMap (kind : Section) (sections : List SectionText) :
    linesIn kind (sections.flatMap fun t => t.read.map fun line => (t.kind, line)) =
      (sections.filter fun t => t.kind = kind).flatMap SectionText.read := by
  induction sections with
  | nil => rfl
  | cons t sections ih =>
    rw [linesIn] at ih ⊢
    rw [List.flatMap_cons, List.filter_append, List.map_append, ih]
    by_cases hkind : t.kind = kind
    · have hall : (t.read.map fun line => (t.kind, line)).filter (fun l => l.1 = kind) =
          t.read.map fun line => (t.kind, line) :=
        List.filter_eq_self.mpr (List.forall_mem_map.mpr fun line _ => decide_eq_true hkind)
      rw [hall, List.map_map, List.filter_cons_of_pos (by simpa using hkind), List.flatMap_cons]
      exact congrArg (· ++ _) (List.map_id _)
    · have hnone : (t.read.map fun line => (t.kind, line)).filter (fun l => l.1 = kind) = [] :=
        List.filter_eq_nil_iff.mpr (List.forall_mem_map.mpr fun line _ => by simpa using hkind)
      rw [hnone, List.filter_cons_of_neg (by simpa using hkind)]
      rfl

/-- Of sections that are all of different kinds one kind is the same in every order. -/
theorem filter_kind_eq_of_perm {sections sections' : List SectionText}
    (hperm : sections'.Perm sections) (hdistinct : (sections.map SectionText.kind).Nodup)
    (kind : Section) :
    sections'.filter (fun t => t.kind = kind) = sections.filter fun t => t.kind = kind := by
  have hfiltered := hperm.filter fun t => decide (t.kind = kind)
  have hone : (sections.filter fun t => t.kind = kind).length ≤ 1 := by
    have hsame : (sections.filter fun t => t.kind = kind).map SectionText.kind =
        List.replicate (sections.filter fun t => t.kind = kind).length kind :=
      List.eq_replicate_iff.mpr ⟨List.length_map _, fun k hk => by
        obtain ⟨t, ht, rfl⟩ := List.mem_map.mp hk
        exact of_decide_eq_true (List.mem_filter.mp ht).2⟩
    rw [← List.nodup_replicate (a := kind), ← hsame]
    exact hdistinct.sublist (List.filter_sublist.map _)
  cases hsections : sections.filter fun t => t.kind = kind with
  | nil => rwa [hsections, List.perm_nil] at hfiltered
  | cons t rest =>
    rw [hsections, List.length_cons] at hone
    obtain rfl : rest = [] := List.length_eq_zero_iff.mp (by omega)
    rwa [hsections, List.perm_singleton] at hfiltered

/-! ## Loosened lines -/

/-- **Loosened lines**: the same lines with others between them that are passed over, and with
carriage returns at the ends of some. -/
inductive Loosened : List (List Char) → List (List Char) → Prop
  | nil : Loosened [] []
  | extra {line : List Char} {lines loose : List (List Char)} :
      isPassedOver line = true → Loosened lines loose → Loosened lines (line :: loose)
  | same {line : List Char} {lines loose : List (List Char)} :
      Loosened lines loose → Loosened (line :: lines) (line :: loose)
  | withReturn {line : List Char} {lines loose : List (List Char)} :
      Loosened lines loose → Loosened (line :: lines) ((line ++ ['\r']) :: loose)

/-- **Loosened lines are read alike.** -/
theorem Loosened.contents_eq (h : Loosened lines loose)
    (hplain : ∀ line ∈ lines, header? line = none → line.getLast? ≠ some '\r')
    (current : Option Section) : contents current loose = contents current lines := by
  induction h generalizing current with
  | nil => rfl
  | extra hpassed _ ih => rw [contents, if_pos hpassed, ih hplain]
  | same _ ih =>
    have hrest := ih (List.forall_mem_cons.mp hplain).2
    simp only [contents, hrest]
  | @withReturn line lines loose _ ih =>
    obtain ⟨hline, hlines⟩ := List.forall_mem_cons.mp hplain
    have hrest := ih hlines
    simp only [contents, isPassedOver_append_return, header?_append_return, hrest,
      Text.dropReturn_append_return]
    cases hheader : header? line with
    | some kind => rfl
    | none => rw [Text.dropReturn_of_not_ends (hline hheader)]

/-! ## Rearranged sections -/

variable {sections sections' : List SectionText}

theorem AreSections.of_perm (h : AreSections sections) (hperm : sections'.Perm sections) :
    AreSections sections' where
  distinct := (hperm.map _).nodup_iff.mpr h.distinct
  opens t ht := h.opens t (hperm.subset ht)
  plain t ht := h.plain t (hperm.subset ht)

theorem AreSections.header?_eq_none (h : AreSections sections) :
    ∀ t ∈ sections, ∀ line ∈ t.lines, header? line = none :=
  fun t ht line hline => header?_eq_none_iff.mpr (h.plain t ht line hline).1

/-- What is read of a file with sections, however it is written. -/
theorem AreSections.linesOf_ofLines (h : AreSections sections)
    (hpreamble : ∀ line ∈ preamble, ∀ kind, ¬ IsHeaderOf kind line)
    (hloose : Loosened (sections.flatMap SectionText.text) loose)
    (hbreaks : ∀ line ∈ preamble ++ loose, '\n' ∉ line) (kind : Section) :
    linesOf (ofLines (preamble ++ loose)) kind =
      (sections.filter fun t => t.kind = kind).flatMap SectionText.read := by
  have hplain : ∀ line ∈ sections.flatMap SectionText.text, header? line = none →
      line.getLast? ≠ some '\r' := by
    intro line hline hnone
    obtain ⟨t, ht, hmem⟩ := List.mem_flatMap.mp hline
    rcases List.mem_cons.mp hmem with rfl | hmem
    · exact absurd (h.opens t ht) (header?_eq_none_iff.mp hnone t.kind)
    · exact (h.plain t ht line hmem).2
  rw [linesOf, contents_splitOn_ofLines hbreaks,
    contents_preamble fun line hline => header?_eq_none_iff.mpr (hpreamble line hline),
    hloose.contents_eq hplain, contents_flatMap h.opens h.header?_eq_none, linesIn_flatMap]

theorem Loosened.refl (lines : List (List Char)) : Loosened lines lines := by
  induction lines with
  | nil => exact .nil
  | cons line lines ih => exact .same ih

/-- **Sections are independent** of each other, of what stands between their lines or before them
and of the ends of lines: a file with the same sections is read to the same style, or cannot be read
for the same reason. -/
theorem parse_rearranged (hsections : AreSections sections) (hperm : sections'.Perm sections)
    (hpreamble : ∀ line ∈ preamble, ∀ kind, ¬ IsHeaderOf kind line)
    (hloose : Loosened (sections'.flatMap SectionText.text) loose)
    (hbreaks : ∀ line ∈ sections.flatMap SectionText.text ++ (preamble ++ loose), '\n' ∉ line) :
    parse (ofLines (preamble ++ loose)) = parse (ofLines (sections.flatMap SectionText.text)) := by
  obtain ⟨hbreaks, hbreaks'⟩ := List.forall_mem_append.mp hbreaks
  refine parse_congr fun kind => ?_
  have hread : linesOf (ofLines ([] ++ sections.flatMap SectionText.text)) kind =
      (sections.filter fun t => t.kind = kind).flatMap SectionText.read :=
    hsections.linesOf_ofLines (fun _ h => absurd h List.not_mem_nil) (.refl _) hbreaks kind
  rw [List.nil_append] at hread
  rw [(hsections.of_perm hperm).linesOf_ofLines hpreamble hloose hbreaks' kind, hread,
    filter_kind_eq_of_perm hperm hsections.distinct]

/-- The sections of a style with a heading of its own. -/
def worksSections : List SectionText :=
  [⟨.layout, "LAYOUT".toList, ["default=\\title".toList]⟩,
   ⟨.properties, " PROPERTIES".toList, ["Title=Works".toList]⟩]

theorem areSections_worksSections : AreSections worksSections where
  distinct := by decide
  opens := by
    simp only [IsHeaderOf, Text.trimsTo_iff]
    decide
  plain := by
    simp only [← header?_eq_none_iff]
    decide

/-- The lines of the same style with its other section first, a comment, an empty line and some
carriage returns. -/
def loosenedWorks : List (List Char) :=
  [" PROPERTIES\r".toList, "# the heading".toList, "Title=Works".toList, [], "LAYOUT".toList,
    "default=\\title\r".toList]

/-- One file with each of the two, and in one of them a line that stands in no section. -/
theorem parse_rearranged_worksSections :
    ofLines (["Works only".toList] ++ loosenedWorks) =
        "Works only\n PROPERTIES\r\n# the heading\nTitle=Works\n\nLAYOUT\ndefault=\\title\r" ∧
      ofLines (worksSections.flatMap SectionText.text) =
        "LAYOUT\ndefault=\\title\n PROPERTIES\nTitle=Works" ∧
      parse (ofLines (["Works only".toList] ++ loosenedWorks)) =
        parse (ofLines (worksSections.flatMap SectionText.text)) := by
  have hpreamble : ∀ line ∈ ["Works only".toList], ∀ kind, ¬ IsHeaderOf kind line := by
    simp only [← header?_eq_none_iff]
    decide
  have hloose : Loosened (worksSections.reverse.flatMap SectionText.text) loosenedWorks :=
    .withReturn (.extra (by decide) (.same (.extra (by decide) (.same (.withReturn .nil)))))
  exact ⟨by decide, by decide, parse_rearranged areSections_worksSections (List.reverse_perm _)
    hpreamble hloose (by decide)⟩

end DocCite.Style
