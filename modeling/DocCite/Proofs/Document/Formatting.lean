import DocCite.Proofs.Document.Positions
import DocCite.Proofs.Document.Refreshing
import DocCite.Proofs.Markup.Canonical

/-!
# Formats of what is written

Markup is typed as its plain text, in whatever format the text before it has; then the format is
cleared, and each run is given its own. So the characters of markup have exactly the formats of
their runs in the end (`triple_writeMarkup_covers`). A character style does not change that, nor
does deleting the placeholders around them, and a marker is written in its formats as well
(`triple_writeMarker_formats`). What stands before and behind the range that is worked on is carried
along as a frame (`Document.CoversGlyphs`).
-/

namespace DocCite

open Markup

/-- A character with its direct formatting alone. -/
def Cell.glyph (c : Cell) : Glyph := ⟨c.char, c.attributes.format⟩

/-- No attributes add nothing. -/
theorem TextFormat.union_plain_left (f : TextFormat) : TextFormat.union {} f = f := by
  cases f
  simp [union, ofTest, has]

namespace Document

variable {d d' : Document} {r : TextRange} {before under behind : List Glyph}

/-- The characters of a flow with their direct formatting, if it is there. -/
def glyphs? (d : Document) (flow : Flow) : Option (List Glyph) :=
  (d.cells? flow).map fun cells => cells.map Cell.glyph

/-- **A range covers some characters** and stands between others. -/
structure CoversGlyphs (d : Document) (r : TextRange) (before under behind : List Glyph) :
    Prop where
  glyphs : d.glyphs? r.flow = some (before ++ under ++ behind)
  start : r.start = before.length
  stop : r.stop = before.length + under.length

theorem CoversGlyphs.of_same (h : d.CoversGlyphs r before under behind)
    (hsame : SameDocument d d') : d'.CoversGlyphs r before under behind := by
  refine ⟨?_, h.start, h.stop⟩
  rw [glyphs?, ← hsame.cells?]
  exact h.glyphs

/-- The characters themselves are in three parts as well. -/
theorem CoversGlyphs.exists_cells (h : d.CoversGlyphs r before under behind) :
    ∃ cells₁ cells₂ cells₃, d.cells? r.flow = some (cells₁ ++ cells₂ ++ cells₃) ∧
      cells₁.map Cell.glyph = before ∧ cells₂.map Cell.glyph = under ∧
        cells₃.map Cell.glyph = behind := by
  obtain ⟨cells, hcells, hmap⟩ := Option.map_eq_some_iff.mp h.glyphs
  obtain ⟨cells', cells₃, rfl, hmap', h₃⟩ := List.map_eq_append_iff.mp hmap
  obtain ⟨cells₁, cells₂, rfl, h₁, h₂⟩ := List.map_eq_append_iff.mp hmap'
  exact ⟨cells₁, cells₂, cells₃, hcells, h₁, h₂, h₃⟩

/-- What changes the characters under a range leaves the others alone. -/
theorem CoversGlyphs.modifyCells (h : d.CoversGlyphs r before under behind) {f : Cell → Cell}
    {g : Glyph → Glyph} (hf : ∀ c, (f c).glyph = g c.glyph) :
    (d.modifyCells r f).CoversGlyphs r before (under.map g) behind := by
  obtain ⟨cells₁, cells₂, cells₃, hcells, rfl, rfl, rfl⟩ := h.exists_cells
  have hstart : r.start = cells₁.length := by simpa using h.start
  have hstop : r.stop = cells₁.length + cells₂.length := by simpa using h.stop
  have hmap : (cells₂.map f).map Cell.glyph = (cells₂.map Cell.glyph).map g := by
    rw [List.map_map, List.map_map]
    exact List.map_congr_left fun c _ => hf c
  refine ⟨?_, h.start, by simpa using hstop⟩
  rw [glyphs?, cells?_modifyCells, if_pos rfl, hcells, Option.map_some, Option.map_some,
    Cells.modify_append f hstart hstop, List.map_append, List.map_append, hmap]

/-- What is typed over a range is all of one format. -/
theorem CoversGlyphs.replaceText (h : d.CoversGlyphs r before under behind) (new : String) :
    ∃ format, (d.replaceText r new).CoversGlyphs (typedRange r new) before
      (new.toList.map fun c => ⟨c, format⟩) behind := by
  obtain ⟨cells₁, cells₂, cells₃, hcells, rfl, rfl, rfl⟩ := h.exists_cells
  have hstart : r.start = cells₁.length := by simpa using h.start
  have hstop : r.stop = cells₁.length + cells₂.length := by simpa using h.stop
  refine ⟨(Cells.attributesAt (cells₁ ++ cells₃) r.start).format, ?_, ?_, ?_⟩
  · have hmap : (Cells.typed (cells₁ ++ cells₃) r.start new.toList).map Cell.glyph =
        new.toList.map fun c =>
          (⟨c, (Cells.attributesAt (cells₁ ++ cells₃) r.start).format⟩ : Glyph) := by
      rw [Cells.typed, List.map_map]
      rfl
    rw [typedRange, TextRange.flow_new, glyphs?, cells?_replaceText, if_pos rfl, hcells,
      Option.map_some, Option.map_some, typedOver_append _ hstart hstop, List.map_append,
      List.map_append, hmap]
  · rw [typedRange, TextRange.start_new, Nat.min_eq_left (Nat.le_add_right _ _)]
    exact h.start
  · rw [typedRange, TextRange.stop_new, Nat.max_eq_right (Nat.le_add_right _ _), h.start,
      ← String.length_toList, List.length_map, List.length_map]

/-- The characters of a flow as they are shown. -/
theorem text_eq_glyphs? (d : Document) (flow : Flow) :
    d.markedText.text flow = (d.glyphs? flow).map fun gs => gs.map Glyph.char := by
  rw [glyphs?, Option.map_map]
  refine congrArg (fun f => Option.map f (d.cells? flow)) (funext fun cells => ?_)
  exact (List.map_map (f := Cell.glyph) (g := Glyph.char)).symm

/-- Where a text is in three parts, a range covers the second one. -/
theorem exists_coversGlyphs {flow : Flow} {t s u : List Char}
    (h : d.markedText.text flow = some (t ++ s ++ u)) :
    ∃ before under behind, before.map Glyph.char = t ∧ under.map Glyph.char = s ∧
      behind.map Glyph.char = u ∧
        d.CoversGlyphs (.new flow t.length (t.length + s.length)) before under behind := by
  rw [text_eq_glyphs?] at h
  obtain ⟨gs, hgs, hmap⟩ := Option.map_eq_some_iff.mp h
  obtain ⟨gs', behind, rfl, hmap', hbehind⟩ := List.map_eq_append_iff.mp hmap
  obtain ⟨before, under, rfl, rfl, rfl⟩ := List.map_eq_append_iff.mp hmap'
  refine ⟨before, under, behind, rfl, rfl, hbehind, hgs, ?_, ?_⟩
  · rw [TextRange.start_new, Nat.min_eq_left (Nat.le_add_right _ _), List.length_map]
  · rw [TextRange.stop_new, Nat.max_eq_right (Nat.le_add_right _ _), List.length_map,
      List.length_map]

/-- The characters under a range have the formats of those that it covers. -/
theorem CoversGlyphs.exists_cellsUnder (h : d.CoversGlyphs r before under behind) :
    ∃ cells, d.cellsUnder? r = some cells ∧ cells.map Cell.glyph = under := by
  obtain ⟨cells₁, cells₂, cells₃, hcells, rfl, rfl, rfl⟩ := h.exists_cells
  refine ⟨cells₂, ?_, rfl⟩
  rw [cellsUnder?, hcells, Option.map_some, Cells.slice_append (by simpa using h.start)
    (by simpa using h.stop)]

end Document

namespace DocumentM

variable {r : TextRange} {before under behind : List Glyph} {id : String} {flow : Flow}

/-! ## Writing markup -/

theorem triple_modifyCells_covers (before under behind : List Glyph) {f : Cell → Cell}
    {g : Glyph → Glyph} (hf : ∀ c, (f c).glyph = g c.glyph) :
    Triple (fun d => d.CoversGlyphs r before under behind) (modifyCells r f)
      (fun _ d => d.CoversGlyphs r before (under.map g) behind) fun _ _ => True := by
  refine Triple.call (fun d c hc hd => hd.of_same (sameDocument_connection hc)) (fun d hd => ?_)
    fun _ _ _ => trivial
  obtain ⟨cells, -, -, haround⟩ | ⟨reason, haround⟩ := d.cellsAround_eq_ok_or r
  · rw [haround]
    exact hd.modifyCells hf
  · rw [haround]
    trivial

theorem triple_replace_covers (before under behind : List Glyph) (new : String) :
    Triple (fun d => d.CoversGlyphs r before under behind) (replace r new)
      (fun written d => written = Document.typedRange r new ∧ ∃ format,
        d.CoversGlyphs written before (new.toList.map fun c => ⟨c, format⟩) behind)
      fun _ _ => True := by
  refine Triple.call (fun d c hc hd => hd.of_same (sameDocument_connection hc)) (fun d hd => ?_)
    fun _ _ _ => trivial
  obtain ⟨cells, -, -, haround⟩ | ⟨reason, haround⟩ := d.cellsAround_eq_ok_or r
  · rw [haround]
    exact ⟨rfl, hd.replaceText new⟩
  · rw [haround]
    trivial

/-- Where a covered range is does not depend on the document. -/
theorem triple_of_covers {α : Type} {x : DocumentM α} {Q : α → Document → Prop}
    {E : DocumentError → Document → Prop}
    (h : r.start = before.length → r.stop = before.length + under.length →
      Triple (fun d => d.glyphs? r.flow = some (before ++ under ++ behind)) x Q E) :
    Triple (fun d => d.CoversGlyphs r before under behind) x Q E :=
  fun d hd => h hd.start hd.stop d hd.glyphs

/-- Characters without direct formatting. -/
def unformatted (s : List Char) : List Glyph := s.map fun c => ⟨c, {}⟩

/-- Characters without direct formatting get just the one that is applied. -/
theorem triple_applyFormat_covers (flow : Flow) (before : List Glyph) (s : List Char)
    (behind : List Glyph) (format : TextFormat) :
    Triple (fun d => d.glyphs? flow = some (before ++ unformatted s ++ behind))
      (applyFormat (.new flow before.length (before.length + s.length)) format)
      (fun _ d => d.glyphs? flow = some (before ++ (s.map fun c => ⟨c, format⟩) ++ behind))
      fun _ _ => True := by
  refine (triple_modifyCells_covers before (unformatted s) behind
    (r := .new flow before.length (before.length + s.length))
    (g := fun x => ⟨x.char, x.format.union format⟩) fun _ => rfl).weaken
      (fun d hd => ⟨hd, ?_, ?_⟩) (fun _ d hd => hd.glyphs.trans ?_) fun _ _ _ => trivial
  · rw [TextRange.start_new, Nat.min_eq_left (Nat.le_add_right _ _)]
  · rw [TextRange.stop_new, Nat.max_eq_right (Nat.le_add_right _ _), unformatted, List.length_map]
  · simp only [unformatted, List.map_map, Function.comp_def, TextFormat.union_plain_left]

/-- **Runs are formatted one after the other.** -/
theorem triple_formatRuns_covers (before : List Glyph) (runs : List Run) :
    Triple
      (fun d => d.glyphs? flow =
        some (before ++ unformatted (runs.flatMap fun run => run.text.toList) ++ behind))
      (formatRuns flow before.length runs)
      (fun _ d => d.glyphs? flow = some (before ++ formatted runs ++ behind)) fun _ _ => True := by
  -- what was formatted already counts as standing before the rest
  induction runs generalizing before with
  | nil => exact Triple.pure fun d hd => hd
  | cons run rest ih =>
    have hsplit : unformatted ((run :: rest).flatMap fun run => run.text.toList) =
        unformatted run.text.toList ++
          unformatted (rest.flatMap fun run => run.text.toList) := by
      rw [List.flatMap_cons, unformatted, List.map_append]
      rfl
    have hrun := triple_applyFormat_covers flow before run.text.toList
      (unformatted (rest.flatMap fun run => run.text.toList) ++ behind) run.format
    have hrest := ih (before ++ run.text.toList.map fun c => ⟨c, run.format⟩)
    rw [List.length_append, List.length_map] at hrest
    rw [String.length_toList] at hrun hrest
    simp only [List.append_assoc] at hrun hrest
    unfold formatRuns
    rw [hsplit, formatted, List.flatMap_cons, ← formatted]
    simp only [List.append_assoc]
    by_cases hplain : run.format.isPlain = true
    · have hformat : run.format = {} := eq_of_beq hplain
      simp only [hplain, Bool.not_true, Bool.false_eq_true, if_false]
      rw [hformat] at hrest ⊢
      exact hrest
    · simp only [hplain, Bool.not_false, if_true]
      exact Triple.bind hrun fun _ => hrest

theorem length_formatted (runs : List Run) :
    (formatted runs).length = (runs.flatMap fun run => run.text.toList).length := by
  rw [formatted, List.length_flatMap, List.length_flatMap]
  simp only [List.length_map]

/-- **Markup is written in its formats**, whatever the text around it looks like. -/
theorem triple_writeMarkup_covers (markup : String) :
    Triple (fun d => d.CoversGlyphs r before under behind) (writeMarkup r markup)
      (fun written d => d.CoversGlyphs written before (formatted (runs markup)) behind)
      fun _ _ => True := by
  have hchars : (String.join ((runs markup).map Run.text)).toList =
      (runs markup).flatMap fun run => run.text.toList := by
    rw [String.toList_join, List.flatMap_map]
  unfold writeMarkup
  refine Triple.bind (triple_replace_covers _ _ _ _) fun written => .assume fun _ =>
    .exists fun format => ?_
  rw [hchars]
  split
  · -- nothing was written, as the markup has no characters
    next hempty =>
    refine triple_of_covers fun hstart hstop => Triple.pure fun d hd => ?_
    have hnone : (runs markup).flatMap (fun run => run.text.toList) = [] := by
      rw [TextRange.isEmpty_iff.mp hempty, hstop, List.length_map] at hstart
      exact List.length_eq_zero_iff.mp (by omega)
    have hformatted : formatted (runs markup) = [] := by
      rw [← List.length_eq_zero_iff, length_formatted, hnone, List.length_nil]
    rw [hnone] at hd hstop
    rw [hformatted]
    exact ⟨hd, hstart, hstop⟩
  · refine Triple.bind (triple_modifyCells_covers _ _ _ (g := fun x => ⟨x.char, {}⟩)
      fun _ => rfl) fun _ => triple_of_covers fun hstart hstop => ?_
    rw [hstart, List.map_map]
    refine Triple.bind (triple_formatRuns_covers before (runs markup)) fun _ =>
      Triple.pure fun d hd => ⟨hd, hstart, ?_⟩
    rw [hstop, List.length_map, List.length_map, length_formatted]

/-! ## Cleaning up -/

/-- Deleted characters are gone, and the others stay as they are. -/
theorem triple_delete_covers (flow : Flow) (before under behind : List Glyph) :
    Triple (fun d => d.glyphs? flow = some (before ++ under ++ behind))
      (replace (.new flow before.length (before.length + under.length)) "")
      (fun _ d => d.glyphs? flow = some (before ++ behind)) fun _ _ => True := by
  refine (triple_replace_covers before under behind ""
    (r := .new flow before.length (before.length + under.length))).weaken
      (fun d hd => ⟨hd, ?_, ?_⟩) ?_ fun _ _ _ => trivial
  · rw [TextRange.start_new, Nat.min_eq_left (Nat.le_add_right _ _)]
  · rw [TextRange.stop_new, Nat.max_eq_right (Nat.le_add_right _ _)]
  · rintro _ d ⟨rfl, format, hd⟩
    have hglyphs := hd.glyphs
    rw [Document.typedRange, TextRange.flow_new] at hglyphs
    simpa using hglyphs

/-- What was written between two characters is left, and perhaps these characters around it. -/
def LeavesBetween (flow : Flow) (before : List Glyph) (f : Glyph) (under : List Glyph) (l : Glyph)
    (behind : List Glyph) (d : Document) : Prop :=
  ∃ first last, (∀ g ∈ first ++ last, g = f ∨ g = l) ∧
    d.glyphs? flow = some (before ++ (first ++ under ++ last) ++ behind)

/-- The first character is deleted, or stays. -/
theorem triple_dropFirst_covers (flow : Flow) (before : List Glyph) (f : Glyph)
    (under : List Glyph) {l : Glyph} {last : List Glyph} (hlast : ∀ g ∈ last, g = l)
    (behind : List Glyph) (drops : Prop) [Decidable drops] :
    Triple (fun d => d.glyphs? flow = some (before ++ f :: (under ++ last) ++ behind))
      (if drops then do
        let _ ← replace (.new flow before.length (before.length + 1)) ""
        pure ()
      else pure ())
      (fun _ => LeavesBetween flow before f under l behind) fun _ _ => True := by
  split
  · have hdelete := triple_delete_covers flow before [f] (under ++ last ++ behind)
    refine Triple.bind (hdelete.weaken (fun d hd => hd.trans ?_) (fun _ _ hd => hd)
      fun _ _ he => he) fun _ => Triple.pure fun d hd => ?_
    · simp
    · exact ⟨[], last, fun g hg => Or.inr (hlast g hg), hd.trans (by simp)⟩
  · refine Triple.pure fun d hd => ⟨[f], last, fun g hg => ?_, hd.trans (by simp)⟩
    rcases List.mem_cons.mp hg with rfl | hg
    · exact Or.inl rfl
    · exact Or.inr (hlast g hg)

/-- **Deleting the characters at the ends** of a range, or one of them, leaves those between. -/
theorem triple_dropEnds_covers {f l : Glyph} (dropsLast dropsFirst : Prop) [Decidable dropsLast]
    [Decidable dropsFirst] :
    Triple (fun d => d.CoversGlyphs r before (f :: (under ++ [l])) behind)
      (do
        if dropsLast then
          let _ ← replace (.new r.flow (r.stop - 1) r.stop) ""
        if dropsFirst then
          let _ ← replace (.new r.flow r.start (r.start + 1)) "")
      (fun _ => LeavesBetween r.flow before f under l behind) fun _ _ => True := by
  refine triple_of_covers fun hstart hstop => ?_
  have hlast : r.stop - 1 = (before ++ f :: under).length := by
    rw [hstop]
    simp
  have hend : r.stop = (before ++ f :: under).length + [l].length := by
    rw [hstop]
    simp
    omega
  rw [hlast, hend, hstart]
  dsimp only
  -- the last character goes first, so the place of the other one is still known
  by_cases hdrops : dropsLast
  · rw [if_pos hdrops]
    have hdelete := triple_delete_covers r.flow (before ++ f :: under) [l] behind
    refine Triple.bind (hdelete.weaken (fun d hd => hd.trans ?_) (fun _ _ hd => hd)
      fun _ _ he => he) fun _ => ?_
    · simp
    · have hfirst := triple_dropFirst_covers r.flow before f under
        (List.forall_mem_nil (· = l)) behind dropsFirst
      rwa [List.append_nil] at hfirst
  · rw [if_neg hdrops]
    exact triple_dropFirst_covers r.flow before f under (List.forall_mem_singleton.mpr rfl) behind
      dropsFirst

/-- The contract that a range covers some characters between others. -/
def covering (r : TextRange) (before under behind : List Glyph) : Contract where
  Holds d := d.CoversGlyphs r before under behind
  Fails _ _ := True
  holds_of_step h hd := hd.of_same h.toSameDocument
  fails_of_same _ _ := trivial
  fails_of_internal _ _ := trivial

/-- **Cleaning up leaves alone what was written**: only the placeholders around it can go. -/
theorem triple_cleanFillCursor_covers {o : Document} {v : MarkedText} (before : List Glyph)
    (f : Glyph) (under : List Glyph) (l : Glyph) (behind : List Glyph)
    (hmark : v.marks.get? id = some r) (hr : v.Inside r)
    (hunder : v.under? r = some (placeholder :: (under.map Glyph.char ++ [placeholder])))
    (collapses : Bool) :
    Triple (fun d => Shows o v d ∧ d.CoversGlyphs r before (f :: (under ++ [l])) behind)
      (cleanFillCursor id collapses)
      (fun _ => LeavesBetween r.flow before f under l behind) fun _ _ => True := by
  have hkept : ¬ ((placeholder :: (under.map Glyph.char ++ [placeholder])).length < 2 ∨
      (placeholder :: (under.map Glyph.char ++ [placeholder])).head? ≠ some placeholder ∨
      (placeholder :: (under.map Glyph.char ++ [placeholder])).getLast? ≠ some placeholder) := by
    rw [← List.cons_append, List.getLast?_concat]
    simp
  have hrange := (Makes.groupRange (o := o) hmark).keeping (keeps_groupRange id
    (C := covering r before (f :: (under ++ [l])) behind))
  have htext := (Makes.text (o := o) hr hunder).keeping (keeps_text r
    (C := covering r before (f :: (under ++ [l])) behind))
  unfold cleanFillCursor
  refine Triple.bind (hrange.weaken_error fun _ _ _ => trivial) fun b => .assume ?_
  rintro rfl
  refine Triple.bind (htext.weaken_error fun _ _ _ => trivial) fun shown => .assume ?_
  rintro rfl
  rw [String.toList_ofList, if_neg hkept]
  exact (triple_dropEnds_covers _ _).weaken (fun _ hd => hd.2) (fun _ _ hd => hd) fun _ _ he => he

/-! ## Writing a marker -/

/-- The characters of formatted runs. -/
theorem map_char_formatted_runs (markup : String) :
    (formatted (runs markup)).map Glyph.char = plainChars markup.toList := by
  rw [formatted_runs]
  rfl

/-- **Characters were written in place of those under a range** of a text, with nothing but
placeholders around them. -/
def WrittenOver (r : TextRange) (t : List Char) (content : List Glyph) (d : Document) : Prop :=
  ∃ before first last behind, before.map Glyph.char = t.take r.start ∧
    behind.map Glyph.char = t.drop r.stop ∧ (∀ g ∈ first ++ last, g.char = placeholder) ∧
      d.glyphs? r.flow = some (before ++ (first ++ content ++ last) ++ behind)

section Marker

variable {o d : Document} {v : MarkedText} {t s : List Char} {f l : Glyph} (hr : v.Inside r)
  (ht : v.text r.flow = some t)
include hr ht

theorem length_take_of_inside : (t.take r.start).length = r.start := by
  obtain ⟨t', ht', hstop⟩ := hr
  rw [ht, Option.some.injEq] at ht'
  rw [ht']
  exact List.length_take_of_le (Nat.le_trans r.start_le_stop hstop)

/-- Where a marker was written, the text before it and behind it stands around it. -/
theorem exists_coversGlyphs_of_shows (hd : Shows o (v.withMarker id r s) d) :
    ∃ before under behind, before.map Glyph.char = t.take r.start ∧ under.map Glyph.char = s ∧
      behind.map Glyph.char = t.drop r.stop ∧
        d.CoversGlyphs (.new r.flow r.start (r.start + s.length)) before under behind := by
  have htext : d.markedText.text r.flow = some (t.take r.start ++ s ++ t.drop r.stop) := by
    rw [hd.markedText, MarkedText.text_withMarker hr, MarkedText.filled, if_pos rfl, ht]
    rfl
  have hcovers := Document.exists_coversGlyphs htext
  rwa [length_take_of_inside hr ht] at hcovers

/-- The place between the placeholders of a mark covers nothing, and stands between them. -/
theorem exists_coversGlyphs_of_cursor
    (hd : Shows o (v.withMarker id r [placeholder, placeholder]) d) :
    ∃ before f l behind, before.map Glyph.char = t.take r.start ∧
      behind.map Glyph.char = t.drop r.stop ∧ f.char = placeholder ∧ l.char = placeholder ∧
        d.CoversGlyphs (.collapsed r.flow (r.start + 1)) (before ++ [f]) [] (l :: behind) := by
  obtain ⟨before, under, behind, hbefore, hunder, hbehind, hcovers⟩ :=
    exists_coversGlyphs_of_shows hr ht hd
  obtain ⟨f, l, rfl⟩ : ∃ f l, under = [f, l] := by
    rw [← List.length_eq_two, ← List.length_map (f := Glyph.char), hunder]
    rfl
  simp only [List.map_cons, List.map_nil, List.cons.injEq, and_true] at hunder
  have hstart := hcovers.start
  rw [TextRange.start_new, Nat.min_eq_left (Nat.le_add_right _ _)] at hstart
  refine ⟨before, f, l, behind, hbefore, hbehind, hunder.1, hunder.2, ?_, ?_, ?_⟩
  · exact hcovers.glyphs.trans (by simp)
  · rw [TextRange.start_collapsed, hstart, List.length_append, List.length_singleton]
  · rw [TextRange.stop_collapsed, hstart, List.length_append, List.length_singleton,
      List.length_nil]

/-- **A document shows characters between the placeholders of a mark**, which stand there in their
formats. -/
def ShowsBetween (o : Document) (v : MarkedText) (id : String) (r : TextRange)
    (before : List Glyph) (f : Glyph) (content : List Glyph) (l : Glyph) (behind : List Glyph)
    (d : Document) : Prop :=
  Shows o (v.withMarker id r (placeholder :: (content.map Glyph.char ++ [placeholder]))) d ∧
    d.CoversGlyphs (.new r.flow (r.start + 1) (r.start + (1 + content.length))) (before ++ [f])
      content (l :: behind)

/-- What was written into a mark stays when it is cleaned up. -/
theorem triple_cleanMarker (content : List Glyph) (hmark : v.marks.get? id = some r)
    (hbefore : before.map Glyph.char = t.take r.start)
    (hbehind : behind.map Glyph.char = t.drop r.stop) (hf : f.char = placeholder)
    (hl : l.char = placeholder) (collapses : Bool) :
    Triple (ShowsBetween o v id r before f content l behind) (cleanFillCursor id collapses)
      (fun _ => WrittenOver r t content) fun _ _ => True := by
  have hstart : before.length = r.start := by
    rw [← length_take_of_inside hr ht, ← hbefore, List.length_map]
  refine (triple_cleanFillCursor_covers before f content l behind
    (MarkedText.get?_withMarker_self hmark _) (MarkedText.inside_withMarker_self hr id _)
      (MarkedText.under?_withMarker_self hr id _) collapses).weaken
        (fun d hd => ⟨hd.1, ?_, ?_, ?_⟩) (fun _ d hd => ?_) fun _ _ he => he
  · have hglyphs := hd.2.glyphs
    rw [TextRange.flow_new] at hglyphs ⊢
    rw [hglyphs]
    simp
  · rw [TextRange.start_new, Nat.min_eq_left (Nat.le_add_right _ _), hstart]
  · rw [TextRange.stop_new, Nat.max_eq_right (Nat.le_add_right _ _), hstart]
    simp
  · obtain ⟨first, last, hends, hglyphs⟩ := hd
    refine ⟨before, first, last, behind, hbefore, hbehind, fun g hg => ?_, hglyphs⟩
    rcases hends g hg with rfl | rfl
    · exact hf
    · exact hl

omit ht in
/-- Character styles are no direct formatting. -/
theorem triple_setCharacterStyle_between {content : List Glyph} {style : String}
    (hstyle : style ∈ o.characterStyles) :
    Triple (ShowsBetween o v id r before f content l behind)
      (setCharacterStyle (.new r.flow (r.start + 1) (r.start + (1 + content.length))) style)
      (fun _ => ShowsBetween o v id r before f content l behind) fun _ _ => True := by
  have hin : (v.withMarker id r (placeholder :: (content.map Glyph.char ++ [placeholder]))).Inside
      (.new r.flow (r.start + 1) (r.start + (1 + content.length))) :=
    MarkedText.inside_filled hr (MarkedText.text_withMarker hr id _) (by omega) (by simp; omega)
  have hkeeps : Keeps (covering (.new r.flow (r.start + 1) (r.start + (1 + content.length)))
      (before ++ [f]) content (l :: behind))
      (setCharacterStyle (.new r.flow (r.start + 1) (r.start + (1 + content.length))) style) := by
    refine keeps_call_unless (fun _ _ _ => trivial) fun d cells _ _ hd => ?_
    have hstyled := Document.CoversGlyphs.modifyCells (f := Cell.withCharacterStyle style)
      (g := fun x => x) hd fun _ => rfl
    rwa [List.map_id'] at hstyled
  exact ((Makes.setCharacterStyle hin hstyle).keeping hkeeps).weaken (fun _ hd => hd)
    (fun _ _ hd => hd.2) fun _ _ _ => trivial

omit ht in
/-- Markup is written between placeholders in its formats. -/
theorem triple_writeMarkup_between (markup : String) :
    Triple
      (fun d => Shows o (v.withMarker id r [placeholder, placeholder]) d ∧
        d.CoversGlyphs (.collapsed r.flow (r.start + 1)) (before ++ [f]) [] (l :: behind))
      (writeMarkup (.collapsed r.flow (r.start + 1)) markup)
      (fun written d =>
        written = .new r.flow (r.start + 1)
          (r.start + (1 + (formatted (runs markup)).length)) ∧
        ShowsBetween o v id r before f (formatted (runs markup)) l behind d)
      fun _ _ => True := by
  have hwrite := (MakesWithin.writeMarkup (o := o) (.nothing (v.opened id r) r.opened)
    (MarkedText.inside_opened id hr) markup).makes
  rw [r.flow_opened, r.start_opened, ← map_char_formatted_runs] at hwrite
  refine (Triple.and hwrite (triple_writeMarkup_covers markup)).weaken (fun _ hd => hd)
    (fun written d hd => ?_) fun _ _ _ => trivial
  obtain ⟨⟨rfl, hshows⟩, hcovers⟩ := hd
  rw [List.length_map] at hcovers ⊢
  exact ⟨rfl, hshows, hcovers⟩

/-- **A marker is written in its formats**, with nothing but placeholders around it. -/
theorem triple_writeMarker_formats (hmark : v.marks.get? id = some r) {kind : CitationKind}
    {marker : String} {style : Style}
    (hstyle : style.formatCitations = true → style.citationCharacterFormat ∈ o.characterStyles)
    (hitalic : style.italicEtAl = false) :
    Triple (Shows o v) (writeMarker id kind marker style)
      (fun _ => WrittenOver r t (formatted (runs marker))) fun _ _ => True := by
  have hfill : Makes o v (fillCursor id) (.collapsed r.flow (r.start + 1))
      (v.withMarker id r [placeholder, placeholder]) :=
    (MakesWithin.fillCursor (.nothing _ _) hmark hr).makes
  unfold writeMarker
  refine Triple.bind (hfill.weaken_error fun _ _ _ => trivial) fun cursor => .assume ?_
  rintro rfl
  -- the characters around the cursor are told apart before anything is written there
  refine Triple.of_each fun d hd => ?_
  obtain ⟨before, f, l, behind, hbefore, hbehind, hf, hl, hcovers⟩ :=
    exists_coversGlyphs_of_cursor hr ht hd
  have hclean := triple_cleanMarker (o := o) hr ht (formatted (runs marker)) hmark hbefore hbehind
    hf hl (kind = .invisible)
  refine Triple.bind ((triple_writeMarkup_between hr marker).weaken
    (fun d' hd' => ⟨hd.of_same hd', hcovers.of_same hd'⟩) (fun _ _ h => h) fun _ _ h => h)
      fun written => .assume ?_
  rintro rfl
  simp only [hitalic, Bool.false_eq_true, if_false]
  -- nothing is styled where nothing was written
  split
  · split
    · next hformat =>
      exact Triple.bind (triple_setCharacterStyle_between hr (hstyle hformat)) fun _ => hclean
    · exact hclean
  · exact hclean

end Marker

end DocumentM

end DocCite
