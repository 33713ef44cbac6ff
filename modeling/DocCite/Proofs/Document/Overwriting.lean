import DocCite.Proofs.Document.Formatting
import DocCite.Proofs.Document.Intersecting

/-!
# What a marker replaces

A marker replaces the text of its mark and nothing else: the text around it stays, and the marks
that do not intersect it cover what they covered, those that touch it as well
(`DocumentM.writesMarker_of_writeMarker`). What the mark holds then is the plain text of the marker,
in the formats of its runs, and perhaps placeholders around it.
-/

namespace DocCite

open Markup

/-- What stays in a mark is nothing only for no text that the mark may collapse over. -/
theorem closedText_eq_nil_iff {collapses : Bool} {s : List Char} :
    closedText collapses s = [] ↔ collapses = true ∧ s = [] := by
  unfold closedText
  split_ifs with hempty hcollapses hone
  · simp [hcollapses, List.length_eq_zero_iff.mp hempty]
  · simp [hcollapses]
  · simp only [false_iff, not_and]
    rintro - rfl
    exact hempty rfl
  · simp only [← List.length_eq_zero_iff, hempty, and_false]

/-- **What writing a marker does to a document**: its mark holds some text afterwards that looks
like the marker. -/
structure WritesMarker (d : Document) (id : String) (r : TextRange) (kind : CitationKind)
    (marker : String) (style : Style) (content : List Char) (d' : Document) : Prop where
  mark : d'.marks.get? id = some (.new r.flow r.start (r.start + content.length))
  under : d'.markedText.under? (.new r.flow r.start (r.start + content.length)) = some content
  visible : DocumentM.withoutPlaceholders (String.ofList content) =
    DocumentM.withoutPlaceholders (plain marker)
  empty_iff : content = [] ↔ kind = .invisible ∧ plain marker = ""
  two_le : content ≠ [] → 2 ≤ content.length
  around : ∀ flow, d'.markedText.text flow =
    if flow = r.flow then
      (d.markedText.text flow).map fun t => t.take r.start ++ content ++ t.drop r.stop
    else d.markedText.text flow
  others : ∀ name x, name ≠ id → d.marks.get? name = some x →
    ∃ x', d'.marks.get? name = some x' ∧ x'.flow = x.flow ∧
      d'.markedText.under? x' = d.markedText.under? x
  formats : style.italicEtAl = false → ∃ first written last,
    d'.cellsUnder? (.new r.flow r.start (r.start + content.length)) =
        some (first ++ written ++ last) ∧
      (∀ c ∈ first ++ last, c.char = DocumentM.placeholder) ∧
        written.map Cell.glyph = formatted (runs marker)

namespace DocumentM

variable {d d' : Document} {id : String} {r : TextRange} {style : Style} {t : List Char}

/-- The characters of a mark are those that were written, and the placeholders that stayed. -/
theorem exists_cellsUnder_of_writtenOver {content : List Char}
    {written : List Glyph} (hwritten : WrittenOver r t written d')
    (hr : d.markedText.Inside r) (ht : d.markedText.text r.flow = some t)
    (hshows : Shows d (d.markedText.withMarker id r content) d') :
    ∃ first cells last,
      d'.cellsUnder? (.new r.flow r.start (r.start + content.length)) =
          some (first ++ cells ++ last) ∧
        (∀ c ∈ first ++ last, c.char = placeholder) ∧ cells.map Cell.glyph = written := by
  obtain ⟨before, first, last, behind, hbefore, hbehind, hends, hglyphs⟩ := hwritten
  obtain ⟨before', under, behind', hbefore', -, hbehind', hcovers⟩ :=
    exists_coversGlyphs_of_shows hr ht hshows
  -- both ways of taking the text apart cut it at the same places
  have hsame : under = first ++ written ++ last := by
    have hgs := Option.some.inj (hcovers.glyphs.symm.trans hglyphs)
    have hlength : before'.length = before.length := by
      rw [← List.length_map (f := Glyph.char), hbefore', ← hbefore, List.length_map]
    have hlength' : behind'.length = behind.length := by
      rw [← List.length_map (f := Glyph.char), hbehind', ← hbehind, List.length_map]
    exact (List.append_inj (List.append_inj' hgs hlength').1 hlength).2
  obtain ⟨cells, hcells, hmap⟩ := hcovers.exists_cellsUnder
  rw [hsame] at hmap
  obtain ⟨cells', lastCells, rfl, hmap', rfl⟩ := List.map_eq_append_iff.mp hmap
  obtain ⟨firstCells, cells, rfl, rfl, rfl⟩ := List.map_eq_append_iff.mp hmap'
  refine ⟨firstCells, cells, lastCells, hcells, fun c hc => ?_, rfl⟩
  refine hends c.glyph ?_
  rw [← List.map_append]
  exact List.mem_map_of_mem hc

/-- All but the formats can be read off what the document shows. -/
theorem writesMarker_of_shows {kind : CitationKind} {marker : String} {content : List Char}
    (hmark : d.marks.get? id = some r) (hr : d.markedText.Inside r)
    (hapart : ∀ name x, name ≠ id → d.marks.get? name = some x → x.intersects r = false)
    (hcontent : content = closedText (kind = .invisible) (plainChars marker.toList))
    (hshows : Shows d (d.markedText.withMarker id r content) d')
    (hformats : style.italicEtAl = false → ∀ t, d.markedText.text r.flow = some t →
      WrittenOver r t (formatted (runs marker)) d') :
    WritesMarker d id r kind marker style content d' where
  mark := by
    rw [hshows.get?_marks, MarkedText.get?_withMarker_self hmark]
  under := by
    rw [hshows.markedText, MarkedText.under?_withMarker_self hr]
  visible := by
    rw [hcontent, withoutPlaceholders, withoutPlaceholders, plain, String.toList_ofList,
      String.toList_ofList, filter_closedText]
  empty_iff := by
    rw [hcontent, closedText_eq_nil_iff, decide_eq_true_eq, plain, String.ofList_eq_empty_iff]
  two_le hne := by
    have hlength := length_closedText (kind = .invisible) (plainChars marker.toList)
    rw [← hcontent] at hlength
    exact hlength.resolve_left fun h => hne (List.length_eq_zero_iff.mp h)
  around flow := by
    rw [hshows.markedText, MarkedText.text_withMarker hr]
    rfl
  others name x hne hx := by
    refine ⟨x.afterMarker r content.length, ?_, TextRange.flow_afterMarker _ _ _, ?_⟩
    · rw [hshows.get?_marks, MarkedText.get?_withMarker_of_ne hne]
      exact congrArg _ hx
    · rw [hshows.markedText, MarkedText.under?_withMarker_of_ne hr
        (TextRange.apart_iff.mpr (hapart name x hne hx))]
  formats hitalic := by
    obtain ⟨t, ht⟩ : ∃ t, d.markedText.text r.flow = some t := hr.imp fun _ ht => ht.1
    exact exists_cellsUnder_of_writtenOver (hformats hitalic t ht) hr ht hshows

/-- **Writing a marker replaces the text of one mark exactly.** -/
theorem writesMarker_of_writeMarker (kind : CitationKind) (marker : String) (hd : d.WellFormed)
    (hmark : d.marks.get? id = some r)
    (hapart : ∀ name x, name ≠ id → d.marks.get? name = some x → x.intersects r = false)
    (hstyle : style.formatCitations = true → style.citationCharacterFormat ∈ d.characterStyles) :
    (d.connection = .steady →
        ∃ d', (writeMarker id kind marker style).run d = (.ok (), d')) ∧
      ∀ d', (writeMarker id kind marker style).run d = (.ok (), d') →
        ∃ content, WritesMarker d id r kind marker style content d' := by
  have hr : d.markedText.Inside r := Document.inside_markedText_iff.mpr
    (hd.marks_inside _ (Keyed.mem_of_get?_eq_some hmark))
  have hmakes : Makes d d.markedText (writeMarker id kind marker style) ()
      (d.markedText.withMarker id r
        (closedText (kind = .invisible) (plainChars marker.toList))) :=
    .writeMarker hmark hr hstyle
  refine ⟨fun hsteady => ?_, fun d' hrun => ?_⟩
  · obtain ⟨u, d', hrun, -⟩ := hmakes.exists_ok (shows_self d) fun e _ h => h.2 hsteady
    exact ⟨d', hrun⟩
  · obtain ⟨-, hshows⟩ := hmakes.of_ok (shows_self d) hrun
    -- the same run, told by the formats
    have hformats (hitalic : style.italicEtAl = false) (t : List Char)
        (ht : d.markedText.text r.flow = some t) : WrittenOver r t (formatted (runs marker)) d' :=
      (triple_writeMarker_formats hr ht hmark hstyle hitalic).of_ok (shows_self d) hrun
    exact ⟨_, writesMarker_of_shows hmark hr hapart rfl hshows hformats⟩

/-- A citation of one character, and a mark of other words that touches it. -/
def citedWords : Document :=
  { Document.ofPlain "See ? there." [] [("citation", .inBody 4 5), ("words", .inBody 5 11)] with
    characterStyles := ["Citation"] }

/-- A style that gives citations a character style. -/
def styledCitations : Style :=
  { citationOptions :=
      [("FormatCitations", .bool true), ("CitationCharacterFormat", .text "Citation")] }

theorem writesMarker_of_writeMarker_citedWords :
    citedWords.WellFormed ∧ citedWords.marks.get? "citation" = some (.inBody 4 5) ∧
      (∀ name x, name ≠ "citation" → citedWords.marks.get? name = some x →
        x.intersects (.inBody 4 5) = false) ∧
      (styledCitations.formatCitations = true →
        styledCitations.citationCharacterFormat ∈ citedWords.characterStyles) ∧
      citedWords.connection = .steady ∧
      ∃ d', (writeMarker "citation" .parenthetical "(<i>Oaks</i> 1)" styledCitations).run
          citedWords = (.ok (), d') ∧
        ∃ content, WritesMarker citedWords "citation" (.inBody 4 5) .parenthetical
          "(<i>Oaks</i> 1)" styledCitations content d' := by
  have hd : citedWords.WellFormed := by decide +kernel
  have hmark : citedWords.marks.get? "citation" = some (.inBody 4 5) := rfl
  have hapart (name : String) (x : TextRange) (hne : name ≠ "citation")
      (hx : citedWords.marks.get? name = some x) : x.intersects (.inBody 4 5) = false := by
    have hmem := Keyed.mem_of_get?_eq_some hx
    simp only [citedWords, Document.ofPlain, List.mem_cons, Prod.mk.injEq, hne, false_and,
      false_or, List.not_mem_nil, or_false] at hmem
    rw [hmem.2]
    rfl
  have hstyle : styledCitations.formatCitations = true →
      styledCitations.citationCharacterFormat ∈ citedWords.characterStyles :=
    fun _ => by decide +kernel
  obtain ⟨hruns, hwrites⟩ := writesMarker_of_writeMarker .parenthetical "(<i>Oaks</i> 1)" hd
    hmark hapart hstyle
  obtain ⟨d', hrun⟩ := hruns rfl
  exact ⟨hd, hmark, hapart, hstyle, rfl, d', hrun, hwrites d' hrun⟩

end DocumentM

end DocCite
