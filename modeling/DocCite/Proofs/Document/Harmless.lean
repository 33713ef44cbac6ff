import DocCite.Proofs.Document.Rewriting

/-!
# A bibliography written without harm

Writing a bibliography is to delete nothing but the former one, to leave every citation mark its
text and its place outside, and to be possible again. It is not always so. A bookmark in a footnote
tells places of the body that are no bibliography, a mark can reach into the section from outside or
take in the title, and an empty mark at the start of the section goes to its end, where it is in the
way next time. Otherwise nothing is harmed (`harmsNothing_iff`).
-/

namespace DocCite

/-- The text of the body that is not between the bookmarks of the bibliography. -/
def Document.outsideSection (d : Document) : List Char :=
  match d.bookmarks.get? MarkName.bibliographyBookmark with
  | some covered =>
    if covered.flow = .body then
      (Cells.chars d.body).take covered.start ++ (Cells.chars d.body).drop (d.sectionStop covered)
    else Cells.chars d.body
  | none => Cells.chars d.body

/-- **Writing a bibliography harms nothing**: no text but the former bibliography is deleted, every
citation mark covers its text and is outside of the new section, and the bibliography can be written
again. -/
structure HarmsNothing (b : Bibliography) (preferences : Preferences) (d d' : Document) : Prop where
  body : d.outsideSection.Sublist d'.outsideSection
  footnotes : d'.footnotes.map Cells.chars = d.footnotes.map Cells.chars
  marks : ∀ name x, d.marks.get? name = some x → MarkName.isMark name = true →
    ∃ x', d'.marks.get? name = some x' ∧ d'.markedText.under? x' = d.markedText.under? x ∧
      x'.intersects d'.sectionRange = false
  again : ∃ d'', (DocumentM.writeBibliography b preferences).run d'.steady = (.ok (), d'')

/-- **A bibliography fits into a document**: its bookmark is in the body, or tells an empty range,
and every citation mark suits the rewriting of the section. -/
structure Bibliography.FitsInto (b : Bibliography) (d : Document) : Prop where
  inBody : ∀ covered, d.bookmarks.get? MarkName.bibliographyBookmark = some covered →
    covered.flow = .body ∨ d.sectionStop covered = covered.start
  marks : ∀ name x, d.marks.get? name = some x → MarkName.isMark name = true →
    (d.besideSection x).Suits d.sectionRange (Markup.plainChars b.title.toList) b.entries

namespace Document.Rewritten

variable {d d' : Document} {b : Bibliography} {title entries : List Char}
  (h : d.Rewritten title entries d')
include h

/-- The body around the section stays. -/
theorem outsideSection (hinside : d.sectionedText.Inside d.sectionRange) :
    d'.outsideSection =
      (Cells.chars d.body ++ d.addedBreak).take d.sectionRange.start ++
        (Cells.chars d.body ++ d.addedBreak).drop d.sectionRange.stop := by
  obtain ⟨text, htext, hstop⟩ := hinside
  rw [flow_sectionRange, text_sectionedText, Option.some.injEq] at htext
  subst htext
  have hbody : some (Cells.chars d'.body) = d'.markedText.text .body := rfl
  rw [h.markedText, MarkedText.text_rewrite d.flow_sectionRange d.text_sectionedText hstop,
    Option.some.injEq] at hbody
  have hbefore := List.length_take_of_le (Nat.le_trans d.sectionRange.start_le_stop hstop)
  have hflow : (d.sectionRange.rewritten title entries).flow = .body := d.flow_sectionRange
  rw [Document.outsideSection, h.bookmark]
  simp only [if_pos hflow, h.sectionStop, hbody]
  congr 1
  · rw [TextRange.start_rewritten, List.append_assoc, List.take_left' hbefore]
  · rw [TextRange.stop_rewritten, List.drop_left']
    rw [List.length_append, hbefore, List.length_append, Nat.add_assoc]

/-- **No text but the former bibliography is deleted** where its bookmark is in the body, or tells
an empty range. -/
theorem sublist_outsideSection_iff (hinside : d.sectionedText.Inside d.sectionRange) :
    d.outsideSection.Sublist d'.outsideSection ↔
      ∀ covered, d.bookmarks.get? MarkName.bibliographyBookmark = some covered →
        covered.flow = .body ∨ d.sectionStop covered = covered.start := by
  rw [h.outsideSection hinside, Document.outsideSection]
  obtain ⟨text, htext, hstop⟩ := hinside
  rw [flow_sectionRange, text_sectionedText, Option.some.injEq] at htext
  subst htext
  cases hcovered : d.bookmarks.get? MarkName.bibliographyBookmark with
  | none =>
    have hend : d.sectionRange = .collapsed .body (Cells.chars d.body ++ d.addedBreak).length := by
      rw [Document.sectionRange, Document.addedBreak, hcovered, endParagraph_eq_append]
    rw [hend, TextRange.start_collapsed, TextRange.stop_collapsed, List.take_length,
      List.drop_length, List.append_nil]
    exact iff_of_true (List.sublist_append_left _ _) fun covered hsome => by cases hsome
  | some covered =>
    have hle := DocumentM.le_sectionStop d covered
    have hrange : d.sectionRange = .inBody covered.start (d.sectionStop covered) := by
      rw [Document.sectionRange, hcovered]
    have hnone : d.addedBreak = [] := by rw [Document.addedBreak, hcovered]
    rw [hrange, TextRange.inBody, TextRange.stop_new] at hstop
    rw [hrange, hnone, List.append_nil, TextRange.inBody, TextRange.start_new, TextRange.stop_new,
      Nat.min_eq_left hle, Nat.max_eq_right hle]
    rw [hnone, List.append_nil, Nat.max_eq_right hle] at hstop
    simp only [Option.some.injEq, forall_eq']
    split_ifs with hflow
    · exact iff_of_true (List.Sublist.refl _) (Or.inl hflow)
    · refine Iff.trans ⟨fun hsub => ?_, fun hempty => ?_⟩ (or_iff_right hflow).symm
      · -- text of the body is deleted, but the bookmark does not tell any of it
        have hlength := hsub.length_le
        rw [List.length_append, List.length_take, List.length_drop] at hlength
        omega
      · rw [hempty, List.take_append_drop]

theorem chars_footnotes : d'.footnotes.map Cells.chars = d.footnotes.map Cells.chars := by
  have hreads : Reads d (Cells.chars d'.body) d' := by
    refine ⟨rfl, fun flow hflow => ?_⟩
    rw [h.markedText, MarkedText.text_rewrite_of_ne d.flow_sectionRange hflow,
      Document.sectionedText, MarkedText.text_typed_of_ne hflow]
  exact hreads.chars_footnotes

end Document.Rewritten

namespace DocumentM

variable {d d' : Document} {b : Bibliography} {preferences : Preferences}

/-- **Writing a bibliography harms nothing just when it fits into the document.** -/
theorem harmsNothing_iff (hd : d.WellFormed)
    (hrun : (writeBibliography b preferences).run d = (.ok (), d')) :
    HarmsNothing b preferences d d' ↔ b.FitsInto d := by
  obtain ⟨hadmits, entries, hnone, hentries, h⟩ :=
    (triple_writeBibliography d b preferences).of_ok (SameDocument.refl d) hrun
  have hthere : d'.bookmarks.get? MarkName.bibliographyBookmark ≠ none := by
    rw [h.bookmark]
    exact Option.some_ne_none _
  have hbody := h.sublist_outsideSection_iff hadmits.inside
  have hagain := (run_writeBibliography_iff preferences hthere).trans (h.admits_iff hadmits)
  -- each mark comes through unharmed just when it suits the rewriting
  have hsuits (name : String) (x : TextRange) (hx : d.marks.get? name = some x)
      (hname : MarkName.isMark name = true) :
      (d.besideSection x).Suits d.sectionRange (Markup.plainChars b.title.toList) b.entries ↔
        d'.markedText.under? ((d.besideSection x).afterRewriting d.sectionRange
            (Markup.plainChars b.title.toList) entries) = d.markedText.under? x ∧
          ((d.besideSection x).afterRewriting d.sectionRange
            (Markup.plainChars b.title.toList) entries).intersects d'.sectionRange = false ∧
          ¬ ((d.besideSection x).afterRewriting d.sectionRange
            (Markup.plainChars b.title.toList) entries).IsWithin d'.sectionRange := by
    have hinside : d.Inside x :=
      hd.marks_inside (name, x) ((Keyed.get?_eq_some_iff hd.marks_nodup).mp hx)
    rw [← TextRange.suits_congr hnone, h.markedText, h.sectionRange,
      ← Document.under?_besideSection hinside]
    exact MarkedText.suits_iff_unharmed d.flow_sectionRange hadmits.inside
      (Document.inside_besideSection hinside) hentries (hadmits.marks name x hx hname)
  constructor
  · rintro ⟨hsublist, -, hmarks, hrunAgain⟩
    refine ⟨hbody.mp hsublist, fun name x hx hname => (hsuits name x hx hname).mpr ?_⟩
    obtain ⟨x', hx', hunder, hapart⟩ := hmarks name x hx hname
    rw [h.get?_marks, hx, Option.map_some, Option.some.injEq] at hx'
    subst hx'
    refine ⟨hunder, hapart, ?_⟩
    rw [h.sectionRange]
    exact hagain.mp hrunAgain name x hx hname
  · rintro ⟨hinBody, hmarks⟩
    refine ⟨hbody.mpr hinBody, h.chars_footnotes, fun name x hx hname => ?_,
      hagain.mpr fun name x hx hname => ?_⟩
    · obtain ⟨hunder, hapart, -⟩ := (hsuits name x hx hname).mp (hmarks name x hx hname)
      refine ⟨_, ?_, hunder, hapart⟩
      rw [h.get?_marks, hx, Option.map_some]
    · rw [← h.sectionRange]
      exact ((hsuits name x hx hname).mp (hmarks name x hx hname)).2.2

theorem harmsNothing_listedPaper :
    listedPaper.WellFormed ∧ ∃ d',
      (writeBibliography updatedBibliography {}).run listedPaper = (.ok (), d') ∧
        HarmsNothing updatedBibliography {} listedPaper d' := by
  have hd : listedPaper.WellFormed := by decide +kernel
  have hrun : (writeBibliography updatedBibliography {}).run listedPaper =
      (.ok (), ((writeBibliography updatedBibliography {}).run listedPaper).2) :=
    eq_ok_of_toOption (by decide +kernel)
  have hfits : updatedBibliography.FitsInto listedPaper := by
    refine ⟨fun covered hcovered => ?_, fun name x hx _ => ?_⟩
    · cases hcovered
      exact Or.inl rfl
    · have hmem := (Keyed.get?_eq_some_iff hd.marks_nodup).mp hx
      cases List.mem_singleton.mp hmem
      exact ⟨fun _ => Or.inl (by decide +kernel), fun _ hend => absurd hend (by decide +kernel),
        fun _ hempty => absurd hempty (by decide +kernel)⟩
  exact ⟨hd, _, hrun, (harmsNothing_iff hd hrun).mpr hfits⟩

/-- A paper in which a citation ends where the bibliography starts. -/
def crowdedPaper : Document :=
  { Document.ofPlain "As in [1]References" [] [("JR_cite_1_1_a", .inBody 6 9)] with
    bookmarks := [(MarkName.bibliographyBookmark, .inBody 9 19),
      (MarkName.bibliographyEndBookmark, .collapsed .body 19)] }

/-- **A citation that ends where the bibliography starts** takes in the new title. -/
theorem not_harmsNothing_crowdedPaper :
    crowdedPaper.WellFormed ∧ ∃ d',
      (writeBibliography updatedBibliography {}).run crowdedPaper = (.ok (), d') ∧
        ¬ HarmsNothing updatedBibliography {} crowdedPaper d' := by
  refine ⟨by decide +kernel, ((writeBibliography updatedBibliography {}).run crowdedPaper).2,
    eq_ok_of_toOption (by decide +kernel), fun hharmless => ?_⟩
  obtain ⟨x', hx', -, hapart⟩ := hharmless.marks "JR_cite_1_1_a" (.inBody 6 9) rfl (by decide)
  have hlonger : ((writeBibliography updatedBibliography {}).run crowdedPaper).2.marks.get?
      "JR_cite_1_1_a" = some (.inBody 6 16) := by decide +kernel
  cases hx'.symm.trans hlonger
  revert hapart
  decide +kernel

end DocumentM

end DocCite
