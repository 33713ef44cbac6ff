import DocCite.Proofs.Document.Alongside

/-!
# Rewriting a bibliography again

When the section of a bibliography that was just written is deleted, the document is as it was when
the former section was deleted. So writing the bibliography once more comes to the same
(`alike_of_rewritten_again`).
-/

namespace DocCite

namespace TextRange

variable {x whole : TextRange} {title entries : List Char}

/-- A mark that was carried along by the rewriting of a section is, when the section is deleted,
where it would be without the rewriting. -/
theorem afterReplacing_afterRewriting (hentries : entries = [] ∨ '\n' ∈ entries) :
    (x.afterRewriting whole title entries).afterReplacing .mark (whole.rewritten title entries) [] =
      x.afterReplacing .mark whole [] := by
  by_cases hflow : x.flow = whole.flow
  · have hwhole := whole.start_le_stop
    obtain ⟨hstart, hstop⟩ := ends_afterRewriting hflow title hentries rfl rfl
    have hflow' : (x.afterRewriting whole title entries).flow =
        (whole.rewritten title entries).flow := by simpa using hflow
    obtain ⟨hstart', hstop'⟩ := ends_afterReplacing hflow' []
    obtain ⟨hdeleted, hdeleted'⟩ := ends_afterReplacing hflow []
    simp only [List.length_nil, Nat.add_zero, ite_self] at hstart' hstop' hdeleted hdeleted'
    have ha := placeAfterDeleting_cases hwhole x.start
    have hb := placeAfterDeleting_cases hwhole x.stop
    refine eq_of_ends (by simp) ?_ ?_
    · rw [hstart', hdeleted, hstart, start_rewritten, stop_rewritten]
      unfold placeAfterDeleting at *
      split_ifs <;> omega
    · rw [hstop', hdeleted', hstop, start_rewritten, stop_rewritten]
      unfold placeAfterDeleting at *
      split_ifs <;> omega
  · have hstays : x.afterRewriting whole title entries = x := by
      rw [afterRewriting, afterReplacing, if_neg (by simpa using hflow)]
      exact if_neg hflow
    rw [hstays, afterReplacing, if_neg (by simpa using hflow), afterReplacing, if_neg hflow]

end TextRange

namespace MarkedText

variable {v : MarkedText} {whole : TextRange} {title entries : List Char}

/-- Rewriting a section fills its range. -/
theorem text_rewrite_eq_filled (hbody : whole.flow = .body) (hwhole : v.Inside whole)
    (title entries : List Char) :
    (v.rewrite whole title entries).text = v.filled whole (title ++ entries) := by
  obtain ⟨text, htext, hstop⟩ := hwhole
  rw [hbody] at htext
  funext flow
  unfold filled
  by_cases hflow : flow = .body
  · subst hflow
    rw [text_rewrite hbody htext hstop, if_pos hbody.symm, htext, Option.map_some]
  · rw [text_rewrite_of_ne hbody hflow, if_neg (hbody ▸ hflow)]

/-- **Deleting a section that was rewritten** comes to deleting the former one. -/
theorem alike_replace_rewritten (hbody : whole.flow = .body) (hwhole : v.Inside whole)
    (hentries : entries = [] ∨ '\n' ∈ entries) :
    ((v.rewrite whole title entries).replace (whole.rewritten title entries) []).Alike
      (v.replace whole []) where
  text := by
    have hfilled := filled_filled hwhole (text_rewrite_eq_filled hbody hwhole title entries) []
    rw [List.length_append, ← Nat.add_assoc] at hfilled
    exact hfilled
  marks name := by
    rw [get?_replace, get?_replace, get?_rewrite hbody, Option.map_map]
    exact Option.map_congr fun x _ => TextRange.afterReplacing_afterRewriting hentries

end MarkedText

namespace Document

variable {d d' : Document} {text : List Char}

theorem length_anchors (h : d.markedText.text .body = some text) :
    d.anchors.length = text.length := by
  rw [anchors, List.length_map, ← length_chars, ← Option.some.inj h]

theorem anchorsFilled_collapsed_zero (anchors : List (Option Nat)) (p : Nat) :
    anchorsFilled anchors (.collapsed .body p) 0 = anchors := by
  rw [anchorsFilled, if_pos (TextRange.flow_collapsed _ _), TextRange.start_collapsed,
    TextRange.stop_collapsed, List.replicate_zero, List.append_nil, List.take_append_drop]

end Document

/-- The section of an unmoved document is where it was. -/
theorem Unmoved.sectionRange {d d' : Document} (h : Unmoved d d') :
    d'.sectionRange = d.sectionRange := by
  have hbody : Cells.chars d.body = Cells.chars d'.body :=
    Option.some.inj (congrFun h.alike.text .body)
  unfold Document.sectionRange Document.sectionStop
  rw [h.bookmarks _ List.mem_cons_self,
    h.bookmarks MarkName.bibliographyEndBookmark (List.mem_cons_of_mem _ List.mem_cons_self), hbody]

/-- **A document is set up like another one**: the same styles are defined, it is laid out the same,
and changes are recorded or not. -/
structure SetUpLike (d₀ d : Document) : Prop where
  characterStyles : d.characterStyles = d₀.characterStyles
  paragraphStyles : d.paragraphStyles = d₀.paragraphStyles
  isRecording : d.isRecording = d₀.isRecording
  redlines : d.redlines = d₀.redlines
  lineWidth : d.lineWidth = d₀.lineWidth
  linesPerPage : d.linesPerPage = d₀.linesPerPage

namespace SetUpLike

variable {d₀ d d' : Document}

theorem refl (d : Document) : SetUpLike d d := ⟨rfl, rfl, rfl, rfl, rfl, rfl⟩

theorem symm (h : SetUpLike d₀ d) : SetUpLike d d₀ :=
  ⟨h.1.symm, h.2.symm, h.3.symm, h.4.symm, h.5.symm, h.6.symm⟩

theorem trans (h : SetUpLike d₀ d) (h' : SetUpLike d d') : SetUpLike d₀ d' :=
  ⟨h'.1.trans h.1, h'.2.trans h.2, h'.3.trans h.3, h'.4.trans h.4, h'.5.trans h.5, h'.6.trans h.6⟩

theorem of_same (h : SetUpLike d₀ d) (hsame : SameDocument d d') : SetUpLike d₀ d' :=
  ⟨hsame.characterStyles.symm.trans h.characterStyles,
    hsame.paragraphStyles.symm.trans h.paragraphStyles,
    hsame.isRecording.symm.trans h.isRecording, hsame.redlines.symm.trans h.redlines,
    hsame.lineWidth.symm.trans h.lineWidth, hsame.linesPerPage.symm.trans h.linesPerPage⟩

theorem replaceText (h : SetUpLike d₀ d) (r : TextRange) (new : String) :
    SetUpLike d₀ (d.replaceText r new) := by
  rw [d.replaceText_eq]
  exact ⟨h.1, h.2, h.3, h.4, h.5, h.6⟩

theorem modifyCells (h : SetUpLike d₀ d) (r : TextRange) (f : Cell → Cell) :
    SetUpLike d₀ (d.modifyCells r f) := by
  rw [d.modifyCells_eq]
  exact ⟨h.1, h.2, h.3, h.4, h.5, h.6⟩

end SetUpLike

namespace DocumentM

variable {d₀ d d' d₁ d₂ d'' : Document} {b : Bibliography} {preferences : Preferences}

/-- The contract that a document is set up like another one. -/
def setUp (d₀ : Document) : Contract where
  Holds := SetUpLike d₀
  Fails _ _ := True
  holds_of_step h hd := hd.of_same h.toSameDocument
  fails_of_same _ _ := trivial
  fails_of_internal _ _ := trivial

theorem allowsMarking_setUp (d₀ : Document) : (setUp d₀).AllowsMarking where
  replaceText new _ _ hd := hd.replaceText _ new
  modifyCells r f hd := hd.modifyCells r f
  putBookmark _ _ _ hd := ⟨hd.1, hd.2, hd.3, hd.4, hd.5, hd.6⟩
  eraseBookmark _ hd := ⟨hd.1, hd.2, hd.3, hd.4, hd.5, hd.6⟩
  setProperties _ hd := ⟨hd.1, hd.2, hd.3, hd.4, hd.5, hd.6⟩
  putMark _ _ _ hd := ⟨hd.1, hd.2, hd.3, hd.4, hd.5, hd.6⟩
  eraseMark _ hd := ⟨hd.1, hd.2, hd.3, hd.4, hd.5, hd.6⟩

/-- A section that is there is looked up only. -/
theorem triple_sectionThere (d : Document)
    (hthere : d.bookmarks.get? MarkName.bibliographyBookmark ≠ none) :
    Triple (SameDocument d) bibliographySection (fun _ => SameDocument d) fun _ _ => True := by
  have hsame {name : String} (d₁ : Document) (h : SameDocument d d₁) :
      d₁.bookmarks.get? name = d.bookmarks.get? name := by rw [h.bookmarks]
  refine Triple.bind ((triple_see hsame).weaken_error fun _ _ _ => trivial) fun covered =>
    .assume fun hcovered => ?_
  subst hcovered
  cases hcovered : d.bookmarks.get? MarkName.bibliographyBookmark with
  | some covered =>
    exact Triple.bind ((triple_see hsame).weaken_error fun _ _ _ => trivial) fun stop =>
      .assume fun _ => Triple.pure fun _ h => h
  | none => exact absurd hcovered hthere

/-- **A bibliography is written where its former section is deleted.** -/
theorem exists_deleted (hrun : (writeBibliography b preferences).run d = (.ok (), d')) :
    ∃ f e, Shows d d.sectionedText f ∧ SetUpLike d f ∧
      (d.bookmarks.get? MarkName.bibliographyBookmark ≠ none → SameDocument d f) ∧
      SameDocument (f.replaceText d.sectionRange "") e ∧
      (writeSection b preferences d.sectionRange.start).run e = (.ok (), d') := by
  obtain ⟨whole, f₀, hsection, hrun⟩ := run_bind_eq_ok_iff.mp hrun
  obtain ⟨rfl, hshows, -⟩ := (triple_sectionRange d).of_ok (SameDocument.refl d) hsection
  have hset : SetUpLike d f₀ :=
    Triple.of_ok (keeps_bibliographySection (allowsMarking_setUp d).toAllowsWriting)
      (SetUpLike.refl d) hsection
  obtain ⟨u, f, hcheck, hrun⟩ := run_bind_eq_ok_iff.mp hrun
  obtain ⟨-, hsame⟩ := (triple_checkNoMarkInside f₀ _).of_ok (SameDocument.refl f₀) hcheck
  obtain ⟨r, e, hdelete, hrun⟩ := run_bind_eq_ok_iff.mp hrun
  obtain ⟨-, -, hdeleted⟩ := (triple_replace f _ "").of_ok (SameDocument.refl f) hdelete
  refine ⟨f, e, hshows.of_same hsame, hset.of_same hsame, fun hthere => ?_, hdeleted, hrun⟩
  exact SameDocument.trans ((triple_sectionThere d hthere).of_ok (SameDocument.refl d) hsection)
    hsame

/-- The text that is written into a section has no anchors of footnotes. -/
theorem anchors_writeSection {e : Document} {p n : Nat} (hp : p ≤ e.body.length)
    (hrun : (writeSection b preferences p).run e = (.ok (), d'))
    (hlength : d'.body.length = e.body.length + n) :
    d'.anchors = anchorsFilled e.anchors (.collapsed .body p) n := by
  have hanchors (d : Document) : d.anchors.length = d.body.length := List.length_map _
  have hzero : e.anchors = anchorsFilled e.anchors (.collapsed .body p) (p - p) := by
    rw [Nat.sub_self, Document.anchorsFilled_collapsed_zero]
  have halong : Alongside e.anchors p p e e :=
    ⟨.refl _, hzero, hzero, rfl, rfl, by rwa [hanchors], Nat.le_refl p⟩
  obtain ⟨stop, hstop⟩ := agree_writeSection halong hrun hrun
  have hcount : stop - p = n := by
    have hleft := congrArg List.length hstop.left
    simp only [anchorsFilled, TextRange.flow_collapsed, if_true, List.length_append,
      List.length_replicate, TextRange.start_collapsed, TextRange.stop_collapsed, List.length_take,
      List.length_drop, hanchors, hlength] at hleft
    omega
  rw [hstop.left, hcount]

/-- **What is left when the new section is deleted** is what was left of the former one. -/
theorem alongside_of_deleted_again {e₁ e₂ : Document} {t entries : List Char}
    (hinside : d₁.sectionedText.Inside d₁.sectionRange) (hentries : entries = [] ∨ '\n' ∈ entries)
    (hrewritten : d₁.Rewritten t entries d')
    (hdeleted : e₁.markedText = d₁.sectionedText.replace d₁.sectionRange [])
    (hset₁ : SetUpLike d₁ e₁)
    (hwrite : (writeSection b preferences d₁.sectionRange.start).run e₁ = (.ok (), d'))
    (hd₂ : Unmoved d' d₂) (hset₂ : SetUpLike d₁ d₂)
    (hagain : SameDocument (d₂.replaceText d₂.sectionRange "") e₂) :
    Alongside e₁.anchors d₁.sectionRange.start d₁.sectionRange.start e₁ e₂ := by
  have hbody := d₁.flow_sectionRange
  have hsection : d₂.sectionRange = d₁.sectionRange.rewritten t entries :=
    hd₂.sectionRange.trans hrewritten.sectionRange
  obtain ⟨text, htext, hstop⟩ := hinside
  rw [hbody] at htext
  have hle := d₁.sectionRange.start_le_stop
  have hbefore := List.length_take_of_le (Nat.le_trans hle hstop)
  have hleft : e₁.markedText.text .body =
      some (text.take d₁.sectionRange.start ++ [] ++ text.drop d₁.sectionRange.stop) := by
    rw [hdeleted, MarkedText.replace]
    simp only [hbody, if_true, htext, Option.map_some]
  have hfull : d'.markedText.text .body = some (text.take d₁.sectionRange.start ++
      (t ++ entries) ++ text.drop d₁.sectionRange.stop) := by
    rw [hrewritten.markedText, MarkedText.text_rewrite hbody htext hstop]
  have hlength (d : Document) : d.anchors.length = d.body.length := List.length_map _
  have hleft' := Document.length_anchors hleft
  have hfull' := Document.length_anchors hfull
  rw [hlength] at hleft' hfull'
  simp only [List.length_append, List.length_nil, hbefore] at hleft' hfull'
  have hanchors : d'.anchors = anchorsFilled e₁.anchors (.collapsed .body d₁.sectionRange.start)
      (t.length + entries.length) :=
    anchors_writeSection (by omega) hwrite (by omega)
  have hpart : d₁.sectionRange.rewritten t entries =
      .new (TextRange.collapsed .body d₁.sectionRange.start).flow
        ((TextRange.collapsed .body d₁.sectionRange.start).start + 0)
        ((TextRange.collapsed .body d₁.sectionRange.start).start + (t.length + entries.length)) := by
    rw [TextRange.start_collapsed, Nat.add_zero, ← Nat.add_assoc]
    exact congrArg (TextRange.new · _ _) hbody
  have hsame := (shows_self _).of_same hagain
  refine ⟨?_, ?_, ?_, ?_, ?_, ?_, Nat.le_refl _⟩
  · rw [hdeleted, hsame.markedText, Document.markedText_replaceText, String.toList_empty, hsection]
    have hgone : (d'.markedText.replace (d₁.sectionRange.rewritten t entries) []).Alike
        (d₁.sectionedText.replace d₁.sectionRange []) := by
      rw [hrewritten.markedText]
      exact MarkedText.alike_replace_rewritten hbody ⟨text, hbody ▸ htext, hstop⟩ hentries
    exact hgone.symm.trans (hd₂.alike.replace _ _)
  · rw [Nat.sub_self, Document.anchorsFilled_collapsed_zero]
  · have hgone : e₂.anchors = (d₂.replaceText d₂.sectionRange "").anchors := by
      rw [Document.anchors, Document.anchors, hagain.body]
    rw [hgone, Document.anchors_replaceText, hd₂.anchors, hanchors, hsection, hpart,
      anchorsFilled_anchorsFilled (fun _ => ?_) (Nat.zero_le _) (Nat.le_refl _),
      String.toList_empty, Nat.sub_self, Nat.sub_self]
    · rfl
    · rw [TextRange.stop_collapsed, hlength]
      omega
  · rw [hset₁.lineWidth, ← hagain.lineWidth, (hset₂.replaceText _ _).lineWidth]
  · rw [hset₁.linesPerPage, ← hagain.linesPerPage, (hset₂.replaceText _ _).linesPerPage]
  · rw [hlength]
    omega

/-- **A bibliography that is written again** comes out as it was: in a document that was left
undisturbed after the first time, the text, the marks and the bookmarks of the section are the same
afterwards. -/
theorem alike_of_rewritten_again (hrun : (writeBibliography b preferences).run d₁ = (.ok (), d'))
    (hd₂ : Unmoved d' d₂) (hset : SetUpLike d₁ d₂)
    (hagain : (writeBibliography b preferences).run d₂ = (.ok (), d'')) :
    d'.markedText.Alike d''.markedText ∧
      ∀ name ∈ sectionBookmarks, d''.bookmarks.get? name = d'.bookmarks.get? name := by
  obtain ⟨hadmits, entries, -, hentries, hrewritten⟩ :=
    (triple_writeBibliography d₁ b preferences).of_ok (SameDocument.refl d₁) hrun
  obtain ⟨hadmits', entries', -, hentries', hrewritten'⟩ :=
    (triple_writeBibliography d₂ b preferences).of_ok (SameDocument.refl d₂) hagain
  generalize Markup.plainChars b.title.toList = t at hrewritten hrewritten'
  have hbody := d₁.flow_sectionRange
  have hinside := hadmits.inside
  have hsection : d₂.sectionRange = d₁.sectionRange.rewritten t entries :=
    hd₂.sectionRange.trans hrewritten.sectionRange
  have hthere : d₂.bookmarks.get? MarkName.bibliographyBookmark ≠ none := by
    rw [hd₂.bookmarks _ List.mem_cons_self, hrewritten.bookmark]
    exact Option.some_ne_none _
  obtain ⟨f₁, e₁, hshows₁, hset₁, -, hsame₁, hwrite₁⟩ := exists_deleted hrun
  obtain ⟨f₂, e₂, -, -, hthere₂, hsame₂, hwrite₂⟩ := exists_deleted hagain
  -- both sections are written from documents alongside each other
  have hdeleted : e₁.markedText = d₁.sectionedText.replace d₁.sectionRange [] := by
    rw [((shows_self _).of_same hsame₁).markedText, Document.markedText_replaceText,
      hshows₁.markedText, String.toList_empty]
  have halong := alongside_of_deleted_again hinside hentries hrewritten hdeleted
    ((hset₁.replaceText _ _).of_same hsame₁) hwrite₁ hd₂ hset
    (((hthere₂ hthere).replaceText _ _).trans hsame₂)
  rw [hsection, TextRange.start_rewritten] at hwrite₂
  obtain ⟨stop, hwritten⟩ := agree_writeSection halong hwrite₁ hwrite₂
  refine ⟨hwritten.alike, ?_⟩
  -- so the entries are the same, and the bookmarks with them
  have hsame : entries = entries' := by
    have hfirst := MarkedText.text_rewrite_eq_filled hbody hinside t entries
    have hsecond := MarkedText.text_rewrite_eq_filled d₂.flow_sectionRange hadmits'.inside t entries'
    have hunbroken : d₂.sectionedText = d₂.markedText := by
      obtain ⟨covered, hcovered⟩ := Option.ne_none_iff_exists'.mp hthere
      rw [Document.sectionedText, Document.addedBreak, hcovered, MarkedText.typed_nil]
    rw [← hrewritten.markedText] at hfirst
    rw [← hrewritten'.markedText, ← hwritten.alike.text, hunbroken, hsection,
      TextRange.rewritten, Nat.add_assoc, ← List.length_append,
      MarkedText.filled_filled hinside (hd₂.alike.text.symm.trans hfirst)] at hsecond
    exact List.append_cancel_left (MarkedText.filled_injective hinside (hfirst.symm.trans hsecond))
  subst hsame
  have hrange : d₂.sectionRange.rewritten t entries = d₁.sectionRange.rewritten t entries := by
    rw [hsection, TextRange.rewritten, TextRange.flow_rewritten, TextRange.start_rewritten]
    rfl
  intro name hname
  rcases List.mem_cons.mp hname with rfl | hname
  · rw [hrewritten'.bookmark, hrewritten.bookmark, hrange]
  · rw [List.mem_singleton.mp hname, hrewritten'.endBookmark, hrewritten.endBookmark, hrange]

end DocumentM

end DocCite
