import DocCite.Proofs.Document.Changing
import DocCite.Proofs.Document.Evaluating
import DocCite.Proofs.Document.Replanning
import DocCite.Proofs.Document.RewritingAgain
import DocCite.Proofs.Document.StandingMarks

/-!
# Refreshing again

A refresh that succeeds is to settle a document: another one right after it succeeds as well and
changes nothing (`refreshAll_again`). The first one wrote all markers and the bibliography
(`exists_refreshRun`). The second one makes the same plan, finds each marker standing in its mark
and the bibliography as it would write it (`RefreshRun.exists_again`). This takes that the citations
are still read in the same order, and that no mark touches the bibliography: a mark that ended up
inside of it stops the second refresh (`not_refreshAll_again_endedPaper`).
-/

namespace DocCite

open MarkedText

variable {d d' p : Document} {preferences : Preferences}

/-! ## Marks without anchors -/

/-- Where no overlap is found, no footnote is anchored in the mark of a citation. -/
theorem unanchored_of_findOverlaps (hlimit : 1 ≤ preferences.overlapReportLimit)
    (hnone : TextRange.findOverlaps (d.citationRanges ++ d.anchorOwners)
      preferences.reportTouchingRanges preferences.overlapReportLimit = [])
    {name : String} {r : TextRange} (hmark : d.marks.get? name = some r)
    (hname : isCitation name = true) (hflow : r.flow = .body) :
    ∀ a ∈ (d.anchors.take r.stop).drop r.start, a = none := by
  intro a ha
  by_contra hanchor
  obtain ⟨j, hj, rfl⟩ := List.mem_iff_getElem.mp ha
  rw [List.length_drop, List.length_take, Document.anchors, List.length_map] at hj
  have hplace : r.start + j ∈ d.anchorPlaces := by
    rw [Document.anchorPlaces, List.mem_filter, List.mem_range]
    refine ⟨by omega, ?_⟩
    rw [List.getElem?_eq_getElem (by omega), Option.any_some]
    by_contra hnot
    refine hanchor ?_
    simp only [Document.anchors, List.getElem_drop, List.getElem_take, List.getElem_map]
    exact Cell.footnote_letter (Bool.eq_false_iff.mpr hnot)
  have hapart := TextRange.pairwise_apart_of_findOverlaps hlimit hnone
  rw [List.pairwise_append] at hapart
  have howner := List.mem_map_of_mem (f := fun r => (r, "footnote mark at " ++ toString r.start))
    (List.mem_map_of_mem (f := fun i => TextRange.inBody i (i + 1)) hplace)
  have hside : r.stop ≤ (TextRange.inBody (r.start + j) (r.start + j + 1)).start ∨
      (TextRange.inBody (r.start + j) (r.start + j + 1)).stop ≤ r.start :=
    hapart.2.2 _ (Document.mem_citationRanges hmark hname) _ howner hflow
  rw [TextRange.inBody, TextRange.start_new, TextRange.stop_new] at hside
  omega

/-! ## The bibliography once more -/

/-- **An unmoved document admits the bibliography that was just written**, if every citation mark is
beside the section. -/
theorem Document.Rewritten.admits_of_unmoved {b : Bibliography} {title entries : List Char}
    (h : d.Rewritten title entries d') (hadmits : d.Admits b) (hp : Unmoved d' p)
    (hstyles : p.paragraphStyles = d.paragraphStyles)
    (hbeside : ∀ name r, d'.marks.get? name = some r → MarkName.isMark name = true →
      r.Beside d'.sectionRange) : p.Admits b := by
  have hagain : d'.Admits b := by
    refine (h.admits_iff hadmits).mpr fun name x hx hname => ?_
    have hclear := hbeside name _ (by rw [h.get?_marks, hx, Option.map_some]) hname
    rw [h.sectionRange] at hclear
    exact hclear.not_isWithin
  have hthere : p.bookmarks.get? MarkName.bibliographyBookmark =
      some (d.sectionRange.rewritten title entries) :=
    (hp.bookmarks _ List.mem_cons_self).trans h.bookmark
  have hbreak : p.addedBreak = [] := by rw [Document.addedBreak, hthere]
  have hsectioned : p.sectionedText = p.markedText := by
    rw [Document.sectionedText, hbreak, MarkedText.typed_nil]
  have hbeside' (x : TextRange) : p.besideSection x = x := by
    rw [Document.besideSection, hbreak, TextRange.afterReplacing_collapsed_nil]
  refine ⟨?_, fun name x hx hname => ?_, ?_, ?_⟩
  · have hinside := hagain.inside
    rw [h.sectionedText] at hinside
    rw [hsectioned, hp.sectionRange]
    exact hp.alike.inside hinside
  · have hmarks := hagain.marks name x ((hp.alike.marks name).trans hx) hname
    rwa [h.besideSection, ← hbeside' x, ← hp.sectionRange] at hmarks
  · rw [hstyles]
    exact hadmits.header
  · rw [hstyles]
    exact hadmits.paragraphs

/-- What names a citation has the form of such a name. -/
theorem MarkName.isMark_of_isCitation {name : String} (h : isCitation name = true) :
    MarkName.isMark name = true := by
  unfold isCitation MarkName.parse? at h
  unfold MarkName.isMark
  cases hsplit : MarkName.split? name.toList with
  | none => rw [hsplit] at h; cases h
  | some parts => rfl

namespace DocumentM

section Contract

variable {C : Contract}

theorem keeps_writeMarkers_of_fails (hC : C.AllowsMarking)
    (hfails : ∀ e d, C.Holds d → C.Fails e d) (gs : CitationGroups) (produced : CitationMarkers)
    (style : Style) : Keeps C (writeMarkers gs produced style) :=
  keeps_writeMarkers hC.toAllowsWriting (fun id => keeps_fillCursor (keeps_prepareMark hC id)) gs
    produced fun _ _ d hd _ => hfails _ d hd

theorem keeps_writeBibliography_of_fails (hC : C.AllowsMarking)
    (hfails : ∀ e d, C.Holds d → C.Fails e d) (b : Bibliography) (preferences : Preferences) :
    Keeps C (writeBibliography b preferences) :=
  keeps_writeBibliography hC.toAllowsWriting (fun d hd _ => hfails _ d hd)
    (fun d hd _ => hfails _ d hd) preferences

end Contract

/-! ## The first time -/

section First

variable {a b c e : Document} {databases : List Database} {style : Style} {plan : RefreshPlan}
  {unresolved : List String}

/-- What the writing of a refresh keeps. -/
theorem keeps_writeRefresh_of_fails {C : Contract} (hC : C.AllowsMarking)
    (hfails : ∀ e d, C.Holds d → C.Fails e d) (plan : RefreshPlan) (databases : List Database)
    (style : Style) (preferences : Preferences) :
    Keeps C (writeRefresh plan databases style preferences) := by
  refine keeps_lockScreen.bind fun _ => Keeps.closing
    ((keeps_writeMarkers_of_fails hC hfails _ _ _).bind fun _ => ?_) fun _ => keeps_unlockScreen
  split
  · exact keeps_writeBibliography_of_fails hC hfails _ _
  · exact .pure _

/-- **What a refresh of a document did**: it made a plan, wrote the markers, and wrote the
bibliography after them. -/
structure RefreshRun (databases : List Database) (style : Style) (preferences : Preferences)
    (a : Document) (plan : RefreshPlan) (c d' : Document) : Prop where
  planned : ∃ b, (planRefresh databases style preferences .always).run a = (.ok plan, b)
  groups : AreGroupsOf a plan.groups.groups
  progress : Progress a plan.produced.closedMarker plan.groups.groups c.markedText
  properties : c.properties = a.properties
  setUp : SetUpLike a c
  written : (writeBibliography (.ofCited plan.groups plan.produced.bibliography databases style)
    preferences).run c = (.ok (), d')

/-- **A refresh that succeeds** did its steps, and leaves the document well formed, set up as it was,
and with the cursor in the text if it has citations. -/
theorem exists_refreshRun (ha : a.WellFormed) (hlimit : 1 ≤ preferences.overlapReportLimit)
    (hrun : (refresh databases style preferences .always).run a = (.ok unresolved, e)) :
    ∃ plan c d', RefreshRun databases style preferences a plan c d' ∧
      unresolved = plan.produced.unresolved ∧ SameDocument d' e ∧ e.WellFormed ∧ SetUpLike a e ∧
      (a.citationRanges ≠ [] → e.CursorInText) := by
  obtain ⟨plan, b, hplan, hrun⟩ := run_bind_eq_ok_iff.mp hrun
  obtain ⟨u, e₁, hwrite, hpure⟩ := run_bind_eq_ok_iff.mp hrun
  cases hpure
  obtain ⟨hstyles, hsame⟩ := (triple_planRefresh a databases style preferences .always).of_ok
    (SameDocument.refl a) hplan
  obtain ⟨before, ordered, -, hbefore, -, hlabels, hproduced, -, hapart⟩ :=
    exists_ordered_of_planRefresh ha hplan
  have hplanned : plan.groups.labels = before.labels := by
    rw [show plan.groups = (ordered.produce databases style).1 from congrArg Prod.fst hproduced,
      CitationGroups.labels_produce, hlabels]
  have hwell : e.WellFormed := Triple.of_ok (keeps_writeRefresh_of_fails allowsMarking_wellFormed
    (fun _ _ hd => hd) plan databases style preferences) (ha.of_same hsame) hwrite
  have hset : SetUpLike a e := Triple.of_ok (keeps_writeRefresh_of_fails (allowsMarking_setUp a)
    (fun _ _ _ => trivial) plan databases style preferences) ((SetUpLike.refl a).of_same hsame) hwrite
  have hcursor (hne : a.citationRanges ≠ []) : e.CursorInText :=
    Triple.of_ok (keeps_writeRefresh_of_fails allowsMarking_cursorInText (fun _ _ _ => trivial) plan
      databases style preferences) (cursorInText_of_planRefresh ha hplan hne) hwrite
  obtain ⟨u, b₁, hlock, hwrite⟩ := run_bind_eq_ok_iff.mp hwrite
  have hlocked := sameDocument_of_keeps (fun C => keeps_lockScreen (C := C)) b
  rw [hlock] at hlocked
  obtain ⟨d', u, hwrite, hunlock⟩ := run_closing_eq_ok_iff.mp hwrite
  have hunlocked := sameDocument_of_keeps (fun C => keeps_unlockScreen (C := C)) d'
  rw [hunlock] at hunlocked
  obtain ⟨u, c, hmarkers, hwrite⟩ := run_bind_eq_ok_iff.mp hwrite
  rw [if_pos (rebuilds_of_planRefresh hplan)] at hwrite
  have hstart : SameDocument a b₁ := hsame.trans hlocked
  have hgroups := areGroupsOf_of_labels ha hbefore hplanned
  obtain ⟨v, hv, hshows⟩ := (triple_writeMarkers ha (hapart hlimit) plan.produced hstyles.markers
    hgroups).of_ok ((shows_self a).of_same hstart) hmarkers
  have hset' : SetUpLike a c := Triple.of_ok (keeps_writeMarkers_of_fails (allowsMarking_setUp a)
    (fun _ _ _ => trivial) plan.groups plan.produced style) ((SetUpLike.refl a).of_same hstart)
    hmarkers
  refine ⟨plan, c, d', ⟨⟨b, hplan⟩, hgroups, ?_, hshows.properties, hset', hwrite⟩, rfl, hunlocked,
    hwell, hset, hcursor⟩
  rw [hshows.markedText]
  exact hv

end First

/-! ## The second time -/

section Second

variable {a c : Document} {databases : List Database} {style : Style} {plan plan' : RefreshPlan}

theorem run_change_of_steady (f : Document → Document) (h : p.connection = .steady) :
    (change f).run p = (.ok (), f p) := by
  rw [change, run_call_of_steady _ h]

/-- A step of the session succeeds over a connection that does not break. -/
theorem exists_change (f : Document → Document) (h : p.connection = .steady)
    (hf : ∀ C, Keeps C (change f)) :
    ∃ e, (change f).run p = (.ok (), e) ∧ SameDocument p e := by
  have hrun := run_change_of_steady f h
  have hsame := sameDocument_of_keeps hf p
  rw [hrun] at hsame
  exact ⟨f p, hrun, hsame⟩

theorem CitationMarkers.closedMarker_eq (h : plan.WritesLike databases style plan')
    {g g' : CitationGroup} (hlabel : g.label = g'.label) :
    plan'.produced.closedMarker g' = plan.produced.closedMarker g := by
  obtain ⟨hid, hrest⟩ := Prod.mk.inj hlabel
  obtain ⟨hkind, -⟩ := Prod.mk.inj hrest
  rw [CitationMarkers.closedMarker, CitationMarkers.closedMarker, h.markers, hid, hkind]

namespace RefreshRun

variable (h : RefreshRun databases style preferences a plan c d')
include h

theorem exists_rewritten :
    c.Admits (.ofCited plan.groups plan.produced.bibliography databases style) ∧
      ∃ title entries, (entries = [] ∨ '\n' ∈ entries) ∧ c.Rewritten title entries d' := by
  obtain ⟨hadmits, entries, -, hentries, hrewritten⟩ :=
    (triple_writeBibliography c _ preferences).of_ok (SameDocument.refl c) h.written
  exact ⟨hadmits, _, entries, hentries, hrewritten⟩

/-- **All markers stand** after a refresh, if all marks are beside the bibliography and no footnotes
are anchored in them. -/
theorem exists_stands (hlike : plan.WritesLike databases style plan')
    (hbeside : ∀ name r, d'.marks.get? name = some r → MarkName.isMark name = true →
      r.Beside d'.sectionRange)
    (hanchors : ∀ name r, d'.marks.get? name = some r → isCitation name = true → r.flow = .body →
      ∀ a ∈ (d'.anchors.take r.stop).drop r.start, a = none)
    {g' : CitationGroup} (hg' : g' ∈ plan'.groups.groups) :
    ∃ r, Stands d' g'.id (plan'.produced.closedMarker g') r := by
  obtain ⟨g, hg, hlabel⟩ := hlike.groups g' hg'
  obtain ⟨hadmits, title, entries, hentries, hrewritten⟩ := h.exists_rewritten
  have hcitation := (h.groups.marks g hg).2
  obtain ⟨r, hstands⟩ := h.progress.stands_of_rewritten hg hcitation (length_closedText _ _)
    hadmits.inside hentries hrewritten
    (fun r hr => hbeside g.id r hr (MarkName.isMark_of_isCitation hcitation))
    fun r hr => hanchors g.id r hr hcitation
  refine ⟨r, ?_⟩
  rwa [CitationMarkers.closedMarker_eq hlike hlabel, ← (Prod.mk.inj hlabel).1]

/-- The marks are those of before. -/
theorem perm_marks : (d'.marks.map Prod.fst).Perm (a.marks.map Prod.fst) := by
  obtain ⟨-, title, entries, -, hrewritten⟩ := h.exists_rewritten
  rw [hrewritten.map_fst_marks]
  exact h.progress.names

theorem properties_eq : d'.properties = a.properties := by
  obtain ⟨-, title, entries, -, hrewritten⟩ := h.exists_rewritten
  exact hrewritten.properties.trans h.properties

/-- The bibliography can be written again, and comes out as it was. -/
theorem exists_bibliography_again (hp : p.connection = .steady) (hunmoved : Unmoved d' p)
    (hset : SetUpLike c p)
    (hbeside : ∀ name r, d'.marks.get? name = some r → MarkName.isMark name = true →
      r.Beside d'.sectionRange) :
    ∃ e, (writeBibliography (.ofCited plan.groups plan.produced.bibliography databases style)
        preferences).run p = (.ok (), e) ∧ e.connection = .steady ∧
      d'.markedText.Alike e.markedText ∧ e.properties = p.properties ∧
      ∀ name ∈ sectionBookmarks, e.bookmarks.get? name = d'.bookmarks.get? name := by
  obtain ⟨hadmits, title, entries, -, hrewritten⟩ := h.exists_rewritten
  have hthere : p.bookmarks.get? MarkName.bibliographyBookmark ≠ none := by
    rw [hunmoved.bookmarks _ List.mem_cons_self, hrewritten.bookmark]
    exact Option.some_ne_none _
  obtain ⟨e, hwrite⟩ := (run_writeBibliography_iff preferences hthere).mpr
    (hrewritten.admits_of_unmoved hadmits hunmoved hset.paragraphStyles hbeside)
  rw [show p.steady = p by rw [Document.steady, ← hp]] at hwrite
  obtain ⟨halike, hbookmarks⟩ := alike_of_rewritten_again h.written hunmoved hset hwrite
  obtain ⟨-, entries', -, -, hrewritten'⟩ :=
    (triple_writeBibliography p _ preferences).of_ok (SameDocument.refl p) hwrite
  exact ⟨e, hwrite, hrewritten'.steady.mp hp, halike, hrewritten'.properties, hbookmarks⟩

/-- **A refresh can be done again**, and then changes nothing. -/
theorem exists_again (ha : a.WellFormed) (hlimit : 1 ≤ preferences.overlapReportLimit)
    (hp : p.WellFormed) (hsteady : p.connection = .steady) (hcontent : SameContent d' p)
    (hset : SetUpLike a p) (hcursor : p.citationRanges ≠ [] → p.CursorInText)
    (horder : p.inReadingOrder p.citationRanges = a.inReadingOrder a.citationRanges)
    (hnone : TextRange.findOverlaps (p.citationRanges ++ p.anchorOwners)
      preferences.reportTouchingRanges preferences.overlapReportLimit = [])
    (hbeside : ∀ name r, p.marks.get? name = some r → MarkName.isMark name = true →
      r.Beside p.sectionRange) :
    ∃ e, (refresh databases style preferences .always).run p =
        (.ok plan.produced.unresolved, e) ∧ e.connection = .steady ∧
      p.markedText.Alike e.markedText ∧ e.properties = p.properties ∧
      ∀ name ∈ sectionBookmarks, e.bookmarks.get? name = p.bookmarks.get? name := by
  have hsame := Unmoved.of_content hcontent
  obtain ⟨b, hplan⟩ := h.planned
  obtain ⟨plan', p₁, hplan', hrebuilds, hlike⟩ := exists_replanned ha hplan hp hsteady
    (hcontent.marks ▸ h.perm_marks) (hcontent.properties.symm.trans h.properties_eq) horder hcursor
    hnone hset.characterStyles hset.paragraphStyles
  obtain ⟨hstyles, hplanned⟩ := (triple_planRefresh p databases style preferences .always).of_ok
    (SameDocument.refl p) hplan'
  have hnever (e : DocumentError) (d : Document) : ¬ p.Breaks e := fun hbreaks => hbreaks.2 hsteady
  have hclear : ∀ name r, d'.marks.get? name = some r → MarkName.isMark name = true →
      r.Beside d'.sectionRange := by
    intro name r hr hname
    rw [← hsame.sectionRange]
    exact hbeside name r (hcontent.marks ▸ hr) hname
  have hstand : ∀ g' ∈ plan'.groups.groups,
      ∃ r, Stands p g'.id (plan'.produced.closedMarker g') r := by
    intro g' hg'
    refine (h.exists_stands hlike hclear (fun name r hr hname hflow => ?_) hg').imp fun r hr =>
      hr.of_unmoved hsame
    rw [← hsame.anchors]
    exact unanchored_of_findOverlaps hlimit hnone (hcontent.marks ▸ hr) hname hflow
  -- the markers are written
  obtain ⟨p₂, hlock, hlocked⟩ : ∃ p₂, lockScreen.run p₁ = (.ok (), p₂) ∧ SameDocument p₁ p₂ :=
    exists_change _ (hplanned.steady.mp hsteady) fun _ => keeps_lockScreen
  obtain ⟨u, c₂, hmarkers, hundisturbed⟩ := (triple_writeMarkers_of_stand hstand
    hstyles.markers).exists_ok ((Undisturbed.refl p).of_same (hplanned.trans hlocked)) hnever
  have hset₂ : SetUpLike p c₂ := Triple.of_ok (keeps_writeMarkers_of_fails (allowsMarking_setUp p)
    (fun _ _ _ => trivial) plan'.groups plan'.produced style)
    ((SetUpLike.refl p).of_same (hplanned.trans hlocked)) hmarkers
  -- the bibliography is written
  obtain ⟨d'', hwrite, hd'', halike, hproperties, hbookmarks⟩ := h.exists_bibliography_again
    (hundisturbed.shows.steady.mp hsteady) (hsame.trans hundisturbed.toUnmoved)
    (h.setUp.symm.trans (hset.trans hset₂)) hclear
  -- the screen is unlocked
  obtain ⟨e, hunlock, hunlocked⟩ : ∃ e, unlockScreen.run d'' = (.ok (), e) ∧ SameDocument d'' e :=
    exists_change _ hd'' fun _ => keeps_unlockScreen
  have hwritten : (writeRefresh plan' databases style preferences).run p₁ = (.ok (), e) := by
    refine run_bind_eq_ok_iff.mpr ⟨(), p₂, hlock, run_closing_eq_ok_iff.mpr ⟨d'', (), ?_, hunlock⟩⟩
    refine run_bind_eq_ok_iff.mpr ⟨u, c₂, hmarkers, ?_⟩
    rw [if_pos hrebuilds, hlike.bibliography]
    exact hwrite
  refine ⟨e, run_bind_eq_ok_iff.mpr ⟨plan', p₁, hplan', run_bind_eq_ok_iff.mpr
    ⟨(), e, hwritten, ?_⟩⟩, hunlocked.steady.mp hd'', ?_, ?_, fun name hname => ?_⟩
  · rw [hlike.unresolved]
    rfl
  · exact (hsame.alike.symm.trans halike).trans (Unmoved.of_content hunlocked.toSameContent).alike
  · exact hunlocked.properties.symm.trans (hproperties.trans hundisturbed.shows.properties)
  · rw [← hunlocked.bookmarks, hbookmarks name hname, hcontent.bookmarks]

end RefreshRun

end Second

/-! ## The whole action -/

section Whole

variable {databases : List Database} {style : Style} {unresolved : List String}

/-- **A refresh has settled a document**: its citations are not in each other's way and are read in
the order from before, and their marks do not touch the bibliography. -/
structure SettledAfter (preferences : Preferences) (d d' : Document) : Prop where
  apart : ((checkCitations preferences).run d'.atRest).1 = .ok ()
  order : (citationsAsRead.run d'.atRest).1 = (citationsAsRead.run d.atRest).1
  beside : ∀ name r, d'.marks.get? name = some r → MarkName.isMark name = true →
    r.Beside d'.sectionRange

/-- **Documents read the same**: all flows hold the same text, and the marks, the bookmarks of the
bibliography and the properties are what they were. -/
structure ReadsSame (d d' : Document) : Prop where
  text : ∀ flow, d'.markedText.text flow = d.markedText.text flow
  marks : ∀ name, d'.marks.get? name = d.marks.get? name
  bookmarks : ∀ name ∈ sectionBookmarks, d'.bookmarks.get? name = d.bookmarks.get? name
  properties : d'.properties = d.properties

/-- Changes may be made wherever they may be made to a document that is set up the same. -/
theorem Looks.checkChangeTracking (h : p.connection = .steady) (hset : SetUpLike d p)
    (hrun : (DocumentM.checkChangeTracking preferences).run d = (.ok (), d')) :
    Looks p (DocumentM.checkChangeTracking preferences) () := by
  obtain ⟨recording, d₁, hrecording, hrun⟩ := run_bind_eq_ok_iff.mp hrun
  obtain ⟨redlines, d₂, hredlines, hrun⟩ := run_bind_eq_ok_iff.mp hrun
  obtain ⟨rfl, hsame⟩ := (triple_see (f := Document.isRecording) fun _ hd =>
    hd.isRecording.symm).of_ok (SameDocument.refl d) hrecording
  obtain ⟨rfl, -⟩ := (triple_see (f := Document.redlines) fun _ hd => hd.redlines.symm).of_ok hsame
    hredlines
  refine Looks.bind (Looks.see h _) (Looks.bind (Looks.see h _) ?_)
  rw [hset.isRecording, hset.redlines]
  split at hrun
  · cases hrun
  · next hallowed =>
    rw [if_neg hallowed]
    exact Looks.pure _

/-- **Refreshing is idempotent**: after a refresh that succeeded and settled the document, another
one finds the same keys missing and leaves all as it was. -/
theorem refreshAll_again (hd : d.WellFormed) (hlimit : 1 ≤ preferences.overlapReportLimit)
    (hrun : (refreshAll preferences databases style).run d = (.ok unresolved, d'))
    (hsettled : SettledAfter preferences d d') :
    ∃ d'', (refreshAll preferences databases style).run d'.steady = (.ok unresolved, d'') ∧
      ReadsSame d' d'' := by
  obtain ⟨u, d₁, hcheck, -⟩ := run_bind_eq_ok_iff.mp hrun
  obtain ⟨a, e, hrefresh, ⟨hbefore, hafter⟩, -, hselection⟩ := exists_run_of_mutate hrun
  have ha := hd.of_same hbefore
  obtain ⟨plan, c, d₂, hfirst, rfl, hunlocked, hwell, hset, hcursor⟩ :=
    exists_refreshRun ha hlimit hrefresh
  have hd' := hwell.of_same hafter
  have hsteady : SameContent d' d'.steady := ⟨rfl, rfl, rfl, rfl, rfl⟩
  have hsetUp : SetUpLike a d'.steady := (hset.of_same hafter).trans ⟨rfl, rfl, rfl, rfl, rfl, rfl⟩
  -- the action begins once more
  have hallowed := Looks.checkChangeTracking (p := d'.steady) rfl
    (((SetUpLike.refl d).of_same hbefore).trans hsetUp) hcheck
  obtain ⟨p, henter, hentered, hselected⟩ : ∃ p,
      (enterUndo "Refresh citations and bibliography").run d'.steady = (.ok (), p) ∧
      SameDocument d'.steady p ∧ p.selection = d'.steady.selection := by
    refine ⟨_, run_change_of_steady _ rfl, ?_, rfl⟩
    exact ⟨⟨rfl, rfl, rfl, rfl, rfl⟩, rfl, rfl, rfl, rfl, rfl, rfl, rfl, Iff.rfl⟩
  have hcontent : SameContent d' p := hsteady.trans hentered.toSameContent
  have hwritten : SameContent d₂ p :=
    (hunlocked.toSameContent.trans hafter.toSameContent).trans hcontent
  have hcursor' (hne : p.citationRanges ≠ []) : p.CursorInText := by
    have hmarks : p.citationRanges = [] ↔ a.citationRanges = [] := by
      have hnames := (hwritten.marks ▸ hfirst.perm_marks).filter MarkedText.isCitation
      simp only [Document.citationRanges, List.map_eq_nil_iff]
      exact ⟨fun h => (h ▸ hnames).nil_eq.symm, fun h => (h ▸ hnames).eq_nil⟩
    have hcursor := (hafter.step hselection.symm).cursor (hcursor (mt hmarks.mpr hne))
    exact (hentered.step hselected).cursor hcursor
  have horder : p.inReadingOrder p.citationRanges = a.inReadingOrder a.citationRanges := by
    have horder := hsettled.order
    rw [run_citationsAsRead_atRest hd', run_citationsAsRead_atRest hd, Except.ok.injEq] at horder
    rw [hcontent.inReadingOrder, hcontent.citationRanges, horder, hbefore.inReadingOrder,
      hbefore.citationRanges]
  have hnone := findOverlaps_of_checkCitations hd' hsettled.apart
  rw [← hcontent.citationRanges, ← hcontent.anchorOwners] at hnone
  have hbeside : ∀ name r, p.marks.get? name = some r → MarkName.isMark name = true →
      r.Beside p.sectionRange := by
    intro name r hr hname
    rw [(Unmoved.of_content hcontent).sectionRange]
    exact hsettled.beside name r (hcontent.marks ▸ hr) hname
  -- and ends
  obtain ⟨q, hagain, hq, halike, hproperties, hbookmarks⟩ := hfirst.exists_again ha hlimit
    ((wellFormed_steady hd').of_same hentered) (hentered.steady.mp rfl) hwritten
    (hsetUp.of_same hentered) hcursor' horder hnone hbeside
  obtain ⟨d'', hleave, hleft⟩ : ∃ d'', leaveUndo.run q = (.ok (), d'') ∧ SameDocument q d'' :=
    exists_change _ hq fun _ => keeps_leaveUndo
  have hfinal := ((Unmoved.of_content hcontent).alike.trans halike).trans
    (Unmoved.of_content hleft.toSameContent).alike
  refine ⟨d'', run_bind_eq_ok_iff.mpr ⟨(), d'.steady, hallowed, run_bind_eq_ok_iff.mpr ⟨(), p,
    henter, run_closing_eq_ok_iff.mpr ⟨q, (), hagain, hleave⟩⟩⟩, ?_⟩
  refine ⟨fun flow => (congrFun hfinal.text flow).symm, fun name => (hfinal.marks name).symm,
    fun name hname => ?_, ?_⟩
  · rw [← hleft.bookmarks, hbookmarks name hname, hcontent.bookmarks]
  · rw [← hleft.properties, hproperties, hcontent.properties]

/-- A paper after a refresh. -/
def refreshed (d : Document) : Document := ((refreshAll {} [] Style.blank).run d).2

theorem settledAfter_sample : SettledAfter {} sampleDocument (refreshed sampleDocument) := by
  refine ⟨congrArg Prod.fst (eq_ok_of_toOption (by decide +kernel)), ?_, fun name r hr _ => ?_⟩
  · have hbefore : (citationsAsRead.run sampleDocument.atRest).1 = .ok ["JR_cite_1_oak"] :=
      congrArg Prod.fst (eq_ok_of_toOption (by decide +kernel))
    have hafter : (citationsAsRead.run (refreshed sampleDocument).atRest).1 =
        .ok ["JR_cite_1_oak"] :=
      congrArg Prod.fst (eq_ok_of_toOption (by decide +kernel))
    exact hafter.trans hbefore.symm
  · have hnodup : ((refreshed sampleDocument).marks.map Prod.fst).Nodup := by decide +kernel
    have hclear : ∀ m ∈ (refreshed sampleDocument).marks,
        m.2.Beside (refreshed sampleDocument).sectionRange := by
      decide +kernel
    exact hclear (name, r) ((Keyed.get?_eq_some_iff hnodup).mp hr)

theorem refreshAll_again_sample :
    sampleDocument.WellFormed ∧ 1 ≤ ({} : Preferences).overlapReportLimit ∧
      (refreshAll {} [] Style.blank).run sampleDocument = (.ok ["oak"], refreshed sampleDocument) ∧
      SettledAfter {} sampleDocument (refreshed sampleDocument) ∧ ∃ d'',
        (refreshAll {} [] Style.blank).run (refreshed sampleDocument).steady =
          (.ok ["oak"], d'') ∧ ReadsSame (refreshed sampleDocument) d'' := by
  have hrun : (refreshAll {} [] Style.blank).run sampleDocument =
      (.ok ["oak"], refreshed sampleDocument) :=
    eq_ok_of_toOption (by decide +kernel)
  exact ⟨wellFormed_sampleDocument, by decide, hrun, settledAfter_sample,
    refreshAll_again wellFormed_sampleDocument (by decide) hrun settledAfter_sample⟩

/-- A paper that ends in a citation that cannot be seen. -/
def endedPaper : Document := .ofPlain "Oaks grow.\n" [] [("JR_cite_3_oak", .inBody 11 11)]

/-- **A citation that cannot be seen, where the bibliography is made**, ends up inside of it, and the
document cannot be refreshed again. -/
theorem not_refreshAll_again_endedPaper :
    endedPaper.WellFormed ∧
      (refreshAll {} [] Style.blank).run endedPaper = (.ok ["oak"], refreshed endedPaper) ∧
      ((refreshed endedPaper).rangeOf "JR_cite_3_oak").IsWithin
        (refreshed endedPaper).sectionRange ∧
      ¬ ∃ d'', (refreshAll {} [] Style.blank).run (refreshed endedPaper).steady =
        (.ok ["oak"], d'') ∧ ReadsSame (refreshed endedPaper) d'' := by
  refine ⟨by decide +kernel, eq_ok_of_toOption (by decide +kernel), by decide +kernel, ?_⟩
  rintro ⟨d'', hagain, -⟩
  have hfails : ((refreshAll {} [] Style.blank).run (refreshed endedPaper).steady).1.toOption =
      none := by
    decide +kernel
  rw [hagain] at hfails
  cases hfails

end Whole

end DocumentM

end DocCite
