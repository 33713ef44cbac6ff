import DocCite.Proofs.Citation.Shuffled
import DocCite.Proofs.Document.CitationsRead
import DocCite.Proofs.Document.Cursor
import DocCite.Proofs.Document.SortedReading

/-!
# Planning a refresh again

What a refresh plans follows from the groups of a document, from the ranges of their marks and from
the order in which these are read. So a plan can be made again wherever the checks succeed and the
citations are read in the same order, and it says to write the same (`exists_replanned`).
-/

namespace DocCite

/-- The groups of a document. -/
def Document.loaded (d : Document) : CitationGroups :=
  .ofList (CitationGroups.named d.properties (d.marks.map Prod.fst))

/-- The ranges of the citation marks of a document, with their names. -/
def Document.citationRanges (d : Document) : List (TextRange × String) :=
  ((d.marks.map Prod.fst).filter MarkedText.isCitation).map fun name => (d.rangeOf name, name)

/-- The anchors of footnotes, with names for a report of overlaps. -/
def Document.anchorOwners (d : Document) : List (TextRange × String) :=
  (d.anchorPlaces.map fun i => TextRange.inBody i (i + 1)).map fun r =>
    (r, "footnote mark at " ++ toString r.start)

/-- **Plans that say to write the same**: the same markers for the same groups, the same
bibliography, and the same keys that are not found. -/
structure DocumentM.RefreshPlan.WritesLike (databases : List Database) (style : Style)
    (plan plan' : DocumentM.RefreshPlan) : Prop where
  groups : ∀ g' ∈ plan'.groups.groups, ∃ g ∈ plan.groups.groups, g.label = g'.label
  markers : ∀ id, DocumentM.CitationMarkers.markerOf plan'.produced id =
    DocumentM.CitationMarkers.markerOf plan.produced id
  bibliography : Bibliography.ofCited plan'.groups plan'.produced.bibliography databases style =
    Bibliography.ofCited plan.groups plan.produced.bibliography databases style
  unresolved : plan'.produced.unresolved = plan.produced.unresolved

namespace DocumentM

/-- Fails if citations of a document are in each other's way, or in that of a footnote. -/
def checkCitations (preferences : Preferences) : DocumentM Unit := do
  checkOverlaps (← groupRanges (← loadGroups)) preferences

/-- The names of the citations of a document, as they are read. -/
def citationsAsRead : DocumentM (List String) := do
  readingOrder (← groupRanges (← loadGroups))

end DocumentM

section Loaded

variable {d d' : Document}

theorem Document.WellFormed.groups_loaded (hd : d.WellFormed) :
    d.loaded.groups = CitationGroups.named d.properties (d.marks.map Prod.fst) :=
  CitationGroups.groups_ofList_named hd.marks_nodup

theorem Document.WellFormed.ids_loaded (hd : d.WellFormed) :
    d.loaded.ids = (d.marks.map Prod.fst).filter MarkedText.isCitation := by
  rw [CitationGroups.ids, hd.groups_loaded, CitationGroups.map_id_named]

/-- The ranges of the citation marks are those of the groups. -/
theorem Document.WellFormed.citationRanges_eq (hd : d.WellFormed) :
    d.citationRanges = d.loaded.groups.map fun g => (d.rangeOf g.id, g.id) := by
  rw [Document.citationRanges, ← hd.ids_loaded, CitationGroups.ids, List.map_map]
  rfl

theorem Document.WellFormed.nodup_ids_loaded (hd : d.WellFormed) : d.loaded.ids.Nodup := by
  rw [hd.ids_loaded]
  exact hd.marks_nodup.filter _

/-- The range of a mark that is there. -/
theorem Document.get?_rangeOf {name : String} (hname : name ∈ d.marks.map Prod.fst) :
    d.marks.get? name = some (d.rangeOf name) := by
  rw [Document.rangeOf]
  cases hmark : d.marks.get? name with
  | some r => rfl
  | none => exact absurd hname (Keyed.get?_eq_none_iff.mp hmark)

theorem Document.WellFormed.inside_citationRanges (hd : d.WellFormed) :
    ∀ item ∈ d.citationRanges, d.Inside item.1 := by
  intro item hitem
  obtain ⟨name, hname, rfl⟩ := List.mem_map.mp hitem
  exact hd.marks_inside (name, d.rangeOf name)
    ((Keyed.get?_eq_some_iff hd.marks_nodup).mp (Document.get?_rangeOf (List.mem_filter.mp hname).1))

/-- Every citation mark is among the ranges. -/
theorem Document.mem_citationRanges {name : String} {r : TextRange}
    (hmark : d.marks.get? name = some r) (hname : MarkedText.isCitation name = true) :
    (r, name) ∈ d.citationRanges := by
  have hmem : name ∈ d.marks.map Prod.fst := by
    by_contra hnot
    rw [Keyed.get?_eq_none_iff.mpr hnot] at hmark
    cases hmark
  refine List.mem_map.mpr ⟨name, List.mem_filter.mpr ⟨hmem, hname⟩, ?_⟩
  rw [Document.rangeOf, hmark]
  rfl

theorem SameContent.citationRanges (h : SameContent d d') : d'.citationRanges = d.citationRanges := by
  simp only [Document.citationRanges, Document.rangeOf, h.marks]

theorem SameContent.anchorOwners (h : SameContent d d') : d'.anchorOwners = d.anchorOwners := by
  simp only [Document.anchorOwners, Document.anchorPlaces, h.body]

/-- Documents with the same content are read in the same order. -/
theorem SameContent.inReadingOrder {α : Type} (h : SameContent d d') (items : List (TextRange × α)) :
    d'.inReadingOrder items = d.inReadingOrder items := by
  have hplaced : d'.placed = d.placed (α := α) := by
    funext item
    simp only [Document.placed, Document.anchorOf, Document.anchorPlace?, h.body]
  rw [Document.inReadingOrder, hplaced, Document.inReadingOrder]

end Loaded

namespace DocumentM

open CitationGroups

variable {d d' p : Document} {preferences : Preferences} {databases : List Database} {style : Style}

/-! ## What is read -/

namespace Looks

theorem loaded (h : p.connection = .steady) : Looks p DocumentM.loadGroups p.loaded :=
  Looks.loadGroups h

theorem citationRanges (hp : p.WellFormed) (h : p.connection = .steady) :
    Looks p (DocumentM.groupRanges p.loaded) p.citationRanges := by
  have hmarks : ∀ g ∈ p.loaded.groups, p.marks.get? g.id = some (p.rangeOf g.id) := by
    intro g hg
    rw [hp.groups_loaded] at hg
    exact Document.get?_rangeOf (mem_of_mem_named hg).1
  rw [hp.citationRanges_eq]
  exact Looks.groupRanges h hmarks

/-- The check of overlaps finds none. -/
theorem checkOverlaps (h : p.connection = .steady) {ranges : List (TextRange × String)}
    (hnone : TextRange.findOverlaps (ranges ++ p.anchorOwners) preferences.reportTouchingRanges
      preferences.overlapReportLimit = []) :
    Looks p (DocumentM.checkOverlaps ranges preferences) () := by
  refine bind (see h _) ?_
  have hfound := hnone
  rw [Document.anchorOwners] at hfound
  simp only [hfound]
  exact pure ()

end Looks

/-- What was seen is gone on with. -/
theorem Looks.run_bind {α β : Type} {x : DocumentM α} {a : α} (h : Looks p x a)
    (f : α → DocumentM β) : (x >>= f).run p = (f a).run p := by
  rw [DocumentM.run_bind, h]

theorem wellFormed_atRest (hd : d.WellFormed) : d.atRest.WellFormed :=
  ⟨hd.marks_nodup, hd.marks_inside, hd.bookmarks_nodup, hd.bookmarks_inside⟩

theorem wellFormed_steady (hd : d.WellFormed) : d.steady.WellFormed :=
  ⟨hd.marks_nodup, hd.marks_inside, hd.bookmarks_nodup, hd.bookmarks_inside⟩

/-- Groups and ranges are read first. -/
theorem run_loaded_ranges {α : Type} (hp : p.WellFormed) (h : p.connection = .steady)
    (f : List (TextRange × String) → DocumentM α) :
    (do f (← groupRanges (← loadGroups)) : DocumentM α).run p = (f p.citationRanges).run p := by
  rw [(Looks.loaded h).run_bind, (Looks.citationRanges hp h).run_bind]

theorem findOverlaps_of_checkCitations (hd : d.WellFormed)
    (hcheck : ((checkCitations preferences).run d.atRest).1 = .ok ()) :
    TextRange.findOverlaps (d.citationRanges ++ d.anchorOwners) preferences.reportTouchingRanges
      preferences.overlapReportLimit = [] := by
  have hsteady : d.atRest.connection = .steady := rfl
  rw [checkCitations, run_loaded_ranges (wellFormed_atRest hd) hsteady, checkOverlaps,
    footnoteAnchors, (Looks.see hsteady _).run_bind] at hcheck
  simp only at hcheck
  split at hcheck
  · cases hcheck
  · next hfound =>
    rw [Bool.not_eq_true, Bool.not_eq_false', List.isEmpty_iff] at hfound
    exact hfound

/-- The citations of a document at rest are read in the order of the text. -/
theorem run_citationsAsRead_atRest (hd : d.WellFormed) :
    (citationsAsRead.run d.atRest).1 = .ok (d.inReadingOrder d.citationRanges) := by
  rw [citationsAsRead, run_loaded_ranges (wellFormed_atRest hd) rfl]
  exact run_readingOrder_atRest d hd.inside_citationRanges

/-! ## What is planned -/

/-- A paragraph style that is defined is found. -/
theorem Looks.checkParagraphStyles (h : p.connection = .steady)
    (hheader : style.referenceHeaderParagraphFormat ∈ p.paragraphStyles)
    (hparagraph : style.referenceParagraphFormat ∈ p.paragraphStyles) :
    Looks p (DocumentM.checkParagraphStyles style) () := by
  have hstep {name : String} (hname : name ∈ p.paragraphStyles) : Looks p
      (do if !(← hasParagraphStyle name) then throw (.undefinedParagraphFormat name)) () := by
    refine Looks.bind (Looks.see h _) ?_
    rw [List.contains_iff_mem.mpr hname]
    exact Looks.pure ()
  exact Looks.bind (hstep hheader) (Looks.bind (hstep hparagraph) (Looks.pure _))

/-- **The check of a character style that is defined succeeds** inside the text. -/
theorem exists_checkCharacterStyle {place : TextRange} {name : String}
    (h : p.connection = .steady) (hplace : p.Inside place.startPoint)
    (hname : name ∈ p.characterStyles) :
    ∃ p', (checkCharacterStyle place name).run p = (.ok (), p') := by
  have hnever (e : DocumentError) (d : Document) : ¬ p.Breaks e := fun hbreaks => hbreaks.2 h
  rw [← Document.inside_markedText_iff] at hplace
  have hprobe : (p.markedText.replace place.startPoint "x".toList).Inside
      (Document.typedRange place.startPoint "x") :=
    MarkedText.inside_filled (s := "x".toList) (i := 0) (j := 1) hplace rfl (Nat.zero_le _)
      (Nat.le_refl _)
  obtain ⟨_, p₁, htyped, rfl, hp₁⟩ :=
    (Makes.replace hplace "x").exists_ok (shows_self p) hnever
  obtain ⟨u, p₂, hset, -, hp₂⟩ := (Makes.setCharacterStyle hprobe hname).exists_ok hp₁ hnever
  obtain ⟨r, p₃, hdeleted, -, hp₃⟩ := (Makes.replace hprobe "").exists_ok hp₂ hnever
  refine ⟨p₃, run_bind_eq_ok_iff.mpr ⟨_, p₁, htyped, ?_⟩⟩
  refine run_bind_eq_ok_iff.mpr ⟨.ok (), p₂, ?_, run_bind_eq_ok_iff.mpr ⟨r, p₃, hdeleted, rfl⟩⟩
  rw [run_attempt, hset]

theorem exists_checkMarkerStyle (hp : p.WellFormed) (h : p.connection = .steady)
    (hmarker : p.citationRanges ≠ [] → style.formatCitations = true →
      style.citationCharacterFormat ∈ p.characterStyles) :
    ∃ p', (checkMarkerStyle p.citationRanges style).run p = (.ok (), p') := by
  unfold checkMarkerStyle
  split
  · next hformat =>
    cases hranges : p.citationRanges with
    | nil => exact ⟨p, rfl⟩
    | cons first rest =>
      have hfirst := hp.inside_citationRanges first (hranges ▸ List.mem_cons_self)
      exact exists_checkCharacterStyle h hfirst.startPoint (hmarker (by simp [hranges]) hformat)
  · exact ⟨p, rfl⟩

/-- The cursor comes back from reading where it was. -/
theorem Looks.readingOrder (hp : p.WellFormed) (h : p.connection = .steady)
    (hcursor : p.citationRanges ≠ [] → p.CursorInText) :
    Looks p (DocumentM.readingOrder p.citationRanges) (p.inReadingOrder p.citationRanges) := by
  by_cases hnil : p.citationRanges = []
  · rw [hnil]
    exact Looks.pure _
  · obtain ⟨c, hselection, hinside⟩ := hcursor hnil
    exact run_readingOrder h hselection hinside hp.inside_citationRanges

/-- **A plan is made** where the checks succeed and the styles are defined. -/
theorem exists_planned {ordered : CitationGroups} (hp : p.WellFormed) (h : p.connection = .steady)
    (hcursor : p.citationRanges ≠ [] → p.CursorInText)
    (hnone : TextRange.findOverlaps (p.citationRanges ++ p.anchorOwners)
      preferences.reportTouchingRanges preferences.overlapReportLimit = [])
    (himpose : p.loaded.imposeOrder (p.inReadingOrder p.citationRanges) = .ok ordered)
    (hheader : style.referenceHeaderParagraphFormat ∈ p.paragraphStyles)
    (hparagraph : style.referenceParagraphFormat ∈ p.paragraphStyles)
    (hmarker : p.citationRanges ≠ [] → style.formatCitations = true →
      style.citationCharacterFormat ∈ p.characterStyles) :
    ∃ p', (planRefresh databases style preferences .always).run p =
      (.ok ⟨(ordered.produce databases style).1, (ordered.produce databases style).2, true⟩, p') := by
  have hordered : Looks p (imposeOrder p.loaded (p.inReadingOrder p.citationRanges)) ordered := by
    unfold imposeOrder
    rw [himpose]
    rfl
  obtain ⟨p', hmarkers⟩ := exists_checkMarkerStyle hp h hmarker
  refine ⟨p', ?_⟩
  unfold planRefresh
  rw [(Looks.loaded h).run_bind, (Looks.citationRanges hp h).run_bind,
    (Looks.checkOverlaps h hnone).run_bind, (Looks.readingOrder hp h hcursor).run_bind,
    hordered.run_bind]
  have hchecked := Looks.checkParagraphStyles h hheader hparagraph
  simp only [writesBibliography]
  rw [(Looks.pure true).run_bind, if_pos rfl, hchecked.run_bind]
  exact run_bind_eq_ok_iff.mpr ⟨(), p', hmarkers, rfl⟩

/-! ## What was planned -/

section Planned

variable {plan : RefreshPlan} {update : BibliographyUpdate}

/-- What was read is what there is. -/
theorem read_of_run (hd : d.WellFormed) {gs : CitationGroups} {d₁ : Document}
    {ranges : List (TextRange × String)} (hload : loadGroups.run d = (.ok gs, d₁))
    (hranges : (groupRanges gs).run d₁ = (.ok ranges, d')) :
    gs = d.loaded ∧ ranges = d.citationRanges ∧ SameDocument d d' := by
  have hgs : gs = d.loaded :=
    ((Makes.loadGroups (o := d) (v := d.markedText)).of_ok (shows_self d) hload).1
  have hsame := sameDocument_of_keeps (fun C => keeps_loadGroups (C := C)) d
  rw [hload] at hsame
  obtain ⟨hread, hsame'⟩ := (triple_groupRanges d gs).of_ok hsame hranges
  refine ⟨hgs, ?_, hsame'⟩
  have hvalues := congrArg (List.map fun x : Option TextRange × String =>
    (x.1.getD (.collapsed .body 0), x.2)) hread
  rw [List.map_map, List.map_map, hgs] at hvalues
  rw [hd.citationRanges_eq]
  exact (List.map_id ranges).symm.trans hvalues

/-- **A plan is made for the order of the text.** -/
theorem exists_imposed_of_planRefresh (hd : d.WellFormed)
    (hrun : (planRefresh databases style preferences update).run d = (.ok plan, d')) :
    ∃ ordered, d.loaded.imposeOrder (d.inReadingOrder d.citationRanges) = .ok ordered ∧
      (plan.groups, plan.produced) = ordered.produce databases style := by
  obtain ⟨-, ordered, -, -, hread, -, hproduced, -⟩ := exists_ordered_of_planRefresh hd hrun
  refine ⟨ordered, ?_, hproduced⟩
  have hwell := wellFormed_steady hd
  obtain ⟨d₅, hread⟩ : ∃ d₅, groupsAsRead.run d.steady = (.ok ordered, d₅) :=
    ⟨_, Prod.ext hread rfl⟩
  obtain ⟨gs, d₁, hload, hread⟩ := run_bind_eq_ok_iff.mp hread
  obtain ⟨ranges, d₂, hranges, hread⟩ := run_bind_eq_ok_iff.mp hread
  obtain ⟨rfl, rfl, hsame⟩ := read_of_run hwell hload hranges
  obtain ⟨ids, d₃, hids, hread⟩ := run_bind_eq_ok_iff.mp hread
  obtain ⟨rfl, -⟩ := inReadingOrder_of_run hwell.inside_citationRanges hsame hids
  exact ((triple_imposeOrder d₃ _ _).of_ok (SameDocument.refl d₃) hread).1

/-- After planning, the cursor is in the text of a document with citations. -/
theorem cursorInText_of_planRefresh (hd : d.WellFormed)
    (hrun : (planRefresh databases style preferences update).run d = (.ok plan, d'))
    (hne : d.citationRanges ≠ []) : d'.CursorInText := by
  obtain ⟨loaded, d₁, hload, hrun⟩ := run_bind_eq_ok_iff.mp hrun
  obtain ⟨ranges, d₂, hranges, hrun⟩ := run_bind_eq_ok_iff.mp hrun
  obtain ⟨u, d₃, -, hrun⟩ := run_bind_eq_ok_iff.mp hrun
  obtain ⟨ids, d₄, hids, hrun⟩ := run_bind_eq_ok_iff.mp hrun
  obtain ⟨-, rfl, -⟩ := read_of_run hd hload hranges
  have hcursor : d₄.CursorInText :=
    (triple_readingOrder_cursor d.citationRanges).of_ok trivial hids hne
  have hrest (ordered : CitationGroups) (rebuilds : Bool) : Keeps cursorInText (do
      checkMarkerStyle d.citationRanges style
      return (⟨(ordered.produce databases style).1, (ordered.produce databases style).2,
        rebuilds⟩ : RefreshPlan)) :=
    (keeps_cursorInText_checkMarkerStyle _ style).bind fun _ => .pure _
  refine Triple.of_ok (P := Document.CursorInText) (Q := fun _ => Document.CursorInText)
    (E := fun _ _ => True) ?_ hcursor hrun
  refine Keeps.bind (C := cursorInText) (keeps_imposeOrder _ _) fun ordered =>
    Keeps.bind (keeps_writesBibliography update) fun rebuilds => ?_
  cases rebuilds with
  | false => exact hrest ordered false
  | true =>
    exact Keeps.bind (keeps_checkParagraphStyles style fun _ _ _ => trivial) fun _ =>
      hrest ordered true

theorem rebuilds_of_planRefresh
    (hrun : (planRefresh databases style preferences .always).run d = (.ok plan, d')) :
    plan.rebuilds = true := by
  obtain ⟨loaded, d₁, -, hrun⟩ := run_bind_eq_ok_iff.mp hrun
  obtain ⟨ranges, d₂, -, hrun⟩ := run_bind_eq_ok_iff.mp hrun
  obtain ⟨u, d₃, -, hrun⟩ := run_bind_eq_ok_iff.mp hrun
  obtain ⟨ids, d₄, -, hrun⟩ := run_bind_eq_ok_iff.mp hrun
  obtain ⟨ordered, d₅, -, hrun⟩ := run_bind_eq_ok_iff.mp hrun
  obtain ⟨rebuilds, d₆, hrebuilds, hrun⟩ := run_bind_eq_ok_iff.mp hrun
  cases hrebuilds
  obtain ⟨u, d₇, -, hrun⟩ := run_bind_eq_ok_iff.mp hrun
  obtain ⟨u, d₈, -, hpure⟩ := run_bind_eq_ok_iff.mp hrun
  cases hpure
  rfl

/-- **A plan is made again** for a document with the same marks and properties, whose citations are
read in the same order, and says to write the same. -/
theorem exists_replanned (hd : d.WellFormed)
    (hplan : (planRefresh databases style preferences .always).run d = (.ok plan, d'))
    (hp : p.WellFormed) (h : p.connection = .steady)
    (hnames : (p.marks.map Prod.fst).Perm (d.marks.map Prod.fst))
    (hproperties : p.properties = d.properties)
    (horder : p.inReadingOrder p.citationRanges = d.inReadingOrder d.citationRanges)
    (hcursor : p.citationRanges ≠ [] → p.CursorInText)
    (hnone : TextRange.findOverlaps (p.citationRanges ++ p.anchorOwners)
      preferences.reportTouchingRanges preferences.overlapReportLimit = [])
    (hcharacter : p.characterStyles = d.characterStyles)
    (hparagraph : p.paragraphStyles = d.paragraphStyles) :
    ∃ plan' p', (planRefresh databases style preferences .always).run p = (.ok plan', p') ∧
      plan'.rebuilds = true ∧ plan.WritesLike databases style plan' := by
  obtain ⟨ordered, himpose, hproduced⟩ := exists_imposed_of_planRefresh hd hplan
  have hrebuilds := rebuilds_of_planRefresh hplan
  obtain ⟨hstyles, -⟩ := (triple_planRefresh d databases style preferences .always).of_ok
    (SameDocument.refl d) hplan
  have hperm : p.loaded.groups.Perm d.loaded.groups := by
    rw [hp.groups_loaded, hd.groups_loaded, hproperties]
    exact hnames.filterMap _
  rw [← horder] at himpose
  obtain ⟨ordered', σ, himpose', hshuffled⟩ := exists_shuffled_of_imposeOrder hperm
    hd.nodup_ids_loaded rfl rfl himpose
  have hlabels := labels_imposeOrder himpose
  have hlabels' := labels_imposeOrder himpose'
  have hgroups : plan.groups.labels = d.loaded.labels := by
    rw [show plan.groups = (ordered.produce databases style).1 from congrArg Prod.fst hproduced,
      labels_produce, hlabels]
  have hids : ordered.ids.Nodup := by
    rw [ids_eq_map_labels, hlabels, ← ids_eq_map_labels]
    exact hd.nodup_ids_loaded
  have hids' : ordered'.ids.Nodup := by
    rw [ids_eq_map_labels, hlabels', ← ids_eq_map_labels]
    exact hp.nodup_ids_loaded
  obtain ⟨hmarkers, hlisted, hunresolved⟩ := hshuffled.produce hids hids' databases style
  -- there is a marker to write again just when there was one
  have hmarker : p.citationRanges ≠ [] → style.formatCitations = true →
      style.citationCharacterFormat ∈ p.characterStyles := by
    intro hne hformat
    rw [hcharacter]
    refine hstyles.markers (fun hnil => hne ?_) hformat
    have hempty : d.loaded.groups = [] := by
      rw [labels, hnil, labels] at hgroups
      exact List.map_eq_nil_iff.mp hgroups.symm
    rw [hempty] at hperm
    rw [hp.citationRanges_eq, hperm.eq_nil, List.map_nil]
  obtain ⟨hheader, hentries⟩ := hstyles.paragraphs hrebuilds
  rw [← hparagraph] at hheader hentries
  obtain ⟨p', hrun⟩ : ∃ p', (planRefresh databases style preferences .always).run p =
      (.ok ⟨(ordered'.produce databases style).1, (ordered'.produce databases style).2, true⟩, p') :=
    exists_planned hp h hcursor hnone himpose' hheader hentries hmarker
  refine ⟨_, p', hrun, rfl, ?_, fun id => ?_, ?_, ?_⟩
  · intro g' hg'
    have hmem : g'.label ∈ plan.groups.labels := by
      rw [hgroups]
      refine (hperm.map CitationGroup.label).mem_iff.mp ?_
      have hlabel := List.mem_map_of_mem (f := CitationGroup.label) hg'
      change g'.label ∈ labels _ at hlabel
      rwa [labels_produce, hlabels'] at hlabel
    exact List.mem_map.mp hmem
  · rw [show plan.produced = (ordered.produce databases style).2 from congrArg Prod.snd hproduced,
      CitationMarkers.markerOf, CitationMarkers.markerOf, hmarkers]
  · rw [show plan.groups = (ordered.produce databases style).1 from congrArg Prod.fst hproduced,
      show plan.produced = (ordered.produce databases style).2 from congrArg Prod.snd hproduced]
    exact hlisted
  · rw [show plan.produced = (ordered.produce databases style).2 from congrArg Prod.snd hproduced]
    exact hunresolved

end Planned

end DocumentM

end DocCite
