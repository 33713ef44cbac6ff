import DocCite.Proofs.Citation.Marked
import DocCite.Proofs.Document.WellFormed

/-!
# What is checked before a refresh writes

Some errors say that an action was not begun: the cursor is not in the text, a style is not
defined, citations overlap, or changes are recorded. A refresh makes all checks that can fail so
before it writes, and what it writes cannot fail so any more: with such an error it leaves the
document the same (`refresh_untouched`).
-/

namespace DocCite

/-- The errors of preconditions. -/
def DocumentError.IsPrecondition : DocumentError → Prop
  | .cursorUnavailable _ | .undefinedCharacterFormat _ | .undefinedParagraphFormat _
  | .overlap _ | .changeTracking _ _ => True
  | _ => False

theorem DocumentError.IsInternal.not_isPrecondition {e : DocumentError} (h : e.IsInternal) :
    ¬ e.IsPrecondition := by
  cases e <;> simp_all [IsInternal, IsPrecondition]

namespace DocumentM

/-! ## Two contracts -/

/-- The contract of checks: the document stays the same, unless another kind of error comes up. -/
def untouched (d₀ : Document) : Contract where
  Holds := SameDocument d₀
  Fails e d := e.IsPrecondition → SameDocument d₀ d
  holds_of_step h hd := hd.trans_step h
  fails_of_same h hd he := (hd he).trans h
  fails_of_internal he _ h := absurd h he.not_isPrecondition

/-- The contract of changes: no style comes or goes, and preconditions do not fail any more. -/
def styled (d₀ : Document) : Contract where
  Holds d := d₀.characterStyles = d.characterStyles ∧ d₀.paragraphStyles = d.paragraphStyles
  Fails e _ := ¬ e.IsPrecondition
  holds_of_step h hd :=
    ⟨hd.1.trans h.characterStyles, hd.2.trans h.paragraphStyles⟩
  fails_of_same _ he := he
  fails_of_internal he _ := he.not_isPrecondition

theorem allowsMarking_styled (d₀ : Document) : (styled d₀).AllowsMarking where
  replaceText {d r cells} new _ _ hd := by
    rw [d.replaceText_eq]
    exact hd
  modifyCells {d} r f hd := by
    rw [d.modifyCells_eq]
    exact hd
  putBookmark _ _ _ hd := hd
  eraseBookmark _ hd := hd
  setProperties _ hd := hd
  putMark _ _ _ hd := hd
  eraseMark _ hd := hd

/-- What fails otherwise does not count. -/
theorem untouched_of_internal (d₀ : Document) {d₁ : Document} (e : DocumentError) (d : Document)
    (h : e.IsInternal ∧ SameDocument d₁ d) : (untouched d₀).Fails e d :=
  fun he => absurd he h.1.not_isPrecondition

theorem untouched_of_breaks (d₀ : Document) {d₁ : Document} (e : DocumentError) (d : Document)
    (h : d₁.Breaks e ∧ SameDocument d₁ d) : (untouched d₀).Fails e d :=
  untouched_of_internal d₀ e d ⟨h.1.isInternal, h.2⟩

/-! ## Checks -/

/-- **What a replacement does**, up to the session. -/
theorem triple_replace (d₀ : Document) (r : TextRange) (new : String) :
    Triple (SameDocument d₀) (replace r new)
      (fun written d => written = Document.typedRange r new ∧ d₀.Inside r ∧
        SameDocument (d₀.replaceText r new) d)
      (fun e d => e.IsInternal ∧ SameDocument d₀ d) := by
  refine Triple.call (fun d c hc hd => hd.trans (sameDocument_connection hc)) (fun d hd => ?_)
    fun d hbroken hd => ⟨trivial, hd⟩
  obtain ⟨cells, hflow, hstop, hcells⟩ | ⟨reason, hcells⟩ := d.cellsAround_eq_ok_or r
  · rw [hcells]
    exact ⟨rfl, ⟨cells, (hd.cells? _).trans hflow, hstop⟩, hd.replaceText r new⟩
  · rw [hcells]
    exact ⟨trivial, hd⟩

/-- **What setting a character style does**, up to the session. -/
theorem triple_setCharacterStyle (d₀ : Document) (r : TextRange) (style : String) :
    Triple (SameDocument d₀) (setCharacterStyle r style)
      (fun _ d => style ∈ d₀.characterStyles ∧
        SameDocument (d₀.modifyCells r (Cell.withCharacterStyle style)) d)
      (fun _ d => SameDocument d₀ d) := by
  refine Triple.call (fun d c hc hd => hd.trans (sameDocument_connection hc)) (fun d hd => ?_)
    fun d hbroken hd => hd
  cases hstyle : d.characterStyles.contains style with
  | false => exact hd
  | true =>
    obtain ⟨cells, hflow, hstop, hcells⟩ | ⟨reason, hcells⟩ := d.cellsAround_eq_ok_or r
    · rw [hcells]
      refine ⟨?_, hd.modifyCells r _⟩
      rw [hd.characterStyles]
      simpa using hstyle
    · rw [hcells]
      exact hd

/-- **The check of a character style leaves no trace.** -/
theorem triple_checkCharacterStyle (d₀ : Document) (place : TextRange) (style : String) :
    Triple (SameDocument d₀) (checkCharacterStyle place style)
      (fun _ d => style ∈ d₀.characterStyles ∧ SameDocument d₀ d) (untouched d₀).Fails := by
  have hfirst := (triple_replace d₀ place.startPoint "x").weaken_error (untouched_of_internal d₀)
  refine hfirst.bind fun probe => .assume fun hprobe => .assume fun hinside => ?_
  subst hprobe
  obtain ⟨cells, hflow, hstop⟩ := hinside
  -- either way the character at the place may carry another style than before, and nothing else
  refine (triple_setCharacterStyle _ _ style).attempt.bind fun outcome => ?_
  have hback (f : Cell → Cell) :
      Triple (SameDocument ((d₀.replaceText place.startPoint "x").modifyCells
          (Document.typedRange place.startPoint "x") f))
        (replace (Document.typedRange place.startPoint "x") "")
        (fun _ => SameDocument d₀) (untouched d₀).Fails :=
    (triple_replace _ _ "").weaken (fun _ h => h)
      (fun _ _ h => (sameDocument_typedRange d₀ hflow hstop f).trans h.2.2)
      (untouched_of_internal d₀)
  cases outcome with
  | ok u =>
    refine .assume fun hstyle => (hback _).bind fun _ => ?_
    rw [Document.replaceText_eq] at hstyle
    exact Triple.pure fun d hd => ⟨hstyle, hd⟩
  | error e =>
    refine ((hback id).weaken (fun d hd => ?_) (fun _ _ h => h) fun _ _ h => h).bind fun _ => ?_
    · exact (sameDocument_modifyCells_id _ _).symm.trans hd
    · exact Triple.throw fun d hd _ => hd

theorem triple_checkParagraphStyles (d₀ : Document) (style : Style) :
    Triple (SameDocument d₀) (checkParagraphStyles style)
      (fun _ d => (style.referenceHeaderParagraphFormat ∈ d₀.paragraphStyles ∧
        style.referenceParagraphFormat ∈ d₀.paragraphStyles) ∧ SameDocument d₀ d)
      (untouched d₀).Fails := by
  have hstep (name : String) : Triple (SameDocument d₀)
      (do if !(← hasParagraphStyle name) then throw (.undefinedParagraphFormat name))
      (fun _ d => name ∈ d₀.paragraphStyles ∧ SameDocument d₀ d) (untouched d₀).Fails := by
    have hsee := triple_see fun (d : Document) (hd : SameDocument d₀ d) =>
      congrArg (·.contains name) hd.paragraphStyles.symm
    refine (hsee.weaken_error (untouched_of_breaks d₀)).bind fun defined =>
      .assume fun hdefined => ?_
    cases defined with
    | false => exact Triple.throw fun d hd _ => hd
    | true => exact Triple.pure fun d hd => ⟨by simpa using hdefined, hd⟩
  refine (hstep _).bind fun _ => .assume fun hheader => ?_
  refine (hstep _).bind fun _ => .assume fun hparagraph => ?_
  exact Triple.pure fun d hd => ⟨⟨hheader, hparagraph⟩, hd⟩

/-! ## A refresh -/

/-- The ranges of groups are those of their marks, in the order of the groups. -/
theorem triple_groupRanges (d₀ : Document) (gs : CitationGroups) :
    Triple (SameDocument d₀) (groupRanges gs)
      (fun ranges d => ranges.map (fun r => (some r.1, r.2)) =
          gs.groups.map (fun g => (d₀.marks.get? g.id, g.id)) ∧ SameDocument d₀ d)
      (fun e d => e.IsInternal ∧ SameDocument d₀ d) := by
  have hrange (id : String) : Triple (SameDocument d₀) (groupRange id)
      (fun r d => some r = d₀.marks.get? id ∧ SameDocument d₀ d)
      (fun e d => e.IsInternal ∧ SameDocument d₀ d) := by
    have hsee := triple_see fun (d : Document) (hd : SameDocument d₀ d) =>
      congrArg (Keyed.get? · id) hd.marks.symm
    refine (hsee.weaken_error fun e d h => ⟨h.1.isInternal, h.2⟩).bind fun r =>
      .assume fun hr => ?_
    cases r with
    | none => exact Triple.throw fun d hd => ⟨trivial, hd⟩
    | some r => exact Triple.pure fun d hd => ⟨hr, hd⟩
  have hall (groups : List CitationGroup) : Triple (SameDocument d₀)
      (groups.mapM fun g => return (← groupRange g.id, g.id))
      (fun ranges d => ranges.map (fun r => (some r.1, r.2)) =
          groups.map (fun g => (d₀.marks.get? g.id, g.id)) ∧ SameDocument d₀ d)
      (fun e d => e.IsInternal ∧ SameDocument d₀ d) := by
    induction groups with
    | nil => exact Triple.pure fun d hd => ⟨rfl, hd⟩
    | cons g groups ih =>
      rw [List.mapM_cons]
      have hfirst : Triple (SameDocument d₀) (do return (← groupRange g.id, g.id))
          (fun r d => (some r.1, r.2) = (d₀.marks.get? g.id, g.id) ∧ SameDocument d₀ d)
          (fun e d => e.IsInternal ∧ SameDocument d₀ d) :=
        (hrange g.id).bind fun r => .assume fun hr => Triple.pure fun d hd =>
          ⟨congrArg (·, g.id) hr, hd⟩
      refine hfirst.bind fun r => .assume fun hr => ih.bind fun rs => .assume fun hrs => ?_
      exact Triple.pure fun d hd => ⟨congrArg₂ List.cons hr hrs, hd⟩
  exact hall gs.groups

theorem triple_imposeOrder (d₀ : Document) (gs : CitationGroups) (ids : List String) :
    Triple (SameDocument d₀) (imposeOrder gs ids)
      (fun gs' d => gs.imposeOrder ids = .ok gs' ∧ SameDocument d₀ d)
      (fun e d => e.IsInternal ∧ SameDocument d₀ d) := by
  refine Triple.liftExcept (fun gs' h d hd => ⟨?_, hd⟩) fun e h d hd => ⟨?_, hd⟩
  · cases hgs : gs.imposeOrder ids with
    | ok gs'' => rw [hgs] at h; cases h; rfl
    | error e => rw [hgs] at h; cases h
  · cases hgs : gs.imposeOrder ids with
    | ok gs'' => rw [hgs] at h; cases h
    | error e' => rw [hgs] at h; cases h; trivial

/-- The styles that a plan needs are defined. -/
structure StylesDefined (plan : RefreshPlan) (style : Style) (d : Document) : Prop where
  markers : plan.groups.groups ≠ [] → style.formatCitations = true →
    style.citationCharacterFormat ∈ d.characterStyles
  paragraphs : plan.rebuilds = true → style.referenceHeaderParagraphFormat ∈ d.paragraphStyles ∧
    style.referenceParagraphFormat ∈ d.paragraphStyles

/-- Where there are markers to write, their style is found to be defined. -/
theorem triple_checkMarkerStyle (d₀ : Document) (ranges : List (TextRange × String))
    (style : Style) :
    Triple (SameDocument d₀) (checkMarkerStyle ranges style)
      (fun _ d => (ranges ≠ [] → style.formatCitations = true →
        style.citationCharacterFormat ∈ d₀.characterStyles) ∧ SameDocument d₀ d)
      (untouched d₀).Fails := by
  unfold checkMarkerStyle
  split
  · cases ranges with
    | nil => exact Triple.pure fun d hd => ⟨fun h => absurd rfl h, hd⟩
    | cons first rest =>
      exact (triple_checkCharacterStyle d₀ first.1 _).weaken (fun _ hd => hd)
        (fun _ d h => ⟨fun _ _ => h.1, h.2⟩) fun _ _ he => he
  · next hnot => exact Triple.pure fun d hd => ⟨fun _ hformat => absurd hformat hnot, hd⟩

/-- **Planning a refresh** finds the styles that it needs, and changes nothing. -/
theorem triple_planRefresh (d₀ : Document) (databases : List Database) (style : Style)
    (preferences : Preferences) (update : BibliographyUpdate) :
    Triple (SameDocument d₀) (planRefresh databases style preferences update)
      (fun plan d => StylesDefined plan style d₀ ∧ SameDocument d₀ d) (untouched d₀).Fails := by
  have hload : Keeps (untouched d₀) loadGroups := keeps_loadGroups
  refine Triple.bind hload fun loaded => ?_
  refine ((triple_groupRanges d₀ loaded).weaken_error (untouched_of_internal d₀)).bind
    fun ranges => .assume fun hranges => ?_
  have hoverlaps : Keeps (untouched d₀) (checkOverlaps ranges preferences) :=
    keeps_checkOverlaps ranges preferences fun d _ hd _ => hd
  refine Triple.bind hoverlaps fun _ => ?_
  have horder : Keeps (untouched d₀) (readingOrder ranges) :=
    keeps_readingOrder ranges fun d _ hd _ => hd
  refine Triple.bind horder fun ids => ?_
  refine ((triple_imposeOrder d₀ loaded ids).weaken_error (untouched_of_internal d₀)).bind
    fun ordered => .assume fun hordered => ?_
  -- the style of markers is checked at the range of a group, so there has to be one
  have hnonempty : (ordered.produce databases style).1.groups ≠ [] → ranges ≠ [] := by
    intro hne hnil
    have hgroups : loaded.groups = [] := by simpa [hnil] using hranges.symm
    have hlabels := (CitationGroups.labels_produce databases style).trans
      (CitationGroups.labels_imposeOrder hordered)
    simp only [CitationGroups.labels, hgroups, List.map_nil, List.map_eq_nil_iff] at hlabels
    exact hne hlabels
  have hrebuilds : Keeps (untouched d₀) (writesBibliography update) :=
    keeps_writesBibliography update
  refine Triple.bind hrebuilds fun rebuilds => ?_
  have hmarkers (hparagraphs : rebuilds = true →
        style.referenceHeaderParagraphFormat ∈ d₀.paragraphStyles ∧
          style.referenceParagraphFormat ∈ d₀.paragraphStyles) :
      Triple (SameDocument d₀) (do
        checkMarkerStyle ranges style
        return (⟨(ordered.produce databases style).1, (ordered.produce databases style).2,
          rebuilds⟩ : RefreshPlan))
        (fun plan d => StylesDefined plan style d₀ ∧ SameDocument d₀ d) (untouched d₀).Fails := by
    refine (triple_checkMarkerStyle d₀ ranges style).bind fun _ => .assume fun hstyle => ?_
    exact Triple.pure fun d hd => ⟨⟨fun hne => hstyle (hnonempty hne), hparagraphs⟩, hd⟩
  cases rebuilds with
  | false => exact hmarkers fun h => by cases h
  | true =>
    exact (triple_checkParagraphStyles d₀ style).bind fun _ => .assume fun hstyles =>
      hmarkers fun _ => hstyles

/-- Where the styles are defined, writing does not fail for want of them. -/
theorem keeps_writeRefresh {d₀ : Document} {plan : RefreshPlan} {style : Style}
    (hplan : StylesDefined plan style d₀) (databases : List Database) (preferences : Preferences) :
    Keeps (styled d₀) (writeRefresh plan databases style preferences) := by
  have hC := allowsMarking_styled d₀
  have hmarkers : Keeps (styled d₀) (writeMarkers plan.groups plan.produced style) := by
    refine keeps_writeMarkers hC.toAllowsWriting
      (fun id => keeps_fillCursor (keeps_prepareMark hC id)) plan.groups plan.produced ?_
    exact fun hne hformat d hd hnot => absurd (hd.1 ▸ hplan.markers hne hformat) hnot
  refine keeps_lockScreen.bind fun _ => Keeps.closing (hmarkers.bind fun _ => ?_)
    fun _ => keeps_unlockScreen
  cases hrebuilds : plan.rebuilds with
  | false => exact .pure _
  | true =>
    obtain ⟨hheader, hparagraph⟩ := hplan.paragraphs hrebuilds
    exact keeps_writeBibliography hC.toAllowsWriting
      (fun d hd hnot => absurd (hd.2 ▸ hheader) hnot)
      (fun d hd hnot => absurd (hd.2 ▸ hparagraph) hnot) preferences

/-- **A refresh that fails for a precondition leaves the document the same.** -/
theorem refresh_untouched (d₀ : Document) (databases : List Database) (style : Style)
    (preferences : Preferences) (update : BibliographyUpdate) :
    Triple (SameDocument d₀) (refresh databases style preferences update) (fun _ _ => True)
      (untouched d₀).Fails := by
  refine (triple_planRefresh d₀ databases style preferences update).bind fun plan =>
    .assume fun hplan => ?_
  have hkeeps := keeps_writeRefresh hplan databases preferences
  refine Triple.bind (hkeeps.weaken (fun d hd => ⟨hd.characterStyles, hd.paragraphStyles⟩)
    (fun _ _ h => h) fun e d he h => absurd h he) fun _ => Triple.pure fun _ _ => trivial

end DocumentM

end DocCite
