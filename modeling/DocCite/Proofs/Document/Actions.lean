import DocCite.Proofs.Document.Operations

/-!
# Contracts of composed actions

What a refresh is put together from keeps the contracts that its operations keep.
-/

namespace DocCite.DocumentM

variable {C : Contract}

/-! ## Reading -/

theorem keeps_readGroup? (name : String) : Keeps C (readGroup? name) := by
  unfold readGroup?
  split
  · exact .pure _
  · exact (keeps_see _).bind fun _ => .pure _

theorem keeps_loadGroups : Keeps C loadGroups :=
  (keeps_see _).bind fun _ => (Keeps.mapM fun name _ => keeps_readGroup? name).bind fun _ =>
    .pure _

theorem keeps_groupRange (id : String) : Keeps C (groupRange id) := by
  refine (keeps_see _).bind fun r => ?_
  cases r with
  | some r => exact .pure _
  | none => exact .throw trivial

theorem keeps_groupRanges (gs : CitationGroups) : Keeps C (groupRanges gs) :=
  .mapM fun g _ => (keeps_groupRange g.id).bind fun _ => .pure _

theorem keeps_checkOverlaps (ranges : List (TextRange × String)) (preferences : Preferences)
    (h : ∀ d pairs, C.Holds d → C.Fails (.overlap pairs) d) :
    Keeps C (checkOverlaps ranges preferences) := by
  refine (keeps_see _).bind fun anchors => ?_
  simp only
  split
  · exact Triple.throw fun d hd => h d _ hd
  · exact .pure _

theorem keeps_requireViewCursor
    (h : ∀ d reason, C.Holds d → C.Fails (.cursorUnavailable reason) d) :
    Keeps C requireViewCursor := by
  refine (keeps_see _).bind fun cursor => ?_
  cases cursor with
  | some cursor => exact .pure _
  | none =>
    refine keeps_restoreSelection.bind fun restored => ?_
    have hfail : Keeps C (throw (.cursorUnavailable "the selection is not in the document text") :
        DocumentM TextRange) :=
      Triple.throw fun d hd => h d _ hd
    cases restored with
    | false => exact hfail
    | true =>
      refine (keeps_see _).bind fun cursor => ?_
      cases cursor with
      | some cursor => exact .pure _
      | none => exact hfail

theorem keeps_placeItem {α : Type} (item : TextRange × α) : Keeps C (placeItem item) := by
  refine (keeps_anchorOf? _).bind fun anchor => ?_
  cases anchor <;> exact .pure _

theorem keeps_sortByScreen {α : Type} (items : List (PlacedItem α)) :
    Keeps C (sortByScreen items) :=
  (Keeps.mapM fun _ _ => (keeps_viewPosition _).bind fun _ => .pure _).bind fun _ => .pure _

theorem keeps_orderByScreen {α : Type} (items : List (TextRange × α)) :
    Keeps C (orderByScreen items) :=
  (Keeps.mapM fun item _ => keeps_placeItem item).bind fun _ =>
    (Keeps.mapM fun part _ => keeps_sortByScreen part).bind fun _ => .pure _

theorem keeps_readingOrder {α : Type} (items : List (TextRange × α))
    (h : ∀ d reason, C.Holds d → C.Fails (.cursorUnavailable reason) d) :
    Keeps C (readingOrder items) := by
  unfold readingOrder
  split
  · exact .pure _
  · exact (keeps_requireViewCursor h).bind fun saved =>
      (keeps_orderByScreen items).closing fun _ => keeps_setViewCursor saved

theorem keeps_imposeOrder (gs : CitationGroups) (ids : List String) :
    Keeps C (imposeOrder gs ids) := by
  refine Triple.liftExcept (fun _ _ _ hd => hd) fun e he d hd => C.fails_of_internal ?_ hd
  cases hgs : gs.imposeOrder ids with
  | ok gs' => rw [hgs] at he; cases he
  | error e' => rw [hgs] at he; cases he; trivial

theorem keeps_hasBibliography : Keeps C hasBibliography :=
  (keeps_see _).bind fun _ => .pure _

theorem keeps_writesBibliography (update : BibliographyUpdate) :
    Keeps C (writesBibliography update) := by
  cases update with
  | always => exact .pure _
  | ifPresent => exact keeps_hasBibliography
  | never => exact .pure _

theorem keeps_checkParagraphStyles (style : Style)
    (h : ∀ d name, C.Holds d → C.Fails (.undefinedParagraphFormat name) d) :
    Keeps C (checkParagraphStyles style) := by
  refine .forM fun name _ => (keeps_see _).bind fun defined => ?_
  cases defined with
  | false => exact Triple.throw fun d hd => h d name hd
  | true => exact .pure _

theorem keeps_checkNoMarkInside (whole : TextRange) : Keeps C (checkNoMarkInside whole) := by
  refine (keeps_see _).bind fun names => .forM fun name _ => ?_
  split
  · refine (keeps_see _).bind fun r => ?_
    cases r with
    | none => exact .pure _
    | some r =>
      simp only
      split
      · exact .throw trivial
      · exact .pure _
  · exact .pure _

theorem keeps_onlySpacesBetween (left right : TextRange) :
    Keeps C (onlySpacesBetween left right) := by
  unfold onlySpacesBetween
  split
  · exact .pure _
  · exact (keeps_text _).bind fun _ => .pure _

theorem keeps_joins (left right : CitationGroup × TextRange) : Keeps C (joins left right) := by
  unfold joins
  split
  · exact keeps_onlySpacesBetween _ _
  · exact .pure _

theorem keeps_runsFrom (first : CitationGroup × TextRange)
    (rest : List (CitationGroup × TextRange)) : Keeps C (runsFrom first rest) := by
  induction rest generalizing first with
  | nil => exact .pure _
  | cons second rest ih =>
    refine (keeps_joins first second).bind fun joined => (ih second).bind fun runs => ?_
    cases runs <;> exact .pure _

theorem keeps_loadApart (preferences : Preferences)
    (h : ∀ d pairs, C.Holds d → C.Fails (.overlap pairs) d) :
    Keeps C (loadApart preferences) :=
  keeps_loadGroups.bind fun gs => (keeps_groupRanges gs).bind fun ranges =>
    (keeps_checkOverlaps ranges preferences h).bind fun _ => .pure _

/-! ## Writing -/

theorem keeps_insertSpaces (hC : C.AllowsWriting) (place : TextRange) (count : Nat) :
    Keeps C (insertSpaces place count) :=
  (keeps_replace hC _ _).bind fun _ => (keeps_replace hC _ _).bind fun _ =>
    (keeps_replace hC _ _).bind fun _ => (keeps_replace hC _ _).bind fun _ => .pure _

/-- What comes after a mark was created keeps whatever writing keeps. -/
theorem keeps_afterCreation (hC : C.AllowsWriting) (name : String) (before after : TextRange)
    (spaceAfter : Bool) : Keeps C (do
      let _ ← replace before ""
      if !spaceAfter then
        let _ ← replace after ""
      match ← markRange? name with
      | some r => return r
      | none => throw (.creation ("reference mark " ++ name ++ " was not created"))) := by
  have hend : Keeps C (do
      match ← markRange? name with
      | some r => return r
      | none => throw (.creation ("reference mark " ++ name ++ " was not created"))) := by
    refine (keeps_see _).bind fun r => ?_
    cases r with
    | some r => exact .pure _
    | none => exact .throw trivial
  refine (keeps_replace hC _ _).bind fun _ => ?_
  simp only
  split
  · exact (keeps_replace hC _ _).bind fun _ => hend
  · exact hend

theorem keeps_placeMark (hC : C.AllowsMarking) (name : String) (place : TextRange)
    (spaceAfter bare : Bool) : Keeps C (placeMark name place spaceAfter bare) := by
  have hW := hC.toAllowsWriting
  exact (keeps_insertSpaces hW _ _).bind fun _ => (keeps_replace hW _ _).bind fun inserted =>
    (keeps_createMark hC name inserted).bind fun _ => keeps_afterCreation hW name _ _ spaceAfter

theorem keeps_formatRuns (hformat : ∀ r format, Keeps C (applyFormat r format)) (flow : Flow)
    (p : Nat) (runs : List Markup.Run) : Keeps C (formatRuns flow p runs) := by
  induction runs generalizing p with
  | nil => exact .pure _
  | cons run rest ih =>
    unfold formatRuns
    simp only
    split
    · exact (hformat _ _).bind fun _ => ih _
    · exact ih _

theorem keeps_writeMarkup (hC : C.AllowsWriting) (r : TextRange) (markup : String) :
    Keeps C (writeMarkup r markup) := by
  refine (keeps_replace hC _ _).bind fun written => ?_
  split
  · exact .pure _
  · exact (keeps_modifyCells hC _ _).bind fun _ =>
      (keeps_formatRuns (fun _ _ => keeps_modifyCells hC _ _) _ _ _).bind fun _ => .pure _

theorem keeps_italicize (hformat : ∀ r format, Keeps C (applyFormat r format)) (r : TextRange)
    (piece : String) : Keeps C (italicize r piece) := by
  unfold italicize
  simp only
  split
  · exact .pure _
  · exact (keeps_text r).bind fun _ => .forM fun _ _ => hformat _ _

theorem keeps_removeGroup (hC : C.AllowsMarking) (id : String) : Keeps C (removeGroup id) :=
  (keeps_removeMark hC id).bind fun _ => keeps_change fun _ hd => hC.setProperties _ hd

theorem keeps_createGroup (hC : C.AllowsMarking) (keys : List String)
    (pageInfo : Option String) (kind : CitationKind) (place : TextRange)
    (spaceAfter bare : Bool) :
    Keeps C (createGroup keys pageInfo kind place spaceAfter bare) := by
  unfold createGroup
  split
  · exact .throw trivial
  · exact (keeps_see _).bind fun _ => (keeps_placeMark hC _ _ _ _).bind fun _ =>
      (keeps_setPageInfo hC.toAllowsWriting _ _).bind fun _ => .pure _

theorem keeps_emptyMark (hC : C.AllowsWriting) (id : String) (r : TextRange) :
    Keeps C (emptyMark id r) := by
  refine (keeps_replace hC _ _).bind fun _ => (keeps_replace hC _ _).bind fun _ =>
    (keeps_replace hC _ _).bind fun _ => (keeps_replace hC _ _).bind fun _ =>
    (keeps_groupRange id).bind fun _ => (keeps_text _).bind fun _ => ?_
  split <;> exact .pure _

theorem keeps_prepareMark (hC : C.AllowsMarking) (id : String) : Keeps C (prepareMark id) := by
  have hW := hC.toAllowsWriting
  refine (keeps_groupRange id).bind fun r => ?_
  split
  · exact (keeps_replace hW _ _).bind fun _ => (keeps_removeMark hC id).bind fun _ =>
      (keeps_placeMark hC id _ _ _).bind fun _ => .pure _
  · exact keeps_emptyMark hW id r

theorem keeps_fillCursor {id : String} (hprepare : Keeps C (prepareMark id)) :
    Keeps C (fillCursor id) := by
  refine hprepare.bind fun cursor => ?_
  cases cursor with
  | some cursor => exact .pure _
  | none =>
    refine hprepare.bind fun cursor => ?_
    cases cursor with
    | some cursor => exact .pure _
    | none => exact .throw trivial

theorem keeps_cleanFillCursor (hC : C.AllowsWriting) (id : String) (removeIfEmpty : Bool) :
    Keeps C (cleanFillCursor id removeIfEmpty) := by
  refine (keeps_groupRange id).bind fun r => (keeps_text r).bind fun s => ?_
  have hstart : Keeps C (do
      if 2 ≤ s.toList.length - 2 ∨ s.toList.length - 2 = 0 ∧ removeIfEmpty = true then
        let _ ← replace (.new r.flow r.start (r.start + 1)) "") := by
    split
    · exact (keeps_replace hC _ _).bind fun _ => .pure _
    · exact .pure _
  simp only
  split
  · exact .throw trivial
  · split
    · exact (keeps_replace hC _ _).bind fun _ => hstart
    · exact hstart

/-! ## Markers and the bibliography

Character styles and paragraph styles are set on the way, so contracts have to allow the error
that they are not defined, or to rule it out. -/

/-- The contract allows a style of markers to be missing, or rules that out. -/
def AllowsMarkersOf (C : Contract) (style : Style) : Prop :=
  style.formatCitations = true → ∀ d, C.Holds d →
    style.citationCharacterFormat ∉ d.characterStyles →
      C.Fails (.undefinedCharacterFormat style.citationCharacterFormat) d

/-- The contract allows a paragraph style to be missing, or rules that out. -/
def AllowsParagraphs (C : Contract) (name : String) : Prop :=
  ∀ d, C.Holds d → name ∉ d.paragraphStyles → C.Fails (.undefinedParagraphFormat name) d

theorem keeps_writeMarker (hC : C.AllowsWriting) {id : String} (hfill : Keeps C (fillCursor id))
    (kind : CitationKind) (marker : String) {style : Style} (hstyle : AllowsMarkersOf C style) :
    Keeps C (writeMarker id kind marker style) := by
  have hclean : Keeps C (cleanFillCursor id (kind = .invisible)) :=
    keeps_cleanFillCursor hC id _
  refine hfill.bind fun cursor => (keeps_writeMarkup hC cursor marker).bind fun written => ?_
  have hitalic : Keeps C (do
      if style.italicEtAl then italicize written style.etAlString
      cleanFillCursor id (kind = .invisible)) := by
    simp only
    split
    · exact (keeps_italicize (fun _ _ => keeps_modifyCells hC _ _) _ _).bind fun _ => hclean
    · exact hclean
  simp only
  split
  · split
    · exact (keeps_setCharacterStyle hC written (hstyle ‹_›)).bind fun _ => hitalic
    · exact hitalic
  · exact hclean

theorem keeps_writeMarkers (hC : C.AllowsWriting) (hfill : ∀ id, Keeps C (fillCursor id))
    (gs : CitationGroups) (produced : CitationMarkers) {style : Style}
    (hstyle : gs.groups ≠ [] → AllowsMarkersOf C style) :
    Keeps C (writeMarkers gs produced style) := by
  refine keeps_hasBibliography.bind fun before => .forM fun g hg => ?_
  have hwrite : Keeps C (writeMarker g.id g.kind (CitationMarkers.markerOf produced g.id) style) :=
    keeps_writeMarker hC (hfill g.id) _ _ (hstyle (List.ne_nil_of_mem hg))
  refine hwrite.bind fun _ => ?_
  split
  · refine keeps_hasBibliography.bind fun there => ?_
    cases there with
    | false => exact .throw trivial
    | true => exact .pure _
  · exact .pure _

theorem keeps_createSection (hC : C.AllowsWriting) : Keeps C createSection := by
  refine (keeps_removeBookmark hC _).bind fun _ => (keeps_flowLength _).bind fun length => ?_
  have hcreate (place : TextRange) : Keeps C (do
      createBookmark MarkName.bibliographyBookmark place
      createBookmark MarkName.bibliographyEndBookmark place
      return place) :=
    (keeps_createBookmark hC _ _).bind fun _ => (keeps_createBookmark hC _ _).bind fun _ =>
      .pure _
  have hrest (breaks : Bool) : Keeps C (do
      if breaks then
        let _ ← replace (.collapsed .body length) "\n"
      let place := TextRange.collapsed .body (if breaks then length + 1 else length)
      createBookmark MarkName.bibliographyBookmark place
      createBookmark MarkName.bibliographyEndBookmark place
      return place) := by
    simp only
    split
    · exact (keeps_replace hC _ _).bind fun _ => hcreate _
    · exact hcreate _
  simp only
  split
  · exact (Keeps.pure false).bind hrest
  · exact (keeps_text _).bind fun _ => hrest _

theorem keeps_bibliographySection (hC : C.AllowsWriting) : Keeps C bibliographySection := by
  refine (keeps_see _).bind fun covered => ?_
  cases covered with
  | some covered => exact (keeps_see _).bind fun _ => .pure _
  | none => exact keeps_createSection hC

theorem keeps_typeAt (hC : C.AllowsWriting) (place : Nat) (s : String) :
    Keeps C (typeAt place s) :=
  (keeps_replace hC _ _).bind fun _ => .pure _

theorem keeps_writePageFields (hC : C.AllowsWriting) (place : Nat) (marks : List String) :
    Keeps C (writePageFields place marks) := by
  fun_induction writePageFields place marks with
  | case1 => exact .pure _
  | case2 => exact (keeps_insertPageField hC _ _).bind fun _ => .pure _
  | case3 place mark rest _ ih =>
    exact (keeps_insertPageField hC _ _).bind fun _ => (keeps_typeAt hC _ _).bind fun stop =>
      ih stop

theorem keeps_writeEntry (hC : C.AllowsWriting) {format : String}
    (hformat : AllowsParagraphs C format) (withPages : Bool) (place : Nat)
    (entry : BibliographyEntry) : Keeps C (writeEntry format withPages place entry) := by
  refine (keeps_typeAt hC _ _).bind fun start => (keeps_writeMarkup hC _ _).bind fun written => ?_
  have hend (stop : Nat) : Keeps C (do
      setParagraphStyle (.inBody start stop) format
      return stop) :=
    (keeps_setParagraphStyle hC _ hformat).bind fun _ => .pure _
  simp only
  split
  · exact (keeps_typeAt hC _ _).bind fun _ => (keeps_writePageFields hC _ _).bind fun _ =>
      (keeps_typeAt hC _ _).bind fun _ => hend _
  · exact hend _

theorem keeps_writeBibliography (hC : C.AllowsWriting) {bibliography : Bibliography}
    (hheader : AllowsParagraphs C bibliography.headerFormat)
    (hparagraph : AllowsParagraphs C bibliography.paragraphFormat) (preferences : Preferences) :
    Keeps C (writeBibliography bibliography preferences) := by
  refine (keeps_bibliographySection hC).bind fun whole =>
    (keeps_checkNoMarkInside whole).bind fun _ => (keeps_replace hC _ _).bind fun _ =>
    (keeps_writeMarkup hC _ _).bind fun title =>
    (keeps_setParagraphStyle hC _ hheader).bind fun _ => ?_
  have hentries : Keeps C (bibliography.entries.foldlM
      (writeEntry bibliography.paragraphFormat preferences.alwaysAddCitedOnPages) title.stop) :=
    .foldlM fun place entry _ => keeps_writeEntry hC hparagraph _ place entry
  exact hentries.bind fun stop => (keeps_removeBookmark hC _).bind fun _ =>
    (keeps_removeBookmark hC _).bind fun _ => (keeps_createBookmark hC _ _).bind fun _ =>
    keeps_createBookmark hC _ _

/-! ## Joining and separating -/

theorem keeps_joinRun (hC : C.AllowsMarking) (first : CitationGroup)
    (rest : List CitationGroup) : Keeps C (joinRun first rest) := by
  refine (keeps_groupRange _).bind fun start => (keeps_groupRange _).bind fun stop => ?_
  have hspan : Keeps C (liftExcept (start.through stop)) := by
    refine Triple.liftExcept (fun _ _ _ hd => hd) fun e he d hd => C.fails_of_internal ?_ hd
    unfold TextRange.through at he
    split at he
    · cases he
    · cases he; trivial
  refine hspan.bind fun span => (Keeps.forM fun g _ => keeps_removeGroup hC g.id).bind fun _ =>
    (keeps_replace hC.toAllowsWriting _ _).bind fun _ =>
    (keeps_createGroup hC _ _ _ _ _ _).bind fun _ => .pure _

theorem keeps_splitInto (hC : C.AllowsMarking) (kind : CitationKind) (pageInfo : Option String)
    (place : TextRange) (keys : List String) : Keeps C (splitInto kind pageInfo place keys) := by
  fun_induction splitInto kind pageInfo place keys with
  | case1 => exact .pure _
  | case2 => exact (keeps_createGroup hC _ _ _ _ _ _).bind fun _ => .pure _
  | case3 place key rest _ ih =>
    exact (keeps_createGroup hC _ _ _ _ _ _).bind fun created => ih created.2

theorem keeps_splitGroup (hC : C.AllowsMarking) (g : CitationGroup) : Keeps C (splitGroup g) :=
  (keeps_groupRange _).bind fun _ => (keeps_removeGroup hC _).bind fun _ =>
    (keeps_replace hC.toAllowsWriting _ _).bind fun _ => keeps_splitInto hC _ _ _ _

end DocCite.DocumentM
