import DocCite.Proofs.Document.Operations

/-!
# What actions leave alone

A `Frame` relates a document to what an action may make of it. It is kept by every action that is
put together from actions that keep it (`Within`), whether they succeed or fail on the way, so that
it says what holds at the end of all runs. The operations are sorted by what they change: typing
moves ranges and no more, marking makes marks and properties come and go.
-/

namespace DocCite

variable {α β γ : Type}

/-- A relation between a document and what an action leaves of it. Connections may wear off and
break under it. -/
structure Frame where
  Rel : Document → Document → Prop
  refl : ∀ d, Rel d d
  trans : ∀ {d d' d''}, Rel d d' → Rel d' d'' → Rel d d''
  spend : ∀ {d rest}, d.connection.spend? = some rest → Rel d { d with connection := rest }
  lose : ∀ d, Rel d { d with connection := .lost }

/-- **An action within a frame**: whatever its outcome, the document that it leaves is related to
the one that it started from. -/
class Within (F : Frame) (x : DocumentM α) : Prop where
  rel : ∀ d, F.Rel d (x.run d).2

/-- Nothing is entered into the record of actions, and no screen update suspended. -/
structure SameRecord (d d' : Document) : Prop where
  connection : d'.connection = d.connection
  openActions : d'.openActions = d.openActions
  undoHistory : d'.undoHistory = d.undoHistory
  lockDepth : d'.lockDepth = d.lockDepth

/-- Besides, no property is set or removed. -/
structure SameProperties (d d' : Document) : Prop extends SameRecord d d' where
  properties : d'.properties = d.properties

/-- Besides, no mark comes or goes. -/
structure SameNames (d d' : Document) : Prop extends SameProperties d d' where
  names : d'.marks.map Prod.fst = d.marks.map Prod.fst

/-- Frames that see neither the text nor the ranges in it. -/
class Frame.AllowsTyping (F : Frame) : Prop where
  rel_of_typing : ∀ {d d'}, SameNames d d' → F.Rel d d'

/-- Frames that do not see marks either. -/
class Frame.AllowsMarking (F : Frame) : Prop where
  rel_of_marking : ∀ {d d'}, SameProperties d d' → F.Rel d d'

/-- Frames that see nothing but the record of actions. -/
class Frame.AllowsStoring (F : Frame) : Prop where
  rel_of_storing : ∀ {d d'}, SameRecord d d' → F.Rel d d'

/-- Frames that actions do not leave by suspending screen updates meanwhile. -/
class Frame.AllowsLocking (F : Frame) : Prop where
  within_locked : ∀ {α : Type} (x : DocumentM α), Within F x → Within F (DocumentM.withLockedScreen x)

instance (F : Frame) [F.AllowsStoring] : F.AllowsMarking where
  rel_of_marking h := Frame.AllowsStoring.rel_of_storing h.toSameRecord

instance (F : Frame) [F.AllowsMarking] : F.AllowsTyping where
  rel_of_typing h := Frame.AllowsMarking.rel_of_marking h.toSameProperties

namespace Document

theorem sameNames_replaceText (d : Document) (r : TextRange) (new : String) :
    SameNames d (d.replaceText r new) := by
  have hnames (d : Document) (flow : Flow) (f : RangeHolder → TextRange → TextRange) :
      (d.relocate flow f).marks.map Prod.fst = d.marks.map Prod.fst := by
    simp [relocate, Function.comp_def]
  have hmarks : (d.replaceText r new).marks.map Prod.fst = d.marks.map Prod.fst := by
    rw [replaceText, type, spliceCells, hnames, editCells_eq, delete]
    split
    · rfl
    · rw [hnames, editCells_eq]
  rw [d.replaceText_eq] at hmarks ⊢
  exact ⟨⟨⟨rfl, rfl, rfl, rfl⟩, rfl⟩, hmarks⟩

theorem sameNames_modifyCells (d : Document) (r : TextRange) (f : Cell → Cell) :
    SameNames d (d.modifyCells r f) := by
  rw [d.modifyCells_eq]
  exact ⟨⟨⟨rfl, rfl, rfl, rfl⟩, rfl⟩, rfl⟩

end Document

namespace Within

open DocumentM

variable {F : Frame}

/-! ## Ways of putting actions together -/

instance (a : α) : Within F (pure a : DocumentM α) := ⟨F.refl⟩

instance (e : DocumentError) : Within F (throw e : DocumentM α) := ⟨F.refl⟩

instance (outcome : Except DocumentError α) : Within F (liftExcept outcome : DocumentM α) where
  rel d := by
    rw [run_liftExcept]
    exact F.refl d

theorem bind {x : DocumentM α} {f : α → DocumentM β} (hx : Within F x)
    (hf : ∀ a, Within F (f a)) : Within F (x >>= f) where
  rel d := by
    rw [run_bind]
    have hfirst := hx.rel d
    cases hrun : x.run d with
    | mk outcome d' =>
      rw [hrun] at hfirst
      cases outcome with
      | error e => exact hfirst
      | ok a => exact F.trans hfirst ((hf a).rel d')

instance (x : DocumentM α) (f : α → DocumentM β) [hx : Within F x] [hf : ∀ a, Within F (f a)] :
    Within F (x >>= f) :=
  bind hx hf

instance (x : DocumentM α) (f : α → β) [Within F x] : Within F (f <$> x) := by
  rw [map_eq_pure_bind]
  infer_instance

instance (p : Prop) [Decidable p] (x y : DocumentM α) [Within F x] [Within F y] :
    Within F (if p then x else y) := by
  split <;> infer_instance

instance (x : DocumentM α) [hx : Within F x] : Within F (attempt x) := ⟨hx.rel⟩

instance (x : DocumentM α) (close : DocumentM Unit) [Within F x] [Within F close] :
    Within F (closing x close) := by
  unfold closing
  infer_instance

instance (f : γ → DocumentM PUnit) (l : List γ) [∀ c, Within F (f c)] : Within F (l.forM f) := by
  induction l with
  | nil => exact inferInstanceAs (Within F (pure _))
  | cons c l ih => exact inferInstanceAs (Within F (f c >>= fun _ => l.forM f))

instance (f : γ → DocumentM α) (l : List γ) [∀ c, Within F (f c)] : Within F (l.mapM f) := by
  induction l with
  | nil => exact inferInstanceAs (Within F (pure _))
  | cons c l ih =>
    rw [List.mapM_cons]
    infer_instance

instance (f : β → γ → DocumentM β) (l : List γ) (b : β) [∀ b c, Within F (f b c)] :
    Within F (l.foldlM f b) := by
  induction l generalizing b with
  | nil => exact inferInstanceAs (Within F (pure _))
  | cons c l ih => exact inferInstanceAs (Within F (f b c >>= fun b => l.foldlM f b))

instance (x : DocumentM α) [F.AllowsLocking] [h : Within F x] : Within F (withLockedScreen x) :=
  Frame.AllowsLocking.within_locked x h

/-! ## Operations -/

/-- A call stays within a frame when what it makes of a document that it reaches does. -/
theorem of_call {f : Document → Except DocumentError (α × Document)}
    (h : ∀ d a d', f d = .ok (a, d') → F.Rel d d') : Within F (call f) where
  rel d := by
    simp only [call, ExceptT.run]
    cases hspend : d.connection.spend? with
    | none => exact F.lose d
    | some rest =>
      simp only
      cases hf : f { d with connection := rest } with
      | error e => exact F.spend hspend
      | ok result => exact F.trans (F.spend hspend) (h _ result.1 result.2 hf)

theorem of_change {f : Document → Document} (h : ∀ d, F.Rel d (f d)) : Within F (change f) :=
  of_call fun d _ _ hf => by
    cases hf
    exact h d

/-- A call that looks at the text around a range first. -/
theorem of_around {r : TextRange} {f : Document → List Cell → Except DocumentError (α × Document)}
    (h : ∀ d cells a d', f d cells = .ok (a, d') → F.Rel d d') :
    Within F (call fun d => do f d (← d.cellsAround r)) := by
  refine of_call fun d a d' hf => ?_
  cases hcells : d.cellsAround r with
  | error e =>
    rw [hcells] at hf
    cases hf
  | ok cells =>
    rw [hcells] at hf
    exact h d cells a d' hf

instance (f : Document → Except DocumentError α) : Within F (look f) :=
  of_call fun d a d' hf => by
    cases h : f d with
    | error e =>
      rw [h] at hf
      cases hf
    | ok b =>
      rw [h] at hf
      cases hf
      exact F.refl d

instance (f : Document → α) : Within F (see f) := inferInstanceAs (Within F (look _))

section Looking

instance (flow : Flow) : Within F (flowLength flow) := inferInstanceAs (Within F (look _))

instance (r : TextRange) : Within F (text r) := inferInstanceAs (Within F (look _))

instance (style : String) : Within F (hasParagraphStyle style) := inferInstanceAs (Within F (see _))

instance : Within F markNames := inferInstanceAs (Within F (see _))

instance (name : String) : Within F (markRange? name) := inferInstanceAs (Within F (see _))

instance (name : String) : Within F (bookmarkRange? name) := inferInstanceAs (Within F (see _))

instance (name : String) : Within F (property? name) := inferInstanceAs (Within F (see _))

instance : Within F footnoteAnchors := inferInstanceAs (Within F (see _))

instance (r : TextRange) : Within F (anchorOf? r) := by
  unfold anchorOf?
  split
  · infer_instance
  · exact inferInstanceAs (Within F (see _))

instance : Within F viewCursor? := inferInstanceAs (Within F (see _))

instance : Within F isRecording := inferInstanceAs (Within F (see _))

instance : Within F redlineCount := inferInstanceAs (Within F (see _))

end Looking

section Typing

variable [F.AllowsTyping]

instance (r : TextRange) (new : String) : Within F (replace r new) :=
  of_around fun d _ _ _ h => by
    cases h
    exact Frame.AllowsTyping.rel_of_typing (d.sameNames_replaceText r new)

instance (r : TextRange) (f : Cell → Cell) : Within F (modifyCells r f) :=
  of_around fun d _ _ _ h => by
    cases h
    exact Frame.AllowsTyping.rel_of_typing (d.sameNames_modifyCells r f)

instance (r : TextRange) (format : TextFormat) : Within F (applyFormat r format) :=
  inferInstanceAs (Within F (modifyCells r _))

instance (r : TextRange) : Within F (clearFormat r) := inferInstanceAs (Within F (modifyCells r _))

/-- A call that is refused in some documents, and looks at the text around a range otherwise. -/
theorem of_around_unless {r : TextRange} {refused : Document → Bool} {e : DocumentError}
    {f : Document → List Cell → α × Document}
    (h : ∀ d cells, SameNames d (f d cells).2) :
    Within F (call fun d => do
      if refused d then throw e
      return f d (← d.cellsAround r)) := by
  refine of_call fun d a d' hf => ?_
  cases hrefused : refused d with
  | true =>
    rw [hrefused] at hf
    cases hf
  | false =>
    rw [hrefused] at hf
    cases hcells : d.cellsAround r with
    | error e =>
      rw [hcells] at hf
      cases hf
    | ok cells =>
      rw [hcells] at hf
      have hd' : d' = (f d cells).2 := congrArg Prod.snd (Except.ok.inj hf).symm
      exact hd' ▸ Frame.AllowsTyping.rel_of_typing (h d cells)

instance (r : TextRange) (style : String) : Within F (setCharacterStyle r style) :=
  of_around_unless fun d _ => d.sameNames_modifyCells r _

instance (r : TextRange) (style : String) : Within F (setParagraphStyle r style) :=
  of_around_unless fun d _ => d.sameNames_modifyCells _ _

instance (r : TextRange) (mark : String) : Within F (insertPageField r mark) :=
  of_around fun d _ _ _ h => by
    cases h
    exact F.trans (Frame.AllowsTyping.rel_of_typing (d.sameNames_replaceText r _))
      (Frame.AllowsTyping.rel_of_typing (Document.sameNames_modifyCells _ _ _))

instance (name : String) (r : TextRange) : Within F (createBookmark name r) := by
  refine of_around fun d _ _ _ h => ?_
  split at h
  · cases h
  · cases h
    exact Frame.AllowsTyping.rel_of_typing ⟨⟨⟨rfl, rfl, rfl, rfl⟩, rfl⟩, rfl⟩

instance (name : String) : Within F (removeBookmark name) :=
  of_change fun _ => Frame.AllowsTyping.rel_of_typing ⟨⟨⟨rfl, rfl, rfl, rfl⟩, rfl⟩, rfl⟩

instance (r : TextRange) : Within F (setViewCursor r) :=
  of_around fun _ _ _ _ h => by
    cases h
    exact Frame.AllowsTyping.rel_of_typing ⟨⟨⟨rfl, rfl, rfl, rfl⟩, rfl⟩, rfl⟩

instance (r : TextRange) : Within F (viewPosition r) :=
  of_around fun _ _ _ _ h => by
    cases h
    exact Frame.AllowsTyping.rel_of_typing ⟨⟨⟨rfl, rfl, rfl, rfl⟩, rfl⟩, rfl⟩

instance : Within F restoreSelection := by
  refine of_call fun d _ _ h => ?_
  split at h <;> cases h
  · exact F.refl d
  · exact Frame.AllowsTyping.rel_of_typing ⟨⟨⟨rfl, rfl, rfl, rfl⟩, rfl⟩, rfl⟩
  · exact F.refl d

instance : Within F requireViewCursor := by
  unfold requireViewCursor
  refine bind inferInstance fun cursor => ?_
  cases cursor with
  | some cursor => infer_instance
  | none =>
    refine bind inferInstance fun restored => ?_
    cases restored with
    | false => exact inferInstanceAs (Within F (throw _))
    | true =>
      refine bind inferInstance fun cursor => ?_
      cases cursor <;> infer_instance

end Typing

/-! ## Marks and properties -/

section Marking

variable [F.AllowsMarking]

instance (name : String) (r : TextRange) : Within F (createMark name r) := by
  refine of_around fun d _ _ _ h => ?_
  split at h
  · cases h
  · cases h
    exact Frame.AllowsMarking.rel_of_marking ⟨⟨rfl, rfl, rfl, rfl⟩, rfl⟩

instance (name : String) : Within F (removeMark name) := by
  refine of_call fun d _ _ h => ?_
  split at h
  · cases h
  · cases h
    exact Frame.AllowsMarking.rel_of_marking ⟨⟨rfl, rfl, rfl, rfl⟩, rfl⟩

end Marking

section Storing

variable [F.AllowsStoring]

instance (name value : String) : Within F (setProperty name value) :=
  of_change fun _ => Frame.AllowsStoring.rel_of_storing ⟨rfl, rfl, rfl, rfl⟩

instance (name : String) : Within F (removeProperty name) :=
  of_change fun _ => Frame.AllowsStoring.rel_of_storing ⟨rfl, rfl, rfl, rfl⟩

end Storing

/-! ## Composed actions -/

section Reading

instance (name : String) : Within F (readGroup? name) := by
  unfold readGroup?
  split <;> infer_instance

instance : Within F loadGroups := by
  unfold loadGroups
  infer_instance

instance (id : String) : Within F (groupRange id) := by
  unfold groupRange
  refine bind inferInstance fun r => ?_
  cases r <;> infer_instance

instance (gs : CitationGroups) : Within F (groupRanges gs) := by
  unfold groupRanges
  infer_instance

instance (ranges : List (TextRange × String)) (preferences : Preferences) :
    Within F (checkOverlaps ranges preferences) := by
  unfold checkOverlaps
  infer_instance

instance (gs : CitationGroups) (ids : List String) : Within F (imposeOrder gs ids) := by
  unfold imposeOrder
  infer_instance

instance : Within F hasBibliography := by
  unfold hasBibliography
  infer_instance

instance (update : BibliographyUpdate) : Within F (writesBibliography update) := by
  cases update
  · exact inferInstanceAs (Within F (pure _))
  · exact inferInstanceAs (Within F hasBibliography)
  · exact inferInstanceAs (Within F (pure _))

instance (style : Style) : Within F (checkParagraphStyles style) := by
  unfold checkParagraphStyles
  infer_instance

instance (whole : TextRange) : Within F (checkNoMarkInside whole) := by
  unfold checkNoMarkInside
  refine bind inferInstance fun names => ?_
  have hstep (name : String) : Within F (do
      if MarkName.isMark name then
        if let some r ← markRange? name then
          if whole.contains r && !(r.isEmpty && r.start == whole.start) then
            throw (.inconsistent ("citation mark " ++ name ++ " is inside the bibliography"))) := by
    split
    · refine bind inferInstance fun r => ?_
      cases r <;> infer_instance
    · infer_instance
  infer_instance

instance (preferences : Preferences) : Within F (checkChangeTracking preferences) := by
  unfold checkChangeTracking
  infer_instance

instance (preferences : Preferences) : Within F (loadApart preferences) := by
  unfold loadApart
  infer_instance

instance (left right : TextRange) : Within F (onlySpacesBetween left right) := by
  unfold onlySpacesBetween
  infer_instance

instance (left right : CitationGroup × TextRange) : Within F (joins left right) := by
  unfold joins
  infer_instance

instance (first : CitationGroup × TextRange) (rest : List (CitationGroup × TextRange)) :
    Within F (runsFrom first rest) := by
  induction rest generalizing first with
  | nil =>
    unfold runsFrom
    infer_instance
  | cons second rest ih =>
    unfold runsFrom
    refine bind inferInstance fun joined => bind (ih second) fun runs => ?_
    cases runs with
    | nil => infer_instance
    | cons run runs => cases joined <;> infer_instance

instance (ordered : List (CitationGroup × TextRange)) : Within F (joinableRuns ordered) := by
  unfold joinableRuns
  split <;> infer_instance

end Reading

section Typing

variable [F.AllowsTyping]

instance (place : TextRange) (count : Nat) : Within F (insertSpaces place count) := by
  unfold insertSpaces
  infer_instance

instance (flow : Flow) (p : Nat) (runs : List Markup.Run) : Within F (formatRuns flow p runs) := by
  induction runs generalizing p with
  | nil =>
    unfold formatRuns
    infer_instance
  | cons run rest ih =>
    unfold formatRuns
    infer_instance

instance (r : TextRange) (markup : String) : Within F (writeMarkup r markup) := by
  unfold writeMarkup
  infer_instance

instance (r : TextRange) (piece : String) : Within F (italicize r piece) := by
  unfold italicize
  infer_instance

instance (place : TextRange) (style : String) : Within F (checkCharacterStyle place style) := by
  unfold checkCharacterStyle
  infer_instance

instance (id : String) (r : TextRange) : Within F (emptyMark id r) := by
  unfold emptyMark
  refine bind inferInstance fun _ => bind inferInstance fun _ => ?_
  infer_instance

instance (id : String) (removeIfEmpty : Bool) : Within F (cleanFillCursor id removeIfEmpty) := by
  unfold cleanFillCursor
  infer_instance

instance (item : TextRange × α) : Within F (placeItem item) := by
  unfold placeItem
  refine bind inferInstance fun anchor => ?_
  cases anchor <;> infer_instance

instance (items : List (PlacedItem α)) : Within F (sortByScreen items) := by
  unfold sortByScreen
  infer_instance

instance (items : List (TextRange × α)) : Within F (orderByScreen items) := by
  unfold orderByScreen
  infer_instance

instance (items : List (TextRange × α)) : Within F (readingOrder items) := by
  unfold readingOrder
  infer_instance

instance : Within F createSection := by
  unfold createSection
  dsimp only
  refine bind inferInstance fun _ => bind inferInstance fun length => ?_
  split <;> infer_instance

instance : Within F bibliographySection := by
  unfold bibliographySection
  refine bind inferInstance fun covered => ?_
  cases covered <;> infer_instance

instance (place : Nat) (s : String) : Within F (typeAt place s) := by
  unfold typeAt
  infer_instance

instance (place : Nat) (marks : List String) : Within F (writePageFields place marks) := by
  induction marks generalizing place with
  | nil =>
    unfold writePageFields
    infer_instance
  | cons mark rest ih =>
    cases rest with
    | nil =>
      unfold writePageFields
      infer_instance
    | cons next rest =>
      unfold writePageFields
      infer_instance

instance (format : String) (withPages : Bool) (place : Nat) (entry : BibliographyEntry) :
    Within F (writeEntry format withPages place entry) := by
  unfold writeEntry
  infer_instance

instance (bibliography : Bibliography) (preferences : Preferences) :
    Within F (writeBibliography bibliography preferences) := by
  unfold writeBibliography
  refine bind inferInstance fun whole => bind inferInstance fun _ => ?_
  refine bind inferInstance fun _ => bind inferInstance fun title => ?_
  infer_instance

instance (ranges : List (TextRange × String)) (style : Style) :
    Within F (checkMarkerStyle ranges style) := by
  unfold checkMarkerStyle
  cases ranges <;> dsimp only [List.head?] <;> infer_instance

instance (databases : List Database) (style : Style) (preferences : Preferences)
    (update : BibliographyUpdate) : Within F (planRefresh databases style preferences update) := by
  unfold planRefresh
  infer_instance

end Typing

section Marking

variable [F.AllowsMarking]

instance (name : String) (place : TextRange) (spaceAfter bare : Bool) :
    Within F (placeMark name place spaceAfter bare) := by
  unfold placeMark
  have hfound : Within F (do
      match ← markRange? name with
      | some r => return r
      | none => throw (.creation ("reference mark " ++ name ++ " was not created")) :
        DocumentM TextRange) := by
    refine bind inferInstance fun r => ?_
    cases r <;> infer_instance
  infer_instance

instance (id : String) : Within F (prepareMark id) := by
  unfold prepareMark
  infer_instance

instance (id : String) : Within F (fillCursor id) := by
  unfold fillCursor
  refine bind inferInstance fun cursor => ?_
  cases cursor with
  | some cursor => infer_instance
  | none =>
    refine bind inferInstance fun cursor => ?_
    cases cursor <;> infer_instance

instance (id : String) (kind : CitationKind) (marker : String) (style : Style) :
    Within F (writeMarker id kind marker style) := by
  unfold writeMarker
  infer_instance

instance (gs : CitationGroups) (produced : CitationMarkers) (style : Style) :
    Within F (writeMarkers gs produced style) := by
  unfold writeMarkers
  infer_instance

variable [F.AllowsLocking]

instance (plan : RefreshPlan) (databases : List Database) (style : Style)
    (preferences : Preferences) : Within F (writeRefresh plan databases style preferences) := by
  unfold writeRefresh
  infer_instance

instance (databases : List Database) (style : Style) (preferences : Preferences)
    (update : BibliographyUpdate) : Within F (refresh databases style preferences update) := by
  unfold refresh
  infer_instance

end Marking

section Storing

variable [F.AllowsStoring]

instance (id : String) (pageInfo : Option String) : Within F (setPageInfo id pageInfo) := by
  unfold setPageInfo
  split <;> infer_instance

instance (edits : List (String × Option String)) : Within F (setPageInfos edits) := by
  unfold setPageInfos
  infer_instance

instance (keys : List String) (pageInfo : Option String) (kind : CitationKind) (place : TextRange)
    (spaceAfter bare : Bool) : Within F (createGroup keys pageInfo kind place spaceAfter bare) := by
  unfold createGroup
  infer_instance

instance (id : String) : Within F (removeGroup id) := by
  unfold removeGroup
  infer_instance

instance (place : TextRange) (request : CitationRequest) (databases : List Database)
    (style : Style) : Within F (insertAt place request databases style) := by
  unfold insertAt
  infer_instance

instance (request : CitationRequest) (databases : List Database) (style : Style) :
    Within F (insertGroup request databases style) := by
  unfold insertGroup
  infer_instance

instance (first : CitationGroup) (rest : List CitationGroup) : Within F (joinRun first rest) := by
  unfold joinRun
  infer_instance

instance (kind : CitationKind) (pageInfo : Option String) (place : TextRange)
    (keys : List String) : Within F (splitInto kind pageInfo place keys) := by
  induction keys generalizing place with
  | nil =>
    unfold splitInto
    infer_instance
  | cons key rest ih =>
    cases rest with
    | nil =>
      unfold splitInto
      infer_instance
    | cons next rest =>
      unfold splitInto
      infer_instance

instance (g : CitationGroup) : Within F (splitGroup g) := by
  unfold splitGroup
  infer_instance

variable [F.AllowsLocking]

instance (preferences : Preferences) : Within F (joinAll preferences) := by
  unfold joinAll
  have hrun (run : List CitationGroup) : Within F (match run with
      | [] => return
      | first :: rest => joinRun first rest : DocumentM PUnit) := by
    cases run <;> infer_instance
  infer_instance

instance (preferences : Preferences) : Within F (splitAll preferences) := by
  unfold splitAll
  infer_instance

end Storing

end Within

end DocCite
