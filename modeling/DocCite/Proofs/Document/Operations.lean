import DocCite.Proofs.Document.Logic

/-!
# Contracts of single operations

Looking at a document keeps every contract, and so does whatever changes only the session. What
changes the text, the marks or the bookmarks keeps the contracts that allow such changes.
-/

namespace DocCite

/-- The characters around a range inside the text. -/
theorem Document.cellsAround_of_le {d : Document} {r : TextRange} {cells : List Cell}
    (hcells : d.cells? r.flow = some cells) (hstop : r.stop ≤ cells.length) :
    d.cellsAround r = .ok cells := by
  unfold Document.cellsAround Document.cellsOf
  rw [hcells]
  exact if_pos hstop

/-- The characters around a range are there, or the range is refused. -/
theorem Document.cellsAround_eq_ok_or (d : Document) (r : TextRange) :
    (∃ cells, d.cells? r.flow = some cells ∧ r.stop ≤ cells.length ∧
        d.cellsAround r = .ok cells) ∨
      ∃ reason, d.cellsAround r = .error (.illegalArgument reason) := by
  unfold Document.cellsAround Document.cellsOf
  cases d.cells? r.flow with
  | none => exact Or.inr ⟨_, rfl⟩
  | some cells =>
    by_cases h : r.stop ≤ cells.length
    · exact Or.inl ⟨cells, rfl, h, if_pos h⟩
    · exact Or.inr ⟨_, if_neg h⟩

/-- An error that comes of a connection that can break. -/
def Document.Breaks (d : Document) (e : DocumentError) : Prop :=
  e = .connectionLost ∧ d.connection ≠ .steady

theorem Document.Breaks.isInternal {d : Document} {e : DocumentError} (h : d.Breaks e) :
    e.IsInternal := by
  rw [h.1]
  trivial

/-- Contracts that what is written into a document cannot break. -/
structure Contract.AllowsWriting (C : Contract) : Prop where
  replaceText : ∀ {d : Document} {r : TextRange} {cells : List Cell} (new : String),
    d.cells? r.flow = some cells → r.stop ≤ cells.length → C.Holds d →
      C.Holds (d.replaceText r new)
  modifyCells : ∀ {d : Document} (r : TextRange) (f : Cell → Cell), C.Holds d →
    C.Holds (d.modifyCells r f)
  putBookmark : ∀ {d : Document} {r : TextRange} {cells : List Cell} (name : String),
    d.cells? r.flow = some cells → r.stop ≤ cells.length → C.Holds d →
      C.Holds { d with bookmarks := d.bookmarks.put name r }
  eraseBookmark : ∀ {d : Document} (name : String), C.Holds d →
    C.Holds { d with bookmarks := d.bookmarks.erase name }
  setProperties : ∀ {d : Document} (properties : Keyed String String), C.Holds d →
    C.Holds { d with properties := properties }

/-- Contracts that marks can come and go under. -/
structure Contract.AllowsMarking (C : Contract) : Prop extends C.AllowsWriting where
  putMark : ∀ {d : Document} {r : TextRange} {cells : List Cell} {name : String},
    d.cells? r.flow = some cells → r.stop ≤ cells.length → d.marks.get? name = none →
      C.Holds d → C.Holds { d with marks := d.marks.put name r }
  eraseMark : ∀ {d : Document} (name : String), C.Holds d →
    C.Holds { d with marks := d.marks.erase name }

namespace DocumentM

variable {α : Type} {C : Contract}

/-! ## Looking -/

theorem keeps_look {f : Document → Except DocumentError α}
    (h : ∀ d e, f d = .error e → e.IsInternal) : Keeps C (look f) := by
  refine .call fun d hd => ?_
  cases hf : f d with
  | ok a => exact hd
  | error e => exact C.fails_of_internal (h d e hf) hd

theorem keeps_see (f : Document → α) : Keeps C (see f) := by
  refine keeps_look fun d e h => ?_
  cases h

theorem keeps_flowLength (flow : Flow) : Keeps C (flowLength flow) := by
  refine keeps_look fun d e h => ?_
  unfold Document.cellsOf at h
  cases hcells : d.cells? flow with
  | some cells => rw [hcells] at h; cases h
  | none => rw [hcells] at h; cases h; trivial

theorem keeps_text (r : TextRange) : Keeps C (text r) := by
  refine keeps_look fun d e h => ?_
  unfold Document.textUnder at h
  obtain ⟨cells, -, -, hcells⟩ | ⟨reason, hcells⟩ := d.cellsAround_eq_ok_or r
  · rw [hcells] at h; cases h
  · rw [hcells] at h; cases h; trivial

theorem keeps_anchorOf? (r : TextRange) : Keeps C (anchorOf? r) := by
  unfold anchorOf?
  split
  · exact .pure _
  · exact keeps_see _

/-- A look tells something of the document as it was. -/
theorem triple_look {d₀ : Document} {f : Document → Except DocumentError α}
    (hf : ∀ d, SameDocument d₀ d → f d = f d₀) :
    Triple (SameDocument d₀) (look f) (fun a d => f d₀ = .ok a ∧ SameDocument d₀ d)
      (fun e d => (d₀.Breaks e ∨ f d₀ = .error e) ∧ SameDocument d₀ d) := by
  refine Triple.call (fun d c hc hd => hd.trans (sameDocument_connection hc)) (fun d hd => ?_)
    fun d hbroken hd => ⟨Or.inl ⟨rfl, fun h => hbroken (hd.steady.mp h)⟩, hd⟩
  rw [hf d hd]
  cases hrun : f d₀ with
  | ok a => exact ⟨rfl, hd⟩
  | error e => exact ⟨Or.inr rfl, hd⟩

theorem triple_see {d₀ : Document} {f : Document → α} (hf : ∀ d, SameDocument d₀ d → f d = f d₀) :
    Triple (SameDocument d₀) (see f) (fun a d => a = f d₀ ∧ SameDocument d₀ d)
      (fun e d => d₀.Breaks e ∧ SameDocument d₀ d) := by
  refine (triple_look fun d hd => congrArg Except.ok (hf d hd)).weaken (fun _ h => h)
    (fun a d h => ⟨(Except.ok.inj h.1).symm, h.2⟩) fun e d h => ⟨?_, h.2⟩
  rcases h.1 with hbreaks | hnever
  · exact hbreaks
  · cases hnever

/-! ## The session -/

theorem keeps_change {f : Document → Document} (h : ∀ d, C.Holds d → C.Holds (f d)) :
    Keeps C (change f) :=
  .call h

/-- A change of the session keeps every contract. -/
theorem keeps_change_session {f : Document → Document} (h : ∀ d, SessionStep d (f d)) :
    Keeps C (change f) :=
  keeps_change fun d hd => C.holds_of_step (h d) hd

/-- A call that checks a range first and goes on from there. -/
theorem keeps_call_around {r : TextRange} {f : Document → List Cell → α × Document}
    (h : ∀ d cells, d.cells? r.flow = some cells → r.stop ≤ cells.length → C.Holds d →
      C.Holds (f d cells).2) :
    Keeps C (DocumentM.call fun d => do
      let cells ← d.cellsAround r
      return f d cells) := by
  refine .call fun d hd => ?_
  obtain ⟨cells, hflow, hstop, hcells⟩ | ⟨reason, hcells⟩ := d.cellsAround_eq_ok_or r
  · rw [hcells]
    exact h d cells hflow hstop hd
  · rw [hcells]
    exact C.fails_of_internal trivial hd

/-- A call that is refused in some documents, and checks a range otherwise. -/
theorem keeps_call_unless {r : TextRange} {refused : Document → Bool}
    {e : Document → DocumentError} {f : Document → List Cell → α × Document}
    (he : ∀ d, C.Holds d → refused d = true → C.Fails (e d) d)
    (h : ∀ d cells, d.cells? r.flow = some cells → r.stop ≤ cells.length → C.Holds d →
      C.Holds (f d cells).2) :
    Keeps C (DocumentM.call fun d => do
      if refused d then throw (e d)
      let cells ← d.cellsAround r
      return f d cells) := by
  refine .call fun d hd => ?_
  cases hrefused : refused d with
  | true => exact he d hd hrefused
  | false =>
    obtain ⟨cells, hflow, hstop, hcells⟩ | ⟨reason, hcells⟩ := d.cellsAround_eq_ok_or r
    · rw [hcells]
      exact h d cells hflow hstop hd
    · rw [hcells]
      exact C.fails_of_internal trivial hd

theorem sameDocument_selection (d : Document) (s : Selection) :
    SameDocument d { d with selection := s } :=
  ⟨⟨rfl, rfl, rfl, rfl, rfl⟩, rfl, rfl, rfl, rfl, rfl, rfl, rfl, Iff.rfl⟩

/-- Text is selected. -/
theorem step_selection {d : Document} {r : TextRange} (hr : d.Inside r) :
    SessionStep d { d with selection := .text r } where
  toSameDocument := sameDocument_selection d _
  cursor _ := ⟨r, rfl, hr⟩

theorem keeps_setViewCursor (r : TextRange) : Keeps C (setViewCursor r) :=
  keeps_call_around fun _ cells hflow hstop hd =>
    C.holds_of_step (step_selection ⟨cells, hflow, hstop⟩) hd

theorem keeps_viewPosition (r : TextRange) : Keeps C (viewPosition r) :=
  keeps_call_around fun _ cells hflow hstop hd =>
    C.holds_of_step (step_selection (r := r.startPoint)
      ⟨cells, hflow, Nat.le_trans r.start_le_stop hstop⟩) hd

theorem keeps_restoreSelection : Keeps C restoreSelection := by
  refine .call fun d hd => ?_
  cases d.selection with
  | text r => exact hd
  | comment => exact hd
  | nothing =>
    exact C.holds_of_step (step_selection ⟨d.body, rfl, Nat.zero_le _⟩) hd

theorem sameDocument_lockScreen (d : Document) (depth : Nat) :
    SameDocument d { d with lockDepth := depth } :=
  ⟨⟨rfl, rfl, rfl, rfl, rfl⟩, rfl, rfl, rfl, rfl, rfl, rfl, rfl, Iff.rfl⟩

theorem keeps_lockScreen : Keeps C lockScreen :=
  keeps_change_session fun d => (sameDocument_lockScreen d _).step rfl

theorem keeps_unlockScreen : Keeps C unlockScreen :=
  keeps_change_session fun d => (sameDocument_lockScreen d _).step rfl

theorem keeps_enterUndo (label : String) : Keeps C (enterUndo label) :=
  keeps_change_session fun _ => SameDocument.step
    ⟨⟨rfl, rfl, rfl, rfl, rfl⟩, rfl, rfl, rfl, rfl, rfl, rfl, rfl, Iff.rfl⟩ rfl

theorem keeps_leaveUndo : Keeps C leaveUndo := by
  refine keeps_change_session fun d => ?_
  split <;> exact SameDocument.step
    ⟨⟨rfl, rfl, rfl, rfl, rfl⟩, rfl, rfl, rfl, rfl, rfl, rfl, rfl, Iff.rfl⟩ rfl

/-! ## Changes -/

theorem keeps_replace (hC : C.AllowsWriting) (r : TextRange) (new : String) :
    Keeps C (replace r new) :=
  keeps_call_around fun _ _ hflow hstop hd => hC.replaceText new hflow hstop hd

theorem keeps_modifyCells (hC : C.AllowsWriting) (r : TextRange) (f : Cell → Cell) :
    Keeps C (modifyCells r f) :=
  keeps_call_around fun _ _ _ _ hd => hC.modifyCells r f hd

theorem keeps_setCharacterStyle (hC : C.AllowsWriting) (r : TextRange) {style : String}
    (h : ∀ d, C.Holds d → style ∉ d.characterStyles →
      C.Fails (.undefinedCharacterFormat style) d) : Keeps C (setCharacterStyle r style) :=
  keeps_call_unless (fun d hd hstyle => h d hd (by simpa using hstyle)) fun _ _ _ _ hd =>
    hC.modifyCells r _ hd

theorem keeps_setParagraphStyle (hC : C.AllowsWriting) (r : TextRange) {style : String}
    (h : ∀ d, C.Holds d → style ∉ d.paragraphStyles →
      C.Fails (.undefinedParagraphFormat style) d) : Keeps C (setParagraphStyle r style) :=
  keeps_call_unless (fun d hd hstyle => h d hd (by simpa using hstyle)) fun _ _ _ _ hd =>
    hC.modifyCells _ _ hd

theorem keeps_insertPageField (hC : C.AllowsWriting) (r : TextRange) (mark : String) :
    Keeps C (insertPageField r mark) :=
  keeps_call_around fun _ _ hflow hstop hd =>
    hC.modifyCells _ _ (hC.replaceText _ hflow hstop hd)

/-- Creating something in a range is refused where the range or the name is. -/
theorem keeps_create {r : TextRange} {taken : Document → Bool} {e : DocumentError}
    {f : Document → Document} (he : e.IsInternal)
    (h : ∀ d cells, d.cells? r.flow = some cells → r.stop ≤ cells.length → taken d = false →
      C.Holds d → C.Holds (f d)) :
    Keeps C (call fun d => do
      let _ ← d.cellsAround r
      if taken d then throw e
      return ((), f d)) := by
  refine .call fun d hd => ?_
  obtain ⟨cells, hflow, hstop, hcells⟩ | ⟨reason, hcells⟩ := d.cellsAround_eq_ok_or r
  · rw [hcells]
    cases htaken : taken d with
    | true => exact C.fails_of_internal he hd
    | false => exact h d cells hflow hstop htaken hd
  · rw [hcells]
    exact C.fails_of_internal trivial hd

theorem keeps_createBookmark (hC : C.AllowsWriting) (name : String) (r : TextRange) :
    Keeps C (createBookmark name r) :=
  keeps_create trivial fun _ _ hflow hstop _ hd => hC.putBookmark name hflow hstop hd

theorem keeps_removeBookmark (hC : C.AllowsWriting) (name : String) :
    Keeps C (removeBookmark name) :=
  keeps_change fun _ hd => hC.eraseBookmark name hd

theorem keeps_setPageInfo (hC : C.AllowsWriting) (id : String) (pageInfo : Option String) :
    Keeps C (setPageInfo id pageInfo) := by
  unfold setPageInfo
  split
  · exact keeps_change fun _ hd => hC.setProperties _ hd
  · exact keeps_change fun _ hd => hC.setProperties _ hd

theorem keeps_createMark (hC : C.AllowsMarking) (name : String) (r : TextRange) :
    Keeps C (createMark name r) :=
  keeps_create trivial fun d _ hflow hstop hname hd =>
    hC.putMark hflow hstop (by simpa using hname) hd

theorem keeps_removeMark (hC : C.AllowsMarking) (name : String) :
    Keeps C (removeMark name) := by
  refine .call fun d hd => ?_
  cases hname : (d.marks.get? name).isNone with
  | true => exact C.fails_of_internal trivial hd
  | false => exact hC.eraseMark name hd

end DocumentM

end DocCite
