import DocCite.Proofs.Document.Typing

/-!
# Documents that hold the same

Two documents can agree in all that they hold and differ in the session that works on them: the
connection, the selection, the record of actions and the lock of the screen. Changes of the text
treat such documents alike, and a character that is typed and deleted again leaves the document
the same.
-/

namespace DocCite

/-- Documents with the same text, the same marks and bookmarks and the same properties. -/
structure SameContent (d d' : Document) : Prop where
  body : d.body = d'.body
  footnotes : d.footnotes = d'.footnotes
  marks : d.marks = d'.marks
  bookmarks : d.bookmarks = d'.bookmarks
  properties : d.properties = d'.properties

/-- **Documents that differ at most in the session**: the connection, the selection, the record
of actions and the lock of the screen. -/
structure SameDocument (d d' : Document) : Prop extends SameContent d d' where
  title : d.title = d'.title
  characterStyles : d.characterStyles = d'.characterStyles
  paragraphStyles : d.paragraphStyles = d'.paragraphStyles
  isRecording : d.isRecording = d'.isRecording
  redlines : d.redlines = d'.redlines
  lineWidth : d.lineWidth = d'.lineWidth
  linesPerPage : d.linesPerPage = d'.linesPerPage
  /-- A connection that can break does not become one that cannot. -/
  steady : d.connection = .steady ↔ d'.connection = .steady

variable {d d' d'' : Document}

theorem SameContent.symm (h : SameContent d d') : SameContent d' d :=
  ⟨h.body.symm, h.footnotes.symm, h.marks.symm, h.bookmarks.symm, h.properties.symm⟩

theorem SameContent.trans (h : SameContent d d') (h' : SameContent d' d'') :
    SameContent d d'' :=
  ⟨h.body.trans h'.body, h.footnotes.trans h'.footnotes, h.marks.trans h'.marks,
    h.bookmarks.trans h'.bookmarks, h.properties.trans h'.properties⟩

theorem SameDocument.refl (d : Document) : SameDocument d d :=
  ⟨⟨rfl, rfl, rfl, rfl, rfl⟩, rfl, rfl, rfl, rfl, rfl, rfl, rfl, Iff.rfl⟩

theorem SameDocument.symm (h : SameDocument d d') : SameDocument d' d :=
  ⟨h.toSameContent.symm, h.title.symm, h.characterStyles.symm, h.paragraphStyles.symm,
    h.isRecording.symm, h.redlines.symm, h.lineWidth.symm, h.linesPerPage.symm, h.steady.symm⟩

theorem SameDocument.trans (h : SameDocument d d') (h' : SameDocument d' d'') :
    SameDocument d d'' :=
  ⟨h.toSameContent.trans h'.toSameContent, h.title.trans h'.title,
    h.characterStyles.trans h'.characterStyles, h.paragraphStyles.trans h'.paragraphStyles,
    h.isRecording.trans h'.isRecording, h.redlines.trans h'.redlines,
    h.lineWidth.trans h'.lineWidth, h.linesPerPage.trans h'.linesPerPage,
    h.steady.trans h'.steady⟩

/-- Spending the connection leaves the document the same. -/
theorem sameDocument_connection {d : Document} {c : Connection}
    (h : d.connection = .steady ↔ c = .steady) : SameDocument d { d with connection := c } :=
  ⟨⟨rfl, rfl, rfl, rfl, rfl⟩, rfl, rfl, rfl, rfl, rfl, rfl, rfl, h⟩

theorem SameDocument.cells? (h : SameDocument d d') (flow : Flow) :
    d.cells? flow = d'.cells? flow := by
  rcases flow with _ | _ | n
  · exact congrArg some h.body
  · rfl
  · exact congrArg (·[n]?) h.footnotes

/-! ## Steps of the session -/

/-- A range lies inside the text of a document. -/
def Document.Inside (d : Document) (r : TextRange) : Prop :=
  ∃ cells, d.cells? r.flow = some cells ∧ r.stop ≤ cells.length

/-- The cursor is in the text. -/
def Document.CursorInText (d : Document) : Prop := ∃ c, d.selection = .text c ∧ d.Inside c

/-- **A step of the session** leaves the document the same, and the cursor in the text. -/
structure SessionStep (d d' : Document) : Prop extends SameDocument d d' where
  cursor : d.CursorInText → d'.CursorInText

/-- The cursor stays in the text where it was. -/
theorem SameDocument.step (h : SameDocument d d') (hselection : d'.selection = d.selection) :
    SessionStep d d' where
  toSameDocument := h
  cursor := fun ⟨c, hc, cells, hcells, hstop⟩ =>
    ⟨c, hselection.trans hc, cells, h.cells? c.flow ▸ hcells, hstop⟩

/-- A document is the same after one more step of the session. -/
theorem SameDocument.trans_step (h : SameDocument d d') (hstep : SessionStep d' d'') :
    SameDocument d d'' := h.trans hstep.toSameDocument

/-! ## Changes of the text -/

/-- Content is compared flow by flow. -/
theorem SameContent.of_cells? (hcells : ∀ flow, d.cells? flow = d'.cells? flow)
    (hmarks : d.marks = d'.marks) (hbookmarks : d.bookmarks = d'.bookmarks)
    (hproperties : d.properties = d'.properties) : SameContent d d' :=
  ⟨(Document.text_eq_of_cells? hcells).1, (Document.text_eq_of_cells? hcells).2, hmarks,
    hbookmarks, hproperties⟩

/-- What a change of the text leaves alone stays the same. -/
theorem SameDocument.of_content {a b : Document} (h : SameDocument d d')
    (hcontent : SameContent a b)
    (ha : a = { d with
      body := a.body, footnotes := a.footnotes, marks := a.marks, bookmarks := a.bookmarks,
      properties := a.properties, selection := a.selection })
    (hb : b = { d' with
      body := b.body, footnotes := b.footnotes, marks := b.marks, bookmarks := b.bookmarks,
      properties := b.properties, selection := b.selection }) : SameDocument a b := by
  refine ⟨hcontent, ?_, ?_, ?_, ?_, ?_, ?_, ?_, ?_⟩ <;> rw [ha, hb]
  · exact h.title
  · exact h.characterStyles
  · exact h.paragraphStyles
  · exact h.isRecording
  · exact h.redlines
  · exact h.lineWidth
  · exact h.linesPerPage
  · exact h.steady

theorem SameDocument.replaceText (h : SameDocument d d') (r : TextRange) (new : String) :
    SameDocument (d.replaceText r new) (d'.replaceText r new) := by
  refine h.of_content (.of_cells? (fun flow => ?_) ?_ ?_ ?_)
    ((d.replaceText_eq r new).trans (by rw [Document.replaceText_eq]))
    ((d'.replaceText_eq r new).trans (by rw [Document.replaceText_eq]))
  · rw [Document.cells?_replaceText, Document.cells?_replaceText, h.cells?]
  · rw [Document.marks_replaceText, Document.marks_replaceText, h.marks]
  · rw [Document.bookmarks_replaceText, Document.bookmarks_replaceText, h.bookmarks]
  · rw [d.replaceText_eq, d'.replaceText_eq]
    exact h.properties

theorem SameDocument.modifyCells (h : SameDocument d d') (r : TextRange) (f : Cell → Cell) :
    SameDocument (d.modifyCells r f) (d'.modifyCells r f) := by
  refine h.of_content (.of_cells? (fun flow => ?_) ?_ ?_ ?_)
    ((d.modifyCells_eq r f).trans (by rw [Document.modifyCells_eq]))
    ((d'.modifyCells_eq r f).trans (by rw [Document.modifyCells_eq]))
  · rw [Document.cells?_modifyCells, Document.cells?_modifyCells, h.cells?]
  · rw [d.modifyCells_eq, d'.modifyCells_eq]
    exact h.marks
  · rw [d.modifyCells_eq, d'.modifyCells_eq]
    exact h.bookmarks
  · rw [d.modifyCells_eq, d'.modifyCells_eq]
    exact h.properties

theorem sameDocument_modifyCells_id (d : Document) (r : TextRange) :
    SameDocument d (d.modifyCells r id) := by
  refine (SameDocument.refl d).of_content (.of_cells? (fun flow => ?_) ?_ ?_ ?_) rfl
    (by rw [Document.modifyCells_eq])
  · rw [Document.cells?_modifyCells]
    split
    · cases d.cells? flow with
      | none => rfl
      | some cells => exact congrArg some (Cells.modify_id cells r.start_le_stop).symm
    · rfl
  · rw [Document.modifyCells_eq]
  · rw [Document.modifyCells_eq]
  · rw [Document.modifyCells_eq]

/-! ## Text that is typed and deleted again -/

section Probe

variable {r : TextRange} {new : String}

theorem TextRange.afterReplacing_startPoint (x : TextRange) (holder : RangeHolder)
    (r : TextRange) (new : List Char) :
    x.afterReplacing holder r.startPoint new =
      if x.flow = r.flow then x.afterTyping holder ⟨r.start, new.length, '\n' ∈ new⟩ else x := by
  simp only [afterReplacing, startPoint, start_collapsed, stop_collapsed, flow_collapsed,
    afterDeleting_self]

theorem TextRange.afterReplacing_nil (x : TextRange) (holder : RangeHolder) (r : TextRange) :
    x.afterReplacing holder r [] =
      if x.flow = r.flow then x.afterDeleting r.start r.stop else x := by
  simp only [afterReplacing, List.length_nil, afterTyping_zero]

/-- A range of any holder comes back. -/
theorem TextRange.afterReplacing_typedRange (x : TextRange) (holder : RangeHolder) :
    (x.afterReplacing holder r.startPoint new.toList).afterReplacing holder
      (Document.typedRange r.startPoint new) [] = x := by
  rw [afterReplacing_nil, afterReplacing_startPoint]
  by_cases h : x.flow = r.flow
  · have hle : r.start ≤ r.start + new.length := Nat.le_add_right _ _
    simp only [if_pos h, flow_afterTyping, Document.typedRange, startPoint,
      flow_collapsed, start_collapsed, new_of_le hle, String.length_toList]
    exact afterDeleting_afterTyping x holder ⟨r.start, new.length, _⟩
  · simp [h, Document.typedRange, startPoint]

/-- Text that was typed does not hold a whole bookmark. -/
theorem Document.not_isDeletedWith_typedRange (b : TextRange) :
    isDeletedWith (typedRange r.startPoint new)
      (b.afterReplacing .bookmark r.startPoint new.toList) = false := by
  have hle := b.start_le_stop
  rw [TextRange.afterReplacing_startPoint, Bool.eq_false_iff]
  intro hdeleted
  simp only [isDeletedWith, TextRange.contains, TextRange.sameFlow, typedRange,
    TextRange.startPoint, TextRange.start_collapsed, TextRange.flow_collapsed,
    TextRange.new_of_le (Nat.le_add_right _ _), Bool.and_eq_true, Bool.not_eq_true',
    beq_iff_eq, decide_eq_true_eq] at hdeleted
  by_cases h : b.flow = r.flow
  · rw [if_pos h] at hdeleted
    obtain ⟨hne, ⟨-, hstart⟩, hstop⟩ := hdeleted
    rw [Bool.eq_false_iff, ne_eq, TextRange.isEmpty_iff, TextRange.start_afterTyping,
      TextRange.stop_afterTyping] at hne
    rw [TextRange.start_afterTyping] at hstart
    rw [TextRange.stop_afterTyping] at hstop
    by_cases hempty : b.isEmpty = true
    · simp [TextRange.movesAtStart, TextRange.movesAtStop, hempty,
        TextRange.isEmpty_iff.mp hempty] at hne
    · have hlt : b.start < b.stop :=
        Nat.lt_of_le_of_ne hle fun heq => hempty (TextRange.isEmpty_iff.mpr heq)
      simp only [TextRange.placeAfterTyping, TextRange.movesAtStart, TextRange.movesAtStop,
        TextRange.takesInAtStop, hempty, String.length_toList] at hstart hstop
      split_ifs at hstart hstop <;> simp_all <;> omega
  · rw [if_neg h] at hdeleted
    exact h hdeleted.2.1.1.symm

/-- Text that replaced nothing, changed in place, leaves what was there when it is deleted. -/
theorem Document.typedOver_typedOver {cells : List Cell} {p : Nat} (hp : p ≤ cells.length)
    (flow : Flow) (new : List Char) (f : Cell → Cell) :
    typedOver
        (Cells.modify f (typedOver cells (.collapsed flow p) new) p (p + new.length))
        (.new flow p (p + new.length)) [] = cells := by
  have hlength : (cells.take p).length = p := List.length_take_of_le hp
  have htyped : typedOver cells (.collapsed flow p) new =
      cells.take p ++ Cells.typed (Cells.cut cells p p) p new ++ cells.drop p := rfl
  have hnew (cells : List Cell) : (Cells.typed cells p new).length = new.length := by
    simp [Cells.typed]
  rw [htyped, Cells.modify_append f hlength.symm (by rw [hlength, hnew]), typedOver_append []]
  · rw [Cells.typed, List.map_nil, List.append_nil, List.take_append_drop]
  · rw [hlength, TextRange.start_new, Nat.min_eq_left (Nat.le_add_right _ _)]
  · rw [hlength, TextRange.stop_new, Nat.max_eq_right (Nat.le_add_right _ _), List.length_map,
      hnew]

/-- **Typing text, changing it and deleting it again** leaves a document the same. -/
theorem sameDocument_typedRange (d : Document) {cells : List Cell}
    (hcells : d.cells? r.flow = some cells) (hstop : r.stop ≤ cells.length)
    (f : Cell → Cell) :
    SameDocument d
      (((d.replaceText r.startPoint new).modifyCells (Document.typedRange r.startPoint new) f
        ).replaceText (Document.typedRange r.startPoint new) "") := by
  refine (SameDocument.refl d).of_content (.of_cells? (fun flow => ?_) ?_ ?_ ?_) rfl ?_
  · rw [Document.cells?_replaceText, Document.cells?_modifyCells, Document.cells?_replaceText]
    have hflow : (Document.typedRange r.startPoint new).flow = r.flow := rfl
    rw [hflow, show r.startPoint.flow = r.flow from rfl]
    by_cases h : flow = r.flow
    · have hp : r.start ≤ cells.length := Nat.le_trans r.start_le_stop hstop
      have hle : r.start ≤ r.start + new.length := Nat.le_add_right _ _
      have hback := Document.typedOver_typedOver hp r.flow new.toList f
      rw [String.length_toList] at hback
      simp only [h, if_true, hcells, Option.map_some, Option.some.injEq]
      rw [Document.typedRange, TextRange.start_new, TextRange.stop_new,
        show r.startPoint.start = r.start from rfl, Nat.min_eq_left hle, Nat.max_eq_right hle]
      exact hback.symm
    · simp only [if_neg h]
  · rw [Document.marks_replaceText, Document.modifyCells_eq, Document.marks_replaceText,
      List.map_map]
    refine ((List.map_congr_left fun m _ => ?_).trans (List.map_id _)).symm
    exact Prod.ext rfl (TextRange.afterReplacing_typedRange m.2 RangeHolder.mark)
  · rw [Document.bookmarks_replaceText, Document.modifyCells_eq, Document.bookmarks_replaceText]
    have hfirst : d.bookmarks.filter (fun b => !Document.isDeletedWith r.startPoint b.2) =
        d.bookmarks := by
      refine List.filter_eq_self.mpr fun b _ => ?_
      rw [Document.isDeletedWith_of_isEmpty (TextRange.isEmpty_iff.mpr rfl)]
      rfl
    rw [hfirst, List.filter_eq_self.mpr, List.map_map]
    · refine ((List.map_congr_left fun b _ => ?_).trans (List.map_id _)).symm
      exact Prod.ext rfl (TextRange.afterReplacing_typedRange b.2 RangeHolder.bookmark)
    · intro b hb
      obtain ⟨b', -, rfl⟩ := List.mem_map.mp hb
      rw [Document.not_isDeletedWith_typedRange]
      rfl
  · rw [Document.replaceText_eq, Document.modifyCells_eq, Document.replaceText_eq]
  · rw [Document.replaceText_eq, Document.modifyCells_eq, Document.replaceText_eq]

end Probe

end DocCite
