import DocCite.Proofs.Document.Checks

/-!
# The cursor in the text

While text is written the cursor moves along and stays in the text (`allowsMarking_cursor`). Reading
citations in their order brings it there, so that it is in the text after a refresh of a document
that has any.
-/

namespace DocCite

/-- The selection after the text under a range was replaced. -/
def Selection.afterReplacing (s : Selection) (r : TextRange) (new : List Char) : Selection :=
  match s with
  | .text c => .text (c.afterReplacing .selection r new)
  | other => other

namespace Document

/-- **The selection after a replacement.** -/
theorem selection_replaceText (d : Document) (r : TextRange) (new : String) :
    (d.replaceText r new).selection = d.selection.afterReplacing r new.toList := by
  have hdelete : (d.delete r).selection =
      match d.selection with
      | .text c => .text (if c.flow = r.flow then c.afterDeleting r.start r.stop else c)
      | other => other := by
    unfold delete
    by_cases hempty : r.isEmpty = true
    · rw [if_pos hempty, TextRange.isEmpty_iff.mp hempty]
      cases d.selection with
      | text c => simp only [TextRange.afterDeleting_self, ite_self]
      | comment => rfl
      | nothing => rfl
    · rw [if_neg hempty, editCells_eq]
      rfl
  unfold replaceText type spliceCells
  rw [any_typed]
  unfold relocate
  rw [editCells_eq]
  simp only [hdelete, Cells.typed, List.length_map]
  cases d.selection with
  | text c =>
    simp only [Selection.afterReplacing, TextRange.afterReplacing]
    by_cases hflow : c.flow = r.flow
    · simp only [if_pos hflow, TextRange.flow_afterDeleting]
    · simp only [if_neg hflow]
  | comment => rfl
  | nothing => rfl

end Document

namespace DocumentM

/-- The contract that the cursor is in the text. -/
def cursorInText : Contract where
  Holds := Document.CursorInText
  Fails _ _ := True
  holds_of_step h := h.cursor
  fails_of_same _ _ := trivial
  fails_of_internal _ _ := trivial

/-- **Writing leaves the cursor in the text.** -/
theorem allowsMarking_cursorInText : cursorInText.AllowsMarking where
  replaceText := by
    rintro d r cells new hflow hstop ⟨c, hselection, hinside⟩
    refine ⟨c.afterReplacing .selection r new.toList, ?_,
      hinside.replaceText new .selection hflow hstop⟩
    rw [Document.selection_replaceText, hselection]
    rfl
  modifyCells := by
    rintro d r f ⟨c, hselection, hinside⟩
    refine ⟨c, ?_, hinside.modifyCells r f⟩
    rw [d.modifyCells_eq]
    exact hselection
  putBookmark _ _ _ hd := hd
  eraseBookmark _ hd := hd
  setProperties _ hd := hd
  putMark _ _ _ hd := hd
  eraseMark _ hd := hd

variable {α : Type} {d d' : Document} {databases : List Database} {style : Style}
  {preferences : Preferences}

/-- **Reading brings the cursor into the text**, if there is anything to be read. -/
theorem triple_readingOrder_cursor (items : List (TextRange × α)) :
    Triple (fun _ => True) (readingOrder items) (fun _ d => items ≠ [] → d.CursorInText)
      fun _ _ => True := by
  unfold readingOrder
  split
  · next hempty => exact Triple.pure fun _ _ hne => absurd (List.isEmpty_iff.mp hempty) hne
  · refine Triple.bind (Q := fun _ _ => True) .trivial fun saved => Triple.closing
      (Q := fun _ _ => True) .trivial (fun _ => ?_) fun _ _ _ => trivial
    refine Triple.call (fun _ _ _ _ => trivial) (fun d _ => ?_) fun _ _ _ => trivial
    obtain ⟨cells, hcells, hstop, haround⟩ | ⟨reason, haround⟩ := d.cellsAround_eq_ok_or saved
    · rw [haround]
      exact fun _ => ⟨saved, rfl, cells, hcells, hstop⟩
    · rw [haround]
      trivial

theorem keeps_cursorInText_checkMarkerStyle (ranges : List (TextRange × String)) (style : Style) :
    Keeps cursorInText (checkMarkerStyle ranges style) := by
  have hC := allowsMarking_cursorInText.toAllowsWriting
  have hcheck (place : TextRange) (name : String) :
      Keeps cursorInText (checkCharacterStyle place name) := by
    refine (keeps_replace hC _ _).bind fun probe => ?_
    refine Triple.bind (Triple.attempt (keeps_setCharacterStyle hC probe fun _ _ _ => trivial))
      fun outcome => ?_
    cases outcome with
    | ok u => exact (keeps_replace hC _ _).bind fun _ => .pure _
    | error e => exact Triple.bind (Q := fun _ _ => True) .trivial fun _ => Triple.throw fun _ _ =>
        trivial
  unfold checkMarkerStyle
  split
  · split
    · exact hcheck _ _
    · exact .pure _
  · exact .pure _

end DocumentM

end DocCite
