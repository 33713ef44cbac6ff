import DocCite.Proofs.Document.Cursor
import DocCite.Proofs.Document.Evaluating
import DocCite.Proofs.Document.Operations

/-!
# The probe of a character style cannot be seen

Whether a character style is defined is found out by typing a character and giving it the style.
When the character is deleted again, the whole document is as it was, with the selection
(`replaceText_typedRange_eq`): each range comes back whatever typing did to it, and no bookmark is
lost, for none lies in a text that was typed in one go. So over a connection that lasts the check
does nothing but tell whether the style is there (`run_checkCharacterStyle`).
-/

namespace DocCite

/-- The connection after so many operations, if they all get through. -/
def Connection.after? (c : Connection) : Nat → Option Connection
  | 0 => some c
  | n + 1 => c.spend?.bind fun rest => rest.after? n

variable {d : Document} {r : TextRange} {new : String}

/-- The selection comes back when the text that was typed is deleted. -/
theorem Selection.afterReplacing_typedRange (s : Selection) :
    (s.afterReplacing r.startPoint new.toList).afterReplacing
      (Document.typedRange r.startPoint new) [] = s := by
  cases s with
  | text c => exact congrArg Selection.text (TextRange.afterReplacing_typedRange c .selection)
  | comment => rfl
  | nothing => rfl

namespace Document

/-- **A text that is typed, changed and deleted again** leaves the whole document as it was. -/
theorem replaceText_typedRange_eq (hr : d.Inside r) (new : String) (f : Cell → Cell) :
    ((d.replaceText r.startPoint new).modifyCells (typedRange r.startPoint new) f).replaceText
      (typedRange r.startPoint new) "" = d := by
  obtain ⟨cells, hcells, hstop⟩ := hr
  have hsame : SameDocument d (((d.replaceText r.startPoint new).modifyCells
      (typedRange r.startPoint new) f).replaceText (typedRange r.startPoint new) "") :=
    sameDocument_typedRange d hcells hstop f
  have hselection : (((d.replaceText r.startPoint new).modifyCells
      (typedRange r.startPoint new) f).replaceText (typedRange r.startPoint new) "").selection =
        d.selection := by
    rw [selection_replaceText, modifyCells_eq, selection_replaceText]
    exact Selection.afterReplacing_typedRange d.selection
  -- nothing but the text, the ranges and the selection was ever touched
  rw [replaceText_eq, ← hsame.body, ← hsame.footnotes, ← hsame.marks, ← hsame.bookmarks,
    hselection, modifyCells_eq, replaceText_eq]

/-- A text that was typed lies inside the document. -/
theorem inside_typedRange (hr : d.Inside r) (new : String) :
    (d.replaceText r.startPoint new).Inside (typedRange r.startPoint new) := by
  obtain ⟨cells, hcells, hstop⟩ := hr
  have hle := r.start_le_stop
  have hpoint : r.startPoint.stop ≤ cells.length := Nat.le_trans hle hstop
  have hlength := length_typedOver new.toList hpoint
  refine ⟨typedOver cells r.startPoint new.toList, ?_, ?_⟩
  · refine (cells?_replaceText d r.startPoint new r.flow).trans ?_
    rw [if_pos (show r.flow = r.startPoint.flow from rfl), hcells]
    rfl
  · simp only [TextRange.length, TextRange.startPoint, TextRange.start_collapsed,
      TextRange.stop_collapsed, String.length_toList] at hlength
    simp only [typedRange, TextRange.startPoint, TextRange.start_collapsed,
      TextRange.flow_collapsed, TextRange.stop_new]
    omega

/-- Characters that stay as they are make no change. -/
theorem modifyCells_id (d : Document) (r : TextRange) : d.modifyCells r id = d := by
  have hcells (cells : List Cell) : Cells.modify id cells r.start r.stop = cells :=
    Cells.modify_id cells r.start_le_stop
  obtain ⟨flow, start, stop, h⟩ := r
  rcases flow with _ | _ | n
  · simp only [modifyCells, editCells, hcells]
  · rfl
  · simp only [modifyCells, editCells, hcells]
    exact congrArg (fun notes => { d with footnotes := notes }) (List.modify_id n d.footnotes)

/-! ## Another connection -/

/-- The same document over another connection. -/
def withConnection (d : Document) (c : Connection) : Document := { d with connection := c }

@[simp] theorem connection_withConnection (d : Document) (c : Connection) :
    (d.withConnection c).connection = c := rfl

@[simp] theorem withConnection_withConnection (d : Document) (c c' : Connection) :
    (d.withConnection c).withConnection c' = d.withConnection c' := rfl

@[simp] theorem characterStyles_withConnection (d : Document) (c : Connection) :
    (d.withConnection c).characterStyles = d.characterStyles := rfl

theorem Inside.withConnection (h : d.Inside r) (c : Connection) : (d.withConnection c).Inside r :=
  h.of_cells? fun flow => by rcases flow with _ | _ | n <;> rfl

/-- What becomes of the text does not depend on the connection. -/
@[simp] theorem replaceText_withConnection (d : Document) (c : Connection) (r : TextRange)
    (new : String) :
    (d.withConnection c).replaceText r new = (d.replaceText r new).withConnection c := by
  obtain ⟨flow, start, stop, h⟩ := r
  unfold replaceText type spliceCells delete
  rcases flow with _ | _ | n <;> split <;> rfl

@[simp] theorem modifyCells_withConnection (d : Document) (c : Connection) (r : TextRange)
    (f : Cell → Cell) :
    (d.withConnection c).modifyCells r f = (d.modifyCells r f).withConnection c := by
  obtain ⟨flow, start, stop, h⟩ := r
  rcases flow with _ | _ | n <;> rfl

@[simp] theorem characterStyles_replaceText (d : Document) (r : TextRange) (new : String) :
    (d.replaceText r new).characterStyles = d.characterStyles := by rw [replaceText_eq]

end Document

namespace DocumentM

variable {α : Type} {c : Connection}

/-! ## Calls that get through, and calls that do not -/

/-- A call that gets through does what it says. -/
theorem run_call_of_spend (f : Document → Except DocumentError (α × Document))
    (h : d.connection.spend? = some c) :
    (call f).run d =
      match f (d.withConnection c) with
      | .ok (a, next) => (.ok a, next)
      | .error e => (.error e, d.withConnection c) := by
  simp only [call, ExceptT.run, h]
  rfl

/-- A call that does not get through fails, and the connection is lost. -/
theorem run_call_of_broken (f : Document → Except DocumentError (α × Document))
    (h : d.connection.spend? = none) :
    (call f).run d = (.error .connectionLost, d.withConnection .lost) := by
  simp only [call, ExceptT.run, h]
  rfl

theorem cellsAround_withConnection (hr : d.Inside r) (c : Connection) :
    ∃ cells, (d.withConnection c).cellsAround r = .ok cells := by
  obtain ⟨cells, hcells, hstop⟩ := hr.withConnection c
  exact ⟨cells, Document.cellsAround_of_le hcells hstop⟩

/-- **A replacement** does what it says to the text. -/
theorem run_replace (hr : d.Inside r) (new : String) (h : d.connection.spend? = some c) :
    (replace r new).run d =
      (.ok (Document.typedRange r new), (d.replaceText r new).withConnection c) := by
  obtain ⟨cells, hcells⟩ := cellsAround_withConnection hr c
  rw [replace, run_call_of_spend _ h, hcells]
  simp only [bind, Except.bind, pure, Except.pure, Document.replaceText_withConnection]

/-- **A character style** is set where it is defined; else the text stays as it is. -/
theorem run_setCharacterStyle (hr : d.Inside r) (style : String)
    (h : d.connection.spend? = some c) :
    (setCharacterStyle r style).run d =
      (if style ∈ d.characterStyles then .ok () else .error (.undefinedCharacterFormat style),
        (d.modifyCells r
          (if style ∈ d.characterStyles then Cell.withCharacterStyle style else id)
          ).withConnection c) := by
  obtain ⟨cells, hcells⟩ := cellsAround_withConnection hr c
  rw [setCharacterStyle, run_call_of_spend _ h, hcells]
  by_cases hstyle : style ∈ d.characterStyles
  · simp [hstyle, bind, Except.bind, pure, Except.pure]
  · simp [hstyle, Document.modifyCells_id, bind, Except.bind, throw, throwThe,
      MonadExceptOf.throw]

/-! ## The probe -/

/-- The check, over a connection that lasts for its three operations. -/
theorem run_checkCharacterStyle_of_lasting {place : TextRange} (hplace : d.Inside place)
    (style : String) (h : d.connection.after? 3 = some c) :
    (checkCharacterStyle place style).run d =
      (if style ∈ d.characterStyles then .ok () else .error (.undefinedCharacterFormat style),
        d.withConnection c) := by
  simp only [Connection.after?, Option.bind_eq_some_iff, Option.some.injEq] at h
  obtain ⟨first, hfirst, second, hsecond, third, hthird, rfl⟩ := h
  -- the probe stands in the text until it is deleted, with the style or without
  have htyped := (Document.inside_typedRange hplace "x").withConnection first
  have htried (f : Cell → Cell) := (htyped.modifyCells
    (Document.typedRange place.startPoint "x") f).withConnection second
  rw [checkCharacterStyle, run_bind, run_replace hplace.startPoint "x" hfirst]
  dsimp only
  rw [run_bind, run_attempt, run_setCharacterStyle htyped style hsecond]
  dsimp only
  rw [run_bind, run_replace (htried _) "" hthird]
  dsimp only
  rw [run_liftExcept]
  simp only [Document.modifyCells_withConnection, Document.replaceText_withConnection,
    Document.withConnection_withConnection, Document.characterStyles_withConnection,
    Document.characterStyles_replaceText, Document.replaceText_typedRange_eq hplace]

/-- The check, over a connection that breaks before its three operations are done. -/
theorem run_checkCharacterStyle_of_broken {place : TextRange} (hplace : d.Inside place)
    (style : String) (h : d.connection.after? 3 = none) :
    ((checkCharacterStyle place style).run d).1 = .error .connectionLost := by
  rw [checkCharacterStyle, run_bind]
  cases hfirst : d.connection.spend? with
  | none => rw [replace, run_call_of_broken _ hfirst]
  | some first =>
    have htyped := (Document.inside_typedRange hplace "x").withConnection first
    rw [run_replace hplace.startPoint "x" hfirst]
    dsimp only
    rw [run_bind, run_attempt]
    cases hsecond : first.spend? with
    | none =>
      -- the style is not tried, and the probe cannot be deleted either
      rw [setCharacterStyle, run_call_of_broken _ hsecond]
      dsimp only
      rw [run_bind, replace, run_call_of_broken _ rfl]
    | some second =>
      have hthird : second.spend? = none := by
        simpa [Connection.after?, hfirst, hsecond] using h
      rw [run_setCharacterStyle htyped style hsecond]
      dsimp only
      rw [run_bind, replace, run_call_of_broken _ hthird]

/-- **The probe of a character style cannot be seen.** Over a connection that lasts for its three
operations it leaves the whole document as it was, and fails exactly if the style is not defined;
over any other it fails because the connection is lost. -/
theorem run_checkCharacterStyle {place : TextRange} (hplace : d.Inside place) (style : String) :
    (∀ c, d.connection.after? 3 = some c →
        (checkCharacterStyle place style).run d =
          (if style ∈ d.characterStyles then .ok () else .error (.undefinedCharacterFormat style),
            { d with connection := c })) ∧
      (d.connection.after? 3 = none →
        ((checkCharacterStyle place style).run d).1 = .error .connectionLost) := by
  exact ⟨fun c h => run_checkCharacterStyle_of_lasting hplace style h,
    fun h => run_checkCharacterStyle_of_broken hplace style h⟩

/-- Text with a mark that ends where the probe is typed and one that begins there, empty ranges of
either kind at the place, and the cursor there too. -/
def probedPaper : Document :=
  { Document.ofPlain "Oaks grow." [] [("oaks", .inBody 0 4), ("none", .collapsed .body 4),
      ("grow", .inBody 4 9)] with
    bookmarks := [("between", .collapsed .body 4), ("first", .inBody 0 4)]
    selection := .text (.collapsed .body 4) }

/-- Neither a style that is there nor one that is not leaves a trace. -/
theorem run_checkCharacterStyle_probedPaper :
    probedPaper.Inside (.inBody 4 6) ∧
      (checkCharacterStyle (.inBody 4 6) "Standard").run probedPaper = (.ok (), probedPaper) ∧
      (checkCharacterStyle (.inBody 4 6) "Missing").run probedPaper =
        (.error (.undefinedCharacterFormat "Missing"), probedPaper) := by
  have hplace : probedPaper.Inside (.inBody 4 6) := by decide +kernel
  have hlasting : probedPaper.connection.after? 3 = some .steady := rfl
  exact ⟨hplace, (run_checkCharacterStyle hplace "Standard").1 _ hlasting,
    (run_checkCharacterStyle hplace "Missing").1 _ hlasting⟩

end DocumentM

end DocCite
