import DocCite.Proofs.Document.Cursor
import DocCite.Proofs.Document.Sound

/-!
# Positions in a document

The ranges that a document keeps lie inside its text, whatever is done to it. Each call keeps the
contracts that calls cannot break (`DocumentCall.keeps_run`): it leaves a document orderly
(`DocumentCall.orderly_after`) and sound (`DocumentCall.sound_after`), and so does every run of
calls from a new document on (`Document.orderly_reached`, `Document.sound_reached`). Over a
connection that lasts a call that fails changes nothing (`DocumentCall.atomic_run`), and one that
replaces text does nothing else (`Replaces`). Together these make every document that can be reached
reliable (`Document.reliable_reached`).
-/

namespace DocCite

/-! ## Replacing text -/

namespace Document

variable {d : Document} {x r : TextRange}

/-- The characters under a range, with all they carry. -/
def cellsUnder? (d : Document) (r : TextRange) : Option (List Cell) :=
  (d.cells? r.flow).map fun cells => Cells.slice cells r.start r.stop

/-- What is replaced stands between what is before it and what is behind it. -/
theorem exists_append_of_inside (hr : d.Inside r) (new : String) :
    ∃ before under behind typed, before.length = r.start ∧ (before ++ under).length = r.stop ∧
      Cells.chars typed = new.toList ∧ d.cells? r.flow = some (before ++ under ++ behind) ∧
        (d.replaceText r new).cells? r.flow = some (before ++ typed ++ behind) := by
  obtain ⟨cells, hcells, hstop⟩ := hr
  have hle := r.start_le_stop
  have hwhole := Cells.modify_id cells hle
  rw [Cells.modify, List.map_id] at hwhole
  refine ⟨cells.take r.start, Cells.slice cells r.start r.stop, cells.drop r.stop,
    Cells.typed (Cells.cut cells r.start r.stop) r.start new.toList, ?_, ?_, ?_, ?_, ?_⟩
  · exact List.length_take_of_le (Nat.le_trans hle hstop)
  · rw [Cells.slice, List.length_append, List.length_drop, List.length_take_of_le hstop,
      List.length_take_of_le (Nat.le_trans hle hstop), Nat.add_sub_cancel' hle]
  · rw [Cells.chars, Cells.typed, List.map_map]
    exact List.map_id _
  · rw [hwhole, hcells]
  · rw [cells?_replaceText, if_pos rfl, hcells]
    rfl

/-- **A mark before replaced text or behind it** covers the same characters as before. -/
theorem cellsUnder?_replaceText (hr : d.Inside r) (new : String)
    (hapart : x.flow = r.flow → x.stop < r.start ∨ r.stop ≤ x.start) :
    (d.replaceText r new).cellsUnder? (x.afterReplacing .mark r new.toList) = d.cellsUnder? x := by
  by_cases hflow : x.flow = r.flow
  · obtain ⟨cells, hcells, hstop⟩ := hr
    have hx := x.start_le_stop
    have hle := r.start_le_stop
    rw [cellsUnder?, cellsUnder?, TextRange.flow_afterReplacing, cells?_replaceText, if_pos hflow,
      hflow, hcells, Option.map_some, Option.map_some, Option.map_some, Option.some.injEq,
      Cells.slice, Cells.slice, typedOver]
    rcases hapart hflow with hbefore | hbehind
    · rw [TextRange.afterReplacing_before hflow (Nat.le_of_lt hbefore) (by omega),
        drop_take_replaced_before (by omega) (Nat.le_of_lt hbefore)]
    · obtain ⟨hi, hj⟩ := TextRange.ends_afterReplacing_behind hflow hbehind new.toList
      have htyped : (Cells.typed (Cells.cut cells r.start r.stop) r.start new.toList).length =
          new.toList.length := List.length_map _
      rw [hi, hj, ← htyped, drop_take_replaced_behind (by omega) hbehind (by omega)]
  · have hsame : x.afterReplacing .mark r new.toList = x := if_neg hflow
    rw [hsame, cellsUnder?, cells?_replaceText, if_neg hflow, cellsUnder?]

end Document

/-- **What replacing the text under a range does to a document.** -/
structure Replaces (d : Document) (r : TextRange) (new : String) (written : TextRange)
    (d' : Document) : Prop where
  written_eq : written = .new r.flow r.start (r.start + new.length)
  text : ∃ before under behind typed, before.length = r.start ∧
    (before ++ under).length = r.stop ∧ Cells.chars typed = new.toList ∧
      d.cells? r.flow = some (before ++ under ++ behind) ∧
        d'.cells? r.flow = some (before ++ typed ++ behind)
  others : ∀ flow, flow ≠ r.flow → d'.cells? flow = d.cells? flow
  marks : ∀ name x, d.marks.get? name = some x →
    (x.flow = r.flow → x.stop < r.start ∨ r.stop ≤ x.start) →
      ∃ x', d'.marks.get? name = some x' ∧ x'.flow = x.flow ∧ d'.cellsUnder? x' = d.cellsUnder? x
  bookmarks : ∀ name x, d.bookmarks.get? name = some x →
    (d'.bookmarks.get? name = none ↔ x.isEmpty = false ∧ r.contains x = true)

theorem Document.WellFormed.replaces {d : Document} (hd : d.WellFormed) {r : TextRange}
    (hr : d.Inside r) (new : String) :
    Replaces d r new (Document.typedRange r new) (d.replaceText r new) where
  written_eq := rfl
  text := Document.exists_append_of_inside hr new
  others flow hflow := by rw [Document.cells?_replaceText, if_neg hflow]
  marks := by
    intro name x hx hapart
    refine ⟨x.afterReplacing .mark r new.toList, ?_, TextRange.flow_afterReplacing _ _ _ _,
      Document.cellsUnder?_replaceText hr new hapart⟩
    rw [Document.marks_replaceText, Keyed.get?_map _ fun y : TextRange =>
      y.afterReplacing .mark r new.toList, hx]
    rfl
  bookmarks := by
    intro name x hx
    have hdeleted : Document.isDeletedWith r x = true ↔ x.isEmpty = false ∧ r.contains x = true := by
      rw [Document.isDeletedWith, Bool.and_eq_true, Bool.not_eq_true']
    rw [← hdeleted, Document.bookmarks_replaceText, Keyed.get?_map _ fun y : TextRange =>
      y.afterReplacing .bookmark r new.toList, Option.map_eq_none_iff]
    cases hgone : Document.isDeletedWith r x with
    | true =>
      refine iff_of_true (Keyed.get?_filter_eq_none hd.bookmarks_nodup hx ?_) rfl
      rw [hgone]
      rfl
    | false =>
      have hkept : Keyed.get? (d.bookmarks.filter fun b => !Document.isDeletedWith r b.2) name =
          some x := by
        rw [← hx]
        refine Keyed.get?_filter fun y hy => ?_
        rw [hx, Option.some.injEq] at hy
        rw [← hy, hgone]
        rfl
      rw [hkept]
      exact iff_of_false (Option.some_ne_none x) Bool.false_ne_true

/-! ## Calls -/

/-- The calls of a document: those that go over its connection, and those that build it up. -/
inductive DocumentCall
  | title
  | flowLength (flow : Flow)
  | text (r : TextRange)
  | replace (r : TextRange) (new : String)
  | applyFormat (r : TextRange) (format : TextFormat)
  | clearFormat (r : TextRange)
  | setCharacterStyle (r : TextRange) (style : String)
  | hasParagraphStyle (style : String)
  | setParagraphStyle (r : TextRange) (style : String)
  | insertPageField (r : TextRange) (mark : String)
  | markNames
  | markRange? (name : String)
  | createMark (name : String) (r : TextRange)
  | removeMark (name : String)
  | bookmarkRange? (name : String)
  | createBookmark (name : String) (r : TextRange)
  | removeBookmark (name : String)
  | propertyNames
  | property? (name : String)
  | setProperty (name value : String)
  | removeProperty (name : String)
  | footnoteAnchor? (footnote : Nat)
  | footnoteAnchors
  | viewCursor?
  | setViewCursor (r : TextRange)
  | restoreSelection
  | viewPosition (r : TextRange)
  | enterUndo (label : String)
  | leaveUndo
  | lockScreen
  | unlockScreen
  | isLocked
  | isRecording
  | redlineCount
  | append (new : String)
  | addFootnote (place : Nat) (new : String)

namespace DocumentCall

/-- What a call gives. -/
abbrev Answer : DocumentCall → Type
  | title | text _ => String
  | flowLength _ | redlineCount | addFootnote .. => Nat
  | replace .. | insertPageField .. => TextRange
  | hasParagraphStyle _ | restoreSelection | isLocked | isRecording => Bool
  | markNames | propertyNames => List String
  | markRange? _ | bookmarkRange? _ | footnoteAnchor? _ | viewCursor? => Option TextRange
  | footnoteAnchors => List TextRange
  | property? _ => Option String
  | viewPosition _ => ScreenPoint
  | _ => Unit

/-- What a call does. The number of a new footnote is the next one. -/
def run : (call : DocumentCall) → DocumentM call.Answer
  | title => DocumentM.title
  | flowLength flow => DocumentM.flowLength flow
  | text r => DocumentM.text r
  | replace r new => DocumentM.replace r new
  | applyFormat r format => DocumentM.applyFormat r format
  | clearFormat r => DocumentM.clearFormat r
  | setCharacterStyle r style => DocumentM.setCharacterStyle r style
  | hasParagraphStyle style => DocumentM.hasParagraphStyle style
  | setParagraphStyle r style => DocumentM.setParagraphStyle r style
  | insertPageField r mark => DocumentM.insertPageField r mark
  | markNames => DocumentM.markNames
  | markRange? name => DocumentM.markRange? name
  | createMark name r => DocumentM.createMark name r
  | removeMark name => DocumentM.removeMark name
  | bookmarkRange? name => DocumentM.bookmarkRange? name
  | createBookmark name r => DocumentM.createBookmark name r
  | removeBookmark name => DocumentM.removeBookmark name
  | propertyNames => DocumentM.propertyNames
  | property? name => DocumentM.property? name
  | setProperty name value => DocumentM.setProperty name value
  | removeProperty name => DocumentM.removeProperty name
  | footnoteAnchor? footnote => DocumentM.footnoteAnchor? footnote
  | footnoteAnchors => DocumentM.footnoteAnchors
  | viewCursor? => DocumentM.viewCursor?
  | setViewCursor r => DocumentM.setViewCursor r
  | restoreSelection => DocumentM.restoreSelection
  | viewPosition r => DocumentM.viewPosition r
  | enterUndo label => DocumentM.enterUndo label
  | leaveUndo => DocumentM.leaveUndo
  | lockScreen => DocumentM.lockScreen
  | unlockScreen => DocumentM.unlockScreen
  | isLocked => DocumentM.isLocked
  | isRecording => DocumentM.isRecording
  | redlineCount => DocumentM.redlineCount
  | append new => fun d => (.ok (), d.append new)
  | addFootnote place new => fun d => (.ok (d.footnotes.length + 1), d.addFootnote place new)

/-- The document after a call. -/
def after (d : Document) (call : DocumentCall) : Document := (call.run.run d).2

end DocumentCall

/-- **The document that calls make of a new one.** -/
def Document.reached (title : String) (calls : List DocumentCall) : Document :=
  calls.foldl DocumentCall.after { title }

namespace DocumentM

variable {α : Type}

/-- **An action is atomic** if it changes nothing when it fails over a connection that lasts. -/
def Atomic (x : DocumentM α) : Prop :=
  ∀ d e d', d.connection = .steady → x.run d = (.error e, d') → d' = d

theorem Atomic.call (f : Document → Except DocumentError (α × Document)) :
    Atomic (DocumentM.call f) := by
  intro d e d' hd hrun
  rw [run_call_of_steady f hd] at hrun
  cases hf : f d with
  | ok r =>
    rw [hf] at hrun
    cases hrun
  | error e' =>
    rw [hf] at hrun
    cases hrun
    rfl

theorem Atomic.look (f : Document → Except DocumentError α) : Atomic (DocumentM.look f) := .call _

theorem Atomic.see (f : Document → α) : Atomic (DocumentM.see f) := .look _

theorem Atomic.change (f : Document → Document) : Atomic (DocumentM.change f) := .call _

theorem Atomic.modifyCells (r : TextRange) (f : Cell → Cell) :
    Atomic (DocumentM.modifyCells r f) := .call _

theorem Atomic.of_ok {x : DocumentM α} (h : ∀ d, ∃ a d', x.run d = (.ok a, d')) : Atomic x := by
  intro d e d' _ hrun
  obtain ⟨a, d'', hok⟩ := h d
  rw [hok] at hrun
  cases hrun

end DocumentM

/-- Contracts that no call of a document can break. Characters may lose their letter to others that
anchor no footnote. -/
structure Contract.AllowsCalls (C : Contract) : Prop where
  fails : ∀ {e : DocumentError} {d : Document}, C.Holds d → C.Fails e d
  replaceText : ∀ {d : Document} {r : TextRange} (new : String), d.Inside r → C.Holds d →
    C.Holds (d.replaceText r new)
  modifyCells : ∀ {d : Document} (r : TextRange) {f : Cell → Cell},
    (∀ c, (f c).letter = c.letter ∨ (f c).letter.footnote = none) → C.Holds d →
      C.Holds (d.modifyCells r f)
  putMark : ∀ {d : Document} {r : TextRange} {name : String}, d.Inside r →
    d.marks.get? name = none → C.Holds d → C.Holds { d with marks := d.marks.put name r }
  eraseMark : ∀ {d : Document} (name : String), C.Holds d →
    C.Holds { d with marks := d.marks.erase name }
  putBookmark : ∀ {d : Document} {r : TextRange} (name : String), d.Inside r → C.Holds d →
    C.Holds { d with bookmarks := d.bookmarks.put name r }
  eraseBookmark : ∀ {d : Document} (name : String), C.Holds d →
    C.Holds { d with bookmarks := d.bookmarks.erase name }
  setProperties : ∀ {d : Document} (properties : Keyed String String), C.Holds d →
    C.Holds { d with properties := properties }
  addFootnote : ∀ {d : Document} (place : Nat) (text : String), C.Holds d →
    C.Holds (d.addFootnote place text)

/-- Calls cannot break what marking cannot, unless adding a footnote does. -/
theorem Contract.AllowsMarking.allowsCalls {C : Contract} (hC : C.AllowsMarking)
    (hfails : ∀ {e : DocumentError} {d : Document}, C.Holds d → C.Fails e d)
    (hfootnote : ∀ {d : Document} (place : Nat) (text : String), C.Holds d →
      C.Holds (d.addFootnote place text)) : C.AllowsCalls where
  fails := hfails
  replaceText new hr hd := by
    obtain ⟨cells, hcells, hstop⟩ := hr
    exact hC.replaceText new hcells hstop hd
  modifyCells r f _ hd := hC.modifyCells r f hd
  putMark hr hname hd := by
    obtain ⟨cells, hcells, hstop⟩ := hr
    exact hC.putMark hcells hstop hname hd
  eraseMark := hC.eraseMark
  putBookmark name hr hd := by
    obtain ⟨cells, hcells, hstop⟩ := hr
    exact hC.putBookmark name hcells hstop hd
  eraseBookmark := hC.eraseBookmark
  setProperties := hC.setProperties
  addFootnote := hfootnote

/-- **A document is orderly** when the ranges of its marks and bookmarks and its selection lie inside
its text, no name is used twice, and its connection cannot break. -/
structure Document.Orderly (d : Document) : Prop extends d.WellFormed where
  cursor : d.CursorInText
  steady : d.connection = .steady

namespace DocumentM

/-- The contract that a document stays orderly. -/
def orderly : Contract where
  Holds := Document.Orderly
  Fails _ _ := True
  holds_of_step h hd :=
    ⟨hd.toWellFormed.of_same h.toSameDocument, h.cursor hd.cursor, h.steady.mp hd.steady⟩
  fails_of_same _ _ := trivial
  fails_of_internal _ _ := trivial

theorem allowsMarking_orderly : orderly.AllowsMarking where
  replaceText {d r _} new hflow hstop hd :=
    ⟨allowsMarking_wellFormed.replaceText new hflow hstop hd.toWellFormed,
      allowsMarking_cursorInText.replaceText new hflow hstop hd.cursor,
      (congrArg Document.connection (d.replaceText_eq r new)).trans hd.steady⟩
  modifyCells {d} r f hd :=
    ⟨allowsMarking_wellFormed.modifyCells r f hd.toWellFormed,
      allowsMarking_cursorInText.modifyCells r f hd.cursor,
      (congrArg Document.connection (d.modifyCells_eq r f)).trans hd.steady⟩
  putBookmark name hflow hstop hd :=
    ⟨allowsMarking_wellFormed.putBookmark name hflow hstop hd.toWellFormed, hd.cursor, hd.steady⟩
  eraseBookmark name hd :=
    ⟨allowsMarking_wellFormed.eraseBookmark name hd.toWellFormed, hd.cursor, hd.steady⟩
  setProperties properties hd :=
    ⟨allowsMarking_wellFormed.setProperties properties hd.toWellFormed, hd.cursor, hd.steady⟩
  putMark hflow hstop hname hd :=
    ⟨allowsMarking_wellFormed.putMark hflow hstop hname hd.toWellFormed, hd.cursor, hd.steady⟩
  eraseMark name hd :=
    ⟨allowsMarking_wellFormed.eraseMark name hd.toWellFormed, hd.cursor, hd.steady⟩

end DocumentM

namespace Document

variable {d : Document}

/-- Typing at the end of the body is replacing what is there. -/
theorem append_eq (d : Document) (text : String) :
    d.append text = d.replaceText (.collapsed .body d.body.length) text := by
  have hdelete : d.delete (.collapsed .body d.body.length) = d := by
    simp [delete, TextRange.isEmpty, TextRange.collapsed]
  rw [replaceText, hdelete]
  rfl

theorem selection_addFootnote (place : Nat) (text : String) :
    (d.addFootnote place text).selection =
      (d.replaceText (.collapsed .body (min place d.body.length)) "*").selection := by
  have hdelete : d.delete (.collapsed .body (min place d.body.length)) = d := by
    simp [delete, TextRange.isEmpty, TextRange.collapsed]
  rw [replaceText, hdelete]
  rfl

theorem Orderly.addFootnote (hd : d.Orderly) (place : Nat) (text : String) :
    (d.addFootnote place text).Orderly := by
  obtain ⟨c, hselection, hinside⟩ := DocumentM.allowsMarking_cursorInText.replaceText
    (r := .collapsed .body (min place d.body.length)) "*" rfl (Nat.min_le_right _ _) hd.cursor
  exact ⟨hd.toWellFormed.addFootnote place text,
    ⟨c, (selection_addFootnote place text).trans hselection, inside_addFootnote text hinside⟩,
    hd.steady⟩

theorem orderly_new (title : String) : ({ title } : Document).Orderly where
  marks_nodup := List.nodup_nil
  marks_inside := fun _ hm => absurd hm List.not_mem_nil
  bookmarks_nodup := List.nodup_nil
  bookmarks_inside := fun _ hb => absurd hb List.not_mem_nil
  cursor := ⟨.collapsed .body 0, rfl, [], rfl, Nat.le_refl 0⟩
  steady := rfl

end Document

namespace DocumentM

/-- Calls keep a document orderly. -/
theorem allowsCalls_orderly : orderly.AllowsCalls :=
  allowsMarking_orderly.allowsCalls (fun _ => trivial) fun place text hd =>
    hd.addFootnote place text

/-- The contract that a document stays sound. -/
def sound : Contract where
  Holds := Document.Sound
  Fails _ := Document.Sound
  holds_of_step h := Document.Sound.of_same h.toSameDocument
  fails_of_same := Document.Sound.of_same
  fails_of_internal _ hd := hd

/-- Calls keep a document sound. -/
theorem allowsCalls_sound : sound.AllowsCalls where
  fails hd := hd
  replaceText new hr hd := hd.replaceText hr new
  modifyCells r _ hf hd := hd.modifyCells r hf
  putMark hr hname hd := by
    obtain ⟨cells, hcells, hstop⟩ := hr
    exact hd.of_cells (allowsMarking_wellFormed.putMark hcells hstop hname hd.toWellFormed) rfl rfl
  eraseMark name hd :=
    hd.of_cells (allowsMarking_wellFormed.eraseMark name hd.toWellFormed) rfl rfl
  putBookmark name hr hd := by
    obtain ⟨cells, hcells, hstop⟩ := hr
    exact hd.of_cells (allowsMarking_wellFormed.putBookmark name hcells hstop hd.toWellFormed)
      rfl rfl
  eraseBookmark name hd :=
    hd.of_cells (allowsMarking_wellFormed.eraseBookmark name hd.toWellFormed) rfl rfl
  setProperties properties hd :=
    hd.of_cells (allowsMarking_wellFormed.setProperties properties hd.toWellFormed) rfl rfl
  addFootnote place text hd := hd.addFootnote place text

end DocumentM

namespace DocumentCall

open DocumentM

variable {α : Type} {d d' : Document}

/-- **Every call keeps the contracts that calls cannot break.** -/
theorem keeps_run {C : Contract} (hC : C.AllowsCalls) (call : DocumentCall) : Keeps C call.run := by
  have hcells (r : TextRange) {f : Cell → Cell}
      (hf : ∀ c, (f c).letter = c.letter ∨ (f c).letter.footnote = none) :
      Keeps C (DocumentM.modifyCells r f) :=
    keeps_call_around fun _ _ _ _ hd => hC.modifyCells r hf hd
  cases call <;> dsimp only [run]
  case flowLength flow => exact keeps_flowLength flow
  case text r => exact keeps_text r
  case replace r new =>
    exact keeps_call_around fun _ cells hcells hstop hd =>
      hC.replaceText new ⟨cells, hcells, hstop⟩ hd
  case applyFormat r format | clearFormat r => exact hcells r fun _ => Or.inl rfl
  case setCharacterStyle r style | setParagraphStyle r style =>
    exact keeps_call_unless (fun _ hd _ => hC.fails hd) fun _ _ _ _ hd =>
      hC.modifyCells _ (fun _ => Or.inl rfl) hd
  case insertPageField r mark =>
    exact keeps_call_around fun _ cells hcells hstop hd =>
      hC.modifyCells _ (fun _ => Or.inr rfl) (hC.replaceText _ ⟨cells, hcells, hstop⟩ hd)
  case createMark name r =>
    exact keeps_create trivial fun _ cells hcells hstop hname hd =>
      hC.putMark ⟨cells, hcells, hstop⟩ (by simpa using hname) hd
  case removeMark name =>
    refine .call fun d hd => ?_
    cases hname : (d.marks.get? name).isNone with
    | true => exact hC.fails hd
    | false => exact hC.eraseMark name hd
  case createBookmark name r =>
    exact keeps_create trivial fun _ cells hcells hstop _ hd =>
      hC.putBookmark name ⟨cells, hcells, hstop⟩ hd
  case removeBookmark name => exact keeps_change fun _ hd => hC.eraseBookmark name hd
  case setProperty name value | removeProperty name =>
    exact keeps_change fun _ hd => hC.setProperties _ hd
  case setViewCursor r => exact keeps_setViewCursor r
  case restoreSelection => exact keeps_restoreSelection
  case viewPosition r => exact keeps_viewPosition r
  case enterUndo label => exact keeps_enterUndo label
  case leaveUndo => exact keeps_leaveUndo
  case lockScreen => exact keeps_lockScreen
  case unlockScreen => exact keeps_unlockScreen
  case append new =>
    intro d hd
    have hnew := hC.replaceText (r := .collapsed .body d.body.length) new
      ⟨d.body, rfl, Nat.le_refl _⟩ hd
    rw [← d.append_eq] at hnew
    exact hnew
  case addFootnote place new => exact fun _ hd => hC.addFootnote place new hd
  all_goals exact keeps_see _

/-- **A call that fails changes nothing**, over a connection that lasts. -/
theorem atomic_run (call : DocumentCall) : Atomic call.run := by
  cases call <;> dsimp only [run]
  case title | hasParagraphStyle | markNames | markRange? | bookmarkRange? | propertyNames |
      property? | footnoteAnchor? | footnoteAnchors | viewCursor? | isLocked | isRecording |
      redlineCount =>
    exact .see _
  case flowLength | text => exact .look _
  case applyFormat | clearFormat => exact .modifyCells _ _
  case removeBookmark | setProperty | removeProperty | enterUndo | leaveUndo | lockScreen |
      unlockScreen =>
    exact .change _
  case append | addFootnote => exact .of_ok fun _ => ⟨_, _, rfl⟩
  all_goals exact .call _

/-- **A call leaves an orderly document orderly**, whether it fails or not. -/
theorem orderly_after (hd : d.Orderly) (call : DocumentCall) : (after d call).Orderly := by
  cases hrun : call.run.run d with
  | mk outcome d' =>
    rw [after, hrun]
    cases outcome with
    | ok a => exact (keeps_run allowsCalls_orderly call).of_ok hd hrun
    | error e => exact atomic_run call d e d' hd.steady hrun ▸ hd

/-- **A call leaves a sound document sound**, over any connection. -/
theorem sound_after (hd : d.Sound) (call : DocumentCall) : (after d call).Sound := by
  cases hrun : call.run.run d with
  | mk outcome d' =>
    rw [after, hrun]
    cases outcome with
    | ok a => exact (keeps_run allowsCalls_sound call).of_ok hd hrun
    | error e => exact (keeps_run allowsCalls_sound call).of_error hd hrun

end DocumentCall

namespace Document

variable {d : Document}

/-- **A document is reliable**: what it keeps lies inside its text, a call that fails changes
nothing, and text is replaced wherever there is any, with nothing else done. -/
structure Reliable (d : Document) : Prop where
  orderly : d.Orderly
  failing : ∀ (call : DocumentCall) e d', call.run.run d = (.error e, d') → d' = d
  replaces_iff : ∀ r new,
    (∃ written d', (DocumentCall.replace r new).run.run d = (.ok written, d')) ↔ d.Inside r
  replacing : ∀ r new written d',
    (DocumentCall.replace r new).run.run d = (.ok written, d') → Replaces d r new written d'

theorem Orderly.reliable (hd : d.Orderly) : d.Reliable := by
  have hrun (r : TextRange) (new : String) : (DocumentCall.replace r new).run.run d =
      match d.cellsAround r with
      | .ok _ => (.ok (typedRange r new), d.replaceText r new)
      | .error e => (.error e, d) := by
    dsimp only [DocumentCall.run]
    rw [DocumentM.replace, DocumentM.run_call_of_steady _ hd.steady]
    cases d.cellsAround r <;> rfl
  have hinside {r : TextRange} {new : String} {written : TextRange} {d' : Document}
      (h : (DocumentCall.replace r new).run.run d = (.ok written, d')) :
      d.Inside r ∧ typedRange r new = written ∧ d.replaceText r new = d' := by
    rw [hrun] at h
    obtain ⟨cells, hcells, hstop, haround⟩ | ⟨reason, haround⟩ := d.cellsAround_eq_ok_or r
    · rw [haround] at h
      cases h
      exact ⟨⟨cells, hcells, hstop⟩, rfl, rfl⟩
    · rw [haround] at h
      cases h
  refine ⟨hd, fun call e d' h => DocumentCall.atomic_run call d e d' hd.steady h,
    fun r new => ⟨?_, ?_⟩, fun r new written d' h => ?_⟩
  · rintro ⟨written, d', h⟩
    exact (hinside h).1
  · rintro ⟨cells, hcells, hstop⟩
    refine ⟨typedRange r new, d.replaceText r new, ?_⟩
    rw [hrun, cellsAround_of_le hcells hstop]
  · obtain ⟨hr, rfl, rfl⟩ := hinside h
    exact hd.toWellFormed.replaces hr new

/-- What every call keeps holds of all documents that calls make of a new one. -/
theorem holds_reached {P : Document → Prop} {title : String} (hnew : P { title })
    (hafter : ∀ {d}, P d → ∀ call : DocumentCall, P (call.after d)) (calls : List DocumentCall) :
    P (reached title calls) := by
  induction calls using List.reverseRecOn with
  | nil => exact hnew
  | append_singleton calls call ih =>
    rw [reached, List.foldl_append]
    exact hafter ih call

/-- Whatever calls are made of a new document, it stays orderly. -/
theorem orderly_reached (title : String) (calls : List DocumentCall) :
    (reached title calls).Orderly :=
  holds_reached (orderly_new title) DocumentCall.orderly_after calls

/-- **Whatever calls are made of a new document, it stays sound**: a character that looks like an
anchor to the program is the only one of its footnote. -/
theorem sound_reached (title : String) (calls : List DocumentCall) : (reached title calls).Sound :=
  holds_reached (sound_of_text (orderly_new title).toWellFormed (fun _ hc => absurd hc
    List.not_mem_nil) fun _ hcells => absurd hcells List.not_mem_nil) DocumentCall.sound_after calls

/-- **Whatever calls are made of a new document, it stays reliable.** -/
theorem reliable_reached (title : String) (calls : List DocumentCall) :
    (reached title calls).Reliable :=
  (orderly_reached title calls).reliable

/-- A mark that ends where text is replaced is not before it: it takes in the new text. -/
example : (reached "Paper" [.append "Oaks grow.", .createMark "oaks" (.inBody 0 4),
    .createMark "grow" (.inBody 5 9), .createBookmark "gap" (.inBody 4 5),
    .replace (.inBody 4 5) " do ", .removeMark "grass"]).marks =
      [("oaks", .inBody 0 8), ("grow", .inBody 8 12)] := by
  decide +kernel

end Document

end DocCite
