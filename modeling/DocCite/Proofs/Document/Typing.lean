import DocCite.Document.Basic
import Mathlib.Tactic.SplitIfs

/-!
# What typing and deleting do

Replacing text changes the characters of one flow and moves the ranges of that flow. Here is what
becomes of the characters, the marks and the bookmarks, one equation for each, and how ranges
behave under several changes at one place: text typed into what was just typed, or deleted from
it, comes to having typed the rest at once (`afterTyping_afterTyping`, `afterDeleting_afterTyping_part`).
-/

namespace DocCite

/-! ## Ranges -/

namespace TextRange

variable {r : TextRange} {holder : RangeHolder}

theorem new_of_le {flow : Flow} {a b : Nat} (h : a ≤ b) : new flow a b = ⟨flow, a, b, h⟩ :=
  eq_of_ends rfl (Nat.min_eq_left h) (Nat.max_eq_right h)

@[simp] theorem start_new (flow : Flow) (a b : Nat) : (new flow a b).start = min a b := rfl

@[simp] theorem stop_new (flow : Flow) (a b : Nat) : (new flow a b).stop = max a b := rfl

@[simp] theorem start_collapsed (flow : Flow) (p : Nat) : (collapsed flow p).start = p := rfl

@[simp] theorem stop_collapsed (flow : Flow) (p : Nat) : (collapsed flow p).stop = p := rfl

@[simp] theorem flow_collapsed (flow : Flow) (p : Nat) : (collapsed flow p).flow = flow := rfl

theorem isEmpty_iff : r.isEmpty = true ↔ r.start = r.stop := by simp [isEmpty]

/-- A place after text was typed; whether one at the text moves is up to its range. -/
def placeAfterTyping (moves : Bool) (t : Typed) (place : Nat) : Nat :=
  if t.place < place ∨ (t.place = place ∧ moves = true) then place + t.count else place

/-- Whether the start of a range moves when text is typed at it. -/
def movesAtStart (r : TextRange) (holder : RangeHolder) : Bool :=
  !r.isEmpty || holder != .bookmark

/-- Whether the end of a range moves when text is typed at it. -/
def movesAtStop (r : TextRange) (holder : RangeHolder) (t : Typed) : Bool :=
  if r.isEmpty then holder != .bookmark else takesInAtStop holder t

/-- Both ends of a range move by themselves. -/
theorem ends_afterTyping (r : TextRange) (holder : RangeHolder) (t : Typed) :
    (r.afterTyping holder t).start = placeAfterTyping (r.movesAtStart holder) t r.start ∧
      (r.afterTyping holder t).stop = placeAfterTyping (r.movesAtStop holder t) t r.stop := by
  have hle := r.start_le_stop
  simp only [afterTyping, placeAfterTyping, movesAtStart, movesAtStop]
  by_cases h : r.isEmpty = true
  · have heq : r.start = r.stop := isEmpty_iff.mp h
    by_cases hmoves : t.place < r.start ∨ (t.place = r.start ∧ holder ≠ .bookmark)
    · have hstop : t.place < r.stop ∨ (t.place = r.stop ∧ holder ≠ .bookmark) := heq ▸ hmoves
      simp [h, hstop, heq]
    · have hstop : ¬ (t.place < r.stop ∨ (t.place = r.stop ∧ holder ≠ .bookmark)) :=
        heq ▸ hmoves
      simp only [h, if_true, if_neg hmoves, Bool.not_true, Bool.false_or, bne_iff_ne,
        if_neg hstop, and_self]
  · have hlt : r.start < r.stop := Nat.lt_of_le_of_ne hle fun heq => h (isEmpty_iff.mpr heq)
    simp only [h, Bool.false_eq_true, if_false, Bool.not_false, Bool.true_or, and_true]
    by_cases hstart : t.place ≤ r.start
    · rw [if_pos hstart, if_pos (by omega), if_pos (by omega)]
      simp only [start_new, stop_new]
      omega
    · have hnot : ¬ (t.place < r.start ∨ t.place = r.start) := by omega
      rw [if_neg hstart, if_neg hnot]
      by_cases hstop : t.place < r.stop ∨ (t.place = r.stop ∧ takesInAtStop holder t = true)
      · rw [if_pos hstop, if_pos hstop]
        simp only [start_new, stop_new]
        omega
      · rw [if_neg hstop, if_neg hstop]
        exact ⟨rfl, rfl⟩

theorem start_afterTyping (r : TextRange) (holder : RangeHolder) (t : Typed) :
    (r.afterTyping holder t).start = placeAfterTyping (r.movesAtStart holder) t r.start :=
  (ends_afterTyping r holder t).1

theorem stop_afterTyping (r : TextRange) (holder : RangeHolder) (t : Typed) :
    (r.afterTyping holder t).stop = placeAfterTyping (r.movesAtStop holder t) t r.stop :=
  (ends_afterTyping r holder t).2

theorem placeAfterDeleting_mono {start stop a b : Nat} (h : start ≤ stop) (hab : a ≤ b) :
    placeAfterDeleting start stop a ≤ placeAfterDeleting start stop b := by
  unfold placeAfterDeleting
  split_ifs <;> omega

theorem placeAfterDeleting_of_ge {start stop p : Nat} (h : start ≤ stop) (hp : stop ≤ p) :
    placeAfterDeleting start stop p = start + (p - stop) := by
  unfold placeAfterDeleting
  split_ifs <;> omega

theorem placeAfterDeleting_self (p a : Nat) : placeAfterDeleting p p a = a := by
  unfold placeAfterDeleting
  split_ifs <;> omega

theorem start_afterDeleting (r : TextRange) {start stop : Nat} (h : start ≤ stop) :
    (r.afterDeleting start stop).start = placeAfterDeleting start stop r.start :=
  Nat.min_eq_left (placeAfterDeleting_mono h r.start_le_stop)

theorem stop_afterDeleting (r : TextRange) {start stop : Nat} (h : start ≤ stop) :
    (r.afterDeleting start stop).stop = placeAfterDeleting start stop r.stop :=
  Nat.max_eq_right (placeAfterDeleting_mono h r.start_le_stop)

/-- Typing nothing moves nothing. -/
theorem afterTyping_zero (r : TextRange) (holder : RangeHolder) (p : Nat) (b : Bool) :
    r.afterTyping holder ⟨p, 0, b⟩ = r := by
  refine eq_of_ends (flow_afterTyping _ _ _) ?_ ?_
  · rw [start_afterTyping]
    exact ite_self _
  · rw [stop_afterTyping]
    exact ite_self _

/-- Deleting nothing moves nothing. -/
theorem afterDeleting_self (r : TextRange) (p : Nat) : r.afterDeleting p p = r := by
  refine eq_of_ends rfl ?_ ?_
  · rw [start_afterDeleting r (Nat.le_refl p), placeAfterDeleting_self]
  · rw [stop_afterDeleting r (Nat.le_refl p), placeAfterDeleting_self]

/-- **Typing into what was just typed** comes to having typed more. -/
theorem afterTyping_afterTyping (r : TextRange) (holder : RangeHolder) {p i m k : Nat}
    {b b' : Bool} (hi : 0 < i) (him : i < m) :
    (r.afterTyping holder ⟨p, m, b⟩).afterTyping holder ⟨p + i, k, b'⟩ =
      r.afterTyping holder ⟨p, m + k, b⟩ := by
  -- no end is at the second place, so it does not matter whether ends move there
  have hplace (moves moves' : Bool) (a : Nat) :
      placeAfterTyping moves' ⟨p + i, k, b'⟩ (placeAfterTyping moves ⟨p, m, b⟩ a) =
        placeAfterTyping moves ⟨p, m + k, b⟩ a := by
    simp only [placeAfterTyping]
    split_ifs <;> omega
  refine eq_of_ends (by simp) ?_ ?_
  · simp only [start_afterTyping, hplace]
  · simp only [stop_afterTyping, hplace]
    rfl

/-- **Deleting from what was just typed** comes to having typed less. -/
theorem afterDeleting_afterTyping_part (r : TextRange) (holder : RangeHolder) {p i j m : Nat}
    {b : Bool} (h : i + j ≤ m) :
    (r.afterTyping holder ⟨p, m, b⟩).afterDeleting (p + i) (p + i + j) =
      r.afterTyping holder ⟨p, m - j, b⟩ := by
  have hplace (moves : Bool) (a : Nat) :
      placeAfterDeleting (p + i) (p + i + j) (placeAfterTyping moves ⟨p, m, b⟩ a) =
        placeAfterTyping moves ⟨p, m - j, b⟩ a := by
    simp only [placeAfterTyping, placeAfterDeleting]
    split_ifs <;> omega
  refine eq_of_ends (by simp) ?_ ?_
  · rw [start_afterDeleting _ (Nat.le_add_right _ _), start_afterTyping, hplace,
      start_afterTyping]
  · rw [stop_afterDeleting _ (Nat.le_add_right _ _), stop_afterTyping, hplace, stop_afterTyping]
    rfl

/-- A range after the text under another one was replaced. -/
def afterReplacing (x : TextRange) (holder : RangeHolder) (r : TextRange) (new : List Char) :
    TextRange :=
  if x.flow = r.flow then
    (x.afterDeleting r.start r.stop).afterTyping holder ⟨r.start, new.length, '\n' ∈ new⟩
  else x

@[simp] theorem flow_afterReplacing (x : TextRange) (holder : RangeHolder) (r : TextRange)
    (new : List Char) : (x.afterReplacing holder r new).flow = x.flow := by
  unfold afterReplacing
  split_ifs <;> simp

end TextRange

/-! ## The text of flows -/

namespace Cells

variable {before under behind : List Cell}

theorem cut_append {start stop : Nat} (hstart : start = before.length)
    (hstop : stop = before.length + under.length) :
    cut (before ++ under ++ behind) start stop = before ++ behind := by
  subst hstart hstop
  rw [cut, List.drop_left' List.length_append, List.append_assoc, List.take_left' rfl]

theorem slice_append {start stop : Nat} (hstart : start = before.length)
    (hstop : stop = before.length + under.length) :
    slice (before ++ under ++ behind) start stop = under := by
  subst hstart hstop
  rw [slice, List.take_left' List.length_append, List.drop_left' rfl]

theorem modify_append (f : Cell → Cell) {start stop : Nat} (hstart : start = before.length)
    (hstop : stop = before.length + under.length) :
    modify f (before ++ under ++ behind) start stop = before ++ under.map f ++ behind := by
  rw [modify, slice_append hstart hstop]
  subst hstart hstop
  rw [List.drop_left' List.length_append, List.append_assoc before, List.take_left' rfl]

theorem modify_id (cells : List Cell) {start stop : Nat} (h : start ≤ stop) :
    modify id cells start stop = cells := by
  have htake : cells.take start = (cells.take stop).take start := by
    rw [List.take_take, Nat.min_eq_left h]
  rw [modify, List.map_id, slice, htake, List.take_append_drop, List.take_append_drop]

end Cells

namespace Document

variable {d : Document} {flow flow' : Flow}

theorem cells?_editCells (d : Document) (flow flow' : Flow) (f : List Cell → List Cell) :
    (d.editCells flow f).cells? flow' =
      if flow' = flow then (d.cells? flow').map f else d.cells? flow' := by
  rcases flow with _ | _ | n <;> rcases flow' with _ | _ | m <;>
    simp [editCells, cells?, List.getElem?_modify]
  split_ifs <;> simp_all

@[simp] theorem cells?_relocate (d : Document) (flow flow' : Flow)
    (f : RangeHolder → TextRange → TextRange) :
    (d.relocate flow f).cells? flow' = d.cells? flow' := by
  rcases flow' with _ | _ | n <;> rfl

/-- What editing the text of a flow leaves alone. -/
theorem editCells_eq (d : Document) (flow : Flow) (f : List Cell → List Cell) :
    d.editCells flow f =
      { d with
        body := (d.editCells flow f).body
        footnotes := (d.editCells flow f).footnotes } := by
  rcases flow with _ | _ | n <;> rfl

/-- Two documents hold the same text when each flow does. -/
theorem text_eq_of_cells? {d d' : Document} (h : ∀ flow, d.cells? flow = d'.cells? flow) :
    d.body = d'.body ∧ d.footnotes = d'.footnotes := by
  refine ⟨Option.some.inj (h .body), List.ext_getElem? fun n => ?_⟩
  exact h (.footnote (n + 1))

/-! ## Replacing text -/

/-- Deleting nothing is deleting an empty range, which takes no bookmark with it. -/
theorem isDeletedWith_of_isEmpty {r : TextRange} (h : r.isEmpty = true) (b : TextRange) :
    isDeletedWith r b = false := by
  have hr := TextRange.isEmpty_iff.mp h
  have hb := b.start_le_stop
  by_cases hempty : b.isEmpty = true
  · simp [isDeletedWith, hempty]
  · have hne : b.start ≠ b.stop := fun heq => hempty (TextRange.isEmpty_iff.mpr heq)
    simp only [isDeletedWith, TextRange.contains, Bool.and_eq_false_iff, decide_eq_false_iff_not]
    omega

theorem cells?_delete (d : Document) (r : TextRange) (flow : Flow) :
    (d.delete r).cells? flow =
      if flow = r.flow then (d.cells? flow).map fun cells => Cells.cut cells r.start r.stop
      else d.cells? flow := by
  unfold delete
  by_cases h : r.isEmpty = true
  · have hcut (cells : List Cell) : Cells.cut cells r.start r.stop = cells := by
      rw [Cells.cut, TextRange.isEmpty_iff.mp h, List.take_append_drop]
    simp [h, hcut]
  · rw [if_neg h, cells?_relocate, ← cells?_editCells]
    rcases flow with _ | _ | n <;> rfl

theorem marks_delete (d : Document) (r : TextRange) :
    (d.delete r).marks = d.marks.map fun m =>
      (m.1, if m.2.flow = r.flow then m.2.afterDeleting r.start r.stop else m.2) := by
  unfold delete
  by_cases h : r.isEmpty = true
  · rw [if_pos h]
    refine ((List.map_congr_left fun m _ => ?_).trans (List.map_id _)).symm
    rw [TextRange.isEmpty_iff.mp h, TextRange.afterDeleting_self, ite_self]
    rfl
  · rw [if_neg h, editCells_eq]
    rfl

theorem bookmarks_delete (d : Document) (r : TextRange) :
    (d.delete r).bookmarks = (d.bookmarks.filter fun b => !isDeletedWith r b.2).map fun b =>
      (b.1, if b.2.flow = r.flow then b.2.afterDeleting r.start r.stop else b.2) := by
  unfold delete
  by_cases h : r.isEmpty = true
  · have hall : d.bookmarks.filter (fun b => !isDeletedWith r b.2) = d.bookmarks :=
      List.filter_eq_self.mpr fun b _ => by simp [isDeletedWith_of_isEmpty h]
    rw [if_pos h, hall]
    refine ((List.map_congr_left fun b _ => ?_).trans (List.map_id _)).symm
    rw [TextRange.isEmpty_iff.mp h, TextRange.afterDeleting_self, ite_self]
    rfl
  · rw [if_neg h]
    rfl

/-- The characters that replace the text under a range of a flow. -/
def typedOver (cells : List Cell) (r : TextRange) (new : List Char) : List Cell :=
  cells.take r.start ++ Cells.typed (Cells.cut cells r.start r.stop) r.start new ++
    cells.drop r.stop

theorem typedOver_append {before under behind : List Cell} {r : TextRange} (new : List Char)
    (hstart : r.start = before.length) (hstop : r.stop = before.length + under.length) :
    typedOver (before ++ under ++ behind) r new =
      before ++ Cells.typed (before ++ behind) r.start new ++ behind := by
  rw [typedOver, Cells.cut_append hstart hstop, hstop, List.drop_left' List.length_append,
    hstart, List.append_assoc before under, List.take_left' rfl]

/-- **The text after a replacement.** -/
theorem cells?_replaceText (d : Document) (r : TextRange) (new : String) (flow : Flow) :
    (d.replaceText r new).cells? flow =
      if flow = r.flow then (d.cells? flow).map fun cells => typedOver cells r new.toList
      else d.cells? flow := by
  have hle := r.start_le_stop
  have hsplice (cells new : List Cell) :
      Cells.splice (Cells.cut cells r.start r.stop) r.start new =
        cells.take r.start ++ new ++ cells.drop r.stop := by
    have htake : (Cells.cut cells r.start r.stop).take r.start = cells.take r.start := by
      rw [Cells.cut, List.take_append, List.take_take, Nat.min_self]
      by_cases h : r.start ≤ cells.length
      · rw [List.length_take_of_le h, Nat.sub_self, List.take_zero, List.append_nil]
      · rw [List.drop_of_length_le (by omega), List.take_nil, List.append_nil]
    have hdrop : (Cells.cut cells r.start r.stop).drop r.start = cells.drop r.stop := by
      rw [Cells.cut, List.drop_append, List.drop_take, Nat.sub_self, List.take_zero,
        List.nil_append]
      by_cases h : r.start ≤ cells.length
      · rw [List.length_take_of_le h, Nat.sub_self, List.drop_zero]
      · rw [List.drop_of_length_le (by omega : cells.length ≤ r.stop), List.drop_nil]
    rw [Cells.splice, htake, hdrop]
  unfold replaceText type spliceCells
  rw [cells?_relocate, cells?_editCells, cells?_delete, cells?_delete]
  by_cases h : flow = r.flow
  · subst h
    simp only [if_true, Option.map_map]
    cases hcells : d.cells? r.flow with
    | none => rfl
    | some cells => simp [typedOver, hsplice]
  · simp only [if_neg h]

theorem any_typed (cells : List Cell) (p : Nat) (new : List Char) :
    ((Cells.typed cells p new).any fun c => c.char = '\n') = decide ('\n' ∈ new) := by
  rw [Bool.eq_iff_iff]
  simp only [Cells.typed, List.any_map, List.any_eq_true, Function.comp_apply, decide_eq_true_eq]
  exact ⟨fun ⟨c, hc, heq⟩ => heq ▸ hc, fun h => ⟨'\n', h, rfl⟩⟩

/-- What typing leaves alone, and where it moves the ranges. -/
theorem type_eq (d : Document) (flow : Flow) (p : Nat) (text : String) :
    d.type flow p text =
      { (d.type flow p text) with
        marks := d.marks.map fun m =>
          (m.1, if m.2.flow = flow then
            m.2.afterTyping .mark ⟨p, text.toList.length, '\n' ∈ text.toList⟩ else m.2)
        bookmarks := d.bookmarks.map fun b =>
          (b.1, if b.2.flow = flow then
            b.2.afterTyping .bookmark ⟨p, text.toList.length, '\n' ∈ text.toList⟩ else b.2)
        properties := d.properties } := by
  unfold type spliceCells
  rw [editCells_eq, any_typed]
  simp only [relocate, Cells.typed, List.length_map]

/-- **The marks after a replacement.** -/
theorem marks_replaceText (d : Document) (r : TextRange) (new : String) :
    (d.replaceText r new).marks = d.marks.map fun m =>
      (m.1, m.2.afterReplacing .mark r new.toList) := by
  rw [replaceText, type_eq, marks_delete, List.map_map]
  refine List.map_congr_left fun m _ => ?_
  simp only [Function.comp_apply, TextRange.afterReplacing]
  by_cases h : m.2.flow = r.flow
  · simp only [if_pos h, TextRange.flow_afterDeleting]
  · simp only [if_neg h]

/-- **The bookmarks after a replacement**: those that lost all their text are gone. -/
theorem bookmarks_replaceText (d : Document) (r : TextRange) (new : String) :
    (d.replaceText r new).bookmarks =
      (d.bookmarks.filter fun b => !isDeletedWith r b.2).map fun b =>
        (b.1, b.2.afterReplacing .bookmark r new.toList) := by
  rw [replaceText, type_eq, bookmarks_delete, List.map_map]
  refine List.map_congr_left fun b _ => ?_
  simp only [Function.comp_apply, TextRange.afterReplacing]
  by_cases h : b.2.flow = r.flow
  · simp only [if_pos h, TextRange.flow_afterDeleting]
  · simp only [if_neg h]

/-- What a replacement leaves alone. -/
theorem replaceText_eq (d : Document) (r : TextRange) (new : String) :
    d.replaceText r new =
      { d with
        body := (d.replaceText r new).body
        footnotes := (d.replaceText r new).footnotes
        marks := (d.replaceText r new).marks
        bookmarks := (d.replaceText r new).bookmarks
        selection := (d.replaceText r new).selection } := by
  have hdelete : d.delete r =
      { d with
        body := (d.delete r).body
        footnotes := (d.delete r).footnotes
        marks := (d.delete r).marks
        bookmarks := (d.delete r).bookmarks
        selection := (d.delete r).selection } := by
    unfold delete
    split
    · rfl
    · rw [editCells_eq]; rfl
  unfold replaceText type spliceCells
  rw [hdelete, editCells_eq]
  rfl

/-! ## Changing characters -/

theorem cells?_modifyCells (d : Document) (r : TextRange) (f : Cell → Cell) (flow : Flow) :
    (d.modifyCells r f).cells? flow =
      if flow = r.flow then (d.cells? flow).map fun cells => Cells.modify f cells r.start r.stop
      else d.cells? flow := cells?_editCells d r.flow flow _

/-- What changing characters leaves alone. -/
theorem modifyCells_eq (d : Document) (r : TextRange) (f : Cell → Cell) :
    d.modifyCells r f =
      { d with
        body := (d.modifyCells r f).body
        footnotes := (d.modifyCells r f).footnotes } := editCells_eq d r.flow _

end Document

end DocCite
