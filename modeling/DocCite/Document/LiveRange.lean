import DocCite.Document.Range

/-!
# Ranges that move with their text

A document keeps ranges of its own: those of reference marks, those of bookmarks and the
selection. When text is typed or deleted they move along. They differ in what text typed at
their ends does: a mark takes it in unless it breaks the paragraph, a bookmark and the selection
never do.
-/

namespace DocCite

/-- What a range of a document belongs to. -/
inductive RangeHolder
  | mark
  | bookmark
  | selection
  deriving DecidableEq, Repr

/-- Text that is typed: where, how many characters, and whether a paragraph break is among
them. -/
structure Typed where
  place : Nat
  count : Nat
  hasBreak : Bool
  deriving DecidableEq, Repr

namespace TextRange

/-- Whether text typed at the end of a range of a holder becomes part of it. -/
def takesInAtStop (holder : RangeHolder) (t : Typed) : Bool := holder == .mark && !t.hasBreak

/-- A range after text was typed in its flow. An empty bookmark stays before text typed at it,
all other empty ranges go behind it. -/
def afterTyping (r : TextRange) (holder : RangeHolder) (t : Typed) : TextRange :=
  if r.isEmpty then
    if t.place < r.start ∨ (t.place = r.start ∧ holder ≠ .bookmark) then
      new r.flow (r.start + t.count) (r.stop + t.count)
    else r
  else if t.place ≤ r.start then new r.flow (r.start + t.count) (r.stop + t.count)
  else if t.place < r.stop ∨ (t.place = r.stop ∧ takesInAtStop holder t) then
    new r.flow r.start (r.stop + t.count)
  else r

/-- A place after the text from `start` to `stop` was deleted. -/
def placeAfterDeleting (start stop place : Nat) : Nat :=
  if place ≤ start then place else if stop ≤ place then place - (stop - start) else start

/-- A range after the text from `start` to `stop` of its flow was deleted. -/
def afterDeleting (r : TextRange) (start stop : Nat) : TextRange :=
  new r.flow (placeAfterDeleting start stop r.start) (placeAfterDeleting start stop r.stop)

@[simp] theorem flow_new (flow : Flow) (a b : Nat) : (new flow a b).flow = flow := rfl

/-- Typing leaves a range in its flow. -/
@[simp] theorem flow_afterTyping (r : TextRange) (holder : RangeHolder) (t : Typed) :
    (r.afterTyping holder t).flow = r.flow := by
  unfold afterTyping
  split <;> split <;> (try split) <;> rfl

/-- Deleting leaves a range in its flow. -/
@[simp] theorem flow_afterDeleting (r : TextRange) (start stop : Nat) :
    (r.afterDeleting start stop).flow = r.flow := rfl

/-! ## Typing and deleting again -/

/-- Two ranges with the same flow and the same ends are the same. -/
theorem eq_of_ends {a b : TextRange} (flow : a.flow = b.flow) (start : a.start = b.start)
    (stop : a.stop = b.stop) : a = b := by
  cases a; cases b; simp_all

/-- A place before deleted text stays. -/
theorem placeAfterDeleting_of_le {start stop place : Nat} (h : place ≤ start) :
    placeAfterDeleting start stop place = place := if_pos h

/-- A place behind deleted text moves back by its length. -/
theorem placeAfterDeleting_add {start count place : Nat} (h : start ≤ place) :
    placeAfterDeleting start (start + count) (place + count) = place := by
  unfold placeAfterDeleting
  split
  · omega
  · rw [if_pos (by omega)]; omega

/-- A range of which both ends come back to where they were. -/
theorem afterDeleting_new_eq {r : TextRange} {start stop a b : Nat} (hab : a ≤ b)
    (ha : placeAfterDeleting start stop a = r.start)
    (hb : placeAfterDeleting start stop b = r.stop) :
    (new r.flow a b).afterDeleting start stop = r := by
  have hle := r.start_le_stop
  refine eq_of_ends (flow_afterDeleting _ _ _) ?_ ?_
  · simp only [afterDeleting, new, Nat.min_eq_left hab, Nat.max_eq_right hab, ha, hb]; omega
  · simp only [afterDeleting, new, Nat.min_eq_left hab, Nat.max_eq_right hab, ha, hb]; omega

/-- **Deleting what was typed leaves a range as it was**, whatever its holder. -/
theorem afterDeleting_afterTyping (r : TextRange) (holder : RangeHolder) (t : Typed) :
    (r.afterTyping holder t).afterDeleting t.place (t.place + t.count) = r := by
  have hle := r.start_le_stop
  have keep (h : r.stop ≤ t.place) :
      r.afterDeleting t.place (t.place + t.count) = r := by
    have hstart : placeAfterDeleting t.place (t.place + t.count) r.start = r.start :=
      placeAfterDeleting_of_le (Nat.le_trans hle h)
    refine eq_of_ends (flow_afterDeleting _ _ _) ?_ ?_ <;>
      simp only [afterDeleting, new, hstart, placeAfterDeleting_of_le h] <;> omega
  unfold afterTyping
  split
  · next hempty =>
    have heq : r.start = r.stop := by simpa [isEmpty] using hempty
    split
    · next h =>
      have hp : t.place ≤ r.start := by omega
      exact afterDeleting_new_eq (by omega) (placeAfterDeleting_add hp)
        (placeAfterDeleting_add (by omega))
    · exact keep (by omega)
  · split
    · next h =>
      exact afterDeleting_new_eq (by omega) (placeAfterDeleting_add h)
        (placeAfterDeleting_add (by omega))
    · next hstart =>
      split
      · next h =>
        exact afterDeleting_new_eq (by omega) (placeAfterDeleting_of_le (by omega))
          (placeAfterDeleting_add (by omega))
      · exact keep (by omega)

end TextRange

end DocCite
