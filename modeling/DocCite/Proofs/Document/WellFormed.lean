import DocCite.Proofs.Document.Actions
import DocCite.Proofs.Keyed

/-!
# Well-formed documents

Marks and bookmarks have different names and lie inside the text. Every action keeps a document
so, whether it succeeds or fails (`wellFormed`, `allowsMarking_wellFormed`).
-/

namespace DocCite

namespace Document

/-- **Names are unique and ranges lie inside the text.** -/
structure WellFormed (d : Document) : Prop where
  marks_nodup : (d.marks.map Prod.fst).Nodup
  marks_inside : ∀ m ∈ d.marks, d.Inside m.2
  bookmarks_nodup : (d.bookmarks.map Prod.fst).Nodup
  bookmarks_inside : ∀ b ∈ d.bookmarks, d.Inside b.2

variable {d d' : Document}

theorem Inside.of_cells? {r : TextRange} (h : d.Inside r)
    (hcells : ∀ flow, d'.cells? flow = d.cells? flow) : d'.Inside r := by
  obtain ⟨cells, hflow, hstop⟩ := h
  exact ⟨cells, (hcells _).trans hflow, hstop⟩

/-- A range inside the text begins inside the text. -/
theorem Inside.startPoint {r : TextRange} (h : d.Inside r) : d.Inside r.startPoint := by
  obtain ⟨cells, hflow, hstop⟩ := h
  exact ⟨cells, hflow, Nat.le_trans r.start_le_stop hstop⟩

theorem length_typedOver {cells : List Cell} {r : TextRange} (new : List Char)
    (h : r.stop ≤ cells.length) :
    (typedOver cells r new).length + r.length = cells.length + new.length := by
  have hle := r.start_le_stop
  simp only [typedOver, Cells.typed, TextRange.length, List.length_append, List.length_map,
    List.length_take, List.length_drop]
  omega

/-- A replacement keeps a range inside the text. -/
theorem Inside.replaceText {r x : TextRange} {cells : List Cell} (new : String)
    (holder : RangeHolder) (hflow : d.cells? r.flow = some cells) (hstop : r.stop ≤ cells.length)
    (h : d.Inside x) : (d.replaceText r new).Inside (x.afterReplacing holder r new.toList) := by
  obtain ⟨text, htext, hx⟩ := h
  by_cases hsame : x.flow = r.flow
  · rw [hsame, hflow, Option.some.injEq] at htext
    subst htext
    refine ⟨typedOver cells r new.toList, ?_, ?_⟩
    · rw [TextRange.flow_afterReplacing, cells?_replaceText, if_pos hsame, hsame, hflow]
      rfl
    · have hlength := length_typedOver new.toList hstop
      have hle := r.start_le_stop
      rw [TextRange.length] at hlength
      rw [TextRange.afterReplacing, if_pos hsame, TextRange.stop_afterTyping,
        TextRange.stop_afterDeleting x hle]
      simp only [TextRange.placeAfterTyping, TextRange.placeAfterDeleting]
      split_ifs <;> omega
  · refine ⟨text, ?_, ?_⟩
    · rw [TextRange.flow_afterReplacing, cells?_replaceText, if_neg hsame, htext]
    · rw [TextRange.afterReplacing, if_neg hsame]
      exact hx

theorem Inside.modifyCells {x : TextRange} (h : d.Inside x) (r : TextRange) (f : Cell → Cell) :
    (d.modifyCells r f).Inside x := by
  obtain ⟨text, htext, hx⟩ := h
  by_cases hsame : x.flow = r.flow
  · refine ⟨Cells.modify f text r.start r.stop, ?_, ?_⟩
    · rw [cells?_modifyCells, if_pos hsame, htext]
      rfl
    · have hle := r.start_le_stop
      simp only [Cells.modify, Cells.slice, List.length_append, List.length_map,
        List.length_take, List.length_drop]
      omega
  · exact ⟨text, by rw [cells?_modifyCells, if_neg hsame, htext], hx⟩

/-! ## Tables of ranges -/

/-- Names are unique in a table of ranges, and its ranges lie inside the text. -/
structure HasTable (d : Document) (table : Keyed String TextRange) : Prop where
  nodup : (table.map Prod.fst).Nodup
  inside : ∀ entry ∈ table, d.Inside entry.2

theorem HasTable.put {table : Keyed String TextRange} (h : d.HasTable table) {name : String}
    {r : TextRange} (hr : d.Inside r) : d.HasTable (table.put name r) := by
  constructor
  · rw [Keyed.map_fst_put]
    split
    · exact h.nodup
    · next hnot =>
      rw [List.contains_eq_mem, decide_eq_true_eq] at hnot
      exact List.Nodup.append h.nodup (List.nodup_singleton _)
        (List.disjoint_singleton.mpr hnot)
  · intro entry hentry
    rcases Keyed.mem_put hentry with hold | rfl
    · exact h.inside entry hold
    · exact hr

theorem HasTable.filter {table : Keyed String TextRange} (h : d.HasTable table)
    (keep : String × TextRange → Bool) : d.HasTable (table.filter keep) where
  nodup := h.nodup.sublist (List.filter_sublist.map _)
  inside entry hentry := h.inside entry ((List.mem_filter.mp hentry).1)

theorem HasTable.map {table : Keyed String TextRange} (h : d.HasTable table)
    {f : TextRange → TextRange} (hf : ∀ r, d.Inside r → d'.Inside (f r)) :
    d'.HasTable (table.map fun entry => (entry.1, f entry.2)) where
  nodup := by
    rw [List.map_map]
    exact h.nodup
  inside entry hentry := by
    obtain ⟨old, hold, rfl⟩ := List.mem_map.mp hentry
    exact hf _ (h.inside old hold)

theorem HasTable.of_inside {table : Keyed String TextRange} (h : d.HasTable table)
    (hinside : ∀ r, d.Inside r → d'.Inside r) : d'.HasTable table :=
  ⟨h.nodup, fun entry hentry => hinside _ (h.inside entry hentry)⟩

theorem wellFormed_iff_tables :
    d.WellFormed ↔ d.HasTable d.marks ∧ d.HasTable d.bookmarks :=
  ⟨fun h => ⟨⟨h.marks_nodup, h.marks_inside⟩, ⟨h.bookmarks_nodup, h.bookmarks_inside⟩⟩,
    fun h => ⟨h.1.nodup, h.1.inside, h.2.nodup, h.2.inside⟩⟩

theorem WellFormed.of_same (h : SameDocument d d') (hd : d.WellFormed) : d'.WellFormed := by
  have hinside (r : TextRange) (hr : d.Inside r) : d'.Inside r :=
    hr.of_cells? fun flow => (h.cells? flow).symm
  rw [wellFormed_iff_tables, ← h.marks, ← h.bookmarks]
  rw [wellFormed_iff_tables] at hd
  exact ⟨hd.1.of_inside hinside, hd.2.of_inside hinside⟩

end Document

/-! ## The contract -/

/-- The contract that a document stays well formed. -/
def wellFormed : Contract where
  Holds := Document.WellFormed
  Fails _ := Document.WellFormed
  holds_of_step h := Document.WellFormed.of_same h.toSameDocument
  fails_of_same := Document.WellFormed.of_same
  fails_of_internal _ hd := hd

open Document in
/-- **Writing and marking keep documents well formed.** -/
theorem allowsMarking_wellFormed : wellFormed.AllowsMarking where
  replaceText {d r cells} new hflow hstop hd := by
    have htables := wellFormed_iff_tables.mp hd
    have hinside (holder : RangeHolder) (x : TextRange) (hx : d.Inside x) :=
      hx.replaceText new holder hflow hstop
    refine wellFormed_iff_tables.mpr ⟨?_, ?_⟩
    · rw [marks_replaceText]
      exact htables.1.map (hinside .mark)
    · rw [bookmarks_replaceText]
      exact (htables.2.filter _).map (hinside .bookmark)
  modifyCells {d} r f hd := by
    have htables := wellFormed_iff_tables.mp hd
    have hinside (x : TextRange) (hx : d.Inside x) := hx.modifyCells r f
    refine wellFormed_iff_tables.mpr ⟨?_, ?_⟩
    · rw [show (d.modifyCells r f).marks = d.marks by rw [modifyCells_eq]]
      exact htables.1.of_inside hinside
    · rw [show (d.modifyCells r f).bookmarks = d.bookmarks by rw [modifyCells_eq]]
      exact htables.2.of_inside hinside
  putBookmark {d r cells} name hflow hstop hd := by
    have htables := wellFormed_iff_tables.mp hd
    have hr : d.Inside r := ⟨cells, hflow, hstop⟩
    refine wellFormed_iff_tables.mpr ⟨?_, ?_⟩
    · exact htables.1.of_inside fun x hx => hx.of_cells? fun flow => rfl
    · exact (htables.2.put hr).of_inside fun x hx => hx.of_cells? fun flow => rfl
  eraseBookmark {d} name hd := by
    have htables := wellFormed_iff_tables.mp hd
    refine wellFormed_iff_tables.mpr ⟨?_, ?_⟩
    · exact htables.1.of_inside fun x hx => hx.of_cells? fun flow => rfl
    · exact (htables.2.filter _).of_inside fun x hx => hx.of_cells? fun flow => rfl
  setProperties {d} properties hd := by
    have htables := wellFormed_iff_tables.mp hd
    exact wellFormed_iff_tables.mpr
      ⟨htables.1.of_inside fun x hx => hx.of_cells? fun flow => rfl,
        htables.2.of_inside fun x hx => hx.of_cells? fun flow => rfl⟩
  putMark {d r cells name} hflow hstop _ hd := by
    have htables := wellFormed_iff_tables.mp hd
    have hr : d.Inside r := ⟨cells, hflow, hstop⟩
    refine wellFormed_iff_tables.mpr ⟨?_, ?_⟩
    · exact (htables.1.put hr).of_inside fun x hx => hx.of_cells? fun flow => rfl
    · exact htables.2.of_inside fun x hx => hx.of_cells? fun flow => rfl
  eraseMark {d} name hd := by
    have htables := wellFormed_iff_tables.mp hd
    refine wellFormed_iff_tables.mpr ⟨?_, ?_⟩
    · exact (htables.1.filter _).of_inside fun x hx => hx.of_cells? fun flow => rfl
    · exact htables.2.of_inside fun x hx => hx.of_cells? fun flow => rfl

end DocCite
