import DocCite.Proofs.Document.Outline

/-!
# Sound documents

In the documents that come of typing, deleting, formatting and adding footnotes, anchors are what
they seem: a character that stands for a footnote of the document, and the only one that does. A
document starts sound (`sound_ofText`) and stays so (`Sound.replaceText`, `Sound.modifyCells`,
`Sound.addFootnote`).
-/

namespace DocCite

/-- **A document is sound** when it is well formed, every anchor looks like one and is that of a
footnote of the document, and no footnote is anchored twice. -/
structure Document.Sound (d : Document) : Prop extends d.WellFormed where
  anchors_char : ∀ flow, ∀ l ∈ d.letters flow, l.footnote ≠ none → l.char = Cell.anchorChar
  anchors_there : ∀ n ∈ (d.letters .body).filterMap Letter.footnote, n ≤ d.footnotes.length
  anchors_nodup : ((d.letters .body).filterMap Letter.footnote).Nodup

/-- Plain text anchors nothing. -/
@[simp] theorem Piece.filterMap_footnote_plain (s : List Char) :
    (plain s).filterMap Letter.footnote = [] :=
  List.filterMap_eq_nil_iff.mpr fun l hl => by
    obtain ⟨c, -, rfl⟩ := List.mem_map.mp hl
    rfl

namespace Document

variable {d d' : Document}

/-- A document without anchors is sound. -/
theorem sound_of_text (hd : d.WellFormed) (hbody : ∀ c ∈ d.body, c.isAnchor = false)
    (hnotes : ∀ cells ∈ d.footnotes, ∀ c ∈ cells, c.isAnchor = false) : d.Sound := by
  have hcells (flow : Flow) : ∀ c ∈ (d.cells? flow).getD [], c.isAnchor = false := by
    rcases flow with _ | _ | n
    · exact hbody
    · exact fun c hc => absurd hc List.not_mem_nil
    · cases hn : d.footnotes[n]? with
      | none =>
        intro c hc
        simp [cells?, hn] at hc
      | some cells =>
        intro c hc
        simp only [cells?, hn, Option.getD_some] at hc
        exact hnotes cells (List.mem_of_getElem? hn) c hc
  have hnone (flow : Flow) : ∀ l ∈ d.letters flow, l.footnote = none := by
    intro l hl
    obtain ⟨c, hc, rfl⟩ := List.mem_map.mp hl
    exact Cell.footnote_letter (hcells flow c hc)
  have hnil : (d.letters .body).filterMap Letter.footnote = [] :=
    List.filterMap_eq_nil_iff.mpr (hnone .body)
  refine ⟨hd, fun flow l hl hanchor => absurd (hnone flow l hl) hanchor, ?_, ?_⟩
  · rw [hnil]
    exact fun n hn => absurd hn List.not_mem_nil
  · rw [hnil]
    exact List.nodup_nil

/-- **A new document is sound.** -/
theorem sound_ofText (title text : String) : (ofText title text).Sound := by
  refine sound_of_text ⟨List.nodup_nil, fun m hm => ?_, List.nodup_nil, fun b hb => ?_⟩
    (fun c hc => ?_) fun cells hcells => ?_
  · cases hm
  · cases hb
  · have hbody : (ofText title text).body = Cells.typed [] 0 text.toList := by
      simp [ofText, append, type, spliceCells, relocate, editCells, Cells.splice, cells?]
    rw [hbody, Cells.typed] at hc
    obtain ⟨x, -, rfl⟩ := List.mem_map.mp hc
    rfl
  · cases hcells

theorem letters_replaceText (r : TextRange) (new : String) (flow : Flow)
    (hr : d.Inside r) :
    (d.replaceText r new).letters flow =
      if flow = r.flow then
        (d.letters flow).take r.start ++ Piece.plain new.toList ++ (d.letters flow).drop r.stop
      else d.letters flow := by
  obtain ⟨cells, hcells, -⟩ := hr
  rw [letters, cells?_replaceText]
  split_ifs with hflow
  · rw [letters, hflow, hcells]
    exact Arrangement.map_letter_typedOver cells r new.toList
  · rfl

theorem length_footnotes_editCells (d : Document) (flow : Flow) (f : List Cell → List Cell) :
    (d.editCells flow f).footnotes.length = d.footnotes.length := by
  rcases flow with _ | _ | n <;> simp [editCells]

theorem length_footnotes_replaceText (r : TextRange) (new : String) :
    (d.replaceText r new).footnotes.length = d.footnotes.length := by
  have hdelete : (d.delete r).footnotes.length = d.footnotes.length := by
    unfold delete
    split_ifs
    · rfl
    · exact length_footnotes_editCells d r.flow _
  exact (length_footnotes_editCells (d.delete r) r.flow _).trans hdelete

/-- A document stays sound when no anchor comes and no footnote goes. -/
theorem Sound.of_letters (hd : d.Sound) (hwell : d'.WellFormed)
    (hletters : ∀ flow, ∀ l ∈ d'.letters flow, l ∈ d.letters flow ∨ l.footnote = none)
    (hanchors : ((d'.letters .body).filterMap Letter.footnote).Sublist
      ((d.letters .body).filterMap Letter.footnote))
    (hnotes : d'.footnotes.length = d.footnotes.length) : d'.Sound := by
  refine ⟨hwell, fun flow l hl hanchor => ?_, fun n hn => ?_, hd.anchors_nodup.sublist hanchors⟩
  · rcases hletters flow l hl with hold | hnone
    · exact hd.anchors_char flow l hold hanchor
    · exact absurd hnone hanchor
  · rw [hnotes]
    exact hd.anchors_there n (hanchors.subset hn)

/-- Nor does it matter what else a document holds beside its letters. -/
theorem Sound.of_cells (hd : d.Sound) (hwell : d'.WellFormed) (hbody : d'.body = d.body)
    (hnotes : d'.footnotes = d.footnotes) : d'.Sound := by
  have hletters (flow : Flow) : d'.letters flow = d.letters flow := by
    rcases flow with _ | _ | n <;> simp only [letters, cells?, hbody, hnotes]
  refine hd.of_letters hwell (fun flow l hl => Or.inl (hletters flow ▸ hl)) ?_
    (congrArg List.length hnotes)
  rw [hletters]

theorem Sound.of_same (h : SameDocument d d') (hd : d.Sound) : d'.Sound :=
  hd.of_cells (hd.toWellFormed.of_same h) h.body.symm h.footnotes.symm

/-- **Replacing text keeps a document sound.** -/
theorem Sound.replaceText (hd : d.Sound) {r : TextRange} (hr : d.Inside r) (new : String) :
    (d.replaceText r new).Sound := by
  have hwell : (d.replaceText r new).WellFormed := by
    obtain ⟨cells, hcells, hstop⟩ := hr
    exact allowsMarking_wellFormed.replaceText new hcells hstop hd.toWellFormed
  refine hd.of_letters hwell (fun flow l hl => ?_) ?_ (length_footnotes_replaceText r new)
  · rw [letters_replaceText r new flow hr] at hl
    split_ifs at hl
    · rcases List.mem_append.mp hl with hl | hdrop
      · rcases List.mem_append.mp hl with htake | hplain
        · exact Or.inl (List.mem_of_mem_take htake)
        · obtain ⟨c, -, rfl⟩ := List.mem_map.mp hplain
          exact Or.inr rfl
      · exact Or.inl (List.mem_of_mem_drop hdrop)
    · exact Or.inl hl
  · rw [letters_replaceText r new .body hr]
    split_ifs with hflow
    · rw [List.filterMap_append, List.filterMap_append, Piece.filterMap_footnote_plain,
        List.append_nil, ← List.filterMap_append]
      refine List.Sublist.filterMap _ ?_
      conv_rhs => rw [← List.take_append_drop r.start (d.letters .body)]
      refine List.Sublist.append (List.Sublist.refl _) ?_
      exact List.drop_sublist_drop_left _ r.start_le_stop
    · exact List.Sublist.refl _

/-- Where some characters cease to be anchors and none becomes one, the anchors left are some of the
former ones. -/
theorem sublist_footnotes_map {f : Cell → Cell}
    (hf : ∀ c, (f c).letter = c.letter ∨ (f c).letter.footnote = none) (cells : List Cell) :
    (((cells.map f).map Cell.letter).filterMap Letter.footnote).Sublist
      ((cells.map Cell.letter).filterMap Letter.footnote) := by
  induction cells with
  | nil => exact List.Sublist.refl _
  | cons c cells ih =>
    simp only [List.map_cons, List.filterMap_cons]
    rcases hf c with hsame | hnone
    · rw [hsame]
      cases c.letter.footnote with
      | none => exact ih
      | some n => exact ih.cons_cons n
    · rw [hnone]
      cases c.letter.footnote with
      | none => exact ih
      | some n => exact ih.cons n

/-- **Changing characters keeps a document sound**, if none becomes an anchor. -/
theorem Sound.modifyCells (hd : d.Sound) (r : TextRange) {f : Cell → Cell}
    (hf : ∀ c, (f c).letter = c.letter ∨ (f c).letter.footnote = none) :
    (d.modifyCells r f).Sound := by
  have hletters (flow : Flow) : ∃ before under behind : List Cell,
      d.letters flow = (before ++ under ++ behind).map Cell.letter ∧
        (d.modifyCells r f).letters flow =
          (before ++ under.map f ++ behind).map Cell.letter := by
    have hcells := cells?_modifyCells d r f flow
    by_cases hflow : flow = r.flow
    · have hwhole := Cells.modify_id ((d.cells? flow).getD []) r.start_le_stop
      rw [Cells.modify, List.map_id] at hwhole
      refine ⟨_, _, _, congrArg (List.map Cell.letter) hwhole.symm, ?_⟩
      rw [letters, hcells, if_pos hflow]
      cases d.cells? flow <;> simp [Cells.modify, Cells.slice]
    · refine ⟨(d.cells? flow).getD [], [], [], by simp [letters], ?_⟩
      rw [letters, hcells, if_neg hflow]
      simp
  have hwell := allowsMarking_wellFormed.modifyCells r f hd.toWellFormed
  refine hd.of_letters hwell (fun flow l hl => ?_) ?_ ?_
  · obtain ⟨before, under, behind, hold, hnew⟩ := hletters flow
    rw [hnew] at hl
    rw [hold]
    obtain ⟨c, hc, rfl⟩ := List.mem_map.mp hl
    rcases List.mem_append.mp hc with hc | hbehind
    · rcases List.mem_append.mp hc with hbefore | hunder
      · exact Or.inl (List.mem_map_of_mem (by simp [hbefore]))
      · obtain ⟨old, hwas, rfl⟩ := List.mem_map.mp hunder
        refine (hf old).imp_left fun hsame => ?_
        rw [hsame]
        exact List.mem_map_of_mem (by simp [hwas])
    · exact Or.inl (List.mem_map_of_mem (by simp [hbehind]))
  · obtain ⟨before, under, behind, hold, hnew⟩ := hletters .body
    rw [hnew, hold]
    simp only [List.map_append, List.filterMap_append]
    exact ((List.Sublist.refl _).append (sublist_footnotes_map hf under)).append
      (List.Sublist.refl _)
  · exact length_footnotes_editCells d r.flow _

theorem length_body_addFootnote (place : Nat) (text : String) :
    (d.addFootnote place text).body.length = d.body.length + 1 := by
  simp [Document.addFootnote, spliceCells, relocate, editCells, Cells.splice]
  omega

/-- A footnote is added as if its anchor was typed. -/
theorem tables_addFootnote (place : Nat) (text : String) :
    (d.addFootnote place text).marks =
        (d.replaceText (.collapsed .body (min place d.body.length)) "*").marks ∧
      (d.addFootnote place text).bookmarks =
        (d.replaceText (.collapsed .body (min place d.body.length)) "*").bookmarks := by
  have hdelete : d.delete (.collapsed .body (min place d.body.length)) = d := by
    simp [delete, TextRange.isEmpty, TextRange.collapsed]
  rw [replaceText, hdelete]
  exact ⟨rfl, rfl⟩

/-- What is inside the text with the anchor typed is inside the text with the footnote. -/
theorem inside_addFootnote {place : Nat} (text : String) {x : TextRange}
    (hx : (d.replaceText (.collapsed .body (min place d.body.length)) "*").Inside x) :
    (d.addFootnote place text).Inside x := by
  obtain ⟨cells, hcells, hstop⟩ := hx
  rw [cells?_replaceText] at hcells
  rcases hflow : x.flow with _ | _ | k
  · simp only [hflow, TextRange.flow_collapsed, if_true] at hcells
    have hlength := length_typedOver (r := .collapsed .body (min place d.body.length))
      "*".toList (Nat.min_le_right place d.body.length)
    have hempty : (TextRange.collapsed .body (min place d.body.length)).length = 0 :=
      Nat.sub_self _
    have hone : "*".toList.length = 1 := rfl
    rw [← Option.some.inj hcells] at hstop
    beta_reduce at hstop
    refine ⟨_, by rw [hflow]; rfl, Nat.le_trans hstop ?_⟩
    rw [length_body_addFootnote]
    omega
  · rw [hflow] at hcells
    cases hcells
  · simp only [hflow, TextRange.flow_collapsed, reduceCtorEq, if_false] at hcells
    have hk : k < d.footnotes.length := (List.getElem?_eq_some_iff.mp hcells).1
    refine ⟨cells, ?_, hstop⟩
    rw [hflow]
    exact (List.getElem?_append_left hk).trans hcells

/-- Adding a footnote keeps a document well formed. -/
theorem WellFormed.addFootnote (hd : d.WellFormed) (place : Nat) (text : String) :
    (d.addFootnote place text).WellFormed := by
  obtain ⟨hmarks, hbookmarks⟩ := tables_addFootnote (d := d) place text
  have htyped := allowsMarking_wellFormed.replaceText
    (r := .collapsed .body (min place d.body.length)) "*" rfl (Nat.min_le_right _ _) hd
  refine ⟨?_, fun m hm => ?_, ?_, fun b hb => ?_⟩
  · rw [hmarks]
    exact htyped.marks_nodup
  · exact inside_addFootnote text (htyped.marks_inside m (hmarks ▸ hm))
  · rw [hbookmarks]
    exact htyped.bookmarks_nodup
  · exact inside_addFootnote text (htyped.bookmarks_inside b (hbookmarks ▸ hb))

/-- **Adding a footnote keeps a document sound.** -/
theorem Sound.addFootnote (hd : d.Sound) (place : Nat) (text : String) :
    (d.addFootnote place text).Sound := by
  have hbody : (d.addFootnote place text).letters .body =
      (d.letters .body).take (min place d.body.length) ++
        ⟨Cell.anchorChar, some (d.footnotes.length + 1)⟩ ::
          (d.letters .body).drop (min place d.body.length) := by
    simp [letters, cells?, Document.addFootnote, spliceCells, relocate, editCells, Cells.splice,
      Cell.letter]
  have hnote (k : Nat) : (d.addFootnote place text).cells? (.footnote (k + 1)) =
      (d.footnotes ++ [text.toList.map fun c =>
        { char := c, attributes := { paragraphStyle := some "Standard" } }])[k]? := rfl
  have hanchors : ((d.addFootnote place text).letters .body).filterMap Letter.footnote =
      ((d.letters .body).take (min place d.body.length)).filterMap Letter.footnote ++
        (d.footnotes.length + 1) ::
          ((d.letters .body).drop (min place d.body.length)).filterMap Letter.footnote := by
    rw [hbody, List.filterMap_append, List.filterMap_cons]
  have hperm : (((d.addFootnote place text).letters .body).filterMap Letter.footnote).Perm
      ((d.footnotes.length + 1) :: (d.letters .body).filterMap Letter.footnote) := by
    rw [hanchors]
    refine List.perm_middle.trans (List.Perm.cons _ ?_)
    rw [← List.filterMap_append, List.take_append_drop]
  have hlength : (d.addFootnote place text).footnotes.length = d.footnotes.length + 1 := by
    simp [Document.addFootnote]
  refine ⟨hd.toWellFormed.addFootnote place text, fun flow l hl hanchor => ?_, fun n hn => ?_, ?_⟩
  · rcases flow with _ | _ | k
    · rw [hbody] at hl
      rcases List.mem_append.mp hl with htake | hrest
      · exact hd.anchors_char .body l (List.mem_of_mem_take htake) hanchor
      · rcases List.mem_cons.mp hrest with rfl | hdrop
        · rfl
        · exact hd.anchors_char .body l (List.mem_of_mem_drop hdrop) hanchor
    · cases hl
    · rw [letters, hnote] at hl
      by_cases hk : k < d.footnotes.length
      · rw [List.getElem?_append_left hk] at hl
        exact hd.anchors_char (.footnote (k + 1)) l hl hanchor
      · refine absurd ?_ hanchor
        rw [List.getElem?_append_right (Nat.le_of_not_lt hk)] at hl
        cases hsingle : k - d.footnotes.length with
        | zero =>
          rw [hsingle] at hl
          obtain ⟨c, hc, rfl⟩ := List.mem_map.mp hl
          obtain ⟨x, -, rfl⟩ := List.mem_map.mp hc
          rfl
        | succ j =>
          rw [hsingle] at hl
          cases hl
  · rw [hlength]
    rcases List.mem_cons.mp (hperm.mem_iff.mp hn) with rfl | hold
    · exact Nat.le_refl _
    · exact Nat.le_succ_of_le (hd.anchors_there n hold)
  · refine hperm.nodup_iff.mpr (List.nodup_cons.mpr ⟨fun hmem => ?_, hd.anchors_nodup⟩)
    exact absurd (hd.anchors_there _ hmem) (by omega)

end Document

end DocCite
