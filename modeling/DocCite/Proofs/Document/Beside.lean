import DocCite.Proofs.Document.Arrangement
import DocCite.Proofs.Document.Surrounding

/-!
# What is beside a range

The anchors of footnotes and the bookmarks around a range move along while text fills the range
(`surrounds_around`). A bookmark has to be beside the range for that, with text between them, as one
that touches what is deleted can go with it. When the text of the range is as long as before, all
are where they were.
-/

namespace DocCite

namespace TextRange

variable {x r : TextRange} {count i j : Nat}

/-- A range is beside another one: they do not even touch. -/
def Beside (x r : TextRange) : Prop := x.flow = r.flow → x.stop < r.start ∨ r.stop < x.start

instance (x r : TextRange) : Decidable (x.Beside r) := inferInstanceAs (Decidable (_ → _))

/-- Text that is as long as before leaves a range beside it in its place. -/
theorem Beside.afterFilling_length (h : x.Beside r) : x.afterFilling r r.length = x := by
  by_cases hflow : x.flow = r.flow
  · have hx := x.start_le_stop
    have hr := r.start_le_stop
    have hplace {p : Nat} (hp : p < r.start ∨ r.stop < p) :
        filledPlace r.start r.stop (r.stop - r.start) p = p := by
      unfold filledPlace
      split_ifs <;> omega
    refine eq_of_ends (flow_afterFilling _ _ _) ?_ ?_
    · exact (start_afterFilling hflow _).trans (hplace (by have := h hflow; omega))
    · exact (stop_afterFilling hflow _).trans (hplace (by have := h hflow; omega))
  · exact afterFilling_of_ne hflow _

/-- **Edits inside what fills a range** move what is beside it, whatever its holder. -/
theorem Beside.afterReplacing_afterFilling (h : x.Beside r) (hij : i ≤ j) (hj : j ≤ count)
    (holder : RangeHolder) (s : List Char) :
    (x.afterFilling r count).afterReplacing holder (new r.flow (r.start + i) (r.start + j)) s =
      x.afterFilling r (i + s.length + (count - j)) := by
  by_cases hflow : x.flow = r.flow
  · have hx := x.start_le_stop
    have hr := r.start_le_stop
    have hside := h hflow
    have hsame : (x.afterFilling r count).flow =
        (new r.flow (r.start + i) (r.start + j)).flow := (flow_afterFilling _ _ _).trans hflow
    have hplace (moves b : Bool) {p : Nat} (hp : p < r.start ∨ r.stop < p) :
        placeAfterTyping moves ⟨r.start + i, s.length, b⟩
            (placeAfterDeleting (r.start + i) (r.start + j)
              (filledPlace r.start r.stop count p)) =
          filledPlace r.start r.stop (i + s.length + (count - j)) p := by
      simp only [placeAfterTyping, placeAfterDeleting, filledPlace]
      split_ifs <;> omega
    refine eq_of_ends (by simp) ?_ ?_
    · rw [start_afterReplacing hsame, start_afterFilling hflow, start_afterFilling hflow, start_new,
        stop_new, Nat.min_eq_left (by omega), Nat.max_eq_right (by omega), hplace _ _ (by omega)]
    · rw [stop_afterReplacing hsame, stop_afterFilling hflow, stop_afterFilling hflow, start_new,
        stop_new, Nat.min_eq_left (by omega), Nat.max_eq_right (by omega), hplace _ _ (by omega)]
  · rw [afterFilling_of_ne hflow, afterFilling_of_ne hflow, afterReplacing, flow_new, if_neg hflow]

/-- What is beside a range does not go with the text in it. -/
theorem Beside.not_isDeletedWith (h : x.Beside r) (hij : i ≤ j) (hj : j ≤ count) :
    Document.isDeletedWith (new r.flow (r.start + i) (r.start + j)) (x.afterFilling r count) =
      false := by
  by_cases hflow : x.flow = r.flow
  · have hx := x.start_le_stop
    have hr := r.start_le_stop
    have hside := h hflow
    have hnot : ¬ (r.start + i ≤ (x.afterFilling r count).start ∧
        (x.afterFilling r count).stop ≤ r.start + j) := by
      rw [start_afterFilling hflow, stop_afterFilling hflow]
      simp only [filledPlace]
      split_ifs <;> omega
    simp only [Document.isDeletedWith, contains, start_new, stop_new, Bool.and_eq_false_iff,
      Nat.min_eq_left (Nat.add_le_add_left hij _), Nat.max_eq_right (Nat.add_le_add_left hij _),
      decide_eq_false_iff_not]
    tauto
  · rw [afterFilling_of_ne hflow]
    simp [Document.isDeletedWith, contains, sameFlow, Ne.symm hflow]

end TextRange

/-! ## Anchors -/

/-- Anchors of the body when text without any fills a range. -/
def anchorsFilled (anchors : List (Option Nat)) (r : TextRange) (count : Nat) :
    List (Option Nat) :=
  if r.flow = .body then anchors.take r.start ++ List.replicate count none ++ anchors.drop r.stop
  else anchors

theorem anchorsFilled_anchorsFilled {anchors : List (Option Nat)} {r : TextRange}
    {count i j : Nat} (hr : r.flow = .body → r.stop ≤ anchors.length) (hij : i ≤ j)
    (hj : j ≤ count) (count' : Nat) :
    anchorsFilled (anchorsFilled anchors r count) (.new r.flow (r.start + i) (r.start + j))
        count' =
      anchorsFilled anchors r (i + count' + (count - j)) := by
  unfold anchorsFilled
  rw [TextRange.flow_new]
  split_ifs with hflow
  · have hle := r.start_le_stop
    have hstop := hr hflow
    have hbefore : (anchors.take r.start).length = r.start := List.length_take_of_le (by omega)
    have hsplit : count = i + (j - i) + (count - j) := by omega
    rw [TextRange.start_new, TextRange.stop_new, Nat.min_eq_left (by omega),
      Nat.max_eq_right (by omega)]
    have htake : (anchors.take r.start ++ List.replicate count none ++
        anchors.drop r.stop).take (r.start + i) =
          anchors.take r.start ++ List.replicate i none := by
      rw [List.append_assoc, List.take_append, hbefore, List.take_of_length_le (by omega),
        Nat.add_sub_cancel_left, List.take_append_of_le_length (by simp; omega),
        List.take_replicate, Nat.min_eq_left (by omega)]
    have hdrop : (anchors.take r.start ++ List.replicate count none ++
        anchors.drop r.stop).drop (r.start + j) =
          List.replicate (count - j) none ++ anchors.drop r.stop := by
      rw [List.append_assoc, List.drop_append, hbefore, List.drop_of_length_le (by omega),
        Nat.add_sub_cancel_left, List.drop_append_of_le_length (by simp; omega),
        List.drop_replicate, List.nil_append]
    rw [htake, hdrop, List.replicate_add, List.replicate_add]
    simp only [List.append_assoc]
  · rfl

namespace Document

/-- The footnotes that the characters of the body anchor. -/
def anchors (d : Document) : List (Option Nat) := d.body.map fun c => c.letter.footnote

theorem anchors_replaceText (d : Document) (r : TextRange) (new : String) :
    (d.replaceText r new).anchors = anchorsFilled d.anchors r new.toList.length := by
  have hcells := cells?_replaceText d r new .body
  unfold anchorsFilled anchors
  by_cases hflow : r.flow = .body
  · rw [if_pos hflow.symm] at hcells
    rw [if_pos hflow, Option.some.inj hcells]
    have htyped (cells : List Cell) (p : Nat) (s : List Char) :
        (Cells.typed cells p s).map (fun c => c.letter.footnote) =
          List.replicate s.length none := by
      rw [Cells.typed, List.map_map]
      exact List.eq_replicate_iff.mpr ⟨by simp, by simp [Cell.letter]⟩
    simp only [typedOver, List.map_append, List.map_take, List.map_drop, htyped]
  · rw [if_neg (Ne.symm hflow)] at hcells
    rw [if_neg hflow, Option.some.inj hcells]

theorem anchors_modifyCells (d : Document) (r : TextRange) {f : Cell → Cell}
    (hf : ∀ c, (f c).letter.footnote = c.letter.footnote) :
    (d.modifyCells r f).anchors = d.anchors := by
  have hcells := cells?_modifyCells d r f .body
  unfold anchors
  split_ifs at hcells
  · rw [Option.some.inj hcells]
    have hmap (part : List Cell) : (part.map f).map (fun c => c.letter.footnote) =
        part.map fun c => c.letter.footnote := by
      rw [List.map_map]
      exact List.map_congr_left fun c _ => hf c
    have hid := Cells.modify_id d.body r.start_le_stop
    simp only [Cells.modify, List.map_id] at hid
    simp only [Cells.modify, List.map_append, hmap]
    rw [← List.map_append, ← List.map_append, hid]
  · rw [Option.some.inj hcells]

/-- Characters that come to anchor nothing. -/
theorem anchors_modifyCells_of_none (d : Document) {r : TextRange} {f : Cell → Cell}
    (hf : ∀ c, (f c).letter.footnote = none) (hr : r.flow = .body → r.stop ≤ d.body.length) :
    (d.modifyCells r f).anchors = anchorsFilled d.anchors r r.length := by
  have hcells := cells?_modifyCells d r f .body
  unfold anchorsFilled anchors
  by_cases hflow : r.flow = .body
  · have hle := r.start_le_stop
    have hstop := hr hflow
    rw [if_pos hflow.symm] at hcells
    rw [if_pos hflow, Option.some.inj hcells]
    have hinside : ((Cells.slice d.body r.start r.stop).map f).map (fun c => c.letter.footnote) =
        List.replicate r.length none := by
      rw [List.map_map]
      refine List.eq_replicate_iff.mpr ⟨?_, by simp [hf]⟩
      rw [List.length_map, Cells.slice, List.length_drop, List.length_take_of_le hstop]
      rfl
    simp only [Cells.modify, List.map_append, List.map_take, List.map_drop, hinside]
  · rw [if_neg (Ne.symm hflow)] at hcells
    rw [if_neg hflow, Option.some.inj hcells]

end Document

/-! ## Around a range -/

/-- Text that fills a range can be told from the whole. -/
theorem MarkedText.filled_injective {v : MarkedText} {r : TextRange} (hr : v.Inside r)
    {s t : List Char} (h : v.filled r s = v.filled r t) : s = t := by
  obtain ⟨text, htext, -⟩ := hr
  have hflow := congrFun h r.flow
  simp only [filled, if_true, htext, Option.map_some, Option.some.injEq] at hflow
  exact List.append_cancel_left (List.append_cancel_right hflow)

/-- **What is around a range is where it was**, while some text fills the range. -/
structure HoldsAround (d₀ : Document) (r : TextRange) (s : List Char) (d : Document) : Prop where
  text : d.markedText.text = d₀.markedText.filled r s
  anchors : d.anchors = anchorsFilled d₀.anchors r s.length
  bookmarks : ∀ name, (∀ x, d₀.bookmarks.get? name = some x → x.Beside r) →
    d.bookmarks.get? name = (d₀.bookmarks.get? name).map fun x => x.afterFilling r s.length

variable {d₀ d d' : Document} {r : TextRange} {s : List Char}

theorem HoldsAround.of_same (h : HoldsAround d₀ r s d) (hsame : SameDocument d d') :
    HoldsAround d₀ r s d' where
  text := by
    rw [← h.text]
    exact congrArg MarkedText.text ((shows_self d).of_same hsame).markedText
  anchors := by rw [← h.anchors, Document.anchors, Document.anchors, hsame.body]
  bookmarks := by
    rw [← hsame.bookmarks]
    exact h.bookmarks

/-- **Edits inside a range** leave in place what is around it. -/
theorem surrounds_around (hr : d₀.markedText.Inside r) :
    Surrounds (fun d => ∃ s, HoldsAround d₀ r s d) d₀.markedText r where
  of_same := fun hsame ⟨s, h⟩ => ⟨s, h.of_same hsame⟩
  setMarks := fun _ ⟨s, h⟩ => ⟨s, h.text, h.anchors, h.bookmarks⟩
  modifyCells := by
    rintro d q f hchar hrole ⟨s, h⟩
    refine ⟨s, ?_, ?_, ?_⟩
    · rw [Document.markedText_modifyCells d q hchar, h.text]
    · rw [Document.anchors_modifyCells d q fun c => by rw [Cell.letter, Cell.letter, hrole c],
        h.anchors]
    · rw [Document.modifyCells_eq]
      exact h.bookmarks
  replaceText := by
    rintro d s i j new htext hij hj ⟨s', h⟩
    obtain rfl : s' = s := MarkedText.filled_injective hr (h.text.symm.trans htext)
    have hlength : (s'.take i ++ new.toList ++ s'.drop j).length =
        i + new.toList.length + (s'.length - j) := by
      rw [List.length_append, List.length_append, List.length_take_of_le (by omega),
        List.length_drop]
    refine ⟨s'.take i ++ new.toList ++ s'.drop j, ?_, ?_, fun name hbeside => ?_⟩
    · rw [Document.markedText_replaceText]
      exact MarkedText.text_replace_filled hr htext hij hj
    · rw [Document.anchors_replaceText, h.anchors, hlength]
      refine anchorsFilled_anchorsFilled (fun hflow => ?_) hij hj _
      obtain ⟨text, hbody, hstop⟩ := hr
      rw [hflow] at hbody
      rw [Document.anchors, List.length_map, ← List.length_map (f := Cell.char)]
      rwa [← Option.some.inj hbody] at hstop
    · have hkept : Keyed.get? (d.bookmarks.filter fun b =>
          !Document.isDeletedWith (.new r.flow (r.start + i) (r.start + j)) b.2) name =
          d.bookmarks.get? name := by
        refine Keyed.get?_filter fun y hy => ?_
        rw [h.bookmarks name hbeside] at hy
        obtain ⟨x, hx, rfl⟩ := Option.map_eq_some_iff.mp hy
        rw [(hbeside x hx).not_isDeletedWith hij hj]
        rfl
      rw [Document.bookmarks_replaceText, Keyed.get?_map _ fun y : TextRange =>
          y.afterReplacing .bookmark (.new r.flow (r.start + i) (r.start + j)) new.toList, hkept,
        h.bookmarks name hbeside, Option.map_map, hlength]
      refine Option.map_congr fun x hx => ?_
      exact (hbeside x hx).afterReplacing_afterFilling hij hj .bookmark new.toList

end DocCite
