import DocCite.Proofs.Document.MarkedText

/-!
# Text that fills a range

Several edits inside one range come to one: the text of the range is another one in the end, and
the marks around it have moved by the difference (`fill`). An end of a mark that was strictly
inside the range is at its end from then on. Further edits inside the range change the text that
fills it and nothing else (`fill_replace`).
-/

namespace DocCite

/-! ## Lists with a part replaced -/

section Replaced

variable {α : Type} {t : List α} {i j a b : Nat}

/-- What is before a replaced part stays where it is. -/
theorem drop_take_replaced_before (hi : i ≤ t.length) (hb : b ≤ i) (new : List α) :
    ((t.take i ++ new ++ t.drop j).take b).drop a = (t.take b).drop a := by
  have hlength : b ≤ (t.take i).length := by rwa [List.length_take_of_le hi]
  rw [List.append_assoc, List.take_append_of_le_length hlength, List.take_take,
    Nat.min_eq_left hb]

/-- What is behind a replaced part is as far behind the new one. -/
theorem drop_take_replaced_behind (hi : i ≤ t.length) (ha : j ≤ a) (hb : j ≤ b) (new : List α) :
    ((t.take i ++ new ++ t.drop j).take (i + new.length + (b - j))).drop
        (i + new.length + (a - j)) = (t.take b).drop a := by
  have hlength : (t.take i ++ new).length = i + new.length := by
    rw [List.length_append, List.length_take_of_le hi]
  rw [← hlength, List.take_length_add_append, List.drop_length_add_append, List.take_drop,
    List.drop_drop, Nat.add_sub_cancel' ha, Nat.add_sub_cancel' hb]

end Replaced

namespace TextRange

/-! ## Places -/

theorem collapsed_eq_new (flow : Flow) (p : Nat) : collapsed flow p = new flow p p :=
  eq_of_ends rfl (Nat.min_self p).symm (Nat.max_self p).symm

/-- A place after the text from `start` to `stop` was filled by `count` characters. -/
def filledPlace (start stop count place : Nat) : Nat :=
  if place ≤ start then place
  else if place ≤ stop then start + count
  else place - stop + (start + count)

theorem filledPlace_mono {start stop count a b : Nat} (hab : a ≤ b) :
    filledPlace start stop count a ≤ filledPlace start stop count b := by
  unfold filledPlace
  split_ifs <;> omega

/-- A range after another one was filled. -/
def afterFilling (x r : TextRange) (count : Nat) : TextRange :=
  if x.flow = r.flow then
    new x.flow (filledPlace r.start r.stop count x.start) (filledPlace r.start r.stop count x.stop)
  else x

@[simp] theorem flow_afterFilling (x r : TextRange) (count : Nat) :
    (x.afterFilling r count).flow = x.flow := by
  unfold afterFilling
  split_ifs <;> rfl

theorem start_afterFilling {x r : TextRange} (h : x.flow = r.flow) (count : Nat) :
    (x.afterFilling r count).start = filledPlace r.start r.stop count x.start := by
  rw [afterFilling, if_pos h, start_new]
  exact Nat.min_eq_left (filledPlace_mono x.start_le_stop)

theorem stop_afterFilling {x r : TextRange} (h : x.flow = r.flow) (count : Nat) :
    (x.afterFilling r count).stop = filledPlace r.start r.stop count x.stop := by
  rw [afterFilling, if_pos h, stop_new]
  exact Nat.max_eq_right (filledPlace_mono x.start_le_stop)

/-- What is in another flow stays. -/
theorem afterFilling_of_ne {x r : TextRange} (h : x.flow ≠ r.flow) (count : Nat) :
    x.afterFilling r count = x := if_neg h

/-- The range that was filled is as long as what fills it. -/
theorem afterFilling_self (r : TextRange) {count : Nat} (h : r.start < r.stop ∨ count = 0) :
    r.afterFilling r count = new r.flow r.start (r.start + count) := by
  have hle := r.start_le_stop
  refine eq_of_ends (flow_afterFilling _ _ _) ?_ ?_
  · rw [start_afterFilling rfl, start_new, filledPlace]
    split_ifs <;> omega
  · rw [stop_afterFilling rfl, stop_new, filledPlace]
    split_ifs <;> omega

theorem start_afterReplacing {x r : TextRange} (h : x.flow = r.flow) (holder : RangeHolder)
    (s : List Char) :
    (x.afterReplacing holder r s).start =
      placeAfterTyping ((x.afterDeleting r.start r.stop).movesAtStart holder)
        ⟨r.start, s.length, '\n' ∈ s⟩ (placeAfterDeleting r.start r.stop x.start) := by
  rw [afterReplacing, if_pos h, start_afterTyping, start_afterDeleting x r.start_le_stop]

theorem stop_afterReplacing {x r : TextRange} (h : x.flow = r.flow) (holder : RangeHolder)
    (s : List Char) :
    (x.afterReplacing holder r s).stop =
      placeAfterTyping
        ((x.afterDeleting r.start r.stop).movesAtStop holder ⟨r.start, s.length, '\n' ∈ s⟩)
        ⟨r.start, s.length, '\n' ∈ s⟩ (placeAfterDeleting r.start r.stop x.stop) := by
  rw [afterReplacing, if_pos h, stop_afterTyping, stop_afterDeleting x r.start_le_stop]

/-- A mark after text was replaced: it moves along where it starts at the new text or behind it, and
takes the new text in where it goes on behind it, or ends at it and the text has no break. -/
theorem ends_afterReplacing {x r : TextRange} (h : x.flow = r.flow) (s : List Char) :
    (x.afterReplacing .mark r s).start =
        (if r.start ≤ placeAfterDeleting r.start r.stop x.start then
          placeAfterDeleting r.start r.stop x.start + s.length
        else placeAfterDeleting r.start r.stop x.start) ∧
      (x.afterReplacing .mark r s).stop =
        if r.start < placeAfterDeleting r.start r.stop x.stop ∨
            r.start = placeAfterDeleting r.start r.stop x.stop ∧
              (placeAfterDeleting r.start r.stop x.start =
                placeAfterDeleting r.start r.stop x.stop ∨ '\n' ∉ s)
        then placeAfterDeleting r.start r.stop x.stop + s.length
        else placeAfterDeleting r.start r.stop x.stop := by
  have hempty : (x.afterDeleting r.start r.stop).isEmpty = true ↔
      placeAfterDeleting r.start r.stop x.start = placeAfterDeleting r.start r.stop x.stop := by
    rw [isEmpty_iff, start_afterDeleting x r.start_le_stop, stop_afterDeleting x r.start_le_stop]
  rw [start_afterReplacing h, stop_afterReplacing h]
  constructor
  · have hmoves : (x.afterDeleting r.start r.stop).movesAtStart .mark = true := by
      simp [movesAtStart]
    rw [hmoves, placeAfterTyping]
    simp only [and_true, Nat.le_iff_lt_or_eq]
  · have hmoves : (x.afterDeleting r.start r.stop).movesAtStop .mark
          ⟨r.start, s.length, decide ('\n' ∈ s)⟩ = true ↔
        placeAfterDeleting r.start r.stop x.start = placeAfterDeleting r.start r.stop x.stop ∨
          '\n' ∉ s := by
      rw [← hempty, movesAtStop]
      cases (x.afterDeleting r.start r.stop).isEmpty <;> simp [takesInAtStop]
    simp only [placeAfterTyping, hmoves]

/-- A mark before replaced text stays, if it does not take in text that is typed where it ends and
is not pushed along. -/
theorem afterReplacing_before {x r : TextRange} {new : List Char} (hflow : x.flow = r.flow)
    (hbefore : x.stop ≤ r.start)
    (h : x.stop = r.start → new = [] ∨ x.start < x.stop ∧ '\n' ∈ new) :
    x.afterReplacing .mark r new = x := by
  have hle := x.start_le_stop
  obtain ⟨hstart, hstop⟩ := ends_afterReplacing hflow new
  rw [placeAfterDeleting_of_le (Nat.le_trans hle hbefore)] at hstart hstop
  rw [placeAfterDeleting_of_le hbefore] at hstop
  refine eq_of_ends (flow_afterReplacing _ _ _ _) (hstart.trans ?_) (hstop.trans ?_)
  · by_cases hat : r.start ≤ x.start
    · rcases h (by omega) with rfl | hne
      · exact ite_self _
      · omega
    · exact if_neg hat
  · by_cases hat : x.stop = r.start
    · rcases h hat with rfl | ⟨hne, hbreak⟩
      · exact ite_self _
      · rw [if_neg]
        rintro (hlt | ⟨-, heq | hnot⟩)
        · omega
        · omega
        · exact hnot hbreak
    · rw [if_neg (by omega)]

/-- A mark behind replaced text is as far behind the new text. -/
theorem ends_afterReplacing_behind {x r : TextRange} (hflow : x.flow = r.flow)
    (h : r.stop ≤ x.start) (new : List Char) :
    (x.afterReplacing .mark r new).start = r.start + new.length + (x.start - r.stop) ∧
      (x.afterReplacing .mark r new).stop = r.start + new.length + (x.stop - r.stop) := by
  have hx := x.start_le_stop
  obtain ⟨hstart, hstop⟩ := ends_afterReplacing hflow new
  rw [placeAfterDeleting_of_ge r.start_le_stop h] at hstart
  rw [placeAfterDeleting_of_ge r.start_le_stop h,
    placeAfterDeleting_of_ge r.start_le_stop (Nat.le_trans h hx)] at hstop
  rw [hstart, hstop, if_pos (Nat.le_add_right _ _), if_pos]
  · omega
  · -- only an empty mark can end there, and that goes behind the text
    by_cases hend : x.stop = r.stop
    · exact Or.inr ⟨by omega, Or.inl (by omega)⟩
    · exact Or.inl (by omega)

/-- A mark around replaced text grows or shrinks, if text is typed strictly inside only. -/
theorem afterReplacing_around {x r : TextRange} {new : List Char} (hflow : x.flow = r.flow)
    (hstart : x.start ≤ r.start) (hstop : r.stop ≤ x.stop)
    (h : new = [] ∨ x.start < r.start ∧ r.stop < x.stop) :
    x.afterReplacing .mark r new =
      .new x.flow x.start (r.start + new.length + (x.stop - r.stop)) := by
  have hr := r.start_le_stop
  obtain ⟨hstart', hstop'⟩ := ends_afterReplacing hflow new
  rw [placeAfterDeleting_of_le hstart] at hstart' hstop'
  rw [placeAfterDeleting_of_ge hr hstop] at hstop'
  refine eq_of_ends (flow_afterReplacing _ _ _ _) (hstart'.trans ?_) (hstop'.trans ?_)
  · rw [start_new, Nat.min_eq_left (by omega)]
    rcases h with rfl | ⟨hlt, -⟩
    · exact ite_self _
    · exact if_neg (by omega)
  · rw [stop_new, Nat.max_eq_right (by omega)]
    rcases h with rfl | ⟨-, hlt⟩
    · exact ite_self _
    · rw [if_pos (Or.inl (by omega))]
      omega

/-- **Edits inside what fills a range** leave the marks around it alone. Text is typed strictly
inside, where no mark has an end. -/
theorem afterReplacing_afterFilling (x : TextRange) {r : TextRange} {count i j : Nat}
    {s : List Char} (hij : i ≤ j) (hj : j ≤ count) (hs : s = [] ∨ (0 < i ∧ j < count)) :
    (x.afterFilling r count).afterReplacing .mark (new r.flow (r.start + i) (r.start + j)) s =
      x.afterFilling r (i + s.length + (count - j)) := by
  by_cases h : x.flow = r.flow
  · have hflow : (x.afterFilling r count).flow =
        (new r.flow (r.start + i) (r.start + j)).flow := (flow_afterFilling _ _ _).trans h
    have hle := r.start_le_stop
    have hplace (moves b : Bool) (p : Nat) :
        placeAfterTyping moves ⟨r.start + i, s.length, b⟩
            (placeAfterDeleting (r.start + i) (r.start + j)
              (filledPlace r.start r.stop count p)) =
          filledPlace r.start r.stop (i + s.length + (count - j)) p := by
      have hlength : s.length = 0 ∨ (0 < i ∧ j < count) := by
        rcases hs with rfl | hs
        · exact Or.inl rfl
        · exact Or.inr hs
      simp only [placeAfterTyping, placeAfterDeleting, filledPlace]
      split_ifs <;> omega
    refine eq_of_ends (by simp) ?_ ?_
    · rw [start_afterReplacing hflow, start_afterFilling h, start_afterFilling h, start_new,
        stop_new, Nat.min_eq_left (by omega), Nat.max_eq_right (by omega), hplace]
    · rw [stop_afterReplacing hflow, stop_afterFilling h, stop_afterFilling h, start_new,
        stop_new, Nat.min_eq_left (by omega), Nat.max_eq_right (by omega), hplace]
  · rw [afterFilling_of_ne h, afterFilling_of_ne h, afterReplacing, flow_new, if_neg h]

end TextRange

/-! ## Texts -/

namespace MarkedText

variable {v w : MarkedText} {r : TextRange}

/-- The text of each flow when other text is under a range. -/
def filled (v : MarkedText) (r : TextRange) (s : List Char) (flow : Flow) : Option (List Char) :=
  if flow = r.flow then (v.text flow).map fun t => t.take r.start ++ s ++ t.drop r.stop
  else v.text flow

/-- **The text with a range filled by other text.** -/
def fill (v : MarkedText) (r : TextRange) (s : List Char) : MarkedText where
  text := v.filled r s
  marks := v.marks.map fun m => (m.1, m.2.afterFilling r s.length)

/-- A text is filled by what it holds. -/
theorem filled_of_under? {s : List Char} (h : v.under? r = some s) : v.filled r s = v.text := by
  funext flow
  unfold filled
  split_ifs with hflow
  · subst hflow
    obtain ⟨t, ht, rfl⟩ := Option.map_eq_some_iff.mp h
    have htake : t.take r.start = (t.take r.stop).take r.start := by
      rw [List.take_take, Nat.min_eq_left r.start_le_stop]
    rw [ht, Option.map_some, htake, List.take_append_drop, List.take_append_drop]
  · rfl

theorem length_of_under? {s : List Char} (hr : v.Inside r) (h : v.under? r = some s) :
    r.stop = r.start + s.length := by
  obtain ⟨t, ht, hstop⟩ := hr
  have hle := r.start_le_stop
  rw [under?, ht, Option.map_some, Option.some.injEq] at h
  rw [← h, List.length_drop, List.length_take_of_le hstop]
  omega

theorem exists_under? (hr : v.Inside r) : ∃ s, v.under? r = some s := by
  obtain ⟨t, ht, -⟩ := hr
  exact ⟨_, congrArg (Option.map _) ht⟩

section Inner

variable {s u : List Char} {i j : Nat} (hr : v.Inside r) (hw : w.text = v.filled r s)
  (hij : i ≤ j) (hj : j ≤ s.length)
include hr hw hij hj

/-- What is inside the part that fills a range is inside the text. -/
theorem inside_filled : w.Inside (.new r.flow (r.start + i) (r.start + j)) := by
  obtain ⟨t, ht, hstop⟩ := hr
  have hle := r.start_le_stop
  refine ⟨t.take r.start ++ s ++ t.drop r.stop, ?_, ?_⟩
  · rw [hw, filled, TextRange.flow_new, if_pos rfl, ht, Option.map_some]
  · rw [TextRange.stop_new, List.length_append, List.length_append,
      List.length_take_of_le (by omega)]
    omega

/-- Part of what fills a range is replaced. -/
theorem text_replace_filled :
    (w.replace (.new r.flow (r.start + i) (r.start + j)) u).text =
      v.filled r (s.take i ++ u ++ s.drop j) := by
  obtain ⟨t, ht, hstop⟩ := hr
  have hle := r.start_le_stop
  have hbefore : (t.take r.start).length = r.start := List.length_take_of_le (by omega)
  funext flow
  simp only [replace, hw, filled, TextRange.flow_new]
  split_ifs with hflow
  · subst hflow
    rw [ht, Option.map_some, Option.map_some, Option.map_some, TextRange.start_new,
      TextRange.stop_new, Nat.min_eq_left (by omega), Nat.max_eq_right (by omega)]
    have htake : (t.take r.start ++ s ++ t.drop r.stop).take (r.start + i) =
        t.take r.start ++ s.take i := by
      rw [List.append_assoc, List.take_append, hbefore, List.take_of_length_le (by omega),
        Nat.add_sub_cancel_left, List.take_append_of_le_length (by omega)]
    have hdrop : (t.take r.start ++ s ++ t.drop r.stop).drop (r.start + j) =
        s.drop j ++ t.drop r.stop := by
      rw [List.append_assoc, List.drop_append, hbefore, List.drop_of_length_le (by omega),
        Nat.add_sub_cancel_left, List.drop_append_of_le_length hj, List.nil_append]
    rw [htake, hdrop]
    simp only [List.append_assoc]
  · rfl

theorem under?_filled :
    w.under? (.new r.flow (r.start + i) (r.start + j)) = some ((s.take j).drop i) := by
  obtain ⟨t, ht, hstop⟩ := hr
  have hle := r.start_le_stop
  have hbefore : (t.take r.start).length = r.start := List.length_take_of_le (by omega)
  rw [under?, hw, filled, TextRange.flow_new, if_pos rfl, ht, Option.map_some, Option.map_some,
    TextRange.start_new, TextRange.stop_new, Nat.min_eq_left (by omega),
    Nat.max_eq_right (by omega), List.append_assoc, List.take_append, hbefore,
    List.take_of_length_le (by omega), Nat.add_sub_cancel_left,
    List.take_append_of_le_length hj, List.drop_append, hbefore,
    List.drop_of_length_le (by omega), Nat.add_sub_cancel_left, List.nil_append]

end Inner

/-- Text is typed into what fills a range. -/
theorem text_type_filled {s u : List Char} {i : Nat} (hr : v.Inside r)
    (hw : w.text = v.filled r s) (hi : i ≤ s.length) :
    (w.replace (.collapsed r.flow (r.start + i)) u).text =
      v.filled r (s.take i ++ u ++ s.drop i) := by
  rw [TextRange.collapsed_eq_new]
  exact text_replace_filled hr hw (Nat.le_refl i) hi

/-- **Part of what fills a range is replaced**, and nothing else happens. -/
theorem fill_replace {s u : List Char} {i j : Nat} (hr : v.Inside r) (hij : i ≤ j)
    (hj : j ≤ s.length) (hnew : u = [] ∨ (0 < i ∧ j < s.length)) :
    (v.fill r s).replace (.new r.flow (r.start + i) (r.start + j)) u =
      v.fill r (s.take i ++ u ++ s.drop j) := by
  refine ext' (fun flow => congrFun (text_replace_filled hr rfl hij hj) flow) ?_
  have hlength : (s.take i ++ u ++ s.drop j).length = i + u.length + (s.length - j) := by
    rw [List.length_append, List.length_append, List.length_take_of_le (by omega),
      List.length_drop]
  simp only [replace, fill, List.map_map, hlength]
  refine List.map_congr_left fun m _ => ?_
  exact Prod.ext rfl (TextRange.afterReplacing_afterFilling m.2 hij hj hnew)

end MarkedText

end DocCite
