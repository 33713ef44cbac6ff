import DocCite.Proofs.Document.Outside

/-!
# Marks that are settled

Writing a marker into a mark can move the ends of other marks that were inside of it. Once they are
at its ends or outside, the marks are `Settled`, and neither writing other marks nor rewriting a
section elsewhere changes that. Writing a text into a settled mark that holds it already comes to
nothing, but the mark can go to the end of the list (`Alike.withMarker`).
-/

namespace DocCite

namespace TextRange

variable {x y r : TextRange}

/-- No end of a range is strictly inside another one. -/
def Settled (x r : TextRange) : Prop :=
  x.flow = r.flow → (x.start ≤ r.start ∨ r.stop ≤ x.start) ∧ (x.stop ≤ r.start ∨ r.stop ≤ x.stop)

theorem settled_self (r : TextRange) : r.Settled r :=
  fun _ => ⟨Or.inl (Nat.le_refl _), Or.inr (Nat.le_refl _)⟩

/-- Ranges that keep apart are settled. -/
theorem Apart.settled (h : x.Apart y) : x.Settled y := by
  intro hflow
  have hx := x.start_le_stop
  have hy := y.start_le_stop
  have := h hflow
  omega

/-- A place is carried along by a change of a range: it stays before the range, goes along behind
it, and is somewhere in the changed range if it was in the range before. -/
def Carried (r : TextRange) (count p q : Nat) : Prop :=
  p < r.start ∧ q = p ∨ r.start ≤ p ∧ p ≤ r.stop ∧ r.start ≤ q ∧ q ≤ r.start + count ∨
    r.stop < p ∧ q + r.stop = p + (r.start + count)

/-- **The ends of marks are carried along** when a marker is written into one of them. -/
theorem carried_afterMarker (hflow : x.flow = r.flow) (count : Nat) :
    Carried r count x.start (x.afterMarker r count).start ∧
      Carried r count x.stop (x.afterMarker r count).stop := by
  have hx := x.start_le_stop
  have hr := r.start_le_stop
  by_cases hlength : r.length < 2
  · obtain ⟨hstart, hstop⟩ := ends_afterMarker_of_lt hflow hlength count
    rw [length] at hlength
    rw [hstart, hstop]
    simp only [Carried, placeAfterDeleting, filledPlace]
    constructor
    · split_ifs <;> omega
    · split_ifs <;> omega
  · obtain ⟨hstart, hstop⟩ := ends_afterMarker_of_le hflow (Nat.not_lt.mp hlength) count
    rw [hstart, hstop]
    simp only [Carried, filledPlace]
    constructor
    · split_ifs <;> omega
    · split_ifs <;> omega

/-- After its marker was written, all marks are settled in a mark. -/
theorem settled_afterMarker_self (x r : TextRange) (count : Nat) :
    (x.afterMarker r count).Settled (new r.flow r.start (r.start + count)) := by
  intro hflow
  rw [flow_afterMarker, flow_new] at hflow
  have hplace (stop p : Nat) : filledPlace r.start stop count p ≤ r.start ∨
      r.start + count ≤ filledPlace r.start stop count p := by
    unfold filledPlace
    split_ifs <;> omega
  rw [start_new, stop_new, Nat.min_eq_left (Nat.le_add_right _ _),
    Nat.max_eq_right (Nat.le_add_right _ _)]
  by_cases hlength : r.length < 2
  · rw [(ends_afterMarker_of_lt hflow hlength count).1,
      (ends_afterMarker_of_lt hflow hlength count).2]
    exact ⟨hplace _ _, hplace _ _⟩
  · rw [(ends_afterMarker_of_le hflow (Nat.not_lt.mp hlength) count).1,
      (ends_afterMarker_of_le hflow (Nat.not_lt.mp hlength) count).2]
    exact ⟨hplace _ _, hplace _ _⟩

/-- A range goes along with a change of another one: it stays before it, moves behind it, or is
empty afterwards. -/
def GoesAlong (y r : TextRange) (count : Nat) (y' : TextRange) : Prop :=
  y.stop ≤ r.start ∧ y'.start = y.start ∧ y'.stop = y.stop ∨
    r.stop ≤ y.start ∧ y'.start + r.stop = y.start + (r.start + count) ∧
      y'.stop + r.stop = y.stop + (r.start + count) ∨
    y'.start = y'.stop

/-- **Ranges stay settled** in one that goes along with a change that carries their ends. -/
theorem Settled.of_carried {x' y' : TextRange} {count : Nat} (h : x.Settled y)
    (hx : x'.flow = x.flow) (hy : y'.flow = y.flow) (hstart : Carried r count x.start x'.start)
    (hstop : Carried r count x.stop x'.stop) (halong : GoesAlong y r count y') :
    x'.Settled y' := by
  intro hflow
  have hxy := h (hx.symm.trans (hflow.trans hy))
  have hyle := y.start_le_stop
  have hrle := r.start_le_stop
  unfold Carried at hstart hstop
  unfold GoesAlong at halong
  constructor
  · omega
  · omega

/-- **Marks stay settled** while a marker is written elsewhere. -/
theorem Settled.afterMarker (h : x.Settled y) (hy : y.Apart r) (count : Nat) :
    (x.afterMarker r count).Settled (y.afterMarker r count) := by
  intro hflow
  rw [flow_afterMarker, flow_afterMarker] at hflow
  by_cases hr : y.flow = r.flow
  · obtain ⟨hstart, hstop⟩ := carried_afterMarker (hflow.trans hr) count
    refine h.of_carried (flow_afterMarker _ _ _) (flow_afterMarker _ _ _) hstart hstop ?_
      (by simpa using hflow)
    unfold GoesAlong
    rcases afterMarker_cases hr hy count with ⟨hy₁, hy₂⟩ | ⟨hy₁, hy₂⟩ | ⟨hy₁, hy₂⟩
    · rw [hy₂]
      exact Or.inl ⟨hy₁, rfl, rfl⟩
    · exact Or.inr (Or.inl ⟨hy₁, hy₂⟩)
    · exact Or.inr (Or.inr (by omega))
  · rw [afterMarker_of_ne hr, afterMarker_of_ne (hflow ▸ hr)]
    exact h hflow

/-- **A settled mark is where it was** when a marker as long as before is written, unless that is a
single character. -/
theorem afterMarker_eq_self (h : x.Settled r) (hlength : r.length = 0 ∨ 2 ≤ r.length) :
    x.afterMarker r r.length = x := by
  by_cases hflow : x.flow = r.flow
  · have hx := x.start_le_stop
    have hr := r.start_le_stop
    have hsettled := h hflow
    rcases hlength with hempty | hlong
    · -- what is at the place of an empty mark goes behind its placeholders and comes back
      obtain ⟨hstart, hstop⟩ := ends_afterMarker_of_lt hflow (by omega) r.length
      rw [hempty] at hstart hstop ⊢
      rw [length] at hempty
      refine eq_of_ends (flow_afterMarker _ _ _) (hstart.trans ?_) (hstop.trans ?_)
      · simp only [placeAfterDeleting, filledPlace]
        split_ifs <;> omega
      · simp only [placeAfterDeleting, filledPlace]
        split_ifs <;> omega
    · obtain ⟨hstart, hstop⟩ := ends_afterMarker_of_le hflow hlong r.length
      refine eq_of_ends (flow_afterMarker _ _ _) (hstart.trans ?_) (hstop.trans ?_)
      · simp only [length, filledPlace]
        split_ifs <;> omega
      · simp only [length, filledPlace]
        split_ifs <;> omega
  · exact afterMarker_of_ne hflow _

end TextRange

namespace MarkedText

variable {v w u : MarkedText} {r : TextRange} {id : String} {s : List Char}

/-- All marks are settled in a range. -/
def SettledIn (v : MarkedText) (r : TextRange) : Prop :=
  ∀ name x, v.marks.get? name = some x → x.Settled r

/-- **Marks stay settled** in a range while a marker is written elsewhere. -/
theorem SettledIn.withMarker {y : TextRange} (h : v.SettledIn y)
    (hmark : v.marks.get? id = some r) (hy : y.Apart r) (s : List Char) :
    (v.withMarker id r s).SettledIn (y.afterMarker r s.length) := by
  intro name z hz
  by_cases hne : name = id
  · subst hne
    rw [get?_withMarker_self hmark, Option.some.injEq] at hz
    rw [← hz]
    exact (hy.afterMarker_self s.length).symm.settled
  · rw [get?_withMarker_of_ne hne] at hz
    obtain ⟨x, hx, rfl⟩ := Option.map_eq_some_iff.mp hz
    exact (h name x hx).afterMarker hy s.length

theorem settledIn_withMarker_self (hmark : v.marks.get? id = some r) (s : List Char) :
    (v.withMarker id r s).SettledIn (.new r.flow r.start (r.start + s.length)) := by
  intro name z hz
  by_cases hne : name = id
  · subst hne
    rw [get?_withMarker_self hmark, Option.some.injEq] at hz
    rw [← hz]
    exact TextRange.settled_self _
  · rw [get?_withMarker_of_ne hne] at hz
    obtain ⟨x, hx, rfl⟩ := Option.map_eq_some_iff.mp hz
    exact x.settled_afterMarker_self r s.length

/-- **Texts are alike** when they read the same, and every mark is in the same place. -/
structure Alike (v w : MarkedText) : Prop where
  text : v.text = w.text
  marks : ∀ name, v.marks.get? name = w.marks.get? name

theorem Alike.refl (v : MarkedText) : v.Alike v := ⟨rfl, fun _ => rfl⟩

theorem Alike.trans (h : v.Alike w) (h' : w.Alike u) : v.Alike u :=
  ⟨h.text.trans h'.text, fun name => (h.marks name).trans (h'.marks name)⟩

theorem Alike.symm (h : v.Alike w) : w.Alike v := ⟨h.text.symm, fun name => (h.marks name).symm⟩

theorem Alike.inside (h : v.Alike w) (hr : v.Inside r) : w.Inside r := by
  rw [Inside, ← h.text]
  exact hr

theorem Alike.under? (h : v.Alike w) (r : TextRange) : w.under? r = v.under? r := by
  rw [MarkedText.under?, MarkedText.under?, h.text]

theorem Alike.settledIn (h : v.Alike w) (hr : v.SettledIn r) : w.SettledIn r :=
  fun name x hx => hr name x ((h.marks name).trans hx)

/-- **Writing what a settled mark holds** changes nothing. -/
theorem alike_withMarker (hmark : v.marks.get? id = some r) (hr : v.Inside r)
    (hunder : v.under? r = some s) (hlength : s.length = 0 ∨ 2 ≤ s.length)
    (hsettled : v.SettledIn r) : (v.withMarker id r s).Alike v := by
  have hrlength : r.length = s.length := by
    rw [TextRange.length, length_of_under? hr hunder, Nat.add_sub_cancel_left]
  refine ⟨?_, fun name => ?_⟩
  · rw [text_withMarker hr, filled_of_under? hunder]
  · by_cases hne : name = id
    · subst hne
      rw [get?_withMarker_self hmark, hmark, ← length_of_under? hr hunder,
        TextRange.new_of_le r.start_le_stop]
    · rw [get?_withMarker_of_ne hne]
      cases hx : v.marks.get? name with
      | none => rfl
      | some x =>
        rw [← hrlength] at hlength ⊢
        exact congrArg some (TextRange.afterMarker_eq_self (hsettled name x hx) hlength)

end MarkedText

/-- What stays in a mark is no single character. -/
theorem length_closedText (collapses : Bool) (s : List Char) :
    (closedText collapses s).length = 0 ∨ 2 ≤ (closedText collapses s).length := by
  unfold closedText
  split_ifs
  · exact Or.inl rfl
  · exact Or.inr (Nat.le_refl 2)
  · exact Or.inr (by rw [List.length_cons]; omega)
  · exact Or.inr (by omega)

end DocCite
