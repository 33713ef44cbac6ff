import DocCite.Proofs.Document.Apart
import DocCite.Proofs.Document.Writing

/-!
# Outside of citation marks

Writing a marker into its mark changes no text outside of citation marks, and none inside of
other ones, as long as citation marks keep apart. They stay apart then: a mark before the written
one stays where it is, a mark behind it moves by the difference of lengths, and an empty one at its
start can go to its end (`afterMarker_cases`).
-/

namespace DocCite

namespace TextRange

/-- A mark after a marker of some length was written into another one. -/
def afterMarker (x r : TextRange) (count : Nat) : TextRange :=
  (if r.length < 2 then x.afterReplacing .mark r ['\n', '\n'] else x).afterFilling r.opened count

theorem afterMarker_of_ne {x r : TextRange} (h : x.flow ≠ r.flow) (count : Nat) :
    x.afterMarker r count = x := by
  have hnew : x.afterReplacing .mark r ['\n', '\n'] = x := if_neg h
  rw [afterMarker, hnew, ite_self]
  exact afterFilling_of_ne (by rwa [flow_opened]) count

@[simp] theorem flow_afterMarker (x r : TextRange) (count : Nat) :
    (x.afterMarker r count).flow = x.flow := by
  rw [afterMarker, flow_afterFilling]
  split_ifs <;> simp

/-- The ends of a mark after a short mark was created anew and a marker was written into it. Empty
marks at its place go behind it. -/
theorem ends_afterMarker_of_lt {x r : TextRange} (hflow : x.flow = r.flow) (h : r.length < 2)
    (count : Nat) :
    (x.afterMarker r count).start =
        filledPlace r.start (r.start + 2) count
          (if r.start ≤ placeAfterDeleting r.start r.stop x.start then
            placeAfterDeleting r.start r.stop x.start + 2
          else placeAfterDeleting r.start r.stop x.start) ∧
      (x.afterMarker r count).stop =
        filledPlace r.start (r.start + 2) count
          (if r.start < placeAfterDeleting r.start r.stop x.stop ∨
              r.start = placeAfterDeleting r.start r.stop x.stop ∧
                placeAfterDeleting r.start r.stop x.start =
                  placeAfterDeleting r.start r.stop x.stop then
            placeAfterDeleting r.start r.stop x.stop + 2
          else placeAfterDeleting r.start r.stop x.stop) := by
  have hopened : r.opened.stop = r.start + 2 := by
    rw [opened, if_pos h, stop_new]
    omega
  have hy : (x.afterReplacing .mark r ['\n', '\n']).flow = r.opened.flow := by simpa using hflow
  obtain ⟨hstart, hstop⟩ := ends_afterReplacing hflow ['\n', '\n']
  simp only [List.mem_cons, true_or, not_true_eq_false, or_false, List.length_cons,
    List.length_nil, Nat.zero_add, Nat.reduceAdd] at hstart hstop
  rw [afterMarker, if_pos h, start_afterFilling hy, stop_afterFilling hy, hopened, start_opened,
    hstart, hstop]
  exact ⟨rfl, rfl⟩

/-- The ends of a mark after a marker was written into one that could be emptied. -/
theorem ends_afterMarker_of_le {x r : TextRange} (hflow : x.flow = r.flow) (h : 2 ≤ r.length)
    (count : Nat) :
    (x.afterMarker r count).start = filledPlace r.start r.stop count x.start ∧
      (x.afterMarker r count).stop = filledPlace r.start r.stop count x.stop := by
  have hopened : r.opened = r := if_neg (Nat.not_lt.mpr h)
  rw [afterMarker, if_neg (Nat.not_lt.mpr h), hopened, start_afterFilling hflow,
    stop_afterFilling hflow]
  exact ⟨rfl, rfl⟩

/-- **A mark apart from the written one** stays before it, moves along behind it, or is empty and
goes from its start to its end. -/
theorem afterMarker_cases {x r : TextRange} (hflow : x.flow = r.flow) (h : x.Apart r)
    (count : Nat) :
    x.stop ≤ r.start ∧ x.afterMarker r count = x ∨
      r.stop ≤ x.start ∧
        (x.afterMarker r count).start + r.stop = x.start + (r.start + count) ∧
        (x.afterMarker r count).stop + r.stop = x.stop + (r.start + count) ∨
      x.start = r.start ∧ x.stop = r.start ∧
        (x.afterMarker r count).start = r.start + count ∧
        (x.afterMarker r count).stop = r.start + count := by
  have hx := x.start_le_stop
  have hr := r.start_le_stop
  by_cases hlength : r.length < 2
  · obtain ⟨hstart, hstop⟩ := ends_afterMarker_of_lt hflow hlength count
    rw [length] at hlength
    rcases h hflow with hbefore | hbehind
    · rw [placeAfterDeleting_of_le (Nat.le_trans hx hbefore)] at hstart hstop
      rw [placeAfterDeleting_of_le hbefore] at hstop
      by_cases hempty : x.start = r.start
      · refine Or.inr (Or.inr ⟨hempty, by omega, ?_⟩)
        rw [hstart, hstop]
        simp only [filledPlace]
        split_ifs <;> omega
      · refine Or.inl ⟨hbefore, eq_of_ends (flow_afterMarker _ _ _) (hstart.trans ?_)
          (hstop.trans ?_)⟩
        · rw [if_neg (by omega)]
          exact if_pos (by omega)
        · rw [if_neg (by omega)]
          exact if_pos hbefore
    · rw [placeAfterDeleting_of_ge hr hbehind] at hstart hstop
      rw [placeAfterDeleting_of_ge hr (Nat.le_trans hbehind hx)] at hstop
      refine Or.inr (Or.inl ⟨hbehind, ?_⟩)
      rw [hstart, hstop]
      simp only [filledPlace]
      split_ifs <;> omega
  · obtain ⟨hstart, hstop⟩ := ends_afterMarker_of_le hflow (Nat.not_lt.mp hlength) count
    rw [length] at hlength
    rcases h hflow with hbefore | hbehind
    · exact Or.inl ⟨hbefore, eq_of_ends (flow_afterMarker _ _ _)
        (hstart.trans (if_pos (Nat.le_trans hx hbefore))) (hstop.trans (if_pos hbefore))⟩
    · refine Or.inr (Or.inl ⟨hbehind, ?_⟩)
      rw [hstart, hstop]
      simp only [filledPlace]
      split_ifs <;> omega

/-- What is apart from replaced text is found where its range has moved. -/
theorem drop_take_afterMarker {α : Type} {x r : TextRange} (hflow : x.flow = r.flow)
    (hx : x.Apart r) {t : List α} (hstop : r.stop ≤ t.length) (s : List α) :
    ((t.take r.start ++ s ++ t.drop r.stop).take (x.afterMarker r s.length).stop).drop
        (x.afterMarker r s.length).start = (t.take x.stop).drop x.start := by
  have hrle := r.start_le_stop
  have hxle := x.start_le_stop
  rcases afterMarker_cases hflow hx s.length with ⟨hx₁, hx₂⟩ | ⟨hx₁, hx₂⟩ | ⟨hx₁, hx₂⟩
  · rw [hx₂, drop_take_replaced_before (by omega) hx₁]
  · have hstart : (x.afterMarker r s.length).start = r.start + s.length + (x.start - r.stop) := by
      omega
    have hend : (x.afterMarker r s.length).stop = r.start + s.length + (x.stop - r.stop) := by
      omega
    rw [hstart, hend, drop_take_replaced_behind (by omega) hx₁ (by omega)]
  · rw [hx₂.2.1, hx₂.2.2, hx₂.1, hx₁, List.drop_of_length_le (List.length_take_le _ _),
      List.drop_of_length_le (List.length_take_le _ _)]

/-- Two marks that are apart from the written one, and from each other, stay apart. -/
theorem Apart.afterMarker {x y r : TextRange} (hx : x.Apart r) (hy : y.Apart r) (h : x.Apart y)
    (count : Nat) : (x.afterMarker r count).Apart (y.afterMarker r count) := by
  intro hflow
  rw [flow_afterMarker, flow_afterMarker] at hflow
  by_cases hr : x.flow = r.flow
  · have hxy := h hflow
    have hxle := x.start_le_stop
    have hyle := y.start_le_stop
    rcases afterMarker_cases hr hx count with ⟨hx₁, hx₂⟩ | ⟨hx₁, hx₂⟩ | ⟨hx₁, hx₂⟩ <;>
      rcases afterMarker_cases (hflow.symm.trans hr) hy count with
        ⟨hy₁, hy₂⟩ | ⟨hy₁, hy₂⟩ | ⟨hy₁, hy₂⟩ <;>
      first
      | rw [hx₂, hy₂]; exact hxy
      | rw [hx₂]; omega
      | rw [hy₂]; omega
      | omega
  · rw [afterMarker_of_ne hr, afterMarker_of_ne (hflow ▸ hr)]
    exact h hflow

/-- A mark that is apart from the written one stays apart from it. -/
theorem Apart.afterMarker_self {x r : TextRange} (hx : x.Apart r) (count : Nat) :
    (x.afterMarker r count).Apart (new r.flow r.start (r.start + count)) := by
  intro hflow
  rw [flow_afterMarker, flow_new] at hflow
  have hxle := x.start_le_stop
  have hrle := r.start_le_stop
  rw [start_new, stop_new]
  rcases afterMarker_cases hflow hx count with ⟨hx₁, hx₂⟩ | ⟨hx₁, hx₂⟩ | ⟨hx₁, hx₂⟩
  · rw [hx₂]
    omega
  · omega
  · omega

end TextRange

namespace MarkedText

variable {v : MarkedText} {r : TextRange} {id : String} {s : List Char}

/-! ## Marks after a marker was written -/

/-- The text after a marker was written. -/
theorem text_withMarker (hr : v.Inside r) (id : String) (s : List Char) :
    (v.withMarker id r s).text = v.filled r s := by
  unfold withMarker opened TextRange.opened
  split_ifs
  · have hfill : ((v.reopened id r).replace (.new r.flow (r.start + 0) (r.start + 2)) s).text =
        v.filled r s :=
      (text_replace_filled hr rfl (by omega) (by simp)).trans (by simp)
    exact hfill
  · rfl

/-- The mark that was written covers its marker. -/
theorem get?_withMarker_self (h : v.marks.get? id = some r) (s : List Char) :
    (v.withMarker id r s).marks.get? id = some (.new r.flow r.start (r.start + s.length)) := by
  have hlength := r.two_le_length_opened
  rw [TextRange.length] at hlength
  rw [withMarker, get?_fill_self (get?_opened h) (Or.inl (by omega)), r.flow_opened,
    r.start_opened]

/-- Every other mark moves along. -/
theorem get?_withMarker_of_ne {name : String} (hne : name ≠ id) (r : TextRange)
    (s : List Char) :
    (v.withMarker id r s).marks.get? name =
      (v.marks.get? name).map fun x => x.afterMarker r s.length := by
  rw [withMarker, get?_fill]
  unfold opened TextRange.afterMarker
  by_cases hlength : r.length < 2
  · simp only [if_pos hlength, reopened]
    rw [Keyed.get?_append, Keyed.get?_map (v.marks.erase id)
      (fun x => x.afterReplacing .mark r ['\n', '\n']), Keyed.get?_erase_of_ne v.marks hne]
    cases v.marks.get? name <;> simp [Keyed.get?, hne.symm]
  · simp only [if_neg hlength]

/-! ## Citation marks -/

/-- Whether a name is that of a citation group. -/
def isCitation (name : String) : Bool := (MarkName.parse? name).isSome

/-- **Citation marks keep apart.** -/
def CitationsApart (v : MarkedText) : Prop :=
  ∀ name name' x y, isCitation name = true → isCitation name' = true → name ≠ name' →
    v.marks.get? name = some x → v.marks.get? name' = some y → x.Apart y

/-- **Citation marks stay apart** while markers are written. -/
theorem CitationsApart.withMarker (hapart : v.CitationsApart) (h : v.marks.get? id = some r)
    (hid : isCitation id = true) (s : List Char) : (v.withMarker id r s).CitationsApart := by
  intro name name' x y hname hname' hne hx hy
  have hother {other : String} {z : TextRange} (hother : isCitation other = true)
      (hne : other ≠ id) (hz : (v.withMarker id r s).marks.get? other = some z) :
      ∃ old, v.marks.get? other = some old ∧ old.Apart r ∧ old.afterMarker r s.length = z := by
    rw [get?_withMarker_of_ne hne] at hz
    obtain ⟨old, hold, rfl⟩ := Option.map_eq_some_iff.mp hz
    exact ⟨old, hold, hapart other id old r hother hid hne hold h, rfl⟩
  by_cases hself : name = id
  · subst hself
    rw [get?_withMarker_self h, Option.some.injEq] at hx
    obtain ⟨old, hold, hapart', rfl⟩ := hother hname' (Ne.symm hne) hy
    rw [← hx]
    exact (hapart'.afterMarker_self s.length).symm
  · obtain ⟨old, hold, hapart₁, rfl⟩ := hother hname hself hx
    by_cases hself' : name' = id
    · subst hself'
      rw [get?_withMarker_self h, Option.some.injEq] at hy
      rw [← hy]
      exact hapart₁.afterMarker_self s.length
    · obtain ⟨old', hold', hapart₂, rfl⟩ := hother hname' hself' hy
      exact hapart₁.afterMarker hapart₂ (hapart name name' old old' hname hname' hne hold hold') _

/-- **What is under another citation mark** stays the same. -/
theorem under?_withMarker_of_ne {x : TextRange} (hr : v.Inside r)
    (hx : x.Apart r) (s : List Char) :
    (v.withMarker id r s).under? (x.afterMarker r s.length) = v.under? x := by
  rw [under?, under?, text_withMarker hr, filled, TextRange.flow_afterMarker]
  by_cases hflow : x.flow = r.flow
  · obtain ⟨t, ht, hstop⟩ := hr
    rw [if_pos hflow, hflow, ht, Option.map_some, Option.map_some, Option.map_some]
    exact congrArg some (TextRange.drop_take_afterMarker hflow hx hstop s)
  · rw [if_neg hflow, TextRange.afterMarker_of_ne hflow]

/-- What is under the mark that was written. -/
theorem under?_withMarker_self (hr : v.Inside r) (id : String) (s : List Char) :
    (v.withMarker id r s).under? (.new r.flow r.start (r.start + s.length)) = some s := by
  have hunder := under?_filled (i := 0) (j := s.length) hr (text_withMarker hr id s) (by omega)
    (Nat.le_refl _)
  simpa using hunder

/-! ## Names -/

/-- The names of the marks stay, but the one that is written can go to the end. -/
theorem perm_map_fst_withMarker (hnodup : (v.marks.map Prod.fst).Nodup)
    (h : v.marks.get? id = some r) (s : List Char) :
    ((v.withMarker id r s).marks.map Prod.fst).Perm (v.marks.map Prod.fst) := by
  have hfill (w : MarkedText) : (w.fill r.opened s).marks.map Prod.fst = w.marks.map Prod.fst := by
    rw [fill, List.map_map]
    rfl
  rw [withMarker, hfill, opened]
  split_ifs
  · simp only [reopened, List.map_append, List.map_map, List.map_cons, List.map_nil]
    exact (List.perm_append_singleton id _).trans (Keyed.perm_map_fst_erase hnodup h)
  · exact List.Perm.refl _

/-! ## Text outside of citation marks -/

end MarkedText

/-- The characters of a text at the places that are not covered. -/
def outsideOf (covered : Nat → Bool) : List Char → List Char
  | [] => []
  | c :: rest =>
    if covered 0 then outsideOf (fun i => covered (i + 1)) rest
    else c :: outsideOf (fun i => covered (i + 1)) rest

theorem outsideOf_append (covered : Nat → Bool) (s t : List Char) :
    outsideOf covered (s ++ t) =
      outsideOf covered s ++ outsideOf (fun i => covered (i + s.length)) t := by
  induction s generalizing covered with
  | nil => rfl
  | cons c rest ih =>
    simp only [List.cons_append, outsideOf, ih, List.length_cons, Nat.add_assoc]
    split_ifs <;> rfl

theorem outsideOf_congr {f g : Nat → Bool} {s : List Char}
    (h : ∀ i < s.length, f i = g i) : outsideOf f s = outsideOf g s := by
  induction s generalizing f g with
  | nil => rfl
  | cons c rest ih =>
    have hrest := ih (f := fun i => f (i + 1)) (g := fun i => g (i + 1))
      fun i hi => h (i + 1) (by rw [List.length_cons]; omega)
    rw [outsideOf, outsideOf, h 0 (by simp), hrest]

theorem outsideOf_eq_nil {covered : Nat → Bool} {s : List Char}
    (h : ∀ i < s.length, covered i = true) : outsideOf covered s = [] := by
  induction s generalizing covered with
  | nil => rfl
  | cons c rest ih =>
    rw [outsideOf, if_pos (h 0 (by simp))]
    exact ih fun i hi => h (i + 1) (by rw [List.length_cons]; omega)

namespace MarkedText

variable {v : MarkedText} {r : TextRange} {id : String} {s : List Char}

/-- Whether a place of a flow is under a citation mark. -/
def covers (v : MarkedText) (flow : Flow) (i : Nat) : Bool :=
  v.marks.any fun m =>
    isCitation m.1 && (m.2.flow == flow && (decide (m.2.start ≤ i) && decide (i < m.2.stop)))

/-- The text of a flow that is under no citation mark. -/
def outside (v : MarkedText) (flow : Flow) : Option (List Char) :=
  (v.text flow).map (outsideOf (v.covers flow))

theorem covers_iff (hnodup : (v.marks.map Prod.fst).Nodup) {flow : Flow} {i : Nat} :
    v.covers flow i = true ↔ ∃ name x, isCitation name = true ∧ v.marks.get? name = some x ∧
      x.flow = flow ∧ x.start ≤ i ∧ i < x.stop := by
  rw [covers, List.any_eq_true]
  constructor
  · rintro ⟨⟨name, x⟩, hmem, h⟩
    simp only [Bool.and_eq_true, beq_iff_eq, decide_eq_true_eq] at h
    exact ⟨name, x, h.1, (Keyed.get?_eq_some_iff hnodup).mpr hmem, h.2.1, h.2.2⟩
  · rintro ⟨name, x, hname, hx, hflow, hi⟩
    refine ⟨(name, x), (Keyed.get?_eq_some_iff hnodup).mp hx, ?_⟩
    simp only [Bool.and_eq_true, beq_iff_eq, decide_eq_true_eq]
    exact ⟨hname, hflow, hi⟩

section Written

variable (hnodup : (v.marks.map Prod.fst).Nodup) (hapart : v.CitationsApart)
  (h : v.marks.get? id = some r) (hid : isCitation id = true)
include hnodup hapart h hid

/-- A place that is under the same marks as another place was before is covered as that one was. -/
theorem covers_withMarker {flow : Flow} {i j : Nat}
    (hself : flow = r.flow ∧ r.start ≤ i ∧ i < r.start + s.length ↔
      flow = r.flow ∧ r.start ≤ j ∧ j < r.stop)
    (hmove : ∀ x : TextRange, x.flow = flow → x.Apart r →
      ((x.afterMarker r s.length).start ≤ i ∧ i < (x.afterMarker r s.length).stop ↔
        x.start ≤ j ∧ j < x.stop)) :
    (v.withMarker id r s).covers flow i = v.covers flow j := by
  have hwritten := get?_withMarker_self h s
  rw [Bool.eq_iff_iff, covers_iff ((perm_map_fst_withMarker hnodup h s).nodup_iff.mpr hnodup), covers_iff hnodup]
  constructor
  · rintro ⟨name, x, hname, hx, rfl, hi⟩
    by_cases hne : name = id
    · subst hne
      rw [hwritten, Option.some.injEq] at hx
      subst hx
      rw [TextRange.start_new, TextRange.stop_new] at hi
      obtain ⟨-, hj⟩ := hself.mp ⟨rfl, by omega⟩
      exact ⟨name, r, hname, h, rfl, hj⟩
    · rw [get?_withMarker_of_ne hne] at hx
      obtain ⟨old, hold, rfl⟩ := Option.map_eq_some_iff.mp hx
      have hold' := hapart name id old r hname hid hne hold h
      rw [TextRange.flow_afterMarker] at hmove ⊢
      exact ⟨name, old, hname, hold, rfl, (hmove old rfl hold').mp hi⟩
  · rintro ⟨name, x, hname, hx, rfl, hj⟩
    by_cases hne : name = id
    · subst hne
      rw [h, Option.some.injEq] at hx
      subst hx
      obtain ⟨-, hi⟩ := hself.mpr ⟨rfl, hj⟩
      refine ⟨name, _, hname, hwritten, rfl, ?_⟩
      rw [TextRange.start_new, TextRange.stop_new]
      omega
    · have hx' := hapart name id x r hname hid hne hx h
      refine ⟨name, x.afterMarker r s.length, hname, ?_, TextRange.flow_afterMarker _ _ _,
        (hmove x rfl hx').mpr hj⟩
      rw [get?_withMarker_of_ne hne, hx, Option.map_some]

/-- **The text outside of citation marks** stays the same while markers are written. -/
theorem outside_withMarker (hr : v.Inside r) (s : List Char) (flow : Flow) :
    (v.withMarker id r s).outside flow = v.outside flow := by
  have hrle := r.start_le_stop
  have hcovers {flow : Flow} {i j : Nat}
      (hself : flow = r.flow ∧ r.start ≤ i ∧ i < r.start + s.length ↔
        flow = r.flow ∧ r.start ≤ j ∧ j < r.stop)
      (hmove : ∀ x : TextRange, x.flow = flow → x.Apart r →
        ((x.afterMarker r s.length).start ≤ i ∧ i < (x.afterMarker r s.length).stop ↔
          x.start ≤ j ∧ j < x.stop)) :
      (v.withMarker id r s).covers flow i = v.covers flow j :=
    covers_withMarker hnodup hapart h hid hself hmove
  rw [outside, outside, text_withMarker hr, filled]
  by_cases hflow : flow = r.flow
  · subst hflow
    obtain ⟨t, ht, hstop⟩ := hr
    have hbefore : (t.take r.start).length = r.start := List.length_take_of_le (by omega)
    have hunder : ((t.take r.stop).drop r.start).length = r.stop - r.start := by
      rw [List.length_drop, List.length_take_of_le hstop]
    have hsplit : t = t.take r.start ++ (t.take r.stop).drop r.start ++ t.drop r.stop := by
      have htake : t.take r.start = (t.take r.stop).take r.start := by
        rw [List.take_take, Nat.min_eq_left hrle]
      rw [htake, List.take_append_drop, List.take_append_drop]
    rw [if_pos rfl, ht, Option.map_some, Option.map_some, Option.map_some]
    refine congrArg some ?_
    conv_rhs => rw [hsplit]
    rw [outsideOf_append, outsideOf_append, outsideOf_append, outsideOf_append, List.length_append,
      List.length_append, hbefore, hunder, Nat.add_sub_cancel' hrle]
    refine congrArg₂ (· ++ ·) (congrArg₂ (· ++ ·) ?_ ?_) ?_
    · refine outsideOf_congr fun i hi => hcovers (by omega) fun x hx hapart => ?_
      rcases TextRange.afterMarker_cases hx hapart s.length with ⟨h₁, h₂⟩ | ⟨h₁, h₂⟩ | ⟨h₁, h₂⟩
      · rw [h₂]
      · omega
      · omega
    · rw [outsideOf_eq_nil, outsideOf_eq_nil]
      · intro i hi
        exact (covers_iff hnodup).mpr ⟨id, r, hid, h, rfl, by omega, by omega⟩
      · intro i hi
        refine (covers_iff ((perm_map_fst_withMarker hnodup h s).nodup_iff.mpr hnodup)).mpr
          ⟨id, _, hid, get?_withMarker_self h s, rfl, ?_⟩
        rw [TextRange.start_new, TextRange.stop_new]
        omega
    · refine outsideOf_congr fun i hi => hcovers (by omega) fun x hx hapart => ?_
      have hxle := x.start_le_stop
      rcases TextRange.afterMarker_cases hx hapart s.length with ⟨h₁, h₂⟩ | ⟨h₁, h₂⟩ | ⟨h₁, h₂⟩
      · rw [h₂]
        omega
      · omega
      · omega
  · rw [if_neg hflow]
    refine congrArg (Option.map · _) (funext fun t => outsideOf_congr fun i _ => ?_)
    refine hcovers (by simp [hflow]) fun x hx _ => ?_
    rw [TextRange.afterMarker_of_ne fun heq => hflow (hx.symm.trans heq)]

end Written

end MarkedText

end DocCite
