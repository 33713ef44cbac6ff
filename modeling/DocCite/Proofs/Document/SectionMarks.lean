import DocCite.Proofs.Document.Apart
import DocCite.Proofs.Document.Intersecting
import DocCite.Proofs.Document.SectionTyping

/-!
# Marks beside a section

A section is rewritten in two steps: its text is replaced by a title, and entries are typed behind
the title. A mark that keeps apart from what is replaced, and does not take in what is typed, covers
the text that it covered before (`under?_replace_of_apart`). So a mark that is not inside the
section comes through the rewriting unharmed just when it keeps apart from the section, does not
take in the title, and is not empty at the start of the section (`suits_iff_unharmed`).
-/

namespace DocCite

namespace TextRange

variable {x r whole : TextRange} {title entries : List Char}

/-- A mark is inside a section. An empty mark at its start is before it. -/
def IsWithin (x whole : TextRange) : Prop :=
  whole.contains x = true ∧ (x.isEmpty && x.start == whole.start) = false

instance (x whole : TextRange) : Decidable (x.IsWithin whole) := inferInstanceAs (Decidable (_ ∧ _))

theorem isWithin_iff :
    x.IsWithin whole ↔ x.flow = whole.flow ∧ whole.start ≤ x.start ∧ x.stop ≤ whole.stop ∧
      ¬ (x.start = x.stop ∧ x.start = whole.start) := by
  simp only [IsWithin, contains, sameFlow, Bool.and_eq_true, beq_iff_eq, decide_eq_true_eq,
    ← Bool.not_eq_true, isEmpty, eq_comm (a := whole.flow), and_assoc]

/-- A mark does not take in text that is typed at its end: it does not end there, or the text breaks
the paragraph. Empty marks go behind the text. -/
def KeepsOut (x : TextRange) (flow : Flow) (p : Nat) (s : List Char) : Prop :=
  x.flow = flow → x.stop = p → x.start < x.stop → s = [] ∨ '\n' ∈ s

/-- A mark after a section was rewritten: its text was replaced by a title, and entries were typed
behind the title. -/
def afterRewriting (x whole : TextRange) (title entries : List Char) : TextRange :=
  (x.afterReplacing .mark whole title).afterReplacing .mark
    (.collapsed whole.flow (whole.start + title.length)) entries

/-- A section after it was rewritten. -/
def rewritten (whole : TextRange) (title entries : List Char) : TextRange :=
  new whole.flow whole.start (whole.start + title.length + entries.length)

@[simp] theorem flow_rewritten (whole : TextRange) (title entries : List Char) :
    (whole.rewritten title entries).flow = whole.flow := rfl

@[simp] theorem start_rewritten (whole : TextRange) (title entries : List Char) :
    (whole.rewritten title entries).start = whole.start :=
  Nat.min_eq_left (Nat.le_trans (Nat.le_add_right _ _) (Nat.le_add_right _ _))

@[simp] theorem stop_rewritten (whole : TextRange) (title entries : List Char) :
    (whole.rewritten title entries).stop = whole.start + title.length + entries.length :=
  Nat.max_eq_right (Nat.le_trans (Nat.le_add_right _ _) (Nat.le_add_right _ _))

@[simp] theorem flow_afterRewriting (x whole : TextRange) (title entries : List Char) :
    (x.afterRewriting whole title entries).flow = x.flow := by simp [afterRewriting]

/-- The ends of a mark after a section was rewritten, by where they come to be when its text is
deleted. No mark takes in the entries, as they begin with a break. -/
theorem ends_afterRewriting (h : x.flow = whole.flow) (title : List Char)
    (hentries : entries = [] ∨ '\n' ∈ entries) {a b : Nat}
    (ha : placeAfterDeleting whole.start whole.stop x.start = a)
    (hb : placeAfterDeleting whole.start whole.stop x.stop = b) :
    (x.afterRewriting whole title entries).start =
        (if whole.start ≤ a then a + (title.length + entries.length) else a) ∧
      (x.afterRewriting whole title entries).stop =
        if whole.start < b ∨ whole.start = b ∧ a = b then b + (title.length + entries.length)
        else if whole.start = b ∧ '\n' ∉ title then b + title.length
        else b := by
  obtain ⟨hstart, hstop⟩ := ends_afterReplacing h title
  obtain ⟨hstart', hstop'⟩ := ends_afterReplacing_collapsed
    ((flow_afterReplacing x .mark whole title).trans h) (whole.start + title.length) entries
  have hle := placeAfterDeleting_mono whole.start_le_stop x.start_le_stop
  have hnone : '\n' ∉ entries ↔ entries.length = 0 := by
    rcases hentries with rfl | hbreak
    · simp
    · exact iff_of_false (not_not.mpr hbreak) (List.length_pos_of_mem hbreak).ne'
  rw [ha, hb] at hle hstop
  rw [ha] at hstart
  rw [afterRewriting, hstart', hstop']
  simp only [hnone]
  constructor
  · split_ifs at hstart ⊢ <;> omega
  · -- an end at the title goes along with it unless the title has a break
    by_cases hbreak : '\n' ∈ title
    · simp only [hbreak, not_true_eq_false, or_false, and_false, if_false] at hstop ⊢
      split_ifs at hstart hstop ⊢ <;> omega
    · simp only [hbreak, not_false_eq_true, or_true, and_true] at hstop ⊢
      split_ifs at hstart hstop ⊢ <;> omega

/-- **A mark suits the rewriting of a section**: it keeps apart from the section, does not take in
the title, and is not an empty mark at its start, which would go behind the new text. Of the entries
it matters only whether there are any. -/
structure Suits {α : Type} (x whole : TextRange) (title : List Char) (entries : List α) : Prop where
  apart : x.Apart whole
  keepsOut : x.KeepsOut whole.flow whole.start title
  notPushed : x.flow = whole.flow → x.start = x.stop → x.start = whole.start →
    title = [] ∧ entries = []

theorem suits_congr {α β : Type} {entries : List α} {entries' : List β}
    (h : entries = [] ↔ entries' = []) :
    x.Suits whole title entries ↔ x.Suits whole title entries' :=
  ⟨fun hx => ⟨hx.apart, hx.keepsOut, fun hflow hempty hat =>
      (hx.notPushed hflow hempty hat).imp_right h.mp⟩,
    fun hx => ⟨hx.apart, hx.keepsOut, fun hflow hempty hat =>
      (hx.notPushed hflow hempty hat).imp_right h.mpr⟩⟩

theorem placeAfterDeleting_cases {start stop : Nat} (h : start ≤ stop) (p : Nat) :
    p ≤ start ∧ placeAfterDeleting start stop p = p ∨
      start < p ∧ p < stop ∧ placeAfterDeleting start stop p = start ∨
      stop ≤ p ∧ placeAfterDeleting start stop p + stop = p + start := by
  unfold placeAfterDeleting
  split_ifs <;> omega

/-- A mark that suits the rewriting stays before the section, or moves along behind it. -/
theorem Suits.ends (h : x.Suits whole title entries) (hflow : x.flow = whole.flow)
    (hentries : entries = [] ∨ '\n' ∈ entries) :
    x.stop ≤ whole.start ∧ (x.afterRewriting whole title entries).start = x.start ∧
        (x.afterRewriting whole title entries).stop = x.stop ∨
      whole.stop ≤ x.start ∧
        (x.afterRewriting whole title entries).start + whole.stop =
          x.start + (whole.rewritten title entries).stop ∧
        (x.afterRewriting whole title entries).stop + whole.stop =
          x.stop + (whole.rewritten title entries).stop := by
  obtain ⟨hstart, hstop⟩ := ends_afterRewriting hflow title hentries rfl rfl
  have hx := x.start_le_stop
  have hwhole := whole.start_le_stop
  rw [hstart, hstop, stop_rewritten]
  rcases h.apart hflow with hbefore | hbehind
  · rw [placeAfterDeleting_of_le (Nat.le_trans hx hbefore), placeAfterDeleting_of_le hbefore]
    refine Or.inl ⟨hbefore, ?_⟩
    by_cases hat : x.start = whole.start
    · obtain ⟨rfl, rfl⟩ := h.notPushed hflow (by omega) hat
      simp
    · rw [if_neg (by omega), if_neg (by omega)]
      refine ⟨rfl, ite_eq_right_iff.mpr fun hend => ?_⟩
      rcases h.keepsOut hflow hend.1.symm (by omega) with rfl | hbreak
      · rfl
      · exact absurd hbreak hend.2
  · have ha := placeAfterDeleting_cases hwhole x.start
    have hb := placeAfterDeleting_cases hwhole x.stop
    refine Or.inr ⟨hbehind, ?_⟩
    rw [if_pos (by omega), if_pos (by omega)]
    omega

/-- **A mark that does not suit the rewriting** gets longer or shorter, or is in the way of the
section from then on. -/
theorem suits_iff (hentries : entries = [] ∨ '\n' ∈ entries) (hguard : ¬ x.IsWithin whole) :
    x.Suits whole title entries ↔
      (x.afterRewriting whole title entries).length = x.length ∧
        (x.afterRewriting whole title entries).Apart (whole.rewritten title entries) ∧
        ¬ (x.afterRewriting whole title entries).IsWithin (whole.rewritten title entries) := by
  by_cases h : x.flow = whole.flow
  · have hx := x.start_le_stop
    have hwhole := whole.start_le_stop
    simp only [isWithin_iff, h, true_and] at hguard
    simp only [isWithin_iff, Apart, length, flow_afterRewriting, flow_rewritten, start_rewritten,
      stop_rewritten, h, true_and, forall_const]
    constructor
    · intro hsuits
      have hpushed (hempty : x.start = x.stop) (hat : x.start = whole.start) :
          title.length = 0 ∧ entries.length = 0 :=
        (hsuits.notPushed h hempty hat).imp List.length_eq_zero_iff.mpr List.length_eq_zero_iff.mpr
      rcases hsuits.ends h hentries with ⟨hle, hstart, hstop⟩ | ⟨hle, hstart, hstop⟩
      · rw [hstart, hstop]
        omega
      · rw [stop_rewritten] at hstart hstop
        omega
    · rintro ⟨hlength, hapart, hwithin⟩
      obtain ⟨hstart, hstop⟩ := ends_afterRewriting h title hentries rfl rfl
      have ha := placeAfterDeleting_cases hwhole x.start
      have hb := placeAfterDeleting_cases hwhole x.stop
      refine ⟨fun _ => ?_, fun _ hend hpos => ?_, fun _ hempty hat => ?_⟩
      · -- what it shares with the section is deleted, or the section comes to be inside of it
        split_ifs at hstart hstop <;> omega
      · by_contra hnot
        rw [not_or] at hnot
        have hpos' : 0 < title.length := List.length_pos_iff.mpr hnot.1
        rw [if_neg (by omega), if_pos ⟨by omega, hnot.2⟩] at hstop
        split_ifs at hstart <;> omega
      · rw [if_pos (by omega)] at hstart hstop
        rw [← List.length_eq_zero_iff, ← List.length_eq_zero_iff]
        omega
  · have hsame : x.afterRewriting whole title entries = x :=
      (if_neg (by rwa [flow_afterReplacing])).trans (if_neg h)
    rw [hsame]
    refine iff_of_true ⟨fun hflow => absurd hflow h, fun hflow => absurd hflow h,
      fun hflow => absurd hflow h⟩ ⟨rfl, fun hflow => absurd hflow h, fun hwithin => ?_⟩
    exact h (isWithin_iff.mp hwithin).1

end TextRange

namespace MarkedText

variable {v : MarkedText} {x r whole : TextRange} {s title entries : List Char}

/-- What is inside a text is inside of it after a replacement. -/
theorem Inside.replace (hr : v.Inside r) (hx : v.Inside x) (s : List Char) :
    (v.replace r s).Inside (x.afterReplacing .mark r s) := by
  obtain ⟨text, htext, hstop⟩ := hx
  by_cases h : x.flow = r.flow
  · obtain ⟨text', htext', hrstop⟩ := hr
    obtain rfl : text = text' := Option.some.inj (htext.symm.trans (h ▸ htext'))
    refine ⟨text.take r.start ++ s ++ text.drop r.stop,
      by simp [MarkedText.replace, h, htext'], ?_⟩
    have hle := r.start_le_stop
    have hplace := TextRange.placeAfterDeleting_cases hle x.stop
    rw [(TextRange.ends_afterReplacing h s).2, List.length_append, List.length_append,
      List.length_take_of_le (by omega), List.length_drop]
    split_ifs <;> omega
  · refine ⟨text, ?_, ?_⟩
    · rw [TextRange.flow_afterReplacing]
      exact (if_neg h).trans htext
    · rwa [TextRange.afterReplacing, if_neg h]

open TextRange in
/-- **A mark apart from what is replaced** covers the same text as before, if it does not take in
the new text. -/
theorem under?_replace_of_apart (hr : v.Inside r) (hapart : x.Apart r)
    (hout : x.KeepsOut r.flow r.start s) :
    (v.replace r s).under? (x.afterReplacing .mark r s) = v.under? x := by
  by_cases h : x.flow = r.flow
  · obtain ⟨text, htext, hrstop⟩ := hr
    have hx := x.start_le_stop
    have hle := r.start_le_stop
    have hnew : (v.replace r s).text x.flow =
        some (text.take r.start ++ s ++ text.drop r.stop) := by
      simp [MarkedText.replace, h, htext]
    rw [under?, under?, flow_afterReplacing, hnew, h, htext, Option.map_some,
      Option.map_some, Option.some.injEq]
    by_cases hempty : x.start = x.stop
    · -- an empty mark stays empty, wherever it goes
      obtain ⟨hstart, hstop⟩ := ends_afterReplacing h s
      have hsame : (x.afterReplacing .mark r s).start = (x.afterReplacing .mark r s).stop := by
        simp only [hstart, hstop, hempty, true_or, and_true, Nat.le_iff_lt_or_eq]
      rw [hsame, hempty, List.drop_take_self, List.drop_take_self]
    rcases hapart h with hbefore | hbehind
    · have hstays : x.afterReplacing .mark r s = x :=
        afterReplacing_before h hbefore fun hend =>
          (hout h hend (by omega)).imp_right fun hbreak => ⟨by omega, hbreak⟩
      rw [hstays, drop_take_replaced_before (by omega) hbefore]
    · obtain ⟨hstart, hstop⟩ := ends_afterReplacing_behind h hbehind s
      rw [hstart, hstop, drop_take_replaced_behind (by omega) hbehind (by omega)]
  · have hsame : x.afterReplacing .mark r s = x := if_neg h
    rw [hsame, under?, under?]
    exact congrArg _ (if_neg h)

/-- The text with a section of the body rewritten. -/
def rewrite (v : MarkedText) (whole : TextRange) (title entries : List Char) : MarkedText :=
  (v.replace whole title).typed (whole.start + title.length) entries

section Rewrite

variable (hbody : whole.flow = .body)
include hbody

/-- Typing where text was deleted is replacing it. -/
theorem typed_replace_nil (hwhole : v.Inside whole) (s : List Char) :
    (v.replace whole []).typed whole.start s = v.replace whole s := by
  obtain ⟨text, htext, hstop⟩ := hwhole
  refine ext' (fun flow => ?_) ?_
  · by_cases hflow : flow = .body
    · subst hflow
      rw [hbody] at htext
      have hlength : (text.take whole.start).length = whole.start :=
        List.length_take_of_le (Nat.le_trans whole.start_le_stop hstop)
      rw [text_typed]
      simp only [replace, hbody, if_true, htext, Option.map_some, List.append_nil,
        List.take_left' hlength, List.drop_left' hlength]
    · rw [text_typed_of_ne hflow]
      simp only [replace, hbody, if_neg hflow]
  · simp only [typed, replace, List.map_map]
    refine List.map_congr_left fun m _ => Prod.ext rfl ?_
    rw [← m.2.afterReplacing_afterReplacing_nil .mark whole s, TextRange.startPoint, hbody]
    rfl

theorem marks_rewrite (v : MarkedText) (title entries : List Char) :
    (v.rewrite whole title entries).marks =
      v.marks.map fun m => (m.1, m.2.afterRewriting whole title entries) := by
  simp only [rewrite, typed, replace, List.map_map, TextRange.afterRewriting, hbody]
  rfl

theorem get?_rewrite (v : MarkedText) (title entries : List Char) (name : String) :
    (v.rewrite whole title entries).marks.get? name =
      (v.marks.get? name).map fun x => x.afterRewriting whole title entries := by
  rw [marks_rewrite hbody]
  exact Keyed.get?_map v.marks (fun x => x.afterRewriting whole title entries) name

/-- The new title ends inside the text. -/
theorem inside_titled (hwhole : v.Inside whole) (title : List Char) :
    (v.replace whole title).Inside (.collapsed .body (whole.start + title.length)) := by
  obtain ⟨text, htext, hstop⟩ := hwhole
  have hle := whole.start_le_stop
  refine ⟨text.take whole.start ++ title ++ text.drop whole.stop, ?_, ?_⟩
  · rw [hbody] at htext
    simp [replace, hbody, htext]
  · rw [List.length_append, List.length_append, List.length_take_of_le (by omega)]
    exact Nat.le_add_right _ _

/-- The text around a section stays. -/
theorem text_rewrite {text : List Char} (htext : v.text .body = some text)
    (hstop : whole.stop ≤ text.length) (title entries : List Char) :
    (v.rewrite whole title entries).text .body =
      some (text.take whole.start ++ (title ++ entries) ++ text.drop whole.stop) := by
  have hlength : (text.take whole.start ++ title).length = whole.start + title.length := by
    rw [List.length_append, List.length_take_of_le (Nat.le_trans whole.start_le_stop hstop)]
  rw [rewrite, text_typed]
  simp only [replace, hbody, if_true, htext, Option.map_some]
  rw [List.take_left' hlength, List.drop_left' hlength]
  simp only [List.append_assoc]

theorem text_rewrite_of_ne {flow : Flow} (h : flow ≠ .body) (v : MarkedText)
    (title entries : List Char) : (v.rewrite whole title entries).text flow = v.text flow := by
  rw [rewrite, text_typed_of_ne h]
  exact if_neg (hbody ▸ h)

/-- The section is inside the text again. -/
theorem inside_rewritten (hwhole : v.Inside whole) (title entries : List Char) :
    (v.rewrite whole title entries).Inside (whole.rewritten title entries) := by
  obtain ⟨text, htext, hstop⟩ := inside_typed (inside_titled hbody hwhole title) entries
  refine ⟨text, ?_, ?_⟩
  · rw [TextRange.flow_rewritten, hbody]
    exact htext
  · rwa [TextRange.stop_rewritten]

/-- A mark that suits the rewriting covers the same text as before. -/
theorem under?_rewrite_of_suits (hwhole : v.Inside whole)
    (hentries : entries = [] ∨ '\n' ∈ entries) (hsuits : x.Suits whole title entries) :
    (v.rewrite whole title entries).under? (x.afterRewriting whole title entries) =
      v.under? x := by
  -- with the title typed, the place of the entries is behind the mark or before it
  have hfirst : x.Suits whole title ([] : List Char) :=
    ⟨hsuits.apart, hsuits.keepsOut, fun h hempty hat => ⟨(hsuits.notPushed h hempty hat).1, rfl⟩⟩
  have htitled : x.afterRewriting whole title [] = x.afterReplacing .mark whole title :=
    TextRange.afterReplacing_collapsed_nil _ _ _
  have hapart : (x.afterReplacing .mark whole title).Apart
      (.collapsed .body (whole.start + title.length)) := by
    intro hflow
    rw [TextRange.flow_afterReplacing, TextRange.flow_collapsed, ← hbody] at hflow
    have hends := hfirst.ends hflow (Or.inl rfl)
    rw [htitled, TextRange.stop_rewritten, List.length_nil] at hends
    rw [TextRange.start_collapsed, TextRange.stop_collapsed]
    omega
  rw [rewrite, TextRange.afterRewriting, hbody,
    ← under?_replace_of_apart hwhole hsuits.apart hsuits.keepsOut]
  exact under?_replace_of_apart (inside_titled hbody hwhole title) hapart fun _ _ _ => hentries

/-- **A mark that is not inside a section is unharmed by its rewriting just when it suits it**: it
covers the same text, and is neither in the way of the section nor inside of it. -/
theorem suits_iff_unharmed (hwhole : v.Inside whole) (hx : v.Inside x)
    (hentries : entries = [] ∨ '\n' ∈ entries) (hguard : ¬ x.IsWithin whole) :
    x.Suits whole title entries ↔
      (v.rewrite whole title entries).under? (x.afterRewriting whole title entries) = v.under? x ∧
        (x.afterRewriting whole title entries).intersects (whole.rewritten title entries) = false ∧
        ¬ (x.afterRewriting whole title entries).IsWithin (whole.rewritten title entries) := by
  have hsuits : x.Suits whole title entries ↔ _ := TextRange.suits_iff hentries hguard
  rw [TextRange.apart_iff] at hsuits
  constructor
  · intro h
    exact ⟨under?_rewrite_of_suits hbody hwhole hentries h, (hsuits.mp h).2⟩
  · rintro ⟨hunder, hafter⟩
    -- a mark that covers the same text is as long as before
    obtain ⟨text, htext⟩ := exists_under? hx
    have hstop := length_of_under? hx htext
    have hinside : (v.rewrite whole title entries).Inside
        (x.afterRewriting whole title entries) := by
      rw [rewrite, TextRange.afterRewriting, hbody]
      exact (inside_titled hbody hwhole title).replace (hwhole.replace hx title) entries
    have hstop' := length_of_under? hinside (hunder.trans htext)
    refine hsuits.mpr ⟨?_, hafter⟩
    rw [TextRange.length, TextRange.length, hstop, hstop', Nat.add_sub_cancel_left,
      Nat.add_sub_cancel_left]

end Rewrite

end MarkedText

end DocCite
