import DocCite.Proofs.Document.Inserting

/-!
# Marks that are opened for writing

Before a marker is written its mark is brought down to two placeholders, and the marker is typed
between them. A mark of two characters or more is emptied in place, so that its neighbours move as
if it had been filled by the placeholders (`Makes.emptyMark`). A shorter one is deleted and created
anew, apart from the marks that touch it (`Makes.prepareMark_of_lt`).
-/

namespace DocCite

namespace TextRange

/-- A place of a mark after the text from `start` to `stop` was replaced by `count` characters
without a paragraph break. -/
def replacedPlace (start stop count place : Nat) : Nat :=
  if place < start then place
  else if place ≤ stop then start + count
  else place - stop + (start + count)

theorem replacedPlace_cases (start stop count place : Nat) :
    place < start ∧ replacedPlace start stop count place = place ∨
      start ≤ place ∧ place ≤ stop ∧ replacedPlace start stop count place = start + count ∨
      start ≤ place ∧ stop < place ∧
        replacedPlace start stop count place = place - stop + (start + count) := by
  unfold replacedPlace
  split_ifs <;> omega

/-- Both ends of a mark move alike. -/
theorem ends_afterReplacing_mark {x r : TextRange} {s : List Char} (h : x.flow = r.flow)
    (hbreak : '\n' ∉ s) :
    (x.afterReplacing .mark r s).start = replacedPlace r.start r.stop s.length x.start ∧
      (x.afterReplacing .mark r s).stop = replacedPlace r.start r.stop s.length x.stop := by
  have hle := r.start_le_stop
  obtain ⟨hstart, hstop⟩ := ends_afterReplacing h s
  simp only [hbreak, not_false_eq_true, or_true, and_true, ← Nat.le_iff_lt_or_eq] at hstart hstop
  have hplace (p : Nat) :
      (if r.start ≤ placeAfterDeleting r.start r.stop p then
        placeAfterDeleting r.start r.stop p + s.length
      else placeAfterDeleting r.start r.stop p) = replacedPlace r.start r.stop s.length p := by
    simp only [placeAfterDeleting, replacedPlace]
    split_ifs <;> omega
  exact ⟨hstart.trans (hplace _), hstop.trans (hplace _)⟩

theorem ends_afterReplacing_new {x : TextRange} {flow : Flow} {a b : Nat} {s : List Char}
    (h : x.flow = flow) (hab : a ≤ b) (hbreak : '\n' ∉ s) :
    (x.afterReplacing .mark (new flow a b) s).start = replacedPlace a b s.length x.start ∧
      (x.afterReplacing .mark (new flow a b) s).stop = replacedPlace a b s.length x.stop := by
  have hends := ends_afterReplacing_mark (x := x) (r := new flow a b) h hbreak
  rwa [start_new, stop_new, Nat.min_eq_left hab, Nat.max_eq_right hab] at hends

/-- The edits that empty a mark bring a place to where filling the mark would bring it. -/
theorem replacedPlace_emptying {start stop n : Nat} (hn : stop = start + (n + 2)) (p : Nat) :
    replacedPlace (start + 1) (start + 2) 0
        (replacedPlace (start + 3) (start + 5) 0
          (replacedPlace (start + 0) (start + 2) 0
            (replacedPlace (start + 1) (start + (n + 1)) 5 p))) =
      filledPlace start stop 2 p := by
  generalize hq₁ : replacedPlace (start + 1) (start + (n + 1)) 5 p = q₁
  generalize hq₂ : replacedPlace (start + 0) (start + 2) 0 q₁ = q₂
  generalize hq₃ : replacedPlace (start + 3) (start + 5) 0 q₂ = q₃
  -- the first edit brings all places inside the range to one
  have h₁ : p ≤ start ∧ q₁ = p ∨ start < p ∧ p < stop ∧ q₁ = start + 6 ∨
      stop ≤ p ∧ q₁ = p - stop + (start + 7) := by
    have := replacedPlace_cases (start + 1) (start + (n + 1)) 5 p
    omega
  have h₂ : p ≤ start ∧ q₂ = p ∨ start < p ∧ p < stop ∧ q₂ = start + 4 ∨
      stop ≤ p ∧ q₂ = p - stop + (start + 5) := by
    have := replacedPlace_cases (start + 0) (start + 2) 0 q₁
    omega
  have h₃ : p ≤ start ∧ q₃ = p ∨ start < p ∧ p < stop ∧ q₃ = start + 3 ∨
      stop ≤ p ∧ q₃ = p - stop + (start + 3) := by
    have := replacedPlace_cases (start + 3) (start + 5) 0 q₂
    omega
  have := replacedPlace_cases (start + 1) (start + 2) 0 q₃
  unfold filledPlace
  split_ifs <;> omega

/-- **A mark around or beside one that is emptied** moves as if that one had been filled. -/
theorem afterEmptying (x : TextRange) {r : TextRange} {n : Nat} {s : List Char}
    (hn : r.stop = r.start + (n + 2)) (hs : s.length = 5) (hbreak : '\n' ∉ s) :
    ((((x.afterReplacing .mark (new r.flow (r.start + 1) (r.start + (n + 1))) s).afterReplacing
        .mark (new r.flow (r.start + 0) (r.start + 2)) []).afterReplacing
        .mark (new r.flow (r.start + 3) (r.start + 5)) []).afterReplacing
        .mark (new r.flow (r.start + 1) (r.start + 2)) []) = x.afterFilling r 2 := by
  by_cases h : x.flow = r.flow
  · have hnil : '\n' ∉ ([] : List Char) := by simp
    refine eq_of_ends (by simp) ?_ ?_
    · rw [(ends_afterReplacing_new (by simpa) (by omega) hnil).1,
        (ends_afterReplacing_new (by simpa) (by omega) hnil).1,
        (ends_afterReplacing_new (by simpa) (by omega) hnil).1,
        (ends_afterReplacing_new h (by omega) hbreak).1, hs, start_afterFilling h]
      exact replacedPlace_emptying hn x.start
    · rw [(ends_afterReplacing_new (by simpa) (by omega) hnil).2,
        (ends_afterReplacing_new (by simpa) (by omega) hnil).2,
        (ends_afterReplacing_new (by simpa) (by omega) hnil).2,
        (ends_afterReplacing_new h (by omega) hbreak).2, hs, stop_afterFilling h]
      exact replacedPlace_emptying hn x.stop
  · have hne (a b : Nat) (t : List Char) : x.afterReplacing .mark (new r.flow a b) t = x :=
      if_neg h
    rw [hne, hne, hne, hne, afterFilling_of_ne h]

/-- Typing where text was deleted is replacing it. -/
theorem afterReplacing_afterReplacing_nil (x : TextRange) (holder : RangeHolder) (r : TextRange)
    (s : List Char) :
    (x.afterReplacing holder r []).afterReplacing holder r.startPoint s =
      x.afterReplacing holder r s := by
  rw [afterReplacing_startPoint, afterReplacing_nil, afterReplacing]
  by_cases h : x.flow = r.flow
  · simp only [if_pos h, flow_afterDeleting]
  · simp only [if_neg h]

/-- The range of a mark that is ready to be emptied. -/
def opened (r : TextRange) : TextRange :=
  if r.length < 2 then new r.flow r.start (r.start + 2) else r

@[simp] theorem flow_opened (r : TextRange) : r.opened.flow = r.flow := by
  unfold opened
  split_ifs <;> rfl

@[simp] theorem start_opened (r : TextRange) : r.opened.start = r.start := by
  unfold opened
  split_ifs
  · exact Nat.min_eq_left (Nat.le_add_right _ _)
  · rfl

theorem two_le_length_opened (r : TextRange) : 2 ≤ r.opened.length := by
  unfold opened
  split_ifs
  · rw [length, start_new, stop_new]
    omega
  · omega

end TextRange

namespace MarkedText

variable {v w : MarkedText} {r : TextRange}

/-- A mark after a range was filled. -/
theorem get?_fill (v : MarkedText) (r : TextRange) (s : List Char) (id : String) :
    (v.fill r s).marks.get? id = (v.marks.get? id).map fun x => x.afterFilling r s.length :=
  Keyed.get?_map v.marks (fun x => x.afterFilling r s.length) id

theorem get?_replace (v : MarkedText) (r : TextRange) (s : List Char) (id : String) :
    (v.replace r s).marks.get? id = (v.marks.get? id).map fun x => x.afterReplacing .mark r s :=
  Keyed.get?_map v.marks (fun x => x.afterReplacing .mark r s) id

/-- A mark that is filled covers what fills it. -/
theorem get?_fill_self {id : String} {s : List Char} (h : v.marks.get? id = some r)
    (hs : r.start < r.stop ∨ s.length = 0) :
    (v.fill r s).marks.get? id = some (.new r.flow r.start (r.start + s.length)) := by
  rw [get?_fill, h, Option.map_some, r.afterFilling_self hs]

/-- The text with a mark created anew in its place, over placeholders. -/
def reopened (v : MarkedText) (id : String) (r : TextRange) : MarkedText where
  text := v.filled r [DocumentM.placeholder, DocumentM.placeholder]
  marks := ((v.marks.erase id).map fun m => (m.1, m.2.afterReplacing .mark r ['\n', '\n'])) ++
    [(id, .new r.flow r.start (r.start + 2))]

/-- The text with a mark that can be emptied: a short one is created anew. -/
def opened (v : MarkedText) (id : String) (r : TextRange) : MarkedText :=
  if r.length < 2 then v.reopened id r else v

theorem get?_opened {id : String} (h : v.marks.get? id = some r) :
    (v.opened id r).marks.get? id = some r.opened := by
  unfold opened TextRange.opened
  split_ifs
  · rw [reopened, Keyed.get?_append, Keyed.get?_map (v.marks.erase id)
      (fun x => x.afterReplacing .mark r ['\n', '\n']), Keyed.get?_erase_self]
    simp [Keyed.get?]
  · exact h

theorem text_opened_of_lt (id : String) (h : r.length < 2) :
    (v.opened id r).text = v.filled r [DocumentM.placeholder, DocumentM.placeholder] := by
  rw [opened, if_pos h]
  rfl

theorem inside_opened (id : String) (hr : v.Inside r) : (v.opened id r).Inside r.opened := by
  unfold opened TextRange.opened
  split_ifs
  · exact inside_filled (w := v.reopened id r) (i := 0) (j := 2) hr rfl (by omega) (by simp)
  · exact hr

end MarkedText

/-- What surrounds a mark surrounds it when it can be emptied. -/
theorem Surrounds.opened {I : Document → Prop} {v : MarkedText} {r : TextRange}
    (hI : Surrounds I v r) (hr : v.Inside r) (id : String) :
    Surrounds I (v.opened id r) r.opened := by
  by_cases h : r.length < 2
  · have hopened : r.opened = .new r.flow r.start (r.start + 2) := if_pos h
    rw [hopened]
    exact hI.filled hr (MarkedText.text_opened_of_lt id h)
  · have hopened : r.opened = r := if_neg h
    have hsame : v.opened id r = v := if_neg h
    rw [hopened, hsame]
    exact hI

namespace Makes

theorem removeMark {o : Document} {v : MarkedText} {r : TextRange} {id : String}
    (hid : v.marks.get? id = some r) :
    Makes o v (DocumentM.removeMark id) () { v with marks := v.marks.erase id } := by
  refine call fun d hd => ⟨{ d with marks := d.marks.erase id }, ?_, ?_⟩
  · have hsome : d.marks.get? id = some r := by rw [← hid, ← hd.markedText]; rfl
    rw [hsome]
    rfl
  · refine ⟨?_, hd.properties, hd.characterStyles, hd.steady⟩
    rw [← hd.markedText]
    rfl

end Makes

namespace MakesWithin

open DocumentM MarkedText

variable {I : Document → Prop} {o : Document} {v w : MarkedText} {r : TextRange} {id : String}
  (hI : Surrounds I v r)
include hI

/-- **Emptying a mark** fills it with its placeholders. -/
theorem emptyMark (hmark : v.marks.get? id = some r) (hr : v.Inside r) (hlength : 2 ≤ r.length) :
    MakesWithin I o v (emptyMark id r) (some (.collapsed r.flow (r.start + 1)))
      (v.fill r [placeholder, placeholder]) := by
  obtain ⟨s, hs⟩ := exists_under? hr
  have hstop := length_of_under? hr hs
  obtain ⟨first, middle, last, rfl⟩ : ∃ first middle last, s = first :: (middle ++ [last]) := by
    have hlong : 2 ≤ s.length := by
      rw [TextRange.length] at hlength
      omega
    rcases s with _ | ⟨first, rest⟩
    · simp at hlong
    · have hne : rest ≠ [] := fun h => by simp [h] at hlong
      exact ⟨first, rest.dropLast, rest.getLast hne, by rw [List.dropLast_concat_getLast]⟩
  have hn : r.stop = r.start + (middle.length + 2) := by simpa using hstop
  have hinner : r.stop - 1 = r.start + (middle.length + 1) := by omega
  -- what is under the mark after each of the four edits
  have h₀ : v.text = v.filled r (first :: (middle ++ [last])) := (filled_of_under? hs).symm
  have h₁ := text_replace_filled (i := 1) (j := middle.length + 1)
    (u := ['x', placeholder, 'y', placeholder, 'z']) hr h₀ (by omega) (by simp)
  have hfive : (first :: (middle ++ [last])).take 1 ++ ['x', placeholder, 'y', placeholder, 'z'] ++
      (first :: (middle ++ [last])).drop (middle.length + 1) =
        [first, 'x', placeholder, 'y', placeholder, 'z', last] := by simp
  rw [hfive] at h₁
  have h₂ := text_replace_filled (i := 0) (j := 2) (u := []) hr h₁ (by omega) (by simp)
  have h₃ := text_replace_filled (i := 3) (j := 5) (u := []) hr h₂ (by omega) (by simp)
  have h₄ := text_replace_filled (i := 1) (j := 2) (u := []) hr h₃ (by omega) (by simp)
  have hfilled : ((((v.replace (.new r.flow (r.start + 1) (r.start + (middle.length + 1)))
      ['x', placeholder, 'y', placeholder, 'z']).replace
      (.new r.flow (r.start + 0) (r.start + 2)) []).replace
      (.new r.flow (r.start + 3) (r.start + 5)) []).replace
      (.new r.flow (r.start + 1) (r.start + 2)) []) = v.fill r [placeholder, placeholder] := by
    refine ext' (fun flow => congrFun h₄ flow) ?_
    simp only [MarkedText.replace, fill, List.map_map]
    refine List.map_congr_left fun m _ => ?_
    exact Prod.ext rfl (m.2.afterEmptying hn rfl (by decide))
  have hopen : (v.fill r [placeholder, placeholder]).marks.get? id =
      some (.new r.flow (r.start + 0) (r.start + 2)) :=
    get?_fill_self hmark (Or.inl (by omega))
  have hmarked := under?_filled (w := v.fill r [placeholder, placeholder]) (i := 0) (j := 2) hr rfl
    (by omega) (by decide)
  have hinside := inside_filled (w := v.fill r [placeholder, placeholder]) (i := 0) (j := 2) hr rfl
    (by omega) (by decide)
  unfold DocumentM.emptyMark
  rw [hinner]
  refine bind (replace_filled hI (i := 1) (j := middle.length + 1) hr h₀ (by omega) (by simp)
    String.toList_ofList) ?_
  refine bind (replace_filled hI (i := 0) (j := 2) hr h₁ (by omega) (by simp)
    String.toList_empty) ?_
  refine bind (replace_filled hI (i := 3) (j := 5) hr h₂ (by omega) (by simp)
    String.toList_empty) ?_
  refine bind (replace_filled hI (i := 1) (j := 2) hr h₃ (by omega) (by simp)
    String.toList_empty) ?_
  rw [hfilled]
  refine bind ((Makes.groupRange hopen).within hI (keeps_groupRange id))
    (bind ((Makes.text hinside hmarked).within hI (keeps_text _)) ?_)
  rw [if_pos (show String.ofList (([placeholder, placeholder].take 2).drop 0) = placeholders from rfl),
    TextRange.start_new, Nat.min_eq_left (by omega)]
  exact pure _

/-- A mark of less than two characters is created anew. -/
theorem prepareMark_of_lt (hmark : v.marks.get? id = some r) (hr : v.Inside r)
    (hlength : r.length < 2) :
    MakesWithin I o v (prepareMark id) none (v.reopened id r) := by
  have hdeleted : (v.replace r []).text = v.filled r [] := rfl
  have hplace : ({ v.replace r [] with marks := (v.replace r []).marks.erase id } :
      MarkedText).Inside (.collapsed r.flow r.start) := by
    rw [TextRange.collapsed_eq_new]
    exact inside_filled (i := 0) (j := 0) hr hdeleted (by omega) (by simp)
  have hreopened : (({ v.replace r [] with marks := (v.replace r []).marks.erase id } :
      MarkedText).inserted r.flow r.start [placeholder, placeholder]).mark id
        (.new r.flow r.start (r.start + 2)) = v.reopened id r := by
    refine ext' (fun flow => ?_) ?_
    · exact congrFun (text_type_filled (i := 0) (u := [placeholder, placeholder]) hr hdeleted
        (by simp)) flow
    · have hmove (x : TextRange) : (x.afterReplacing .mark r []).afterInserting r.flow r.start 2 =
          x.afterReplacing .mark r ['\n', '\n'] := by
        rw [← TextRange.afterReplacing_break]
        exact x.afterReplacing_afterReplacing_nil .mark r ['\n', '\n']
      simp only [mark, inserted, reopened, MarkedText.replace, Keyed.erase_map v.marks
        (fun x => x.afterReplacing .mark r []), List.map_map, Function.comp_def]
      exact congrArg (· ++ _) (List.map_congr_left fun m _ => Prod.ext rfl (hmove m.2))
  unfold prepareMark
  have hdelete : MakesWithin I o v (DocumentM.replace r "") (Document.typedRange r "")
      (v.replace r []) := by
    obtain ⟨s, hs⟩ := exists_under? hr
    have hreplace := replace_filled hI (o := o) (i := 0) (j := s.length) hr
      (filled_of_under? hs).symm (Nat.zero_le _) (Nat.le_refl _) String.toList_empty
    rwa [Nat.add_zero, ← length_of_under? hr hs, TextRange.new_of_le r.start_le_stop] at hreplace
  refine bind ((Makes.groupRange hmark).within hI (keeps_groupRange id)) ?_
  rw [if_pos hlength]
  refine bind hdelete (bind ((Makes.removeMark (r := r.afterReplacing .mark r []) ?_).within hI
    (hI.keeps_removeMark id)) ?_)
  · rw [get?_replace, hmark, Option.map_some]
  have hI' : Surrounds I { v.replace r [] with marks := (v.replace r []).marks.erase id }
      (.collapsed r.flow r.start) := hI.deleted hr hdeleted
  refine bind (placeMark hI' hplace (Keyed.get?_erase_self _ id) false) ?_
  rw [if_neg Bool.false_ne_true, hreopened]
  exact pure none

/-- **A mark is ready to be written into** when it holds its placeholders and nothing else. -/
theorem fillCursor (hmark : v.marks.get? id = some r) (hr : v.Inside r) :
    MakesWithin I o v (fillCursor id) (.collapsed r.flow (r.start + 1))
      ((v.opened id r).fill r.opened [placeholder, placeholder]) := by
  have hempty := emptyMark (o := o) (hI.opened hr id) (get?_opened hmark) (inside_opened id hr)
    r.two_le_length_opened
  rw [r.flow_opened, r.start_opened] at hempty
  have hprepare : MakesWithin I o (v.opened id r) (prepareMark id)
      (some (.collapsed r.flow (r.start + 1)))
      ((v.opened id r).fill r.opened [placeholder, placeholder]) := by
    unfold prepareMark
    refine bind ((Makes.groupRange (get?_opened hmark)).within hI (keeps_groupRange id)) ?_
    rw [if_neg (Nat.not_lt.mpr r.two_le_length_opened)]
    exact hempty
  by_cases hlength : r.length < 2
  · have hfirst := prepareMark_of_lt hI (o := o) hmark hr hlength
    have hopened : v.opened id r = v.reopened id r := if_pos hlength
    rw [hopened] at hprepare ⊢
    exact bind hfirst (bind hprepare (pure _))
  · have hopened : v.opened id r = v := if_neg hlength
    rw [hopened] at hprepare ⊢
    exact bind hprepare (pure _)

end MakesWithin

end DocCite
