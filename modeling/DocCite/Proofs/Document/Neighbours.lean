import DocCite.Proofs.Document.Beside
import DocCite.Proofs.Document.Evaluating

/-!
# The neighbours of a new mark

A new mark is placed with breaks and spaces around it that are deleted again. What they do to the
marks and bookmarks beside it cancels out: each covers what it covered, together with the inserted
text if it was around the place (`placesMark_of_placeMark`). Marks take in what is typed at their
ends and bookmarks do not, so the two come to that by different ways. For marks the breaks are
needed (`MarkedText.inserted`); a bookmark stands any edits of the inserted text
(`TextRange.afterReplacing_bookmarkAfter`).
-/

namespace DocCite

namespace TextRange

variable {x : TextRange} {flow : Flow} {p i j count : Nat}

/-- Typing does not make a range empty, nor fill an empty one. -/
@[simp] theorem isEmpty_afterTyping (x : TextRange) (holder : RangeHolder) (t : Typed) :
    (x.afterTyping holder t).isEmpty = x.isEmpty := by
  have hle := x.start_le_stop
  rw [Bool.eq_iff_iff, isEmpty_iff, isEmpty_iff, start_afterTyping, stop_afterTyping]
  by_cases h : x.isEmpty = true
  · simp only [movesAtStart, movesAtStop, h, isEmpty_iff.mp h, Bool.not_true, Bool.false_or,
      if_true]
  · have hne : x.start ≠ x.stop := fun heq => h (isEmpty_iff.mpr heq)
    simp only [placeAfterTyping]
    split_ifs <;> omega

/-- **Typing anywhere into what was just typed** comes to having typed more, for a bookmark: it
takes in nothing at its ends. -/
theorem afterTyping_afterTyping_bookmark (x : TextRange) {k : Nat} {b b' : Bool}
    (hi : i ≤ count) :
    (x.afterTyping .bookmark ⟨p, count, b⟩).afterTyping .bookmark ⟨p + i, k, b'⟩ =
      x.afterTyping .bookmark ⟨p, count + k, b⟩ := by
  -- an end at the first place moves both times or not at all
  have hplace (moves : Bool) (a : Nat) :
      placeAfterTyping moves ⟨p + i, k, b'⟩ (placeAfterTyping moves ⟨p, count, b⟩ a) =
        placeAfterTyping moves ⟨p, count + k, b⟩ a := by
    cases moves with
    | true =>
      simp only [placeAfterTyping, and_true]
      split_ifs <;> omega
    | false =>
      simp only [placeAfterTyping, Bool.false_eq_true, and_false, or_false]
      split_ifs <;> omega
  have hstart : (x.afterTyping .bookmark ⟨p, count, b⟩).movesAtStart .bookmark =
      x.movesAtStart .bookmark := by
    rw [movesAtStart, movesAtStart, isEmpty_afterTyping]
  have hstop (y : TextRange) (t : Typed) : y.movesAtStop .bookmark t = false := ite_self false
  refine eq_of_ends (by simp) ?_ ?_
  · simp only [start_afterTyping, hstart, hplace]
  · simp only [stop_afterTyping, hstop, hplace]

/-- A bookmark after some characters were inserted. An empty one at the place stays before them. -/
def bookmarkAfter (x : TextRange) (flow : Flow) (p count : Nat) : TextRange :=
  if x.flow = flow then x.afterTyping .bookmark ⟨p, count, true⟩ else x

@[simp] theorem flow_bookmarkAfter (x : TextRange) (flow : Flow) (p count : Nat) :
    (x.bookmarkAfter flow p count).flow = x.flow := by
  unfold bookmarkAfter
  split_ifs <;> simp

@[simp] theorem isEmpty_bookmarkAfter (x : TextRange) (flow : Flow) (p count : Nat) :
    (x.bookmarkAfter flow p count).isEmpty = x.isEmpty := by
  unfold bookmarkAfter
  split_ifs <;> simp

/-- With nothing inserted a bookmark is as it was. -/
theorem bookmarkAfter_zero (x : TextRange) (flow : Flow) (p : Nat) :
    x.bookmarkAfter flow p 0 = x := by
  rw [bookmarkAfter, afterTyping_zero, ite_self]

/-- A bookmark with text in it moves as a mark does when text is inserted apart. -/
theorem bookmarkAfter_of_not_isEmpty (h : x.isEmpty = false) (flow : Flow) (p count : Nat) :
    x.bookmarkAfter flow p count = x.afterInserting flow p count := by
  unfold bookmarkAfter afterInserting afterTyping
  simp [h, takesInAtStop]

theorem bookmarkAfter_collapsed (flow : Flow) (p count : Nat) :
    (collapsed flow p).bookmarkAfter flow p count = collapsed flow p := by
  simp [bookmarkAfter, afterTyping, isEmpty, collapsed]

/-- **Edits of inserted text** leave the bookmarks around it where they are. -/
theorem afterReplacing_bookmarkAfter (x : TextRange) {s : List Char} (hij : i ≤ j)
    (hj : j ≤ count) :
    (x.bookmarkAfter flow p count).afterReplacing .bookmark (new flow (p + i) (p + j)) s =
      x.bookmarkAfter flow p (i + s.length + (count - j)) := by
  by_cases h : x.flow = flow
  · have hdeleted := afterDeleting_afterTyping_part x .bookmark (p := p) (i := i) (j := j - i)
      (m := count) (b := true) (by omega)
    rw [show p + i + (j - i) = p + j by omega] at hdeleted
    have hflow : (x.afterTyping .bookmark ⟨p, count, true⟩).flow = flow := by simpa using h
    rw [bookmarkAfter, bookmarkAfter, if_pos h, if_pos h, afterReplacing, flow_new, if_pos hflow,
      start_new, stop_new, Nat.min_eq_left (by omega), Nat.max_eq_right (by omega), hdeleted,
      afterTyping_afterTyping_bookmark x (by omega),
      show count - (j - i) + s.length = i + s.length + (count - j) by omega]
  · rw [bookmarkAfter, bookmarkAfter, if_neg h, if_neg h, afterReplacing, flow_new, if_neg h]

/-- No bookmark goes with inserted text: none has all of its own text in it. -/
theorem not_isDeletedWith_bookmarkAfter (x : TextRange) (hij : i ≤ j) (hj : j ≤ count) :
    Document.isDeletedWith (new flow (p + i) (p + j)) (x.bookmarkAfter flow p count) = false := by
  cases hempty : x.isEmpty with
  | true =>
    simp [Document.isDeletedWith, hempty]
  | false =>
    have hlt : x.start < x.stop :=
      Nat.lt_of_le_of_ne x.start_le_stop fun heq => by simp [isEmpty_iff.mpr heq] at hempty
    rw [bookmarkAfter_of_not_isEmpty hempty]
    by_cases hflow : x.flow = flow
    · have hnot : ¬ (p + i ≤ (x.afterInserting flow p count).start ∧
          (x.afterInserting flow p count).stop ≤ p + j) := by
        obtain ⟨hbehind, hmoved⟩ | ⟨hbefore, -, hmoved⟩ | ⟨hbefore, -, hmoved⟩ :=
          afterInserting_cases hflow p count <;> rw [hmoved]
        · rw [start_new, stop_new]
          omega
        · omega
        · rw [start_new, stop_new]
          omega
      simp only [Document.isDeletedWith, contains, start_new, stop_new, Bool.and_eq_false_iff,
        Nat.min_eq_left (Nat.add_le_add_left hij p), Nat.max_eq_right (Nat.add_le_add_left hij p),
        decide_eq_false_iff_not]
      tauto
    · simp [Document.isDeletedWith, contains, sameFlow, Ne.symm hflow]

end TextRange

namespace MarkedText

variable {v : MarkedText} {x : TextRange} {flow : Flow} {p : Nat} {s : List Char}

/-- An empty range covers nothing. -/
theorem under?_of_isEmpty (h : x.isEmpty = true) :
    v.under? x = (v.text x.flow).map fun _ => [] := by
  refine congrArg (Option.map · _) (funext fun t => ?_)
  rw [TextRange.isEmpty_iff.mp h, List.drop_of_length_le (List.length_take_le _ _)]

/-- **A range around inserted text** covers it with what it covered. -/
theorem under?_inserted_of_around (hx : v.Inside x) (hflow : x.flow = flow) (hstart : x.start < p)
    (hstop : p < x.stop) :
    (v.inserted flow p s).under? (x.afterInserting flow p s.length) =
      (v.under? x).map fun t => t.take (p - x.start) ++ s ++ t.drop (p - x.start) := by
  obtain ⟨t, ht, hend⟩ := hx
  have hmoved : x.afterInserting flow p s.length = .new flow x.start (x.stop + s.length) := by
    obtain ⟨hle, -⟩ | ⟨-, hle, -⟩ | ⟨-, -, heq⟩ :=
      TextRange.afterInserting_cases hflow p s.length
    · omega
    · omega
    · exact heq
  have htext : (v.inserted flow p s).text x.flow = some (t.take p ++ s ++ t.drop p) := by
    change (if x.flow = flow then (v.text x.flow).map fun t => t.take p ++ s ++ t.drop p
      else v.text x.flow) = _
    rw [if_pos hflow, ht, Option.map_some]
  have hbefore : (t.take p).length = p := List.length_take_of_le (by omega)
  have hlength : (t.take p ++ s).length = p + s.length := by rw [List.length_append, hbefore]
  have htake : (t.take p ++ s ++ t.drop p).take (x.stop + s.length) =
      t.take p ++ s ++ (t.drop p).take (x.stop - p) := by
    rw [List.take_append, List.take_of_length_le (by omega), hlength,
      show x.stop + s.length - (p + s.length) = x.stop - p by omega]
  have hsplit : (t.take x.stop).drop x.start =
      (t.take p).drop x.start ++ (t.drop p).take (x.stop - p) := by
    have hstops : t.take x.stop = t.take p ++ (t.drop p).take (x.stop - p) := by
      rw [← List.take_add, Nat.add_sub_cancel' hstop.le]
    rw [hstops, List.drop_append_of_le_length (by omega)]
  have hinner : ((t.take p).drop x.start).length = p - x.start := by
    rw [List.length_drop, hbefore]
  rw [under?, TextRange.flow_afterInserting, htext, Option.map_some, hmoved, under?, ht,
    Option.map_some, Option.map_some, TextRange.start_new, TextRange.stop_new,
    Nat.min_eq_left (by omega), Nat.max_eq_right (by omega), htake, hsplit,
    List.take_left' hinner, List.drop_left' hinner, List.append_assoc,
    List.drop_append_of_le_length (by omega), List.append_assoc]

end MarkedText

/-! ## Bookmarks around an insertion -/

/-- Some text is inserted at a place, and the bookmarks have moved as it says. -/
def InsertedAmong (d₀ : Document) (flow : Flow) (p : Nat) (s : List Char) (d : Document) : Prop :=
  d.markedText.text = d₀.markedText.filled (.collapsed flow p) s ∧
    d.bookmarks = d₀.bookmarks.map fun b => (b.1, b.2.bookmarkAfter flow p s.length)

theorem insertedAmong_self {d : Document} {flow : Flow} {p : Nat}
    (hp : d.Inside (.collapsed flow p)) : InsertedAmong d flow p [] d := by
  refine ⟨MarkedText.text_of_inside (Document.inside_markedText_iff.mpr hp), ?_⟩
  simp [TextRange.bookmarkAfter_zero]

/-- **Bookmarks stand edits of inserted text.** -/
theorem surrounds_insertedAmong {d₀ : Document} {flow : Flow} {p : Nat}
    (hp : d₀.markedText.Inside (.collapsed flow p)) :
    Surrounds (fun d => ∃ s, InsertedAmong d₀ flow p s d) d₀.markedText (.collapsed flow p) where
  of_same := by
    rintro d d' hsame ⟨s, htext, hbookmarks⟩
    refine ⟨s, ?_, hsame.bookmarks ▸ hbookmarks⟩
    rw [((shows_self d).of_same hsame).markedText, htext]
  setMarks := fun _ ⟨s, h⟩ => ⟨s, h⟩
  modifyCells := by
    rintro d q f hchar - ⟨s, htext, hbookmarks⟩
    refine ⟨s, ?_, ?_⟩
    · rw [Document.markedText_modifyCells d q hchar, htext]
    · rw [Document.modifyCells_eq]
      exact hbookmarks
  replaceText := by
    rintro d s i j new htext hij hj ⟨s', htext', hbookmarks⟩
    obtain rfl : s' = s := MarkedText.filled_injective hp (htext'.symm.trans htext)
    have hlength : (s'.take i ++ new.toList ++ s'.drop j).length =
        i + new.toList.length + (s'.length - j) := by
      rw [List.length_append, List.length_append, List.length_take_of_le (by omega),
        List.length_drop]
    refine ⟨s'.take i ++ new.toList ++ s'.drop j, ?_, ?_⟩
    · rw [Document.markedText_replaceText]
      exact MarkedText.text_replace_filled hp htext' hij hj
    · have hkept : d.bookmarks.filter (fun b =>
          !Document.isDeletedWith (.new flow (p + i) (p + j)) b.2) = d.bookmarks := by
        refine List.filter_eq_self.mpr fun b hb => ?_
        rw [hbookmarks] at hb
        obtain ⟨x, -, rfl⟩ := List.mem_map.mp hb
        simp [TextRange.not_isDeletedWith_bookmarkAfter x.2 hij hj]
      rw [Document.bookmarks_replaceText]
      simp only [TextRange.flow_collapsed, TextRange.start_collapsed, hkept, hlength]
      rw [hbookmarks, List.map_map]
      refine List.map_congr_left fun b _ => Prod.ext rfl ?_
      exact b.2.afterReplacing_bookmarkAfter hij hj

/-! ## New marks -/

/-- **A range and what it covers after an insertion**: it covers what it covered, and the inserted
text as well if it was around its place. -/
structure CoversStill (v w : MarkedText) (flow : Flow) (p : Nat) (s : List Char)
    (x x' : TextRange) : Prop where
  flow_eq : x'.flow = x.flow
  apart : (x.flow = flow → x.stop ≤ p ∨ p ≤ x.start) → w.under? x' = v.under? x
  around : x.flow = flow → x.start < p → p < x.stop →
    w.under? x' = (v.under? x).map fun t => t.take (p - x.start) ++ s ++ t.drop (p - x.start)

/-- **What a new mark does to a document.** It covers what it is to hold, which is inserted at its
place with some text behind it; nothing else is changed, and nobody loses anything. -/
structure PlacesMark (d : Document) (name : String) (flow : Flow) (p : Nat)
    (content behind : List Char) (d' : Document) : Prop where
  mark : d'.marks.get? name = some (.new flow p (p + content.length))
  text : ∀ flow', d'.markedText.text flow' =
    if flow' = flow then
      (d.markedText.text flow').map fun t => t.take p ++ (content ++ behind) ++ t.drop p
    else d.markedText.text flow'
  marks : ∀ other x, d.marks.get? other = some x → ∃ x', d'.marks.get? other = some x' ∧
    CoversStill d.markedText d'.markedText flow p (content ++ behind) x x'
  bookmarks : ∀ other x, d.bookmarks.get? other = some x →
    ∃ x', d'.bookmarks.get? other = some x' ∧
      CoversStill d.markedText d'.markedText flow p (content ++ behind) x x' ∧
      (x = .collapsed flow p → x' = x)

section Covers

variable {v w : MarkedText} {flow : Flow} {p : Nat} {s : List Char} {x : TextRange}
  (hp : v.Inside (.collapsed flow p)) (hw : w.text = (v.inserted flow p s).text) (hx : v.Inside x)
include hp hw hx

theorem coversStill_afterInserting :
    CoversStill v w flow p s x (x.afterInserting flow p s.length) := by
  have hunder (y : TextRange) : w.under? y = (v.inserted flow p s).under? y := by
    rw [MarkedText.under?, hw, MarkedText.under?]
  refine ⟨TextRange.flow_afterInserting _ _ _ _, fun hapart => ?_, fun hflow hstart hstop => ?_⟩
  · rw [hunder]
    refine MarkedText.under?_inserted hp hx fun hflow => ?_
    have := hapart hflow
    omega
  · rw [hunder]
    exact MarkedText.under?_inserted_of_around hx hflow hstart hstop

theorem coversStill_bookmarkAfter :
    CoversStill v w flow p s x (x.bookmarkAfter flow p s.length) := by
  cases hempty : x.isEmpty with
  | false =>
    rw [TextRange.bookmarkAfter_of_not_isEmpty hempty]
    exact coversStill_afterInserting hp hw hx
  | true =>
    have hstill := (TextRange.isEmpty_bookmarkAfter x flow p s.length).trans hempty
    refine ⟨TextRange.flow_bookmarkAfter _ _ _ _, fun _ => ?_, fun _ hstart hstop => ?_⟩
    · rw [MarkedText.under?_of_isEmpty hstill, TextRange.flow_bookmarkAfter, hw,
        MarkedText.under?_of_isEmpty hempty]
      simp only [MarkedText.inserted, MarkedText.filled]
      split_ifs
      · exact Option.map_map _ _ _
      · rfl
    · have := TextRange.isEmpty_iff.mp hempty
      omega

end Covers

namespace DocumentM

variable {d d' : Document} {name : String} {flow : Flow} {p : Nat} {content behind : List Char}

/-- A document that shows a new mark in inserted text, and whose bookmarks have moved along. -/
theorem placesMark_of_shows (hd : d.WellFormed) (hp : d.Inside (.collapsed flow p))
    (hname : d.marks.get? name = none)
    (hshows : d'.markedText = (d.markedText.inserted flow p (content ++ behind)).mark name
      (.new flow p (p + content.length)))
    (hamong : InsertedAmong d flow p (content ++ behind) d') :
    PlacesMark d name flow p content behind d' := by
  have hinside := Document.inside_markedText_iff.mpr hp
  have htext : d'.markedText.text = (d.markedText.inserted flow p (content ++ behind)).text := by
    rw [hshows, MarkedText.text_mark]
  have hget (other : String) : d'.marks.get? other =
      ((d.markedText.inserted flow p (content ++ behind)).mark name
        (.new flow p (p + content.length))).marks.get? other := by
    rw [← hshows]
    rfl
  refine ⟨?_, fun flow' => congrFun htext flow', fun other x hx => ?_, fun other x hx => ?_⟩
  · rw [hget, MarkedText.get?_mark_self]
    rw [MarkedText.get?_inserted]
    exact congrArg _ hname
  · have hne : other ≠ name := by
      rintro rfl
      rw [hname] at hx
      cases hx
    refine ⟨x.afterInserting flow p (content ++ behind).length, ?_, ?_⟩
    · rw [hget, MarkedText.get?_mark_of_ne _ hne, MarkedText.get?_inserted]
      exact congrArg _ hx
    · exact coversStill_afterInserting hinside htext (Document.inside_markedText_iff.mpr
        (hd.marks_inside _ (Keyed.mem_of_get?_eq_some hx)))
  · refine ⟨x.bookmarkAfter flow p (content ++ behind).length, ?_, ?_, ?_⟩
    · rw [hamong.2, Keyed.get?_map _ fun b : TextRange =>
        b.bookmarkAfter flow p (content ++ behind).length, hx]
      rfl
    · exact coversStill_bookmarkAfter hinside htext (Document.inside_markedText_iff.mpr
        (hd.bookmarks_inside _ (Keyed.mem_of_get?_eq_some hx)))
    · rintro rfl
      exact TextRange.bookmarkAfter_collapsed _ _ _

/-- **A new mark does not disturb its neighbours.** Over a connection that lasts it is placed, with
placeholders or bare; and wherever it is placed, marks and bookmarks cover what they covered. -/
theorem placesMark_of_placeMark {place : TextRange} (hd : d.WellFormed)
    (hp : d.Inside place.startPoint) (hname : d.marks.get? name = none) (spaceAfter bare : Bool) :
    (d.connection = .steady → ∃ d', (placeMark name place spaceAfter bare).run d =
        (.ok (.new place.flow place.start (place.start + if bare then 0 else 2)), d')) ∧
      ∀ r d', (placeMark name place spaceAfter bare).run d = (.ok r, d') →
        r = .new place.flow place.start (place.start + if bare then 0 else 2) ∧
          PlacesMark d name place.flow place.start (held bare)
            (if spaceAfter then [' '] else []) d' := by
  have hinside : d.markedText.Inside (.collapsed place.flow place.start) :=
    Document.inside_markedText_iff.mpr hp
  have hfree : d.markedText.marks.get? name = none := hname
  have hmakes := MakesWithin.placeHeld (o := d) (surrounds_insertedAmong hinside) hinside hfree
    spaceAfter bare
  have hbegin : Shows d d.markedText d ∧ ∃ s, InsertedAmong d place.flow place.start s d :=
    ⟨shows_self d, [], insertedAmong_self hp⟩
  have hlength : (held bare).length = if bare then 0 else 2 := by cases bare <;> rfl
  refine ⟨fun hsteady => ?_, fun r d' hrun => ?_⟩
  · obtain ⟨r, d', hrun, rfl, -⟩ := hmakes.exists_ok hbegin fun e _ h => h.2 hsteady
    exact ⟨d', hlength ▸ hrun⟩
  · obtain ⟨rfl, hshows, s, hamong⟩ := hmakes.of_ok hbegin hrun
    -- what is shown tells the text that the bookmarks have moved by
    obtain rfl := MarkedText.filled_injective hinside
      (hamong.1.symm.trans (congrArg MarkedText.text hshows.markedText))
    exact ⟨by rw [hlength], placesMark_of_shows hd hp hname hshows.markedText hamong⟩

/-- A text of two words with marks and bookmarks that touch between them or go on there. -/
def closeNeighbours : Document :=
  { Document.ofPlain "Oaks grow." [] [("oaks", .inBody 0 4), ("grow", .inBody 4 9)] with
    bookmarks := [("between", .collapsed .body 4), ("first", .inBody 0 4), ("both", .inBody 0 9)] }

theorem placesMark_of_placeMark_closeNeighbours :
    closeNeighbours.WellFormed ∧ closeNeighbours.Inside (.collapsed .body 4) ∧
      closeNeighbours.marks.get? "new" = none ∧ closeNeighbours.connection = .steady ∧
      ∃ d', (placeMark "new" (.collapsed .body 4) true false).run closeNeighbours =
          (.ok (.new .body 4 6), d') ∧
        PlacesMark closeNeighbours "new" .body 4 (held false) [' '] d' := by
  have hd : closeNeighbours.WellFormed := by decide +kernel
  have hp : closeNeighbours.Inside (TextRange.collapsed .body 4).startPoint := by decide +kernel
  have hname : closeNeighbours.marks.get? "new" = none := rfl
  obtain ⟨hplaced, hplaces⟩ := placesMark_of_placeMark hd hp hname true false
  obtain ⟨d', hrun⟩ := hplaced rfl
  exact ⟨hd, hp, hname, rfl, d', hrun, (hplaces _ d' hrun).2⟩

end DocumentM

end DocCite
