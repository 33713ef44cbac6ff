import DocCite.Proofs.Document.Surrounding

/-!
# Text that is inserted apart

Text typed between two paragraph breaks, which are deleted again, is not taken in by the marks that
end where it is typed (`MarkedText.inserted`). Further edits strictly inside of it change the text
that was inserted and nothing else (`inserted_replace`). So a new mark is placed next to other ones
without being in their way (`MakesWithin.placeHeld`).
-/

namespace DocCite

namespace TextRange

/-- A mark after some characters were inserted apart: they do not become part of it at its end. -/
def afterInserting (x : TextRange) (flow : Flow) (p count : Nat) : TextRange :=
  if x.flow = flow then x.afterTyping .mark ⟨p, count, true⟩ else x

@[simp] theorem flow_afterInserting (x : TextRange) (flow : Flow) (p count : Nat) :
    (x.afterInserting flow p count).flow = x.flow := by
  unfold afterInserting
  split_ifs <;> simp

theorem afterReplacing_break (x : TextRange) (flow : Flow) (p : Nat) :
    x.afterReplacing .mark (collapsed flow p) ['\n', '\n'] = x.afterInserting flow p 2 :=
  afterReplacing_startPoint x .mark (collapsed flow p) ['\n', '\n']

/-- A mark is behind inserted text, before it or around it. One that ends there is before it. -/
theorem afterInserting_cases {x : TextRange} {flow : Flow} (h : x.flow = flow) (p count : Nat) :
    p ≤ x.start ∧ x.afterInserting flow p count = new flow (x.start + count) (x.stop + count) ∨
      x.start < p ∧ x.stop ≤ p ∧ x.afterInserting flow p count = x ∨
      x.start < p ∧ p < x.stop ∧ x.afterInserting flow p count = new flow x.start (x.stop + count) := by
  have hle := x.start_le_stop
  rw [afterInserting, if_pos h, ← h]
  unfold afterTyping
  by_cases hempty : x.isEmpty = true
  · have heq := isEmpty_iff.mp hempty
    by_cases hp : p ≤ x.start
    · exact Or.inl ⟨hp, by rw [if_pos hempty, if_pos (by simp; omega)]⟩
    · refine Or.inr (Or.inl ⟨by omega, by omega, ?_⟩)
      rw [if_pos hempty, if_neg (by simp; omega)]
  · rw [if_neg hempty]
    by_cases hp : p ≤ x.start
    · exact Or.inl ⟨hp, if_pos hp⟩
    · rw [if_neg hp]
      by_cases hstop : p < x.stop
      · exact Or.inr (Or.inr ⟨by omega, hstop, if_pos (Or.inl hstop)⟩)
      · refine Or.inr (Or.inl ⟨by omega, by omega, if_neg ?_⟩)
        simp [takesInAtStop, hstop]

/-- **Edits inside of inserted text** leave the marks around it where they are. -/
theorem afterReplacing_afterInserting (x : TextRange) {flow : Flow} {p count i j : Nat}
    {s : List Char} (hij : i ≤ j) (hj : j ≤ count) (hs : s = [] ∨ 0 < i ∧ j < count) :
    (x.afterInserting flow p count).afterReplacing .mark (new flow (p + i) (p + j)) s =
      x.afterInserting flow p (i + s.length + (count - j)) := by
  by_cases h : x.flow = flow
  · have hdeleted : (x.afterTyping .mark ⟨p, count, true⟩).afterDeleting (p + i) (p + j) =
        x.afterTyping .mark ⟨p, count - (j - i), true⟩ := by
      have hpart := afterDeleting_afterTyping_part x .mark (p := p) (i := i) (j := j - i)
        (m := count) (b := true) (by omega)
      rwa [show p + i + (j - i) = p + j by omega] at hpart
    have hflow : (x.afterTyping .mark ⟨p, count, true⟩).flow = flow := by simpa using h
    rw [afterInserting, afterInserting, if_pos h, if_pos h, afterReplacing, flow_new, if_pos hflow,
      start_new, stop_new, Nat.min_eq_left (by omega), Nat.max_eq_right (by omega), hdeleted]
    rcases hs with rfl | ⟨hi, hlt⟩
    · rw [List.length_nil, afterTyping_zero, show count - (j - i) = i + 0 + (count - j) by omega]
    · rw [afterTyping_afterTyping x .mark hi (by omega),
        show count - (j - i) + s.length = i + s.length + (count - j) by omega]
  · rw [afterInserting, afterInserting, if_neg h, if_neg h, afterReplacing, flow_new, if_neg h]

/-- Filling the first part of inserted text moves the marks around as if other text had been
inserted. -/
theorem afterFilling_afterInserting (x : TextRange) (flow : Flow) (p count rest count' : Nat)
    (hrest : 0 < rest) :
    (x.afterInserting flow p (count + rest)).afterFilling (new flow p (p + count)) count' =
      x.afterInserting flow p (count' + rest) := by
  by_cases h : x.flow = flow
  · -- no end of a mark is inside of what was inserted
    have hplace (moves : Bool) (q : Nat) :
        filledPlace p (p + count) count' (placeAfterTyping moves ⟨p, count + rest, true⟩ q) =
          placeAfterTyping moves ⟨p, count' + rest, true⟩ q := by
      simp only [filledPlace, placeAfterTyping]
      split_ifs <;> omega
    have hflow : (x.afterTyping .mark ⟨p, count + rest, true⟩).flow =
        (new flow p (p + count)).flow := by simpa using h
    rw [afterInserting, afterInserting, if_pos h, if_pos h]
    refine eq_of_ends (by simp) ?_ ?_
    · rw [start_afterFilling hflow, start_new, stop_new, Nat.min_eq_left (by omega),
        Nat.max_eq_right (by omega), start_afterTyping, hplace, start_afterTyping]
    · rw [stop_afterFilling hflow, start_new, stop_new, Nat.min_eq_left (by omega),
        Nat.max_eq_right (by omega), stop_afterTyping, hplace, stop_afterTyping]
      rfl
  · rw [afterInserting, afterInserting, if_neg h, if_neg h, afterFilling_of_ne (by simpa using h)]

/-- The ends of a mark after some text was deleted. -/
theorem afterReplacing_nil_eq {flow : Flow} {start stop a b a' b' : Nat} (h : start ≤ stop)
    (hab : a ≤ b) (ha : placeAfterDeleting start stop a = a')
    (hb : placeAfterDeleting start stop b = b') :
    (new flow a b).afterReplacing .mark (new flow start stop) [] = new flow a' b' := by
  have hab' : a' ≤ b' := by
    rw [← ha, ← hb]
    exact placeAfterDeleting_mono h hab
  rw [afterReplacing_nil, flow_new, flow_new, if_pos rfl, start_new, stop_new,
    Nat.min_eq_left h, Nat.max_eq_right h]
  refine afterDeleting_new_eq (r := new flow a' b') hab ?_ ?_
  · rw [ha, start_new, Nat.min_eq_left hab']
  · rw [hb, stop_new, Nat.max_eq_right hab']

end TextRange

/-- What a new mark holds: placeholders, or nothing at all. -/
def DocumentM.held (bare : Bool) : List Char := if bare then [] else [placeholder, placeholder]

theorem DocumentM.toList_held (bare : Bool) :
    (if bare then "" else placeholders).toList = held bare := by
  cases bare with
  | false => exact String.toList_ofList
  | true => exact String.toList_empty

namespace MarkedText

variable {v : MarkedText} {flow : Flow} {p i j : Nat} {s u : List Char}

/-- **The text with other text inserted apart.** -/
def inserted (v : MarkedText) (flow : Flow) (p : Nat) (s : List Char) : MarkedText where
  text := v.filled (.collapsed flow p) s
  marks := v.marks.map fun m => (m.1, m.2.afterInserting flow p s.length)

/-- The text with a new mark. -/
def mark (v : MarkedText) (id : String) (r : TextRange) : MarkedText :=
  { v with marks := v.marks ++ [(id, r)] }

@[simp] theorem text_mark (v : MarkedText) (id : String) (r : TextRange) :
    (v.mark id r).text = v.text := rfl

theorem replace_mark (v : MarkedText) (id : String) (x r : TextRange) (s : List Char) :
    (v.mark id x).replace r s = (v.replace r s).mark id (x.afterReplacing .mark r s) := by
  simp [mark, replace]

theorem get?_inserted (v : MarkedText) (flow : Flow) (p : Nat) (s : List Char) (name : String) :
    (v.inserted flow p s).marks.get? name =
      (v.marks.get? name).map fun x => x.afterInserting flow p s.length :=
  Keyed.get?_map v.marks (fun x => x.afterInserting flow p s.length) name

theorem get?_mark_self {w : MarkedText} {id : String} (hid : w.marks.get? id = none)
    (r : TextRange) : (w.mark id r).marks.get? id = some r := by
  rw [mark, Keyed.get?_append, hid]
  simp [Keyed.get?]

theorem get?_mark_of_ne (w : MarkedText) {id name : String} (hne : name ≠ id) (r : TextRange) :
    (w.mark id r).marks.get? name = w.marks.get? name := by
  rw [mark, Keyed.get?_append]
  cases w.marks.get? name <;> simp [Keyed.get?, hne.symm]

section Inside

variable (hp : v.Inside (.collapsed flow p))
include hp

theorem text_of_inside : v.text = v.filled (.collapsed flow p) [] := by
  obtain ⟨t, ht, hstop⟩ := hp
  refine (filled_of_under? ?_).symm
  rw [under?, ht, Option.map_some, TextRange.start_collapsed, TextRange.stop_collapsed,
    List.drop_of_length_le (List.length_take_le p t)]

theorem replace_break :
    v.replace (.collapsed flow p) ['\n', '\n'] = v.inserted flow p ['\n', '\n'] := by
  refine ext' (fun flow' => ?_) ?_
  · exact congrFun (text_type_filled (i := 0) (u := ['\n', '\n']) hp (text_of_inside hp)
      (by simp)) flow'
  · exact List.map_congr_left fun m _ => Prod.ext rfl (m.2.afterReplacing_break flow p)

theorem inside_inserted (hij : i ≤ j) (hj : j ≤ s.length) :
    (v.inserted flow p s).Inside (.new flow (p + i) (p + j)) :=
  inside_filled (w := v.inserted flow p s) hp rfl hij hj

/-- **Part of inserted text is replaced**, and nothing else happens. -/
theorem inserted_replace (hij : i ≤ j) (hj : j ≤ s.length) (hu : u = [] ∨ 0 < i ∧ j < s.length) :
    (v.inserted flow p s).replace (.new flow (p + i) (p + j)) u =
      v.inserted flow p (s.take i ++ u ++ s.drop j) := by
  refine ext' (fun flow' => congrFun (text_replace_filled (w := v.inserted flow p s) hp rfl hij
    hj) flow') ?_
  have hlength : (s.take i ++ u ++ s.drop j).length = i + u.length + (s.length - j) := by
    rw [List.length_append, List.length_append, List.length_take_of_le (by omega),
      List.length_drop]
  simp only [replace, inserted, List.map_map, hlength]
  refine List.map_congr_left fun m _ => ?_
  exact Prod.ext rfl (m.2.afterReplacing_afterInserting hij hj hu)

/-- **A mark that is not around inserted text** covers what it covered. -/
theorem under?_inserted {x : TextRange} (hx : v.Inside x)
    (hout : x.flow = flow → ¬ (x.start < p ∧ p < x.stop)) :
    (v.inserted flow p s).under? (x.afterInserting flow p s.length) = v.under? x := by
  obtain ⟨t, ht, hstop⟩ := hx
  have hle := x.start_le_stop
  have htext : (v.inserted flow p s).text x.flow =
      if x.flow = flow then (v.text x.flow).map fun t => t.take p ++ s ++ t.drop p
      else v.text x.flow := rfl
  rw [under?, TextRange.flow_afterInserting, under?, htext, ht]
  by_cases hflow : x.flow = flow
  · obtain ⟨t', ht', hplace⟩ := hp
    rw [← hflow, TextRange.flow_collapsed, ht, Option.some.injEq] at ht'
    subst ht'
    rw [TextRange.stop_collapsed] at hplace
    have hlength : (t.take p ++ s).length = p + s.length := by
      rw [List.length_append, List.length_take_of_le hplace]
    rw [if_pos hflow, Option.map_some, Option.map_some, Option.map_some, Option.some.injEq]
    obtain ⟨hbehind, hmoved⟩ | ⟨hstart, hstop', hmoved⟩ | ⟨hstart, hstop', -⟩ :=
      TextRange.afterInserting_cases hflow p s.length
    · have hsplit : x.start + s.length = (t.take p ++ s).length + (x.start - p) := by omega
      rw [hmoved, TextRange.start_new, TextRange.stop_new, Nat.min_eq_left (by omega),
        Nat.max_eq_right (by omega), List.drop_take, List.drop_take, hsplit,
        List.drop_length_add_append, List.drop_drop, Nat.add_sub_cancel' hbehind]
      exact congrArg (List.take · _) (by rw [hlength]; omega)
    · rw [hmoved, List.append_assoc, List.take_append_of_le_length
        (by rw [List.length_take_of_le hplace]; exact hstop'), List.take_take,
        Nat.min_eq_left hstop']
    · exact absurd ⟨hstart, hstop'⟩ (hout hflow)
  · rw [if_neg hflow, TextRange.afterInserting, if_neg hflow]

/-- Filling the first part of inserted text comes to inserting other text. -/
theorem inserted_fill {rest : List Char} (hrest : rest ≠ []) (s' : List Char) :
    (v.inserted flow p (s ++ rest)).fill (.new flow p (p + s.length)) s' =
      v.inserted flow p (s' ++ rest) := by
  have htext := text_replace_filled (w := v.inserted flow p (s ++ rest)) (i := 0) (j := s.length)
    (u := s') hp rfl (by omega) (by simp)
  simp only [List.take_zero, List.nil_append, List.drop_left] at htext
  refine ext' (fun flow' => congrFun htext flow') ?_
  simp only [fill, inserted, List.map_map, List.length_append]
  refine List.map_congr_left fun m _ => Prod.ext rfl ?_
  exact m.2.afterFilling_afterInserting flow p s.length rest.length s'.length
    (List.length_pos_iff.mpr hrest)

end Inside

end MarkedText

namespace Makes

open DocumentM MarkedText

variable {o : Document} {v : MarkedText} {id : String}

theorem markRange? (id : String) :
    Makes o v (DocumentM.markRange? id) (v.marks.get? id) v := by
  refine see fun d hd => ?_
  rw [← hd.markedText]
  rfl

theorem createMark {r : TextRange} (hr : v.Inside r) (hid : v.marks.get? id = none) :
    Makes o v (DocumentM.createMark id r) () (v.mark id r) := by
  refine call fun d hd => ⟨{ d with marks := d.marks.put id r }, ?_, ?_⟩
  · obtain ⟨cells, hcells, hstop⟩ : d.Inside r := by
      rw [← Document.inside_markedText_iff, hd.markedText]
      exact hr
    have hnone : d.marks.get? id = none := by rw [← hid, ← hd.markedText]; rfl
    rw [Document.cellsAround_of_le hcells hstop, hnone]
    rfl
  · refine ⟨?_, hd.properties, hd.characterStyles, hd.steady⟩
    rw [← hd.markedText] at hid ⊢
    exact ext' (fun _ => rfl) (Keyed.put_of_get?_eq_none r hid)

end Makes

namespace MakesWithin

open DocumentM MarkedText

variable {I : Document → Prop} {o : Document} {v : MarkedText} {flow : Flow} {p i j : Nat}
  {s t : List Char} {id : String} (hI : Surrounds I v (.collapsed flow p))
include hI

/-- Part of inserted text is replaced. -/
theorem replace_inserted (new : String) (hp : v.Inside (.collapsed flow p)) (hij : i ≤ j)
    (hj : j ≤ s.length) (hu : new.toList = [] ∨ 0 < i ∧ j < s.length)
    (ht : t = s.take i ++ new.toList ++ s.drop j) :
    MakesWithin I o (v.inserted flow p s) (DocumentM.replace (.new flow (p + i) (p + j)) new)
      (Document.typedRange (.new flow (p + i) (p + j)) new) (v.inserted flow p t) := by
  rw [ht, ← inserted_replace hp hij hj hu]
  exact replace_filled hI hp rfl hij hj rfl

/-- **Spaces are inserted apart.** -/
theorem insertSpaces (hp : v.Inside (.collapsed flow p)) (count : Nat) :
    MakesWithin I o v (insertSpaces (.collapsed flow p) count) (.new flow p (p + count))
      (v.inserted flow p (List.replicate count ' ')) := by
  -- between the breaks nothing is beside a mark, so the spaces are no mark's
  have hbreaks : MakesWithin I o v (DocumentM.replace (.collapsed flow p) "\n\n")
      (Document.typedRange (.collapsed flow p) "\n\n") (v.inserted flow p ['\n', '\n']) := by
    rw [← replace_break hp]
    exact type_filled (i := 0) hI hp (text_of_inside hp) (by simp) rfl
  have htyped : MakesWithin I o (v.inserted flow p ['\n', '\n'])
      (DocumentM.replace (.collapsed flow (p + 1)) (String.ofList (List.replicate count ' ')))
      (Document.typedRange (.collapsed flow (p + 1)) (String.ofList (List.replicate count ' ')))
      (v.inserted flow p ('\n' :: (List.replicate count ' ' ++ ['\n']))) := by
    rw [TextRange.collapsed_eq_new]
    exact replace_inserted hI _ (i := 1) (j := 1) hp (by omega) (by simp) (Or.inr (by simp))
      (by simp)
  have hsecond : MakesWithin I o
      (v.inserted flow p ('\n' :: (List.replicate count ' ' ++ ['\n'])))
      (DocumentM.replace (.new flow (p + 1 + count) (p + 2 + count)) "")
      (Document.typedRange (.new flow (p + 1 + count) (p + 2 + count)) "")
      (v.inserted flow p ('\n' :: List.replicate count ' ')) := by
    rw [Nat.add_assoc, Nat.add_assoc]
    refine replace_inserted hI _ hp (by omega) (by simp; omega) (Or.inl String.toList_empty) ?_
    simp [Nat.add_comm 1 count, Nat.add_comm 2 count]
  have hfirst : MakesWithin I o (v.inserted flow p ('\n' :: List.replicate count ' '))
      (DocumentM.replace (.new flow p (p + 1)) "")
      (Document.typedRange (.new flow p (p + 1)) "")
      (v.inserted flow p (List.replicate count ' ')) :=
    replace_inserted hI _ (i := 0) (j := 1) hp (by omega) (by simp) (Or.inl String.toList_empty) rfl
  unfold DocumentM.insertSpaces
  exact bind hbreaks (bind htyped (bind hsecond (bind hfirst (pure _))))

/-! ## New marks -/

/-- Part of inserted text is replaced, with a new mark in it. -/
theorem replace_inserted_mark (id new : String) {x : TextRange}
    (hp : v.Inside (.collapsed flow p)) (hij : i ≤ j) (hj : j ≤ s.length)
    (hu : new.toList = [] ∨ 0 < i ∧ j < s.length)
    (ht : t = s.take i ++ new.toList ++ s.drop j) :
    MakesWithin I o ((v.inserted flow p s).mark id x)
      (DocumentM.replace (.new flow (p + i) (p + j)) new)
      (Document.typedRange (.new flow (p + i) (p + j)) new)
      ((v.inserted flow p t).mark id
        (x.afterReplacing .mark (.new flow (p + i) (p + j)) new.toList)) := by
  rw [ht, ← inserted_replace hp hij hj hu, ← replace_mark]
  exact replace_filled hI hp rfl hij hj rfl

/-- **A new mark** is placed over what it is to hold, apart from what touches its place. -/
theorem placeHeld (hp : v.Inside (.collapsed flow p)) (hid : v.marks.get? id = none)
    (spaceAfter bare : Bool) :
    MakesWithin I o v (DocumentM.placeMark id (.collapsed flow p) spaceAfter bare)
      (.new flow p (p + (held bare).length))
      ((v.inserted flow p (held bare ++ if spaceAfter then [' '] else [])).mark id
        (.new flow p (p + (held bare).length))) := by
  have htoList := toList_held bare
  have hlength : (if bare then "" else placeholders).length = (held bare).length := by
    rw [← htoList, String.length_toList]
  generalize held bare = content at htoList hlength ⊢
  have hspaces := insertSpaces (o := o) hI hp 2
  have hopen : MakesWithin I o (v.inserted flow p [' ', ' '])
      (DocumentM.replace (.collapsed flow (p + 1)) (if bare then "" else placeholders))
      (.new flow (p + 1) (p + 1 + content.length))
      (v.inserted flow p (' ' :: (content ++ [' ']))) := by
    have hreplace := replace_inserted hI (if bare then "" else placeholders) (o := o)
      (s := [' ', ' ']) (i := 1) (j := 1) (t := ' ' :: (content ++ [' '])) hp (Nat.le_refl 1)
      (by simp) (Or.inr (by simp)) (by rw [htoList]; rfl)
    rwa [← TextRange.collapsed_eq_new, Document.typedRange, hlength] at hreplace
  have hnone : (v.inserted flow p (' ' :: (content ++ [' ']))).marks.get? id = none := by
    rw [get?_inserted, hid, Option.map_none]
  have hcreate := (Makes.createMark (o := o) (inside_inserted (i := 1) (j := 1 + content.length)
    (s := ' ' :: (content ++ [' '])) hp (by omega) (by simp; omega)) hnone).within hI
      (hI.keeps_createMark id _)
  rw [← Nat.add_assoc] at hcreate
  -- deleting the space before it moves the mark, deleting the one behind it does not
  have hbefore : (TextRange.new flow (p + 1) (p + 1 + content.length)).afterReplacing .mark
      (.new flow p (p + 1)) [] = .new flow p (p + content.length) :=
    TextRange.afterReplacing_nil_eq (by omega) (by omega)
      (TextRange.placeAfterDeleting_add (Nat.le_refl p))
      (by rw [Nat.add_right_comm]; exact TextRange.placeAfterDeleting_add (by omega))
  have hbehind : (TextRange.new flow p (p + content.length)).afterReplacing .mark
      (.new flow (p + content.length) (p + (content.length + 1))) [] =
        .new flow p (p + content.length) :=
    TextRange.afterReplacing_nil_eq (by omega) (by omega)
      (TextRange.placeAfterDeleting_of_le (by omega))
      (TextRange.placeAfterDeleting_of_le (Nat.le_refl _))
  have hfirst := replace_inserted_mark hI id "" (o := o)
    (x := .new flow (p + 1) (p + 1 + content.length)) (s := ' ' :: (content ++ [' ']))
    (t := content ++ [' ']) (i := 0) (j := 1) hp (by omega) (by simp) (Or.inl String.toList_empty)
    rfl
  have hlast := replace_inserted_mark hI id "" (o := o) (x := .new flow p (p + content.length))
    (s := content ++ [' ']) (t := content) (i := content.length) (j := content.length + 1) hp
    (by omega) (by simp) (Or.inl String.toList_empty) (by simp)
  simp only [String.toList_empty, Nat.add_zero] at hfirst hlast
  rw [hbefore] at hfirst
  rw [hbehind] at hlast
  have hrange (rest : List Char) :
      MakesWithin I o ((v.inserted flow p rest).mark id (.new flow p (p + content.length)))
        (DocumentM.markRange? id) (some (.new flow p (p + content.length)))
        ((v.inserted flow p rest).mark id (.new flow p (p + content.length))) := by
    have hfound := get?_mark_self (w := v.inserted flow p rest)
      (by rw [get?_inserted, hid, Option.map_none]) (.new flow p (p + content.length))
    rw [← hfound]
    exact (Makes.markRange? id).within hI (keeps_see _)
  have hcount : (TextRange.new flow (p + 1) (p + 1 + content.length)).length = content.length := by
    rw [TextRange.length, TextRange.start_new, TextRange.stop_new]
    omega
  unfold DocumentM.placeMark
  refine bind hspaces (bind hopen (bind hcreate (bind hfirst ?_)))
  rw [hcount]
  cases spaceAfter with
  | true => exact bind (hrange _) (pure _)
  | false =>
    rw [if_neg Bool.false_ne_true, List.append_nil]
    exact bind hlast (bind (hrange _) (pure _))

/-- A new mark is placed over placeholders. -/
theorem placeMark (hp : v.Inside (.collapsed flow p)) (hid : v.marks.get? id = none)
    (spaceAfter : Bool) :
    MakesWithin I o v (DocumentM.placeMark id (.collapsed flow p) spaceAfter false)
      (.new flow p (p + 2))
      ((v.inserted flow p
        (placeholder :: placeholder :: if spaceAfter then [' '] else [])).mark id
          (.new flow p (p + 2))) :=
  placeHeld hI hp hid spaceAfter false

end MakesWithin

namespace Makes

variable {o : Document} {v : MarkedText} {flow : Flow} {p : Nat}

theorem insertSpaces (hp : v.Inside (.collapsed flow p)) (count : Nat) :
    Makes o v (DocumentM.insertSpaces (.collapsed flow p) count) (.new flow p (p + count))
      (v.inserted flow p (List.replicate count ' ')) :=
  (MakesWithin.insertSpaces (.nothing v _) hp count).makes

theorem placeMark {id : String} (hp : v.Inside (.collapsed flow p))
    (hid : v.marks.get? id = none) (spaceAfter : Bool) :
    Makes o v (DocumentM.placeMark id (.collapsed flow p) spaceAfter false) (.new flow p (p + 2))
      ((v.inserted flow p (DocumentM.placeholder :: DocumentM.placeholder ::
        if spaceAfter then [' '] else [])).mark id (.new flow p (p + 2))) :=
  (MakesWithin.placeMark (.nothing v _) hp hid spaceAfter).makes

end Makes

end DocCite
