import DocCite.Proofs.Document.Opening

/-!
# What is written into marks

The visible characters of a marker are typed between the placeholders of a mark, and the
placeholders are deleted then, as far as the mark does not need them. Formats and styles change
nothing of what can be seen. So a mark holds its marker in the end, and nothing else has changed
(`Makes.writeMarker`).
-/

namespace DocCite

/-- **What stays in a mark** of a text between placeholders: one of them where the text is a single
character, and both around no text at all, unless the mark is to collapse then. -/
def closedText (collapses : Bool) (s : List Char) : List Char :=
  if s.length = 0 then
    if collapses then [] else [DocumentM.placeholder, DocumentM.placeholder]
  else if s.length = 1 then DocumentM.placeholder :: s
  else s

/-- Placeholders do not count. -/
theorem filter_closedText (collapses : Bool) (s : List Char) :
    (closedText collapses s).filter (· ≠ DocumentM.placeholder) =
      s.filter (· ≠ DocumentM.placeholder) := by
  unfold closedText
  split_ifs with hempty hcollapses
  · rw [List.length_eq_zero_iff.mp hempty]
  · rw [List.length_eq_zero_iff.mp hempty]
    rfl
  · rw [List.filter_cons_of_neg (by simp)]
  · rfl

namespace MarkedText

variable {v w : MarkedText}

/-- What is typed at a place inside the text is inside of it. -/
theorem inside_replace_collapsed {flow : Flow} {p : Nat} (h : v.Inside (.collapsed flow p))
    (s : List Char) : (v.replace (.collapsed flow p) s).Inside (.new flow p (p + s.length)) := by
  obtain ⟨text, htext, hp⟩ := h
  rw [TextRange.flow_collapsed] at htext
  rw [TextRange.stop_collapsed] at hp
  refine ⟨text.take p ++ s ++ text.drop p, by simp [replace, htext], ?_⟩
  rw [TextRange.stop_new, List.length_append, List.length_append, List.length_take_of_le hp]
  omega

theorem Inside.mono {flow : Flow} {a b a' b' : Nat} (h : w.Inside (.new flow a b))
    (ha : a' ≤ b) (hb : b' ≤ b) : w.Inside (.new flow a' b') := by
  obtain ⟨t, ht, hstop⟩ := h
  refine ⟨t, ht, ?_⟩
  rw [TextRange.stop_new] at hstop ⊢
  omega

end MarkedText

/-- The text after other text was written into a mark. -/
def MarkedText.withMarker (v : MarkedText) (id : String) (r : TextRange) (s : List Char) :
    MarkedText :=
  (v.opened id r).fill r.opened s

namespace Makes

open DocumentM MarkedText

variable {o : Document} {v w : MarkedText} {r : TextRange} {id : String}

/-! ## Formats and styles -/

theorem applyFormat (hr : w.Inside r) (format : TextFormat) :
    Makes o w (applyFormat r format) () w :=
  modifyCells hr fun _ => rfl

theorem clearFormat (hr : w.Inside r) : Makes o w (clearFormat r) () w :=
  modifyCells hr fun _ => rfl

theorem setCharacterStyle {style : String} (hr : w.Inside r)
    (hstyle : style ∈ o.characterStyles) : Makes o w (setCharacterStyle r style) () w := by
  refine call fun d hd => ⟨d.modifyCells r (Cell.withCharacterStyle style), ?_, ?_⟩
  · obtain ⟨cells, hcells, hstop⟩ : d.Inside r := by
      rw [← Document.inside_markedText_iff, hd.markedText]
      exact hr
    have hdefined : d.characterStyles.contains style = true := by
      rw [hd.characterStyles]
      simpa using hstyle
    rw [Document.cellsAround_of_le hcells hstop, hdefined]
    rfl
  · exact hd.modifyCells r fun _ => rfl

/-- A loop that changes nothing in any step. -/
theorem forM {γ : Type} {f : γ → DocumentM PUnit} {l : List γ}
    (h : ∀ c ∈ l, Makes o w (f c) ⟨⟩ w) : Makes o w (l.forM f) ⟨⟩ w := by
  induction l with
  | nil => exact pure _
  | cons c l ih =>
    exact bind (h c List.mem_cons_self) (ih fun c' hc' => h c' (List.mem_cons_of_mem _ hc'))

/-- How many characters runs hold. -/
theorem length_join_runs (run : Markup.Run) (rest : List Markup.Run) :
    (String.join ((run :: rest).map Markup.Run.text)).length =
      run.text.length + (String.join (rest.map Markup.Run.text)).length := by
  simp only [← String.length_toList, String.toList_join, List.map_cons, List.flatMap_cons,
    List.length_append]

theorem formatRuns {flow : Flow} {p : Nat} {runs : List Markup.Run}
    (h : w.Inside (.new flow p (p + (String.join (runs.map Markup.Run.text)).length))) :
    Makes o w (formatRuns flow p runs) () w := by
  induction runs generalizing p with
  | nil => exact pure _
  | cons run rest ih =>
    rw [length_join_runs] at h
    have hrest : w.Inside (.new flow (p + run.text.length) (p + run.text.length +
        (String.join (rest.map Markup.Run.text)).length)) := h.mono (by omega) (by omega)
    have hrun : w.Inside (.new flow p (p + run.text.length)) := h.mono (by omega) (by omega)
    unfold DocumentM.formatRuns
    by_cases hplain : run.format.isPlain = true
    · simp only [hplain, Bool.not_true, Bool.false_eq_true, if_false]
      exact bind (pure _) (ih hrest)
    · simp only [hplain, Bool.not_false, if_true]
      exact bind (applyFormat hrun run.format) (ih hrest)

theorem italicize {s : List Char} (hr : w.Inside r) (hunder : w.under? r = some s)
    (piece : String) : Makes o w (italicize r piece) () w := by
  have hstop := length_of_under? hr hunder
  unfold DocumentM.italicize
  by_cases hempty : (Text.trim piece.toList).isEmpty = true
  · simp only [hempty, if_true]
    exact pure _
  · simp only [hempty, Bool.false_eq_true, if_false]
    refine bind (text hr hunder) (forM fun i hi => applyFormat ?_ _)
    have hle := Text.occurrences_le hi
    rw [String.toList_ofList] at hle
    obtain ⟨t, ht, hinside⟩ := hr
    refine ⟨t, ht, ?_⟩
    rw [TextRange.stop_new]
    omega

end Makes

namespace MakesWithin

open DocumentM MarkedText

variable {I : Document → Prop} {o : Document} {v w : MarkedText} {r : TextRange} {id : String}
  (hI : Surrounds I v r) (hr : v.Inside r)
include hI hr

/-- **Markup is typed as its plain text** into what fills a range. -/
theorem typeMarkup {s : List Char} {i : Nat} (hw : w.text = v.filled r s) (hi : i ≤ s.length)
    (markup : String) :
    MakesWithin I o w (DocumentM.writeMarkup (.collapsed r.flow (r.start + i)) markup)
      (.new r.flow (r.start + i) (r.start + i + (Markup.plainChars markup.toList).length))
      (w.replace (.collapsed r.flow (r.start + i)) (Markup.plainChars markup.toList)) := by
  have hplain := Markup.join_text_runs markup
  have hlength : (String.join ((Markup.runs markup).map Markup.Run.text)).length =
      (Markup.plainChars markup.toList).length := by
    rw [← String.length_toList, hplain]
  have hwritten : Document.typedRange (.collapsed r.flow (r.start + i))
      (String.join ((Markup.runs markup).map Markup.Run.text)) =
        .new r.flow (r.start + i) (r.start + i + (Markup.plainChars markup.toList).length) := by
    rw [Document.typedRange, hlength]
    rfl
  have hp : w.Inside (.collapsed r.flow (r.start + i)) := by
    rw [TextRange.collapsed_eq_new]
    exact inside_filled hr hw (Nat.le_refl i) hi
  have hinside := inside_replace_collapsed hp (Markup.plainChars markup.toList)
  have htyped := type_filled hI (o := o) hr hw hi hplain
  rw [hwritten] at htyped
  unfold DocumentM.writeMarkup
  refine bind htyped ?_
  split
  · exact pure _
  · refine bind ((Makes.clearFormat hinside).within hI
      (hI.keeps_modifyCells _ (fun _ => rfl) fun _ => rfl)) (bind ((Makes.formatRuns ?_).within hI
        (keeps_formatRuns hI.keeps_applyFormat _ _ _)) (pure _))
    rw [TextRange.flow_new, TextRange.start_new, Nat.min_eq_left (by omega), hlength]
    exact hinside

/-! ## Markers -/

/-- **Markup is written between placeholders.** -/
theorem writeMarkup (markup : String) :
    MakesWithin I o (v.fill r [placeholder, placeholder])
      (DocumentM.writeMarkup (.collapsed r.flow (r.start + 1)) markup)
      (.new r.flow (r.start + 1) (r.start + (1 + (Markup.plainChars markup.toList).length)))
      (v.fill r (placeholder :: (Markup.plainChars markup.toList ++ [placeholder]))) := by
  have htyped : (v.fill r [placeholder, placeholder]).replace (.collapsed r.flow (r.start + 1))
      (Markup.plainChars markup.toList) =
        v.fill r (placeholder :: (Markup.plainChars markup.toList ++ [placeholder])) := by
    rw [TextRange.collapsed_eq_new]
    exact fill_replace (i := 1) (j := 1) hr (by omega) (by simp) (Or.inr ⟨by simp, by simp⟩)
  rw [← htyped, ← Nat.add_assoc]
  exact typeMarkup hI hr (i := 1) rfl (by simp) markup

/-- The last placeholder is deleted. -/
theorem dropLast (s : List Char) :
    MakesWithin I o (v.fill r (placeholder :: (s ++ [placeholder])))
      (DocumentM.replace (.new r.flow (r.start + (s.length + 1)) (r.start + (s.length + 2))) "")
      (Document.typedRange
        (.new r.flow (r.start + (s.length + 1)) (r.start + (s.length + 2))) "")
      (v.fill r (placeholder :: s)) := by
  have hdrop := fill_replace (u := []) (i := s.length + 1) (j := s.length + 2)
    (s := placeholder :: (s ++ [placeholder])) hr (by omega) (by simp) (Or.inl rfl)
  have hleft : (placeholder :: (s ++ [placeholder])).take (s.length + 1) ++ [] ++
      (placeholder :: (s ++ [placeholder])).drop (s.length + 2) = placeholder :: s := by simp
  rw [← hleft, ← hdrop]
  exact replace_filled hI hr rfl (by omega) (by simp) String.toList_empty

/-- The first placeholder is deleted. -/
theorem dropFirst (s : List Char) :
    MakesWithin I o (v.fill r (placeholder :: s))
      (DocumentM.replace (.new r.flow (r.start + 0) (r.start + 1)) "")
      (Document.typedRange (.new r.flow (r.start + 0) (r.start + 1)) "") (v.fill r s) := by
  have hdrop := fill_replace (u := []) (i := 0) (j := 1) (s := placeholder :: s) hr (by omega)
    (by simp) (Or.inl rfl)
  have hleft : (placeholder :: s).take 0 ++ [] ++ (placeholder :: s).drop 1 = s := by simp
  have hreplace := replace_filled (o := o) (w := v.fill r (placeholder :: s)) (i := 0) (j := 1)
    hI hr rfl (by omega) (by simp) String.toList_empty
  rwa [hdrop, hleft] at hreplace

/-- **What is not needed of the placeholders is deleted.** -/
theorem cleanFillCursor (hmark : v.marks.get? id = some r) (hpos : r.start < r.stop)
    (s : List Char) (collapses : Bool) :
    MakesWithin I o (v.fill r (placeholder :: (s ++ [placeholder]))) (cleanFillCursor id collapses) ()
      (v.fill r (closedText collapses s)) := by
  have hlength : (placeholder :: (s ++ [placeholder])).length = s.length + 2 := by simp
  have hrange : (v.fill r (placeholder :: (s ++ [placeholder]))).marks.get? id =
      some (.new r.flow (r.start + 0) (r.start + (s.length + 2))) := by
    rw [get?_fill_self hmark (Or.inl hpos), hlength]
    rfl
  have hinside := inside_filled (w := v.fill r (placeholder :: (s ++ [placeholder]))) (i := 0)
    (j := s.length + 2) hr rfl (by omega) (by omega)
  have hunder := under?_filled (w := v.fill r (placeholder :: (s ++ [placeholder]))) (i := 0)
    (j := s.length + 2) hr rfl (by omega) (by omega)
  rw [List.drop_zero, List.take_of_length_le (Nat.le_of_eq hlength)] at hunder
  unfold DocumentM.cleanFillCursor
  refine bind ((Makes.groupRange hrange).within hI (keeps_groupRange id))
    (bind ((Makes.text hinside hunder).within hI (keeps_text _)) ?_)
  have hkept : ¬ ((placeholder :: (s ++ [placeholder])).length < 2 ∨
      (placeholder :: (s ++ [placeholder])).head? ≠ some placeholder ∨
      (placeholder :: (s ++ [placeholder])).getLast? ≠ some placeholder) := by
    rw [← List.cons_append, List.getLast?_concat]
    simp
  rw [String.toList_ofList, if_neg hkept]
  simp only [hlength, Nat.add_sub_cancel, TextRange.flow_new, TextRange.start_new,
    TextRange.stop_new, Nat.add_zero, Nat.min_eq_left (Nat.le_add_right _ _),
    Nat.max_eq_right (Nat.le_add_right _ _)]
  have hlast := dropLast (o := o) hI hr s
  have hfirst := dropFirst (o := o) hI hr s
  rcases s with _ | ⟨c, _ | ⟨c', rest⟩⟩
  · cases collapses with
    | false => exact pure _
    | true => exact bind hlast (bind hfirst (pure _))
  · exact bind hlast (pure _)
  · have hlong : 2 ≤ (c :: c' :: rest).length := by simp
    rw [if_pos (Or.inl (by omega)), if_pos (Or.inl hlong)]
    have hclosed : closedText collapses (c :: c' :: rest) = c :: c' :: rest := by
      simp [closedText]
    rw [hclosed]
    exact bind hlast (bind hfirst (pure _))

/-- **A marker is written into its mark.** -/
theorem writeMarker (hmark : v.marks.get? id = some r) {kind : CitationKind} {marker : String}
    {style : Style}
    (hstyle : style.formatCitations = true → style.citationCharacterFormat ∈ o.characterStyles) :
    MakesWithin I o v (writeMarker id kind marker style) ()
      (v.withMarker id r
        (closedText (kind = .invisible) (Markup.plainChars marker.toList))) := by
  have hopened := get?_opened hmark
  have hinside := inside_opened id hr
  have hlength := r.two_le_length_opened
  rw [TextRange.length] at hlength
  obtain ⟨shown, hshown⟩ : ∃ s, s = Markup.plainChars marker.toList := ⟨_, rfl⟩
  have hI' := hI.opened hr id
  have hfill := fillCursor (o := o) hI hmark hr
  have hwrite := writeMarkup (o := o) hI' hinside marker
  have hclean := cleanFillCursor (o := o) hI' hinside hopened (by omega) shown (kind = .invisible)
  have hin := inside_filled (i := 1) (j := 1 + shown.length) hinside
    (w := (v.opened id r).fill r.opened (placeholder :: (shown ++ [placeholder]))) rfl (by omega)
    (by simp; omega)
  have hunder := under?_filled (i := 1) (j := 1 + shown.length) hinside
    (w := (v.opened id r).fill r.opened (placeholder :: (shown ++ [placeholder]))) rfl (by omega)
    (by simp; omega)
  rw [← hshown, r.flow_opened, r.start_opened] at hwrite
  rw [r.flow_opened, r.start_opened] at hin hunder
  rw [← hshown]
  unfold DocumentM.writeMarker
  refine bind hfill (bind hwrite ?_)
  have hitalic : MakesWithin I o ((v.opened id r).fill r.opened (placeholder :: (shown ++ [placeholder])))
      (do
        if style.italicEtAl = true then
          DocumentM.italicize (.new r.flow (r.start + 1) (r.start + (1 + shown.length)))
            style.etAlString
        DocumentM.cleanFillCursor id (kind = .invisible)) ()
      ((v.opened id r).fill r.opened (closedText (kind = .invisible) shown)) := by
    split
    · exact bind ((Makes.italicize hin hunder _).within hI
        (keeps_italicize hI.keeps_applyFormat _ _)) hclean
    · exact hclean
  by_cases hempty : (TextRange.new r.flow (r.start + 1)
      (r.start + (1 + shown.length))).isEmpty = true
  · simp only [hempty, Bool.not_true, Bool.false_eq_true, if_false]
    exact hclean
  · by_cases hformat : style.formatCitations = true
    · simp only [hempty, Bool.not_false, hformat, if_true]
      exact bind ((Makes.setCharacterStyle hin (hstyle hformat)).within hI
        (hI.keeps_setCharacterStyle _ _)) hitalic
    · simp only [hempty, Bool.not_false, hformat, if_true]
      exact hitalic

end MakesWithin

namespace Makes

variable {o : Document} {v : MarkedText}

theorem typeMarkup {flow : Flow} {p : Nat} (hp : v.Inside (.collapsed flow p)) (markup : String) :
    Makes o v (DocumentM.writeMarkup (.collapsed flow p) markup)
      (.new flow p (p + (Markup.plainChars markup.toList).length))
      (v.replace (.collapsed flow p) (Markup.plainChars markup.toList)) :=
  (MakesWithin.typeMarkup (i := 0) (.nothing v _) hp (MarkedText.text_of_inside hp)
    (Nat.zero_le _) markup).makes

theorem writeMarker {id : String} {r : TextRange} (hmark : v.marks.get? id = some r)
    (hr : v.Inside r) {kind : CitationKind} {marker : String} {style : Style}
    (hstyle : style.formatCitations = true → style.citationCharacterFormat ∈ o.characterStyles) :
    Makes o v (DocumentM.writeMarker id kind marker style) ()
      (v.withMarker id r
        (closedText (kind = .invisible) (Markup.plainChars marker.toList))) :=
  (MakesWithin.writeMarker (.nothing v r) hr hmark hstyle).makes

end Makes

end DocCite
