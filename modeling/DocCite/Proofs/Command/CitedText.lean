import DocCite.Command.Run
import DocCite.Proofs.Document.Citing
import DocCite.Proofs.Document.Evaluating
import DocCite.Proofs.Placeholder

/-!
# The text of a file once it is cited

Citations come in the place of placeholders, the last one first, so that those before it stay where
they are. Each brings a space of its own, and the space after its placeholder goes with that. A
space is typed where none follows, though, as before a full stop: so the text is kept as it is
just when a space follows on every placeholder (`keepsText_citeAll_iff`).
-/

namespace DocCite

/-- The text of the citation that comes in the place of a placeholder. -/
def Placeholder.citation (databases : List Database) (style : Style) (p : Placeholder) :
    List Char :=
  match keysToCite (p.keys.map (entryToCite databases)) with
  | .ok keys => DocumentM.preliminaryText style databases (.new "" p.kind keys p.pageInfo)
  | .error _ => []

namespace Command

open DocumentM MarkedText Placeholder

variable {d d' : Document} {s : List Char} {p : Placeholder} {ps : List Placeholder}
  {preferences : Preferences} {databases : List Database} {style : Style}

/-- The name of a group does not show in its marker. -/
theorem preliminaryText_new (id : String) (kind : CitationKind) (keys : List String)
    (pageInfo : Option String) :
    preliminaryText style databases (.new id kind keys pageInfo) =
      preliminaryText style databases (.new "" kind keys pageInfo) := rfl

/-- How long the body is. -/
theorem makes_flowLength {v : MarkedText} (hs : v.text .body = some s) :
    Makes d v (flowLength .body) s.length v := by
  refine Makes.look fun d' hd' => ?_
  have hbody : Cells.chars d'.body = s := by
    have htext : d'.markedText.text .body = some s := hd'.markedText ▸ hs
    exact Option.some.inj htext
  rw [← hbody, Cells.chars, List.length_map]
  rfl

/-- The text is looked at behind a place, for the next character. -/
theorem makes_text_next {v : MarkedText} {place : Nat} (hs : v.text .body = some s)
    (hplace : place ≤ s.length) :
    Makes d v (text (.inBody place (min (place + 1) s.length)))
      (String.ofList ((s.drop place).take 1)) v := by
  have hstart : (TextRange.inBody place (min (place + 1) s.length)).start = place := by
    rw [TextRange.inBody, TextRange.start_new]
    omega
  have hstop : (TextRange.inBody place (min (place + 1) s.length)).stop =
      min (place + 1) s.length := by
    rw [TextRange.inBody, TextRange.stop_new]
    omega
  refine Makes.text ⟨s, hs, by rw [hstop]; omega⟩ ?_
  have hunder : (s.take (min (place + 1) s.length)).drop place = (s.drop place).take 1 := by
    rw [← List.take_eq_take_min, List.drop_take]
    congr 1
    omega
  rw [under?, hstart, hstop, ← hunder]
  exact congrArg (Option.map _) hs

theorem ofList_take_one_eq_space_iff : String.ofList (s.take 1) = " " ↔ s.head? = some ' ' := by
  cases s with
  | nil => exact iff_of_false (by decide) (by simp)
  | cons c s =>
    rw [List.take_succ_cons, List.take_zero, ← String.toList_inj, String.toList_ofList]
    simp

/-- A mark is placed between two parts of a text. -/
theorem text_placed {v : MarkedText} {flow : Flow} {before after : List Char}
    (hv : v.text flow = some (before ++ after)) (id : String) (content : List Char) :
    (v.placed id flow before.length content).text flow =
      some (before ++ content ++ ' ' :: after) := by
  change (if flow = flow then (v.text flow).map fun t =>
    t.take before.length ++ (content ++ [' ']) ++ t.drop before.length else v.text flow) = _
  rw [if_pos rfl, hv, Option.map_some, List.take_left, List.drop_left]
  simp only [List.append_assoc, List.singleton_append]

/-- The space after a placeholder goes with it, and comes back with the citation. -/
theorem spaced_drop_eq {place : Nat} (hplace : place ≤ s.length) :
    ∃ stop, (if (s.drop place).head? = some ' ' then place + 1 else place) = stop ∧
      place ≤ stop ∧ stop ≤ s.length ∧ spaced (s.drop place) = ' ' :: s.drop stop := by
  unfold spaced
  split
  · next hspace =>
    rw [List.head?_drop] at hspace
    obtain ⟨hlt, heq⟩ := List.getElem?_eq_some_iff.mp hspace
    refine ⟨place + 1, rfl, Nat.le_succ place, hlt, ?_⟩
    rw [List.drop_eq_getElem_cons hlt, heq]
  · exact ⟨place, rfl, Nat.le_refl _, hplace, rfl⟩

/-- **One placeholder is cited**: a mark with its citation comes in its place, and a space
follows. -/
theorem exists_placed_of_citePlaceholder {u : Unit} (hs : d.markedText.text .body = some s)
    (hstart : p.start ≤ p.stop) (hstop : p.stop ≤ s.length)
    (hrun : (citePlaceholder preferences databases style p).run d = (.ok u, d')) :
    ∃ (id : String) (v : MarkedText) (stop : Nat), d.marks.get? id = none ∧
      v.marks.get? id = none ∧ v.text .body = some (s.take p.start ++ s.drop stop) ∧
      spaced (s.drop p.stop) = ' ' :: s.drop stop ∧
      d'.markedText = v.placed id .body p.start (p.citation databases style) := by
  obtain ⟨length, d₁, hlength, hrun⟩ := run_bind_eq_ok_iff.mp hrun
  obtain ⟨next, d₂, hnext, hrun⟩ := run_bind_eq_ok_iff.mp hrun
  obtain ⟨written, d₃, hreplace, hrun⟩ := run_bind_eq_ok_iff.mp hrun
  obtain ⟨u₁, d₄, hcursor, hrun⟩ := run_bind_eq_ok_iff.mp hrun
  obtain ⟨keys, d₅, hkeys, hrun⟩ := run_bind_eq_ok_iff.mp hrun
  obtain ⟨unresolved, d₆, hinsert, hpure⟩ := run_bind_eq_ok_iff.mp hrun
  cases hpure
  -- the space after the placeholder is deleted with it
  obtain ⟨rfl, hd₁⟩ := (makes_flowLength (d := d) hs).of_ok (shows_self d) hlength
  obtain ⟨rfl, hd₂⟩ := (makes_text_next (d := d) hs hstop).of_ok hd₁ hnext
  obtain ⟨stop, hend, hle, hlimit, hspaced⟩ := spaced_drop_eq hstop
  have hrange : TextRange.inBody p.start stop = ⟨.body, p.start, stop, by omega⟩ :=
    TextRange.eq_of_ends rfl (Nat.min_eq_left (by omega)) (Nat.max_eq_right (by omega))
  have hinside : d.markedText.Inside ⟨.body, p.start, stop, by omega⟩ := ⟨s, hs, hlimit⟩
  simp only [ofList_take_one_eq_space_iff, hend, hrange] at hreplace
  obtain ⟨-, hd₃⟩ := (Makes.replace hinside "").of_ok hd₂ hreplace
  have hcut : (d.markedText.replace ⟨.body, p.start, stop, by omega⟩ []).text .body =
      some (s.take p.start ++ s.drop stop) := by
    rw [MarkedText.replace]
    simp [hs]
  -- and the citation is inserted at the cursor
  obtain ⟨hd₄, hselection⟩ := selection_of_setViewCursor hd₃ hcursor
  rw [run_liftExcept, Prod.mk.injEq] at hkeys
  obtain ⟨hkeys, rfl⟩ := hkeys
  obtain ⟨cursor, g, hplace, hg⟩ := isInsertion_of_insertCitation rfl hinsert
  rw [Document.cursor?, hselection, Option.some.injEq] at hplace
  subst hplace
  have hcontent : preliminaryText style databases g = p.citation databases style := by
    rw [hg.group_eq, preliminaryText_new, Placeholder.citation, hkeys]
  have hnew : (d.markedText.replace ⟨.body, p.start, stop, by omega⟩ []).marks.get? g.id = none := by
    rw [← hg.new_name]
    exact congrArg (fun v => v.marks.get? g.id) hd₄.markedText.symm
  refine ⟨g.id, _, stop, ?_, hnew, hcut, hspaced, ?_⟩
  · rw [get?_replace, Option.map_eq_none_iff] at hnew
    exact hnew
  · rw [hg.markedText_eq, hcontent, hd₄.markedText]
    rfl

theorem text_citePlaceholder {u : Unit} (hs : d.markedText.text .body = some s)
    (hstart : p.start ≤ p.stop) (hstop : p.stop ≤ s.length)
    (hrun : (citePlaceholder preferences databases style p).run d = (.ok u, d')) :
    d'.markedText.text .body =
      some (s.take p.start ++ p.citation databases style ++ spaced (s.drop p.stop)) := by
  obtain ⟨id, v, stop, -, -, hv, hspaced, hplaced⟩ :=
    exists_placed_of_citePlaceholder hs hstart hstop hrun
  have hbefore : (s.take p.start).length = p.start := List.length_take_of_le (by omega)
  have htext := text_placed hv id (p.citation databases style)
  rwa [hbefore, ← hplaced, ← hspaced] at htext

/-- A new mark covers the citation. -/
theorem under?_citePlaceholder {u : Unit} (hs : d.markedText.text .body = some s)
    (hstart : p.start ≤ p.stop) (hstop : p.stop ≤ s.length)
    (hrun : (citePlaceholder preferences databases style p).run d = (.ok u, d')) :
    ∃ id r, d.marks.get? id = none ∧ d'.marks.get? id = some r ∧
      d'.markedText.under? r = some (p.citation databases style) := by
  obtain ⟨id, v, stop, hnew, hfree, -, -, hplaced⟩ :=
    exists_placed_of_citePlaceholder hs hstart hstop hrun
  have hmarks : d'.marks = (v.placed id .body p.start (p.citation databases style)).marks :=
    congrArg MarkedText.marks hplaced
  refine ⟨id, .new .body p.start (p.start + (p.citation databases style).length), hnew, ?_, ?_⟩
  · rw [hmarks, get?_placed_self hfree]
  · have hbefore : (s.take p.start).length = p.start := List.length_take_of_le (by omega)
    rw [under?, TextRange.flow_new, text_citePlaceholder hs hstart hstop hrun, TextRange.start_new,
      TextRange.stop_new, Option.map_some, Nat.min_eq_left (by omega), Nat.max_eq_right (by omega)]
    have hcited : (s.take p.start ++ p.citation databases style).length =
        p.start + (p.citation databases style).length := by
      rw [List.length_append, hbefore]
    rw [List.take_left' hcited, List.drop_left' hbefore]

/-- **All placeholders are cited**, from the last to the first. -/
theorem text_forM_citePlaceholder {place : Nat} {u : Unit} (h : Along s.length place ps)
    (hs : d.markedText.text .body = some s)
    (hrun : (ps.reverse.forM (citePlaceholder preferences databases style)).run d =
      (.ok u, d')) :
    d'.markedText.text .body = some (spaceFrom s (citation databases style) 0 ps) := by
  induction h generalizing d' u with
  | nil hle =>
    cases hrun
    exact hs
  | @cons place p ps hstart hstop hrest ih =>
    rw [List.reverse_cons, List.forM_eq_forM, List.forM_append] at hrun
    obtain ⟨u₁, d₁, hlater, hrun⟩ := run_bind_eq_ok_iff.mp hrun
    obtain ⟨u₂, d₂, hcite, hpure⟩ := run_bind_eq_ok_iff.mp hrun
    cases hpure
    -- up to the placeholder the text is as it was, and behind it the later ones are cited
    have htext := ih hlater
    have hlimit := hrest.le
    have hcut : (s.take p.stop).length = p.stop := List.length_take_of_le hlimit
    rw [spaceFrom_eq_append hrest (Nat.zero_le _), List.drop_zero] at htext
    have hbehind : p.stop ≤
        (s.take p.stop ++ spaceFrom s (citation databases style) p.stop ps).length := by
      rw [List.length_append]
      omega
    rw [text_citePlaceholder htext (by omega) hbehind hcite, List.drop_left' hcut,
      List.take_append_of_le_length (by omega), List.take_take, Nat.min_eq_left (by omega)]
    rfl

/-- The body of a text file. -/
theorem text_ofText (path text : String) :
    (Document.ofText path text).markedText.text .body = some text.toList := by
  have hbody : (Document.ofText path text).body = Cells.typed [] 0 text.toList := by
    simp [Document.ofText, Document.append, Document.type, Document.spliceCells,
      Document.relocate, Document.editCells, Cells.splice, Document.cells?]
  change some (Cells.chars (Document.ofText path text).body) = _
  rw [hbody, Cells.typed, Cells.chars, List.map_map]
  exact congrArg some (List.map_id _)

/-- **The text of a file is kept** just when a space follows on every placeholder: then the body of
the cited document is the text with the visible text of the citations in the place of the
placeholders. -/
theorem keepsText_citeAll_iff {path text : String} {unresolved : List String}
    (htext : placeholder ∉ text.toList) (hsync : preferences.syncWhenCiting = false)
    (hrun : (citeAll preferences databases style text).run (Document.ofText path text) =
      (.ok unresolved, d')) :
    withoutPlaceholders (Cells.text d'.body) =
        replaceAll (fun p => (p.citation databases style).filter (· ≠ placeholder)) text ↔
      ∀ before p after, findAll text = before ++ p :: after →
        SpaceFollows text.toList (citation databases style) p after := by
  obtain ⟨u, d₁, hcite, hpure⟩ := run_bind_eq_ok_iff.mp hrun
  rw [hsync] at hpure
  cases hpure
  have hbody : Cells.chars d'.body =
      spaceFrom text.toList (citation databases style) 0 (findAll text) :=
    Option.some.inj
      (text_forM_citePlaceholder (along_findAll text) (text_ofText path text) hcite)
  have hcounts : ∀ c ∈ text.toList, decide (c ≠ placeholder) = true := fun c hc =>
    decide_eq_true fun heq => htext (heq ▸ hc)
  rw [← filter_spaceFrom_eq_iff hcounts (by decide) (along_findAll text), withoutPlaceholders,
    Cells.text, String.toList_ofList, hbody, replaceAll, ← String.toList_inj,
    String.toList_ofList, String.toList_ofList]

/-- A text with a citation in the middle of a line. -/
theorem keepsText_citeAll_sample :
    placeholder ∉ "As in [@a] too.".toList ∧
      ({ syncWhenCiting := false } : Preferences).syncWhenCiting = false ∧
      ∃ d', (citeAll { syncWhenCiting := false } [] Style.numbered "As in [@a] too.").run
          (Document.ofText "notes" "As in [@a] too.") = (.ok [], d') ∧
        (withoutPlaceholders (Cells.text d'.body) =
            replaceAll (fun p => (p.citation [] Style.numbered).filter (· ≠ placeholder))
              "As in [@a] too." ↔
          ∀ before p after, findAll "As in [@a] too." = before ++ p :: after →
            SpaceFollows "As in [@a] too.".toList (citation [] Style.numbered) p after) := by
  have htext : placeholder ∉ "As in [@a] too.".toList := by decide +kernel
  have hrun : (citeAll { syncWhenCiting := false } [] Style.numbered "As in [@a] too.").run
      (Document.ofText "notes" "As in [@a] too.") = (.ok [], _) :=
    eq_ok_of_toOption (by decide +kernel)
  exact ⟨htext, rfl, _, hrun, keepsText_citeAll_iff htext rfl hrun⟩

/-- Before a full stop a space is typed. -/
theorem not_keepsText_citeAll :
    ∃ d', (citeAll { syncWhenCiting := false } [] Style.numbered "As in [@a].").run
        (Document.ofText "notes" "As in [@a].") = (.ok [], d') ∧
      withoutPlaceholders (Cells.text d'.body) = "As in (-) ." ∧
      replaceAll (fun p => (p.citation [] Style.numbered).filter (· ≠ placeholder))
        "As in [@a]." = "As in (-)." :=
  ⟨_, eq_ok_of_toOption (by decide +kernel), by decide +kernel, by decide +kernel⟩

end Command

end DocCite
