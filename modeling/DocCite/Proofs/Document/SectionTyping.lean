import DocCite.Document.BibliographySection
import DocCite.Proofs.Document.Checks
import DocCite.Proofs.Document.Writing

/-!
# Typing a section

A section starts with a paragraph of its own at the end of the body (`triple_shows_createSection`),
and the text of a bibliography is typed into it piece after piece. Behind its title every piece
comes after a paragraph break, which no mark takes in; so all that is typed there moves the marks as
if it had been typed at once (`MarkedText.typed_typed`). Nothing but a breaking connection or a
missing style can stop it.
-/

namespace DocCite

namespace TextRange

variable {x : TextRange} {flow : Flow} {s t : List Char}

/-- A mark after text was typed: it moves along where it starts at the text or behind it, and takes
the text in where it goes on behind it, or ends at it and the text has no break. -/
theorem ends_afterReplacing_collapsed (h : x.flow = flow) (p : Nat) (s : List Char) :
    (x.afterReplacing .mark (.collapsed flow p) s).start =
        (if p ≤ x.start then x.start + s.length else x.start) ∧
      (x.afterReplacing .mark (.collapsed flow p) s).stop =
        if p < x.stop ∨ p = x.stop ∧ (x.start = x.stop ∨ '\n' ∉ s) then x.stop + s.length
        else x.stop := by
  have hends := ends_afterReplacing (r := collapsed flow p) h s
  rwa [start_collapsed, stop_collapsed, placeAfterDeleting_self, placeAfterDeleting_self] at hends

/-- Typing nothing at a place moves nothing. -/
theorem afterReplacing_collapsed_nil (x : TextRange) (flow : Flow) (p : Nat) :
    x.afterReplacing .mark (.collapsed flow p) [] = x := by
  unfold afterReplacing
  split
  · exact (congrArg (afterTyping · _ _) (afterDeleting_self x p)).trans (afterTyping_zero _ _ _ _)
  · rfl

/-- Behind a break, text is typed as if it had been typed with it. -/
theorem afterReplacing_afterReplacing (x : TextRange) (flow : Flow) (p : Nat)
    (hs : s = [] ∨ '\n' ∈ s) (t : List Char) :
    (x.afterReplacing .mark (.collapsed flow p) s).afterReplacing .mark
        (.collapsed flow (p + s.length)) t =
      x.afterReplacing .mark (.collapsed flow p) (s ++ t) := by
  rcases hs with rfl | hs
  · rw [afterReplacing_collapsed_nil]
    rfl
  by_cases h : x.flow = flow
  · -- the break keeps a mark that ends at the place from taking in what is typed, both times
    have hle := x.start_le_stop
    obtain ⟨hstart, hstop⟩ := ends_afterReplacing_collapsed h p s
    obtain ⟨hstart', hstop'⟩ := ends_afterReplacing_collapsed
      ((flow_afterReplacing x .mark (.collapsed flow p) s).trans h) (p + s.length) t
    obtain ⟨hboth, hboth'⟩ := ends_afterReplacing_collapsed h p (s ++ t)
    have hbreak : '\n' ∈ s ++ t := List.mem_append_left t hs
    have hpos : 0 < s.length := List.length_pos_of_mem hs
    refine eq_of_ends (by simp) ?_ ?_
    · rw [hstart', hboth, List.length_append]
      by_cases hp : p ≤ x.start
      · rw [if_pos hp] at hstart ⊢
        rw [if_pos (by omega), hstart, Nat.add_assoc]
      · rw [if_neg hp] at hstart ⊢
        rw [if_neg (by omega), hstart]
    · simp only [hs, not_true_eq_false, or_false] at hstop
      simp only [hbreak, not_true_eq_false, or_false] at hboth'
      rw [hstop', hboth', List.length_append]
      by_cases hp : p < x.stop ∨ p = x.stop ∧ x.start = x.stop
      · rw [if_pos hp] at hstop ⊢
        rw [if_pos (by split_ifs at hstart <;> omega), hstop, Nat.add_assoc]
      · rw [if_neg hp] at hstop ⊢
        rw [if_neg (by split_ifs at hstart <;> omega), hstop]
  · have hne (q : Nat) : x.flow ≠ (collapsed flow q).flow := h
    simp only [afterReplacing, if_neg (hne _)]

end TextRange

namespace MarkedText

variable {w : MarkedText} {p : Nat} {s t : List Char}

/-- The text with other text typed at a place of the body. -/
def typed (w : MarkedText) (p : Nat) (s : List Char) : MarkedText :=
  w.replace (.collapsed .body p) s

theorem text_typed (w : MarkedText) (p : Nat) (s : List Char) :
    (w.typed p s).text .body = (w.text .body).map fun text => text.take p ++ s ++ text.drop p := by
  simp [typed, replace]

theorem text_typed_of_ne {flow : Flow} (h : flow ≠ .body) :
    (w.typed p s).text flow = w.text flow := if_neg h

@[simp] theorem typed_nil (w : MarkedText) (p : Nat) : w.typed p [] = w := by
  refine ext' (fun flow => ?_) ?_
  · by_cases h : flow = .body
    · subst h
      rw [text_typed]
      simp
    · exact text_typed_of_ne h
  · refine (List.map_congr_left fun m _ => ?_).trans (List.map_id _)
    rw [TextRange.afterReplacing_collapsed_nil]
    rfl

/-- **Behind a break, text is typed as if it had been typed with it.** -/
theorem typed_typed (h : w.Inside (.collapsed .body p)) (hs : s = [] ∨ '\n' ∈ s) (t : List Char) :
    (w.typed p s).typed (p + s.length) t = w.typed p (s ++ t) := by
  refine ext' (fun flow => ?_) ?_
  · by_cases hflow : flow = .body
    · subst hflow
      obtain ⟨text, htext, hp⟩ := h
      rw [TextRange.flow_collapsed] at htext
      have hlength : (text.take p ++ s).length = p + s.length := by
        rw [List.length_append, List.length_take_of_le (show p ≤ text.length from hp)]
      rw [text_typed, text_typed, text_typed, htext, Option.map_some, Option.map_some,
        Option.map_some, ← hlength, List.take_left, List.drop_left]
      simp only [List.append_assoc]
    · simp only [text_typed_of_ne hflow]
  · simp only [typed, replace, List.map_map]
    refine List.map_congr_left fun m _ => ?_
    exact congrArg (Prod.mk m.1) (m.2.afterReplacing_afterReplacing .body p hs t)

/-- The end of what was typed is inside the text. -/
theorem inside_typed (h : w.Inside (.collapsed .body p)) (s : List Char) :
    (w.typed p s).Inside (.collapsed .body (p + s.length)) := by
  rw [TextRange.collapsed_eq_new]
  exact (inside_replace_collapsed h s).mono (Nat.le_refl _) (Nat.le_refl _)

end MarkedText

namespace Document

/-- Text that ends with a paragraph: a break is added where there is none. -/
def endParagraph (text : List Char) : List Char :=
  if text = [] ∨ text.getLast? = some '\n' then text else text ++ ['\n']

/-- The break that a text lacks to end with a paragraph. -/
def missingBreak (text : List Char) : List Char :=
  if text = [] ∨ text.getLast? = some '\n' then [] else ['\n']

theorem endParagraph_eq_append (text : List Char) :
    endParagraph text = text ++ missingBreak text := by
  unfold endParagraph missingBreak
  split_ifs
  · exact (List.append_nil text).symm
  · rfl

/-- Whether a break is missing depends on the last character. -/
theorem missingBreak_eq {text : List Char} (hne : text ≠ []) :
    missingBreak text =
      if String.ofList (text.drop (text.length - 1)) != "\n" then ['\n'] else [] := by
  obtain rfl | ⟨front, c, rfl⟩ := List.eq_nil_or_concat' text
  · exact absurd rfl hne
  rw [List.length_append, List.length_singleton, Nat.add_sub_cancel, List.drop_left]
  have hbreak : String.ofList [c] = "\n" ↔ c = '\n' := by
    rw [← String.toList_inj, String.toList_ofList]
    exact List.singleton_inj
  simp only [missingBreak, List.append_eq_nil_iff, List.cons_ne_self, and_false, false_or,
    List.getLast?_concat, Option.some.injEq, bne_iff_ne, ne_eq, hbreak, ite_not]

end Document

namespace DocumentM

variable {d₀ : Document} {w : MarkedText} {p q : Nat} {α : Type}

/-! ## Pieces behind a break -/

/-- **Typing has come from one place to another.** Unless nothing was typed yet, there is a break in
what was typed. -/
def Typing (d₀ : Document) (w : MarkedText) (p q : Nat) (d : Document) : Prop :=
  ∃ u, (u = [] ∨ '\n' ∈ u) ∧ q = p + u.length ∧ Shows d₀ (w.typed p u) d ∧ (styled d₀).Holds d

/-! ## A new section -/

theorem keeps_showing_createBookmark (d₀ : Document) (w : MarkedText) (name : String)
    (r : TextRange) :
    Keeps (showing d₀ w) (createBookmark name r) :=
  keeps_create trivial fun _ _ _ _ _ hd =>
    ⟨hd.markedText, hd.properties, hd.characterStyles, hd.steady⟩

theorem keeps_showing_removeBookmark (d₀ : Document) (w : MarkedText) (name : String) :
    Keeps (showing d₀ w) (removeBookmark name) :=
  keeps_change fun _ hd => ⟨hd.markedText, hd.properties, hd.characterStyles, hd.steady⟩

/-- The bookmarks of a new section are created at its place. -/
theorem triple_shows_createBookmarks (d₀ : Document) (w : MarkedText) (place : TextRange) :
    Triple (Shows d₀ w) (do
        createBookmark MarkName.bibliographyBookmark place
        createBookmark MarkName.bibliographyEndBookmark place
        return place)
      (fun p d => p = place ∧ Shows d₀ w d) fun _ _ => True :=
  Triple.bind (keeps_showing_createBookmark d₀ w _ _) fun _ =>
    Triple.bind (keeps_showing_createBookmark d₀ w _ _) fun _ => .pure fun _ h => ⟨rfl, h⟩

/-- A break is typed before a new section if one is missing. -/
theorem triple_shows_startSection (d₀ : Document) {text : List Char}
    (htext : w.text .body = some text) (breaks : Bool)
    (hbreaks : Document.missingBreak text = if breaks then ['\n'] else []) :
    Triple (Shows d₀ w) (do
        if breaks then
          let _ ← replace (.collapsed .body text.length) "\n"
        let place := TextRange.collapsed .body (if breaks then text.length + 1 else text.length)
        createBookmark MarkName.bibliographyBookmark place
        createBookmark MarkName.bibliographyEndBookmark place
        return place)
      (fun place d => place = .collapsed .body (Document.endParagraph text).length ∧
        Shows d₀ (w.typed text.length (Document.missingBreak text)) d) fun _ _ => True := by
  rw [Document.endParagraph_eq_append, List.length_append, hbreaks]
  cases breaks with
  | false =>
    simp only [Bool.false_eq_true, if_false, List.length_nil, Nat.add_zero, MarkedText.typed_nil]
    exact triple_shows_createBookmarks d₀ _ _
  | true =>
    have hinside : w.Inside (.collapsed .body text.length) := ⟨text, htext, Nat.le_refl _⟩
    have htyped : Makes d₀ w (replace (.collapsed .body text.length) "\n") _
      (w.typed text.length ['\n']) := Makes.replace hinside "\n"
    refine (htyped.weaken_error fun _ _ _ => trivial).bind fun _ => .assume fun _ => ?_
    exact triple_shows_createBookmarks d₀ _ _

/-- **A new section** starts a paragraph at the end of the body. -/
theorem triple_shows_createSection (d₀ : Document) {text : List Char}
    (htext : w.text .body = some text) :
    Triple (Shows d₀ w) createSection
      (fun place d => place = .collapsed .body (Document.endParagraph text).length ∧
        Shows d₀ (w.typed text.length (Document.missingBreak text)) d) fun _ _ => True := by
  refine Triple.bind (keeps_showing_removeBookmark d₀ w _) fun _ => ?_
  have hlength : Makes d₀ w (flowLength .body) text.length w := by
    refine Makes.look fun d hd => ?_
    rw [← hd.markedText] at htext
    rw [← Option.some.inj htext, Cells.chars, List.length_map]
    rfl
  refine (hlength.weaken_error fun _ _ _ => trivial).bind fun length => .assume fun hlength => ?_
  subst hlength
  simp only
  split
  · next hnone =>
    refine (Triple.pure fun _ h => ⟨rfl, h⟩).bind fun breaks => .assume fun hfalse => ?_
    subst hfalse
    exact triple_shows_startSection d₀ htext false
      (if_pos (Or.inl (List.length_eq_zero_iff.mp hnone)))
  · next hsome =>
    have hinside : w.Inside (.inBody (text.length - 1) text.length) := by
      refine ⟨text, htext, ?_⟩
      rw [TextRange.inBody, TextRange.stop_new]
      omega
    have hunder : w.under? (.inBody (text.length - 1) text.length) =
        some (text.drop (text.length - 1)) := by
      rw [MarkedText.under?, TextRange.inBody, TextRange.flow_new, htext, Option.map_some,
        TextRange.start_new, TextRange.stop_new, Nat.min_eq_left (Nat.sub_le _ _),
        Nat.max_eq_right (Nat.sub_le _ _), List.take_length]
    refine ((Makes.text hinside hunder).weaken_error fun _ _ _ => trivial).bind fun last =>
      .assume fun hlast => ?_
    subst hlast
    exact triple_shows_startSection d₀ htext _
      (Document.missingBreak_eq (mt List.length_eq_zero_iff.mpr hsome))

/-! ## Pieces of an entry -/

variable (hp : w.Inside (.collapsed .body p))

include hp

/-- One more piece is typed. -/
theorem triple_typing {x : DocumentM α} {a : α} {s : List Char} (hs : p < q ∨ '\n' ∈ s)
    (hmakes : ∀ v, v.Inside (.collapsed .body q) → Makes d₀ v x a (v.typed q s))
    (hkeeps : Keeps (styled d₀) x) :
    Triple (Typing d₀ w p q) x (fun b d => b = a ∧ Typing d₀ w p (q + s.length) d)
      fun e _ => d₀.Breaks e := by
  refine Triple.exists fun u => .assume fun hu => .assume fun hq => ?_
  subst hq
  have hbreak : '\n' ∈ u ++ s := by
    rcases hs with hlt | hs
    · rcases hu with rfl | hu
      · exact absurd hlt (by simp)
      · exact List.mem_append_left s hu
    · exact List.mem_append_right u hs
  have hmade := hmakes _ (MarkedText.inside_typed hp u)
  rw [MarkedText.typed_typed hp hu] at hmade
  refine (hmade.keeping hkeeps).weaken (fun _ hd => hd) (fun b d hd => ?_) fun _ _ he => he
  refine ⟨hd.1, u ++ s, Or.inr hbreak, ?_, hd.2⟩
  rw [List.length_append, Nat.add_assoc]

theorem triple_typing_typeAt {s : String} (hs : p < q ∨ '\n' ∈ s.toList) :
    Triple (Typing d₀ w p q) (typeAt q s)
      (fun stop d => stop = q + s.length ∧ Typing d₀ w p stop d) fun e _ => d₀.Breaks e := by
  have hkeeps : Keeps (styled d₀) (replace (.collapsed .body q) s) :=
    keeps_replace (allowsMarking_styled d₀).toAllowsWriting _ _
  refine Triple.bind (triple_typing hp hs (fun v hv => Makes.replace hv s) hkeeps) fun written =>
    .assume fun hwritten => .pure fun d hd => ?_
  have hstop : written.stop = q + s.length := by
    rw [hwritten]
    exact Nat.max_eq_right (Nat.le_add_right _ _)
  refine ⟨hstop, ?_⟩
  rwa [hstop, ← String.length_toList]

theorem triple_typing_writeMarkup (hq : p < q) (markup : String) :
    Triple (Typing d₀ w p q) (writeMarkup (.collapsed .body q) markup)
      (fun written d => q ≤ written.stop ∧ Typing d₀ w p written.stop d)
      fun e _ => d₀.Breaks e := by
  have hkeeps : Keeps (styled d₀) (writeMarkup (.collapsed .body q) markup) :=
    keeps_writeMarkup (allowsMarking_styled d₀).toAllowsWriting _ _
  refine (triple_typing hp (Or.inl hq) (fun v hv => Makes.typeMarkup hv markup) hkeeps).weaken
    (fun _ hd => hd) (fun written d hd => ?_) fun _ _ he => he
  have hstop : written.stop = q + (Markup.plainChars markup.toList).length := by
    rw [hd.1]
    exact Nat.max_eq_right (Nat.le_add_right _ _)
  rw [hstop]
  exact ⟨Nat.le_add_right _ _, hd.2⟩

theorem triple_typing_insertPageField (hq : p < q) (mark : String) :
    Triple (Typing d₀ w p q) (insertPageField (.collapsed .body q) mark)
      (fun field d => q ≤ field.stop ∧ Typing d₀ w p field.stop d) fun e _ => d₀.Breaks e := by
  refine Triple.exists fun u => .assume fun hu => .assume fun hplace => ?_
  have hbreak : '\n' ∈ u := by
    rcases hu with rfl | hu
    · exact absurd hplace (by simp; omega)
    · exact hu
  refine Triple.call (fun d c hc hd => ⟨hd.1.of_same (sameDocument_connection hc), hd.2⟩)
    (fun d hd => ?_) fun d hbroken hd => ⟨rfl, fun h => hbroken (hd.1.steady.mp h)⟩
  have hinside : d.Inside (.collapsed .body q) := by
    rw [← Document.inside_markedText_iff, hd.1.markedText, hplace]
    exact MarkedText.inside_typed hp u
  obtain ⟨cells, hcells, hstop⟩ := hinside
  -- what a field shows depends on the layout, but it is some text in any case
  have htyped (shown : String) :
      q ≤ (Document.typedRange (.collapsed .body q) shown).stop ∧
        Typing d₀ w p (Document.typedRange (.collapsed .body q) shown).stop
          ((d.replaceText (.collapsed .body q) shown).modifyCells
            (Document.typedRange (.collapsed .body q) shown)
            fun c => { c with role := .pageField mark }) := by
    have hfield : (Document.typedRange (.collapsed .body q) shown).stop = q + shown.length :=
      Nat.max_eq_right (Nat.le_add_right _ _)
    have hshows := (hd.1.replaceText (.collapsed .body q) shown).modifyCells
      (Document.typedRange (.collapsed .body q) shown)
      (f := fun c => { c with role := .pageField mark }) fun _ => rfl
    rw [hfield]
    refine ⟨Nat.le_add_right _ _, u ++ shown.toList, Or.inr (List.mem_append_left _ hbreak), ?_, ?_,
      ?_⟩
    · rw [List.length_append, String.length_toList, hplace, Nat.add_assoc]
    · rw [← MarkedText.typed_typed hp (Or.inr hbreak), ← hplace]
      exact hshows
    · refine (allowsMarking_styled d₀).modifyCells _ _ ?_
      exact (allowsMarking_styled d₀).replaceText shown hcells hstop hd.2
  rw [Document.cellsAround_of_le hcells hstop]
  exact htyped _

theorem triple_typing_writePageFields (hq : p < q) (marks : List String) :
    Triple (Typing d₀ w p q) (writePageFields q marks)
      (fun stop d => q ≤ stop ∧ Typing d₀ w p stop d) fun e _ => d₀.Breaks e := by
  fun_induction writePageFields q marks with
  | case1 place => exact .pure fun d hd => ⟨Nat.le_refl _, hd⟩
  | case2 place mark =>
    refine (triple_typing_insertPageField hp hq mark).bind fun field => .pure fun d hd => hd
  | case3 place mark rest _ ih =>
    refine (triple_typing_insertPageField hp hq mark).bind fun field => .assume fun hfield => ?_
    refine (triple_typing_typeAt hp (Or.inl (by omega))).bind fun next => .assume fun hnext => ?_
    refine (ih next (by omega)).weaken (fun _ hd => hd) (fun stop d hd => ⟨?_, hd.2⟩)
      fun _ _ he => he
    have := hd.1
    omega

/-- A style that is not defined stops writing in it. -/
theorem triple_typing_setParagraphStyle {start : Nat} (hstart : start ≤ q) (format : String) :
    Triple (Typing d₀ w p q) (setParagraphStyle (.inBody start q) format)
      (fun _ d => format ∈ d₀.paragraphStyles ∧ Typing d₀ w p q d)
      fun e _ => d₀.Breaks e ∨ format ∉ d₀.paragraphStyles := by
  refine Triple.exists fun u => .assume fun hu => .assume fun hplace => ?_
  refine Triple.call (fun d c hc hd => ⟨hd.1.of_same (sameDocument_connection hc), hd.2⟩)
    (fun d hd => ?_) fun d hbroken hd => Or.inl ⟨rfl, fun h => hbroken (hd.1.steady.mp h)⟩
  obtain ⟨cells, hcells, hstop⟩ : d.Inside (.inBody start q) := by
    rw [← Document.inside_markedText_iff, hd.1.markedText]
    obtain ⟨text, htext, hle⟩ := MarkedText.inside_typed hp u
    rw [TextRange.stop_collapsed, ← hplace] at hle
    exact ⟨text, htext, by rw [TextRange.inBody, TextRange.stop_new]; omega⟩
  have hstyles : d.paragraphStyles = d₀.paragraphStyles := hd.2.2.symm
  by_cases hformat : format ∈ d₀.paragraphStyles
  · have hdefined : d.paragraphStyles.contains format = true := by simpa [hstyles] using hformat
    rw [hdefined, Document.cellsAround_of_le hcells hstop]
    refine ⟨hformat, u, hu, hplace, hd.1.modifyCells _ fun _ => rfl, ?_⟩
    exact (allowsMarking_styled d₀).modifyCells _ _ hd.2
  · have hnot : d.paragraphStyles.contains format = false := by simpa [hstyles] using hformat
    rw [hnot]
    exact Or.inr hformat

/-- **An entry is typed** behind a break of its own. -/
theorem triple_typing_writeEntry (format : String) (withPages : Bool) (entry : BibliographyEntry)
    (hq : p ≤ q) :
    Triple (Typing d₀ w p q) (writeEntry format withPages q entry)
      (fun stop d => q < stop ∧ format ∈ d₀.paragraphStyles ∧ Typing d₀ w p stop d)
      fun e _ => d₀.Breaks e ∨ format ∉ d₀.paragraphStyles := by
  have hor {e : DocumentError} (he : d₀.Breaks e) :
      d₀.Breaks e ∨ format ∉ d₀.paragraphStyles := Or.inl he
  have hend {start stop : Nat} (hle : start ≤ stop) (hlt : q < stop) :
      Triple (Typing d₀ w p stop) (do
        setParagraphStyle (.inBody start stop) format
        return stop) (fun stop d => q < stop ∧ format ∈ d₀.paragraphStyles ∧ Typing d₀ w p stop d)
        fun e _ => d₀.Breaks e ∨ format ∉ d₀.paragraphStyles :=
    (triple_typing_setParagraphStyle hp hle format).bind fun _ => .pure fun d hd => ⟨hlt, hd⟩
  refine ((triple_typing_typeAt hp (s := "\n") (Or.inr (by simp))).weaken_error
    fun _ _ => hor).bind fun start => .assume fun hstart => ?_
  have hone : start = q + 1 := hstart
  refine ((triple_typing_writeMarkup hp (by omega) entry.markup).weaken_error
    fun _ _ => hor).bind fun written => .assume fun hwritten => ?_
  simp only
  split
  · refine ((triple_typing_typeAt hp (Or.inl (by omega))).weaken_error fun _ _ => hor).bind
      fun opened => .assume fun hopened => ?_
    refine ((triple_typing_writePageFields hp (by omega) entry.citedIn).weaken_error
      fun _ _ => hor).bind fun next => .assume fun hnext => ?_
    refine ((triple_typing_typeAt hp (Or.inl (by omega))).weaken_error fun _ _ => hor).bind
      fun stop => .assume fun hstop => ?_
    exact hend (by omega) (by omega)
  · exact hend (by omega) (by omega)

/-- **Entries are typed** one after another. -/
theorem triple_typing_entries (format : String) (withPages : Bool)
    (entries : List BibliographyEntry) (hq : p ≤ q) :
    Triple (Typing d₀ w p q) (entries.foldlM (writeEntry format withPages) q)
      (fun stop d => (entries = [] → stop = q) ∧
        (entries ≠ [] → q < stop ∧ format ∈ d₀.paragraphStyles) ∧ Typing d₀ w p stop d)
      fun e _ => d₀.Breaks e ∨ entries ≠ [] ∧ format ∉ d₀.paragraphStyles := by
  induction entries generalizing q with
  | nil => exact .pure fun d hd => ⟨fun _ => rfl, fun h => absurd rfl h, hd⟩
  | cons entry entries ih =>
    have hne : entry :: entries ≠ [] := List.cons_ne_nil _ _
    rw [List.foldlM_cons]
    refine ((triple_typing_writeEntry hp format withPages entry hq).weaken_error
      fun e _ he => he.imp_right fun h => ⟨hne, h⟩).bind fun next => .assume fun hnext =>
        .assume fun hformat => ?_
    refine (ih (by omega)).weaken (fun _ hd => hd) (fun stop d hd => ?_) fun e _ he =>
      he.imp_right fun h => ⟨hne, h.2⟩
    obtain ⟨hnil, hcons, htyping⟩ := hd
    refine ⟨fun h => absurd h hne, fun _ => ⟨?_, hformat⟩, htyping⟩
    by_cases hentries : entries = []
    · have := hnil hentries
      omega
    · have := (hcons hentries).1
      omega

end DocumentM

end DocCite
