import DocCite.Proofs.Document.BibliographyText
import DocCite.Proofs.Document.SectionMarks

/-!
# Rewriting a bibliography

What writing a bibliography needs of a document is known beforehand (`Admits`): nothing else but a
breaking connection stops it (`triple_writeBibliography`), and what it makes of the text and the
marks is certain but for the characters of the page fields (`Rewritten`). So it is also known which
marks come through it unharmed, and whether the bibliography can be written again.
-/

namespace DocCite

namespace Document

/-! ## The section -/

/-- The break that is typed before a section that is not there yet. -/
def addedBreak (d : Document) : List Char :=
  match d.bookmarks.get? MarkName.bibliographyBookmark with
  | some _ => []
  | none => missingBreak (Cells.chars d.body)

/-- The text when the section is there. -/
def sectionedText (d : Document) : MarkedText := d.markedText.typed d.body.length d.addedBreak

/-- A mark when the section is there. -/
def besideSection (d : Document) (x : TextRange) : TextRange :=
  x.afterReplacing .mark (.collapsed .body d.body.length) d.addedBreak

/-- Where the bibliography is, or where it is to come. -/
def sectionRange (d : Document) : TextRange :=
  match d.bookmarks.get? MarkName.bibliographyBookmark with
  | some covered => .inBody covered.start (d.sectionStop covered)
  | none => .collapsed .body (endParagraph (Cells.chars d.body)).length

variable {d d' : Document} {b : Bibliography}

@[simp] theorem flow_sectionRange (d : Document) : d.sectionRange.flow = .body := by
  unfold sectionRange
  split <;> rfl

@[simp] theorem flow_besideSection (d : Document) (x : TextRange) :
    (d.besideSection x).flow = x.flow :=
  TextRange.flow_afterReplacing _ _ _ _

theorem addedBreak_cases (d : Document) : d.addedBreak = [] ∨ '\n' ∈ d.addedBreak := by
  unfold addedBreak
  split
  · exact Or.inl rfl
  · unfold missingBreak
    split_ifs
    · exact Or.inl rfl
    · exact Or.inr List.mem_cons_self

theorem length_chars (cells : List Cell) : (Cells.chars cells).length = cells.length :=
  List.length_map _

theorem inside_bodyEnd (d : Document) : d.markedText.Inside (.collapsed .body d.body.length) :=
  ⟨Cells.chars d.body, rfl, Nat.le_of_eq (length_chars _).symm⟩

/-- The body when the section is there. -/
theorem text_sectionedText (d : Document) :
    d.sectionedText.text .body = some (Cells.chars d.body ++ d.addedBreak) := by
  have hbody : d.markedText.text .body = some (Cells.chars d.body) := rfl
  rw [sectionedText, MarkedText.text_typed, hbody, Option.map_some, ← length_chars,
    List.take_length, List.drop_length, List.append_nil]

theorem get?_sectionedText (d : Document) (name : String) :
    d.sectionedText.marks.get? name = (d.marks.get? name).map d.besideSection :=
  Keyed.get?_map d.marks d.besideSection name

/-- A new section leaves marks their text. -/
theorem under?_besideSection {x : TextRange} (hx : d.Inside x) :
    d.sectionedText.under? (d.besideSection x) = d.markedText.under? x := by
  refine MarkedText.under?_replace_of_apart (inside_bodyEnd d) (fun hflow => Or.inl ?_)
    fun _ _ _ => addedBreak_cases d
  obtain ⟨cells, hcells, hstop⟩ := hx
  rw [show x.flow = .body from hflow] at hcells
  obtain rfl : d.body = cells := Option.some.inj hcells
  exact hstop

theorem inside_besideSection {x : TextRange} (hx : d.Inside x) :
    d.sectionedText.Inside (d.besideSection x) :=
  (inside_bodyEnd d).replace (inside_markedText_iff.mpr hx) _

/-! ## What is needed and what is left -/

/-- No citation mark is inside of the section. -/
def NoMarkWithin (d : Document) : Prop :=
  ∀ name x, d.marks.get? name = some x → MarkName.isMark name = true →
    ¬ (d.besideSection x).IsWithin d.sectionRange

/-- **A document admits a bibliography**: its section is inside the text, no citation mark is inside
of the section, and the styles are defined. -/
structure Admits (d : Document) (b : Bibliography) : Prop where
  inside : d.sectionedText.Inside d.sectionRange
  marks : d.NoMarkWithin
  header : b.headerFormat ∈ d.paragraphStyles
  paragraphs : b.entries ≠ [] → b.paragraphFormat ∈ d.paragraphStyles

/-- **The section is rewritten** with a title and entries. -/
structure Rewritten (d : Document) (title entries : List Char) (d' : Document) : Prop where
  markedText : d'.markedText = d.sectionedText.rewrite d.sectionRange title entries
  bookmark : d'.bookmarks.get? MarkName.bibliographyBookmark =
    some (d.sectionRange.rewritten title entries)
  endBookmark : d'.bookmarks.get? MarkName.bibliographyEndBookmark =
    some (.collapsed .body (d.sectionRange.rewritten title entries).stop)
  paragraphStyles : d'.paragraphStyles = d.paragraphStyles
  properties : d'.properties = d.properties
  steady : d.connection = .steady ↔ d'.connection = .steady

end Document

namespace DocumentM

variable {d d₀ : Document} {w : MarkedText} {b : Bibliography}

/-! ## Steps -/

theorem breaks_of_shows {e : DocumentError} (h : Shows d₀ w d) (he : d.Breaks e) : d₀.Breaks e :=
  ⟨he.1, fun hsteady => he.2 (h.steady.mp hsteady)⟩

/-- The section is where it was, or it is created. -/
theorem triple_sectionRange (d : Document) :
    Triple (SameDocument d) bibliographySection
      (fun whole d₁ => whole = d.sectionRange ∧ Shows d d.sectionedText d₁ ∧ (styled d).Holds d₁)
      fun e _ => d.Breaks e ∨ d.bookmarks.get? MarkName.bibliographyBookmark = none := by
  have hsame {name : String} (d₁ : Document) (h : SameDocument d d₁) :
      d₁.bookmarks.get? name = d.bookmarks.get? name := by rw [h.bookmarks]
  have hstyled (d₁ : Document) (h : SameDocument d d₁) : (styled d).Holds d₁ :=
    ⟨h.characterStyles, h.paragraphStyles⟩
  refine Triple.bind ((triple_see hsame).weaken_error fun _ _ he => Or.inl he.1) fun covered =>
    .assume fun hcovered => ?_
  subst hcovered
  cases hcovered : d.bookmarks.get? MarkName.bibliographyBookmark with
  | some covered =>
    refine Triple.bind ((triple_see hsame).weaken_error fun _ _ he => Or.inl he.1) fun stop =>
      .assume fun hstop => .pure fun d₁ h => ?_
    subst hstop
    refine ⟨?_, ?_, hstyled d₁ h⟩
    · rw [sectionBetween_eq, Document.sectionRange, hcovered]
    · rw [Document.sectionedText, Document.addedBreak, hcovered, MarkedText.typed_nil]
      exact (shows_self d).of_same h
  | none =>
    have hcreate := (triple_shows_createSection d (w := d.markedText) rfl).and
      (keeps_createSection (allowsMarking_styled d).toAllowsWriting)
    refine hcreate.weaken (fun d₁ h => ⟨(shows_self d).of_same h, hstyled d₁ h⟩)
      (fun place d₁ h => ?_) fun _ _ _ => Or.inr rfl
    rw [Document.length_chars] at h
    rw [Document.sectionRange, Document.sectionedText, Document.addedBreak, hcovered]
    exact ⟨h.1.1, h.1.2, h.2⟩

/-- The check of marks passes when none is inside of the section. -/
theorem triple_checkNoMarkInside (d : Document) (whole : TextRange) :
    Triple (SameDocument d) (checkNoMarkInside whole)
      (fun _ d₁ => (∀ name x, d.marks.get? name = some x → MarkName.isMark name = true →
        ¬ x.IsWithin whole) ∧ SameDocument d d₁)
      fun e _ => d.Breaks e ∨ ∃ name x, d.marks.get? name = some x ∧
        MarkName.isMark name = true ∧ x.IsWithin whole := by
  have hnames := triple_see (f := fun d₁ => d₁.marks.map Prod.fst) fun d₁ (h : SameDocument d d₁) =>
    by rw [h.marks]
  refine (hnames.weaken_error fun _ _ he => Or.inl he.1).bind fun names => .assume fun hnames => ?_
  subst hnames
  refine (Triple.forM_all (I := SameDocument d) (p := fun name => ∀ x,
    d.marks.get? name = some x → MarkName.isMark name = true → ¬ x.IsWithin whole)
    fun name _ => ?_).weaken (fun _ h => h) (fun _ d₁ h => ?_) fun _ _ he => he
  · split
    · next hmark =>
      have hrange := triple_see (f := fun d₁ => d₁.marks.get? name)
        fun d₁ (h : SameDocument d d₁) => by rw [h.marks]
      refine (hrange.weaken_error fun _ _ he => Or.inl he.1).bind fun r => .assume fun hr => ?_
      subst hr
      cases hx : d.marks.get? name with
      | none => exact Triple.pure fun d₁ h => ⟨fun x hx => (Option.some_ne_none x hx.symm).elim, h⟩
      | some x =>
        simp only
        split
        · next hwithin =>
          rw [Bool.and_eq_true, Bool.not_eq_true'] at hwithin
          exact Triple.throw fun d₁ h => Or.inr ⟨name, x, hx, hmark, hwithin⟩
        · next hnot =>
          rw [Bool.and_eq_true, Bool.not_eq_true'] at hnot
          exact Triple.pure fun d₁ h => ⟨fun y hy _ => Option.some.inj hy ▸ hnot, h⟩
    · next hmark => exact Triple.pure fun d₁ h => ⟨fun x _ hname => absurd hname hmark, h⟩
  · refine ⟨fun name x hx => h.1 name ?_ x hx, h.2⟩
    by_contra hnot
    rw [Keyed.get?_eq_none_iff.mpr hnot] at hx
    cases hx

/-- A replacement inside the text fails only where the connection breaks. -/
theorem triple_styled_replace (r : TextRange) (new : String) :
    Triple (fun d => Shows d₀ w d ∧ (styled d₀).Holds d) (replace r new)
      (fun _ d => w.Inside r ∧ Shows d₀ (w.replace r new.toList) d ∧ (styled d₀).Holds d)
      fun e _ => d₀.Breaks e ∨ ¬ w.Inside r := by
  have hkeeps : Keeps (styled d₀) (replace r new) :=
    keeps_replace (allowsMarking_styled d₀).toAllowsWriting r new
  by_cases hr : w.Inside r
  · exact ((Makes.replace hr new).keeping hkeeps).weaken (fun _ hd => hd)
      (fun _ _ hd => ⟨hr, hd.2⟩) fun _ _ he => Or.inl he
  · refine Triple.of_each fun d hd => ?_
    refine (triple_replace d r new).weaken (fun _ h => h) (fun _ _ h => absurd ?_ hr)
      fun _ _ _ => Or.inr hr
    rw [← hd.1.markedText]
    exact Document.inside_markedText_iff.mpr h.2.1

section Bookmarks

/-- Documents that are the same have the same bookmarks after a change of these. -/
theorem sameDocument_bookmarks {d d' : Document} {m : Keyed String TextRange}
    (h : SameDocument { d with bookmarks := m } d')
    (f : Keyed String TextRange → Keyed String TextRange) :
    SameDocument { d with bookmarks := f m } { d' with bookmarks := f d'.bookmarks } :=
  ⟨⟨h.body, h.footnotes, h.marks, congrArg f h.bookmarks, h.properties⟩, h.title,
    h.characterStyles, h.paragraphStyles, h.isRecording, h.redlines, h.lineWidth, h.linesPerPage,
    h.steady⟩

variable (m : Keyed String TextRange)

theorem triple_removeBookmark (d : Document) (name : String) :
    Triple (SameDocument { d with bookmarks := m }) (removeBookmark name)
      (fun _ => SameDocument { d with bookmarks := m.erase name }) fun e _ => d.Breaks e := by
  unfold removeBookmark change
  refine Triple.call (fun d₁ c hc h => h.trans (sameDocument_connection hc)) (fun d₁ h => ?_)
    fun d₁ hbroken h => ⟨rfl, fun hsteady => hbroken (h.steady.mp hsteady)⟩
  exact sameDocument_bookmarks h fun bookmarks => bookmarks.erase name

variable {m}

theorem triple_createBookmark {d : Document} {name : String} {r : TextRange} (hr : d.Inside r)
    (hname : m.get? name = none) :
    Triple (SameDocument { d with bookmarks := m }) (createBookmark name r)
      (fun _ => SameDocument { d with bookmarks := m.put name r }) fun e _ => d.Breaks e := by
  refine Triple.call (fun d₁ c hc h => h.trans (sameDocument_connection hc)) (fun d₁ h => ?_)
    fun d₁ hbroken h => ⟨rfl, fun hsteady => hbroken (h.steady.mp hsteady)⟩
  obtain ⟨cells, hcells, hstop⟩ := hr
  have hthere : d₁.cells? r.flow = some cells := (h.cells? r.flow).symm.trans hcells
  have hfree : d₁.bookmarks.get? name = none := h.bookmarks ▸ hname
  rw [Document.cellsAround_of_le hthere hstop, hfree]
  exact sameDocument_bookmarks h fun bookmarks => bookmarks.put name r

/-- **The bookmarks are set anew**, and nothing else happens. -/
theorem triple_setBookmarks {d : Document} {start stop : Nat} (hr : d.Inside (.inBody start stop)) :
    Triple (SameDocument d) (do
        removeBookmark MarkName.bibliographyBookmark
        removeBookmark MarkName.bibliographyEndBookmark
        createBookmark MarkName.bibliographyBookmark (.inBody start stop)
        createBookmark MarkName.bibliographyEndBookmark (.collapsed .body stop))
      (fun _ d' => ∃ m, SameDocument { d with bookmarks := m } d' ∧
        m.get? MarkName.bibliographyBookmark = some (.inBody start stop) ∧
        m.get? MarkName.bibliographyEndBookmark = some (.collapsed .body stop))
      fun e _ => d.Breaks e := by
  have hne : MarkName.bibliographyBookmark ≠ MarkName.bibliographyEndBookmark := by decide
  have hend : d.Inside (.collapsed .body stop) := by
    obtain ⟨cells, hcells, hstop⟩ := hr
    exact ⟨cells, hcells, Nat.le_trans (Nat.le_max_right start stop) hstop⟩
  refine (triple_removeBookmark d.bookmarks d _).bind fun _ =>
    (triple_removeBookmark _ d _).bind fun _ => ?_
  refine (triple_createBookmark hr ?_).bind fun _ => ?_
  · rw [Keyed.get?_erase_of_ne _ hne, Keyed.get?_erase_self]
  refine (triple_createBookmark hend ?_).weaken (fun _ h => h)
    (fun _ d' h => ⟨_, h, ?_, ?_⟩) fun _ _ he => he
  · rw [Keyed.get?_put, if_neg hne, Keyed.get?_erase_self]
  · rw [Keyed.get?_put, if_neg hne.symm, Keyed.get?_put, if_pos rfl]
  · rw [Keyed.get?_put, if_pos rfl]

end Bookmarks

/-! ## The whole -/

/-- Marks are checked where they are when the section is there. -/
theorem triple_checkSection (d : Document) :
    Triple (fun d₁ => Shows d d.sectionedText d₁ ∧ (styled d).Holds d₁)
      (checkNoMarkInside d.sectionRange)
      (fun _ d₁ => d.NoMarkWithin ∧ Shows d d.sectionedText d₁ ∧ (styled d).Holds d₁)
      fun e _ => d.Breaks e ∨ ¬ d.NoMarkWithin := by
  refine Triple.of_each fun d₁ hd₁ => ?_
  have hmarks (name : String) : d₁.marks.get? name = (d.marks.get? name).map d.besideSection := by
    rw [← d.get?_sectionedText, ← hd₁.1.markedText]
    rfl
  refine (triple_checkNoMarkInside d₁ d.sectionRange).weaken (fun _ h => h) (fun _ d₂ h => ?_)
    fun e _ he => ?_
  · refine ⟨fun name x hx => h.1 name _ ?_, hd₁.1.of_same h.2, ?_⟩
    · rw [hmarks, hx, Option.map_some]
    · exact ⟨hd₁.2.1.trans h.2.characterStyles, hd₁.2.2.trans h.2.paragraphStyles⟩
  · refine he.imp (breaks_of_shows hd₁.1) ?_
    rintro ⟨name, x, hx, hname, hwithin⟩ hnone
    rw [hmarks] at hx
    obtain ⟨y, hy, rfl⟩ := Option.map_eq_some_iff.mp hx
    exact hnone name y hy hname hwithin

/-- The title comes in the place of the section. -/
theorem triple_writeTitle {d : Document} (hinside : d.sectionedText.Inside d.sectionRange)
    (title : String) :
    Triple
      (fun d₁ => Shows d (d.sectionedText.replace d.sectionRange []) d₁ ∧ (styled d).Holds d₁)
      (writeMarkup (.collapsed .body d.sectionRange.start) title)
      (fun written d₁ => written = .new .body d.sectionRange.start
          (d.sectionRange.start + (Markup.plainChars title.toList).length) ∧
        Shows d (d.sectionedText.replace d.sectionRange (Markup.plainChars title.toList)) d₁ ∧
          (styled d).Holds d₁)
      fun e _ => d.Breaks e := by
  have hbody := d.flow_sectionRange
  have hstart : (d.sectionedText.replace d.sectionRange []).Inside
      (.collapsed .body d.sectionRange.start) := by
    simpa using MarkedText.inside_titled hbody hinside []
  have hreplaced :
      (d.sectionedText.replace d.sectionRange []).replace
          (.collapsed .body d.sectionRange.start) (Markup.plainChars title.toList) =
        d.sectionedText.replace d.sectionRange (Markup.plainChars title.toList) :=
    MarkedText.typed_replace_nil hbody hinside _
  rw [← hreplaced]
  exact (Makes.typeMarkup hstart title).keeping
    (keeps_writeMarkup (allowsMarking_styled d).toAllowsWriting _ _)

/-- Its bookmarks complete the section. -/
theorem triple_completeSection {d : Document} (hinside : d.sectionedText.Inside d.sectionRange)
    {title entries : List Char} {stop : Nat}
    (hstop : stop = d.sectionRange.start + title.length + entries.length) :
    Triple
      (fun d₁ => Shows d (d.sectionedText.rewrite d.sectionRange title entries) d₁ ∧
        (styled d).Holds d₁)
      (do
        removeBookmark MarkName.bibliographyBookmark
        removeBookmark MarkName.bibliographyEndBookmark
        createBookmark MarkName.bibliographyBookmark (.inBody d.sectionRange.start stop)
        createBookmark MarkName.bibliographyEndBookmark (.collapsed .body stop))
      (fun _ d' => d.Rewritten title entries d') fun e _ => d.Breaks e := by
  have hbody := d.flow_sectionRange
  refine Triple.of_each fun d₁ hd₁ => ?_
  have hwhole : d.sectionRange.rewritten title entries = .inBody d.sectionRange.start stop := by
    rw [TextRange.rewritten, hbody, ← hstop]
    rfl
  have hall : d₁.Inside (.inBody d.sectionRange.start stop) := by
    rw [← Document.inside_markedText_iff, hd₁.1.markedText, ← hwhole]
    exact MarkedText.inside_rewritten hbody hinside title entries
  refine (triple_setBookmarks hall).weaken (fun _ h => h) (fun _ d' h => ?_) fun _ _ he =>
    breaks_of_shows hd₁.1 he
  obtain ⟨m, hsame, hbookmark, hend⟩ := h
  refine ⟨?_, ?_, ?_, ?_, ?_, ?_⟩
  · exact ((shows_self _).of_same hsame).markedText.trans hd₁.1.markedText
  · rw [← hsame.bookmarks, hwhole]
    exact hbookmark
  · rw [← hsame.bookmarks, TextRange.stop_rewritten, ← hstop]
    exact hend
  · exact hsame.paragraphStyles.symm.trans hd₁.2.2.symm
  · exact hsame.properties.symm.trans hd₁.1.properties
  · exact hd₁.1.steady.trans hsame.steady

/-- **Writing a bibliography rewrites its section**, and what a document does not admit stops it
where there was a section before. -/
theorem triple_writeBibliography (d : Document) (b : Bibliography) (preferences : Preferences) :
    Triple (SameDocument d) (writeBibliography b preferences)
      (fun _ d' => d.Admits b ∧ ∃ entries : List Char, (entries = [] ↔ b.entries = []) ∧
        (entries = [] ∨ '\n' ∈ entries) ∧
        d.Rewritten (Markup.plainChars b.title.toList) entries d')
      fun e _ => d.Breaks e ∨ d.bookmarks.get? MarkName.bibliographyBookmark = none ∨
        ¬ d.Admits b := by
  refine ((triple_sectionRange d).weaken_error fun e _ he => he.imp_right Or.inl).bind fun whole =>
    .assume fun hwhole => ?_
  subst hwhole
  -- no mark is inside of the section
  refine ((triple_checkSection d).weaken_error fun _ _ he => he.imp_right fun hnot =>
    Or.inr fun hadmits => hnot hadmits.marks).bind fun _ => .assume fun hmarks => ?_
  -- the former text is deleted
  refine ((triple_styled_replace d.sectionRange "").weaken_error fun e _ he =>
    he.imp_right fun hnot => Or.inr fun hadmits => hnot hadmits.inside).bind fun _ =>
      .assume fun hinside => ?_
  rw [String.toList_empty]
  -- the title is typed
  refine ((triple_writeTitle hinside b.title).weaken_error fun _ _ he => Or.inl he).bind
    fun written => .assume fun hwritten => ?_
  subst hwritten
  generalize Markup.plainChars b.title.toList = title
  -- the entries are typed
  have hp := MarkedText.inside_titled d.flow_sectionRange hinside title
  have hstarts (d₁ : Document)
      (hd₁ : Shows d (d.sectionedText.replace d.sectionRange title) d₁ ∧ (styled d).Holds d₁) :
      Typing d (d.sectionedText.replace d.sectionRange title) (d.sectionRange.start + title.length)
        (d.sectionRange.start + title.length) d₁ := by
    refine ⟨[], Or.inl rfl, rfl, ?_, hd₁.2⟩
    rw [MarkedText.typed_nil]
    exact hd₁.1
  refine ((triple_typing_setParagraphStyle hp (Nat.le_add_right _ _) b.headerFormat).weaken hstarts
    (fun _ _ h => h) fun _ _ he => he.imp_right fun hnot => Or.inr fun hadmits =>
      hnot hadmits.header).bind fun _ => .assume fun hheader => ?_
  have hstop : (TextRange.new .body d.sectionRange.start
      (d.sectionRange.start + title.length)).stop = d.sectionRange.start + title.length :=
    Nat.max_eq_right (Nat.le_add_right _ _)
  rw [hstop]
  refine ((triple_typing_entries hp b.paragraphFormat preferences.alwaysAddCitedOnPages b.entries
    (Nat.le_refl _)).weaken_error fun _ _ he => he.imp_right fun hnot => Or.inr fun hadmits =>
      hnot.2 (hadmits.paragraphs hnot.1)).bind fun stop => .assume fun hnone => .assume fun hsome =>
        .exists fun entries => .assume fun hentries => .assume fun hplace => ?_
  have hadmits : d.Admits b := ⟨hinside, hmarks, hheader, fun hne => (hsome hne).2⟩
  have hempty : entries = [] ↔ b.entries = [] := by
    rw [← List.length_eq_zero_iff]
    refine ⟨fun hzero => ?_, fun hnil => ?_⟩
    · by_contra hne
      have := (hsome hne).1
      omega
    · have := hnone hnil
      omega
  exact (triple_completeSection hinside hplace).weaken (fun _ h => h)
    (fun _ _ h => ⟨hadmits, entries, hempty, hentries, h⟩) fun _ _ he => Or.inl he

/-- What an action needs does not depend on the connection. -/
theorem admits_steady_iff : d.steady.Admits b ↔ d.Admits b :=
  ⟨fun h => ⟨h.inside, h.marks, h.header, h.paragraphs⟩,
    fun h => ⟨h.inside, h.marks, h.header, h.paragraphs⟩⟩

/-- **A bibliography that is there can be written anew** just when the document admits it. -/
theorem run_writeBibliography_iff (preferences : Preferences)
    (hthere : d.bookmarks.get? MarkName.bibliographyBookmark ≠ none) :
    (∃ d', (writeBibliography b preferences).run d.steady = (.ok (), d')) ↔ d.Admits b := by
  have hwrite := triple_writeBibliography d.steady b preferences
  rw [← admits_steady_iff]
  constructor
  · rintro ⟨d', hrun⟩
    exact (hwrite.of_ok (SameDocument.refl _) hrun).1
  · intro hadmits
    cases hrun : (writeBibliography b preferences).run d.steady with
    | mk outcome d' =>
      cases outcome with
      | ok u => exact ⟨d', rfl⟩
      | error e =>
        rcases hwrite.of_error (SameDocument.refl _) hrun with hbreaks | hnone | hnot
        · exact absurd rfl hbreaks.2
        · exact absurd hnone hthere
        · exact absurd hadmits hnot

end DocumentM

namespace Document.Rewritten

variable {d d' : Document} {b : Bibliography} {title entries : List Char}

section Again

variable (h : d.Rewritten title entries d')
include h

theorem addedBreak : d'.addedBreak = [] := by rw [Document.addedBreak, h.bookmark]

theorem sectionStop : d'.sectionStop (d.sectionRange.rewritten title entries) =
    (d.sectionRange.rewritten title entries).stop := by
  rw [Document.sectionStop, h.endBookmark]
  simp only [TextRange.flow_collapsed, TextRange.start_collapsed, true_and,
    if_pos (d.sectionRange.rewritten title entries).start_le_stop, Nat.max_self]

/-- The section is where it was written. -/
theorem sectionRange : d'.sectionRange = d.sectionRange.rewritten title entries := by
  have hle := (d.sectionRange.rewritten title entries).start_le_stop
  rw [Document.sectionRange, h.bookmark]
  simp only [h.sectionStop]
  exact TextRange.eq_of_ends d.flow_sectionRange.symm (Nat.min_eq_left hle) (Nat.max_eq_right hle)

theorem sectionedText : d'.sectionedText = d'.markedText := by
  rw [Document.sectionedText, h.addedBreak, MarkedText.typed_nil]

theorem besideSection (x : TextRange) : d'.besideSection x = x := by
  rw [Document.besideSection, h.addedBreak, TextRange.afterReplacing_collapsed_nil]

theorem get?_marks (name : String) :
    d'.marks.get? name = (d.marks.get? name).map fun x =>
      (d.besideSection x).afterRewriting d.sectionRange title entries := by
  have hmarks : d'.marks = d'.markedText.marks := rfl
  rw [hmarks, h.markedText, MarkedText.get?_rewrite d.flow_sectionRange, get?_sectionedText,
    Option.map_map]
  rfl

theorem map_fst_marks : d'.marks.map Prod.fst = d.marks.map Prod.fst := by
  have hmarks : d'.marks = d'.markedText.marks := rfl
  rw [hmarks, h.markedText, MarkedText.marks_rewrite d.flow_sectionRange, Document.sectionedText,
    MarkedText.typed, MarkedText.replace, List.map_map, List.map_map]
  rfl

/-- **The bibliography can be written again** unless a mark has come to be inside of the section. -/
theorem admits_iff (hadmits : d.Admits b) :
    d'.Admits b ↔ ∀ name x, d.marks.get? name = some x → MarkName.isMark name = true →
      ¬ ((d.besideSection x).afterRewriting d.sectionRange title entries).IsWithin
        (d.sectionRange.rewritten title entries) := by
  constructor
  · intro hagain name x hx hname
    have hafter := hagain.marks name _ (by rw [h.get?_marks, hx, Option.map_some]) hname
    rwa [h.besideSection, h.sectionRange] at hafter
  · intro hmarks
    refine ⟨?_, fun name x' hx' hname => ?_, ?_, ?_⟩
    · rw [h.sectionedText, h.sectionRange, h.markedText]
      exact MarkedText.inside_rewritten d.flow_sectionRange hadmits.inside title entries
    · rw [h.get?_marks] at hx'
      obtain ⟨x, hx, rfl⟩ := Option.map_eq_some_iff.mp hx'
      rw [h.besideSection, h.sectionRange]
      exact hmarks name x hx hname
    · rw [h.paragraphStyles]
      exact hadmits.header
    · rw [h.paragraphStyles]
      exact hadmits.paragraphs

end Again

end Document.Rewritten

end DocCite
