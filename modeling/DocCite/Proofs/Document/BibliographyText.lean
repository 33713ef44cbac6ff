import DocCite.Proofs.Document.Appending
import DocCite.Proofs.Document.Evaluating
import DocCite.Proofs.Document.SectionTyping
import DocCite.Proofs.Keyed
import DocCite.Text.Split

/-!
# The text of a bibliography

Writing a bibliography puts its text where the former one was, or at the end of the body, and
changes no other text (`writeBibliography_rewrites`). The text is put together from the title and a
paragraph for each entry; only what the page fields show depends on where the text comes to stand.
-/

namespace DocCite

/-! ## What is written -/

/-- A page field shows the number of a page, or that there is none. -/
def IsPageField (s : List Char) : Prop := s = ['?'] ∨ ∃ page : Nat, s = (toString page).toList

/-- Page fields, with commas between. -/
def ArePageFields (count : Nat) (s : List Char) : Prop :=
  ∃ fields, fields.length = count ∧ (∀ field ∈ fields, IsPageField field) ∧
    s = Text.join [',', ' '] fields

namespace BibliographyEntry

/-- Whether the pages that cite an entry follow it. -/
def showsPages (e : BibliographyEntry) (withPages : Bool) : Prop :=
  e.isResolved = false ∨ withPages = true

instance (e : BibliographyEntry) (withPages : Bool) : Decidable (e.showsPages withPages) :=
  inferInstanceAs (Decidable (_ ∨ _))

/-- What follows an entry: where asked for, a page field for each group that cites it. -/
def IsPages (e : BibliographyEntry) (withPages : Bool) (s : List Char) : Prop :=
  if e.showsPages withPages then
    ∃ fields, ArePageFields e.citedIn.length fields ∧
      s = " (Cited on pages: ".toList ++ fields ++ [')']
  else s = []

/-- The paragraph of an entry. -/
def IsParagraph (e : BibliographyEntry) (withPages : Bool) (s : List Char) : Prop :=
  ∃ pages, e.IsPages withPages pages ∧ s = '\n' :: Markup.plainChars e.markup.toList ++ pages

end BibliographyEntry

/-- The text of entries, a paragraph for each of them in their order. -/
def AreParagraphs (entries : List BibliographyEntry) (withPages : Bool) (s : List Char) : Prop :=
  ∃ paragraphs, List.Forall₂ (fun e t => e.IsParagraph withPages t) entries paragraphs ∧
    s = paragraphs.flatten

/-- **The text of a bibliography**: the title, and then the entries. -/
def Bibliography.IsText (b : Bibliography) (withPages : Bool) (s : List Char) : Prop :=
  ∃ paragraphs, AreParagraphs b.entries withPages paragraphs ∧
    s = Markup.plainChars b.title.toList ++ paragraphs

namespace Document

/-- Where the text of a bibliography stops: at the end of its bookmark, or at the empty bookmark
behind it. That one does not count outside the body, nor before the bibliography. -/
def sectionStop (d : Document) (covered : TextRange) : Nat :=
  match d.bookmarks.get? MarkName.bibliographyEndBookmark with
  | some stop =>
    if stop.flow = .body ∧ covered.start ≤ stop.start then max covered.stop stop.start
    else covered.stop
  | none => covered.stop

/-- The text before the bibliography. Where there is none yet, it is to come behind all text, in a
paragraph of its own. -/
def beforeSection (d : Document) : List Char :=
  match d.bookmarks.get? MarkName.bibliographyBookmark with
  | some covered => (Cells.chars d.body).take covered.start
  | none => endParagraph (Cells.chars d.body)

/-- The text behind the bibliography. -/
def behindSection (d : Document) : List Char :=
  match d.bookmarks.get? MarkName.bibliographyBookmark with
  | some covered => (Cells.chars d.body).drop (d.sectionStop covered)
  | none => []

/-- **The bibliography is rewritten**: its new text is between what was around the former one, with
the bookmarks over it and at its end, and the footnotes read as before. -/
structure RewritesSection (d : Document) (new : List Char) (d' : Document) : Prop where
  body : Cells.chars d'.body = d.beforeSection ++ new ++ d.behindSection
  footnotes : d'.footnotes.map Cells.chars = d.footnotes.map Cells.chars
  bookmark : d'.bookmarks.get? MarkName.bibliographyBookmark =
    some (.inBody d.beforeSection.length (d.beforeSection ++ new).length)
  endBookmark : d'.bookmarks.get? MarkName.bibliographyEndBookmark =
    some (.collapsed .body (d.beforeSection ++ new).length)

end Document

namespace DocumentM

variable {d₀ d d' : Document} {text before : List Char} {α : Type}

/-! ## Entries -/

theorem appends_insertPageField {place : Nat} (hplace : place = before.length) (mark : String) :
    Appends d₀ before (insertPageField (.collapsed .body place) mark) TextRange.stop
      IsPageField := by
  subst hplace
  refine appends_call_around fun d => ⟨_, ?_, Nat.max_eq_right (Nat.le_add_right _ _), ?_⟩
  · split
    · exact Or.inr ⟨_, rfl⟩
    · exact Or.inl rfl
  · intro text htyped
    simp only
    exact htyped.modifyCells _ fun _ => rfl

theorem appends_writePageFields (marks : List String) {place : Nat}
    (hplace : place = before.length) :
    Appends d₀ before (writePageFields place marks) id (ArePageFields marks.length) := by
  -- every field is typed behind another text, so `before` is not fixed
  fun_induction writePageFields place marks generalizing before with
  | case1 place =>
    refine (Appends.pure hplace).imp fun s hs => ⟨[], rfl, ?_, hs⟩
    exact fun field hfield => absurd hfield List.not_mem_nil
  | case2 place mark =>
    refine ((appends_insertPageField hplace mark).imp fun s hs => ?_).tell fun _ => rfl
    exact ⟨[s], rfl, fun field hfield => List.mem_singleton.mp hfield ▸ hs, rfl⟩
  | case3 place mark rest hrest ih =>
    refine (appends_insertPageField hplace mark).bind fun field s hs hfield => ?_
    refine (appends_typeAt hfield ", ").bind fun next comma hcomma hnext => ?_
    refine (ih next hnext).imp fun t ht => ?_
    obtain ⟨fields, hlength, hfields, rfl⟩ := ht
    have hne : fields ≠ [] := by
      rintro rfl
      exact hrest (List.length_eq_zero_iff.mp hlength.symm)
    refine ⟨s :: fields, ?_, ?_, ?_⟩
    · rw [List.length_cons, hlength, List.length_cons]
    · exact List.forall_mem_cons.mpr ⟨hs, hfields⟩
    · rw [Text.join_cons_of_ne_nil _ _ hne, hcomma, List.append_assoc]
      rfl

theorem appends_writeEntry (format : String) (withPages : Bool) (entry : BibliographyEntry)
    {place : Nat} (hplace : place = before.length) :
    Appends d₀ before (writeEntry format withPages place entry) id
      (entry.IsParagraph withPages) := by
  refine (appends_typeAt hplace "\n").bind fun start s hs hstart => ?_
  refine (appends_writeMarkup hstart entry.markup).bind fun written t ht hwritten => ?_
  -- the paragraph is closed by its style, behind the pages or without them
  have hend {stop : Nat} {before : List Char} (hstop : stop = before.length) :
      Appends d₀ before (do
        setParagraphStyle (.inBody start stop) format
        return stop) id fun u => u = [] :=
    .of_keeps (fun _ => keeps_readsAs_setParagraphStyle _ _) fun _ => .pure hstop
  subst hs ht
  have hasks : (!entry.isResolved || withPages) = true ↔ entry.showsPages withPages := by
    rw [Bool.or_eq_true, Bool.not_eq_true']
    exact Iff.rfl
  simp only [hasks]
  split
  · next hshows =>
    refine (appends_typeAt hwritten " (Cited on pages: ").bind fun opened u hu hopened => ?_
    refine (appends_writePageFields entry.citedIn hopened).bind fun next fields hfields hnext => ?_
    refine (appends_typeAt hnext ")").bind fun stop closed hclosed hstop => ?_
    refine (hend hstop).imp fun rest hrest => ?_
    subst hu hclosed hrest
    rw [List.append_nil, ← List.append_assoc _ fields]
    exact ⟨_, (if_pos hshows).mpr ⟨fields, hfields, rfl⟩, rfl⟩
  · next hshows =>
    refine (hend hwritten).imp fun rest hrest => ⟨rest, ?_, rfl⟩
    exact (if_neg hshows).mpr hrest

theorem appends_foldlM_writeEntry (format : String) (withPages : Bool)
    (entries : List BibliographyEntry) {place : Nat} (hplace : place = before.length) :
    Appends d₀ before (entries.foldlM (writeEntry format withPages) place) id
      (AreParagraphs entries withPages) := by
  induction entries generalizing before place with
  | nil => exact (Appends.pure hplace).imp fun s hs => ⟨[], .nil, hs⟩
  | cons entry entries ih =>
    refine (appends_writeEntry format withPages entry hplace).bind fun next s hs hnext => ?_
    refine (ih hnext).imp fun t ht => ?_
    obtain ⟨paragraphs, hparagraphs, rfl⟩ := ht
    exact ⟨s :: paragraphs, .cons hs hparagraphs, List.flatten_cons.symm⟩

/-! ## The section -/

/-- A new section starts a paragraph at the end of the body. -/
theorem triple_createSection :
    Triple (Reads d₀ text) createSection
      (fun place d => place = .collapsed .body (Document.endParagraph text).length ∧
        Reads d₀ (Document.endParagraph text) d) fun _ _ => True := by
  intro d hreads
  refine (triple_shows_createSection d (w := d.markedText) hreads.body).weaken (fun _ hd => hd)
    (fun place d' hd => ⟨hd.1, ?_, fun flow hflow => ?_⟩) (fun _ _ _ => trivial) d (shows_self d)
  · rw [hd.2.markedText, MarkedText.text_typed, hreads.body, Option.map_some, List.take_length,
      List.drop_length, List.append_nil, Document.endParagraph_eq_append]
  · rw [hd.2.markedText, MarkedText.text_typed_of_ne hflow, hreads.elsewhere flow hflow]

theorem sectionBetween_eq (d : Document) (covered : TextRange) :
    sectionBetween covered (d.bookmarks.get? MarkName.bibliographyEndBookmark) =
      .inBody covered.start (d.sectionStop covered) := by
  unfold sectionBetween Document.sectionStop
  cases d.bookmarks.get? MarkName.bibliographyEndBookmark with
  | none => rfl
  | some stop =>
    simp only
    split_ifs
    · rw [Nat.max_comm]
    · rfl

theorem le_sectionStop (d : Document) (covered : TextRange) :
    covered.start ≤ d.sectionStop covered := by
  have hle := covered.start_le_stop
  unfold Document.sectionStop
  split
  · split_ifs
    · exact Nat.le_trans hle (Nat.le_max_left _ _)
    · exact hle
  · exact hle

/-- **The section** is between the text before it and the text behind it. -/
theorem triple_bibliographySection (d : Document) :
    Triple (SameDocument d) bibliographySection
      (fun whole d₁ => whole.flow = .body ∧ ∃ text, Reads d text d₁ ∧
        text.take whole.start = d.beforeSection ∧ text.drop whole.stop = d.behindSection)
      fun _ _ => True := by
  have hsame {name : String} (d₁ : Document) (h : SameDocument d d₁) :
      d₁.bookmarks.get? name = d.bookmarks.get? name := by rw [h.bookmarks]
  refine Triple.bind ((triple_see hsame).weaken_error fun _ _ _ => trivial) fun covered =>
    .assume fun hcovered => ?_
  subst hcovered
  cases hcovered : d.bookmarks.get? MarkName.bibliographyBookmark with
  | some covered =>
    refine Triple.bind ((triple_see hsame).weaken_error fun _ _ _ => trivial) fun stop =>
      .assume fun hstop => .pure fun d₁ h => ?_
    subst hstop
    have hle := le_sectionStop d covered
    refine ⟨?_, _, (Reads.self d).of_same h, ?_, ?_⟩
    · rw [sectionBetween_eq]
      rfl
    · rw [sectionBetween_eq, Document.beforeSection, hcovered, TextRange.inBody,
        TextRange.start_new, Nat.min_eq_left hle]
    · rw [sectionBetween_eq, Document.behindSection, hcovered, TextRange.inBody,
        TextRange.stop_new, Nat.max_eq_right hle]
  | none =>
    refine triple_createSection.weaken (fun d₁ h => (Reads.self d).of_same h) (fun place d₁ h => ?_)
      fun _ _ _ => trivial
    obtain ⟨rfl, hreads⟩ := h
    refine ⟨rfl, _, hreads, ?_, ?_⟩
    · rw [Document.beforeSection, hcovered]
      exact List.take_length
    · rw [Document.behindSection, hcovered]
      exact List.drop_length

/-! ## The bookmarks -/

theorem bookmarks_of_createBookmark {name : String} {r : TextRange}
    (h : (createBookmark name r).run d = (.ok (), d')) :
    d'.bookmarks = d.bookmarks.put name r := by
  obtain ⟨rest, -, h⟩ := run_call_eq_ok_iff.mp h
  obtain ⟨cells, -, -, haround⟩ | ⟨reason, haround⟩ :=
    Document.cellsAround_eq_ok_or { d with connection := rest } r
  · rw [haround] at h
    by_cases htaken : (d.bookmarks.get? name).isSome = true
    · simp only [htaken] at h
      cases h
    · simp only [htaken] at h
      cases h
      rfl
  · rw [haround] at h
    cases h

/-- **Writing a bibliography rewrites its section** and nothing else of the text. -/
theorem writeBibliography_rewrites (b : Bibliography) (preferences : Preferences)
    (h : (writeBibliography b preferences).run d = (.ok (), d')) :
    ∃ new, b.IsText preferences.alwaysAddCitedOnPages new ∧ d.RewritesSection new d' := by
  obtain ⟨whole, d₁, hsection, h⟩ := run_bind_eq_ok_iff.mp h
  obtain ⟨_, d₂, hchecked, h⟩ := run_bind_eq_ok_iff.mp h
  obtain ⟨deleted, d₃, hdeleted, h⟩ := run_bind_eq_ok_iff.mp h
  obtain ⟨title, d₄, htitle, h⟩ := run_bind_eq_ok_iff.mp h
  obtain ⟨_, d₅, hstyled, h⟩ := run_bind_eq_ok_iff.mp h
  obtain ⟨stop, d₆, hentries, h⟩ := run_bind_eq_ok_iff.mp h
  obtain ⟨_, d₇, hremoved, h⟩ := run_bind_eq_ok_iff.mp h
  obtain ⟨_, d₈, hremoved', h⟩ := run_bind_eq_ok_iff.mp h
  obtain ⟨_, d₉, hcreated, hcreated'⟩ := run_bind_eq_ok_iff.mp h
  -- the former section is deleted
  obtain ⟨hflow, text, hreads, hbefore, hbehind⟩ :=
    (triple_bibliographySection d).of_ok (SameDocument.refl d) hsection
  have hreads : Reads d text d₂ :=
    (keeps_checkNoMarkInside (C := readsAs d text) whole).of_ok hreads hchecked
  obtain ⟨-, hinside, hreads⟩ := (triple_reads_replace hflow "").of_ok hreads hdeleted
  have hstart : whole.start = d.beforeSection.length := by
    rw [← hbefore, List.length_take_of_le (Nat.le_trans whole.start_le_stop hinside)]
  have hreads : Reads d (d.beforeSection ++ d.behindSection) d₃ := by
    rwa [hbefore, hbehind, String.toList_empty, List.append_nil] at hreads
  -- the new one is typed
  obtain ⟨s, rfl, hstop, hreads⟩ :=
    (appends_writeMarkup hstart b.title _).of_ok hreads htitle
  have hreads := (keeps_readsAs_setParagraphStyle title b.headerFormat).of_ok hreads hstyled
  obtain ⟨t, ht, hstop, hreads⟩ :=
    (appends_foldlM_writeEntry _ _ b.entries hstop _).of_ok hreads hentries
  -- the bookmarks are set
  have hreads := (keeps_readsAs_removeBookmark _).of_ok hreads hremoved
  have hreads := (keeps_readsAs_removeBookmark _).of_ok hreads hremoved'
  have hreads := (keeps_readsAs_createBookmark _ _).of_ok hreads hcreated
  have hreads : Reads d _ d' := (keeps_readsAs_createBookmark _ _).of_ok hreads hcreated'
  have htable := bookmarks_of_createBookmark hcreated
  have htable' := bookmarks_of_createBookmark hcreated'
  have hends : stop = (d.beforeSection ++ (Markup.plainChars b.title.toList ++ t)).length := by
    rw [← List.append_assoc]
    exact hstop
  refine ⟨_, ⟨t, ht, rfl⟩, ?_, hreads.chars_footnotes, ?_, ?_⟩
  · rw [hreads.chars_body]
    simp only [List.append_assoc]
  · rw [htable', Keyed.get?_put, if_neg (by decide), htable, Keyed.get?_put, if_pos rfl, hstart,
      hends]
  · rw [htable', Keyed.get?_put, if_pos rfl, hends]

/-- A paper with a bibliography, and notes behind it. -/
def listedPaper : Document :=
  { Document.ofPlain "As in [1].\nReferences\n[1] A\n\nNotes" ["See [1]."]
      [("JR_cite_1_1_a", .inBody 6 9)] with
    bookmarks := [(MarkName.bibliographyBookmark, .inBody 11 27),
      (MarkName.bibliographyEndBookmark, .collapsed .body 27)] }

/-- A bibliography with a reference that was found and one that was not. -/
def updatedBibliography : Bibliography :=
  { title := "Sources"
    headerFormat := "Heading 1"
    paragraphFormat := "Text body"
    entries := [{ markup := "[1] <i>A</i>", citedIn := ["JR_cite_1_1_a"] },
      { markup := "[2] unknown", isResolved := false,
        citedIn := ["JR_cite_1_1_a", "JR_cite_2_1_b"] }] }

theorem writeBibliography_rewrites_listedPaper :
    ∃ d', (writeBibliography updatedBibliography {}).run listedPaper = (.ok (), d') ∧
      ∃ new, updatedBibliography.IsText false new ∧ listedPaper.RewritesSection new d' := by
  have hrun : (writeBibliography updatedBibliography {}).run listedPaper =
      (.ok (), ((writeBibliography updatedBibliography {}).run listedPaper).2) :=
    eq_ok_of_toOption (by decide +kernel)
  exact ⟨_, hrun, writeBibliography_rewrites updatedBibliography {} hrun⟩

example : Cells.text ((writeBibliography updatedBibliography {}).run listedPaper).2.body =
    "As in [1].\nSources\n[1] A\n[2] unknown (Cited on pages: 1, ?)\n\nNotes" := by
  decide +kernel

end DocumentM

end DocCite
