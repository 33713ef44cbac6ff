import DocCite.Proofs.Document.Rewriting
import DocCite.Proofs.Document.Standing

/-!
# Documents written alongside

Two documents that read the same and are laid out the same show the same pages. So the text of a
bibliography comes out the same in both, page fields included, when it is typed at the same place
(`agree_writeSection`).
-/

namespace DocCite

namespace MarkedText

variable {v w : MarkedText}

/-- The same replacement leaves texts alike. -/
theorem Alike.replace (h : v.Alike w) (r : TextRange) (s : List Char) :
    (v.replace r s).Alike (w.replace r s) where
  text := by simp only [MarkedText.replace, h.text]
  marks name := by rw [get?_replace, get?_replace, h.marks]

end MarkedText

namespace Cells

/-- The layout depends on the characters only. -/
theorem lineAndColumn_eq_of_chars (width : Nat) {cells cells' : List Cell}
    (h : chars cells = chars cells') : lineAndColumn width cells = lineAndColumn width cells' := by
  have hchars (cells : List Cell) : lineAndColumn width cells =
      (chars cells).foldl (fun place c => advance width place { char := c }) (0, 0) := by
    rw [lineAndColumn, chars, List.foldl_map]
    rfl
  rw [hchars, hchars, h]

end Cells

/-- **A document looks like another one**: the same text with the same marks, the same anchors, and
laid out the same. -/
structure LooksLike (d₀ d : Document) : Prop where
  markedText : d.markedText = d₀.markedText
  anchors : d.anchors = d₀.anchors
  lineWidth : d.lineWidth = d₀.lineWidth
  linesPerPage : d.linesPerPage = d₀.linesPerPage

variable {d₀ d d' e e' : Document}

theorem LooksLike.of_same (h : LooksLike d₀ d) (hsame : SameDocument d d') : LooksLike d₀ d' where
  markedText := ((shows_self d).of_same hsame).markedText.trans h.markedText
  anchors := by rw [← h.anchors, Document.anchors, Document.anchors, hsame.body]
  lineWidth := hsame.lineWidth.symm.trans h.lineWidth
  linesPerPage := hsame.linesPerPage.symm.trans h.linesPerPage

theorem LooksLike.modifyCells (h : LooksLike d₀ d) (r : TextRange) {f : Cell → Cell}
    (hchar : ∀ c, (f c).char = c.char) (hrole : ∀ c, (f c).role = c.role) :
    LooksLike d₀ (d.modifyCells r f) where
  markedText := (Document.markedText_modifyCells d r hchar).trans h.markedText
  anchors := by
    rw [Document.anchors_modifyCells d r fun c => by rw [Cell.letter, Cell.letter, hrole c],
      h.anchors]
  lineWidth := by
    rw [Document.modifyCells_eq]
    exact h.lineWidth
  linesPerPage := by
    rw [Document.modifyCells_eq]
    exact h.linesPerPage

/-- **Documents go alongside each other** while text is typed into them from one place to another:
they read the same, with the same anchors around the text and none in it, and are laid out the
same. -/
structure Alongside (anchors : List (Option Nat)) (p q : Nat) (d e : Document) : Prop where
  alike : d.markedText.Alike e.markedText
  left : d.anchors = anchorsFilled anchors (.collapsed .body p) (q - p)
  right : e.anchors = anchorsFilled anchors (.collapsed .body p) (q - p)
  lineWidth : d.lineWidth = e.lineWidth
  linesPerPage : d.linesPerPage = e.linesPerPage
  inside : p ≤ anchors.length
  le : p ≤ q

namespace Alongside

variable {anchors : List (Option Nat)} {p q : Nat}

theorem of_looks (h : Alongside anchors p q d e) (hd : LooksLike d d') (he : LooksLike e e') :
    Alongside anchors p q d' e' where
  alike := by
    rw [hd.markedText, he.markedText]
    exact h.alike
  left := hd.anchors.trans h.left
  right := he.anchors.trans h.right
  lineWidth := hd.lineWidth.trans (h.lineWidth.trans he.lineWidth.symm)
  linesPerPage := hd.linesPerPage.trans (h.linesPerPage.trans he.linesPerPage.symm)
  inside := h.inside
  le := h.le

/-- A page is the same in both documents. -/
theorem page?_eq (h : Alongside anchors p q d e) (r : TextRange) : d.page? r = e.page? r := by
  have hchars : Cells.chars d.body = Cells.chars e.body :=
    Option.some.inj (congrFun h.alike.text .body)
  have hplace (place : Nat) : d.bodyPosition place = e.bodyPosition place := by
    rw [Document.bodyPosition, Document.bodyPosition, h.lineWidth]
    refine Cells.lineAndColumn_eq_of_chars _ ?_
    rw [Cells.chars, Cells.chars, List.map_take, List.map_take]
    exact congrArg (List.take place) hchars
  have hanchor (d : Document) (n : Nat) :
      d.anchorPlace? n = d.anchors.findIdx? fun a => a == some n := by
    rw [Document.anchorPlace?, Document.anchors, List.findIdx?_map]
    refine congrArg (List.findIdx? · d.body) (funext fun c => ?_)
    rw [Bool.eq_iff_iff, beq_iff_eq, Function.comp_apply, beq_iff_eq,
      Cell.footnote_letter_eq_some_iff]
  have hanchors (n : Nat) : d.anchorPlace? n = e.anchorPlace? n := by
    rw [hanchor, hanchor, h.left, h.right]
  unfold Document.page?
  simp only [hplace, hanchors, h.linesPerPage]

/-- **Text that is typed** into both documents where they have come to takes them further. -/
theorem replaceText (h : Alongside anchors p q d e) (new : String) :
    Alongside anchors p (q + new.length) (d.replaceText (.collapsed .body q) new)
      (e.replaceText (.collapsed .body q) new) := by
  have hle := h.le
  have hplace : TextRange.collapsed .body q =
      .new (TextRange.collapsed .body p).flow ((TextRange.collapsed .body p).start + (q - p))
        ((TextRange.collapsed .body p).start + (q - p)) := by
    rw [TextRange.start_collapsed, Nat.add_sub_cancel' hle, TextRange.collapsed_eq_new]
    rfl
  have htyped (d : Document) (hd : d.anchors = anchorsFilled anchors (.collapsed .body p) (q - p)) :
      (d.replaceText (.collapsed .body q) new).anchors =
        anchorsFilled anchors (.collapsed .body p) (q + new.length - p) := by
    rw [Document.anchors_replaceText, hd, hplace,
      anchorsFilled_anchorsFilled (fun _ => h.inside) (Nat.le_refl _) (Nat.le_refl _),
      String.length_toList, Nat.sub_self, Nat.add_zero, Nat.sub_add_comm hle]
  refine ⟨?_, htyped d h.left, htyped e h.right, ?_, ?_, h.inside, by omega⟩
  · rw [Document.markedText_replaceText, Document.markedText_replaceText]
    exact h.alike.replace _ _
  · rw [d.replaceText_eq, e.replaceText_eq]
    exact h.lineWidth
  · rw [d.replaceText_eq, e.replaceText_eq]
    exact h.linesPerPage

/-- **A field that is typed** into both documents takes them as far as the text that it shows. -/
theorem insertField (h : Alongside anchors p q d e) (new : String) {f : Cell → Cell}
    (hchar : ∀ c, (f c).char = c.char) (hnone : ∀ c, (f c).letter.footnote = none) :
    Alongside anchors p (q + new.length)
      ((d.replaceText (.collapsed .body q) new).modifyCells
        (Document.typedRange (.collapsed .body q) new) f)
      ((e.replaceText (.collapsed .body q) new).modifyCells
        (Document.typedRange (.collapsed .body q) new) f) := by
  have hle := h.le
  have htyped := h.replaceText new
  have hplace : Document.typedRange (.collapsed .body q) new =
      .new (TextRange.collapsed .body p).flow ((TextRange.collapsed .body p).start + (q - p))
        ((TextRange.collapsed .body p).start + (q + new.length - p)) := by
    rw [Document.typedRange, TextRange.start_collapsed, TextRange.start_collapsed,
      Nat.add_sub_cancel' hle, Nat.add_sub_cancel' (by omega)]
    rfl
  have hstart : (Document.typedRange (.collapsed .body q) new).start = q :=
    Nat.min_eq_left (Nat.le_add_right _ _)
  have hstop : (Document.typedRange (.collapsed .body q) new).stop = q + new.length :=
    Nat.max_eq_right (Nat.le_add_right _ _)
  have hfield (d : Document)
      (hd : d.anchors = anchorsFilled anchors (.collapsed .body p) (q + new.length - p)) :
      (d.modifyCells (Document.typedRange (.collapsed .body q) new) f).anchors =
        anchorsFilled anchors (.collapsed .body p) (q + new.length - p) := by
    have hlength : d.body.length = anchors.length + (q + new.length - p) := by
      have hanchors := congrArg List.length hd
      have hin := h.inside
      simp only [Document.anchors, anchorsFilled, TextRange.flow_collapsed, if_true,
        List.length_map, List.length_append, List.length_replicate, TextRange.start_collapsed,
        TextRange.stop_collapsed, List.length_take, List.length_drop] at hanchors
      omega
    have hin := h.inside
    rw [Document.anchors_modifyCells_of_none d hnone fun _ => by rw [hstop]; omega, hd,
      TextRange.length, hstop, hstart, hplace,
      anchorsFilled_anchorsFilled (fun _ => h.inside) (by omega) (Nat.le_refl _)]
    congr 1
    omega
  refine ⟨?_, hfield _ htyped.left, hfield _ htyped.right, ?_, ?_, h.inside, htyped.le⟩
  · rw [Document.markedText_modifyCells _ _ hchar, Document.markedText_modifyCells _ _ hchar]
    exact htyped.alike
  · rw [Document.modifyCells_eq, Document.modifyCells_eq]
    exact htyped.lineWidth
  · rw [Document.modifyCells_eq, Document.modifyCells_eq]
    exact htyped.linesPerPage

end Alongside

namespace DocumentM

variable {α β : Type} {anchors : List (Option Nat)} {p q : Nat}

/-- The contract that a document looks like another one. -/
def looking (d₀ : Document) : Contract where
  Holds := LooksLike d₀
  Fails _ _ := True
  holds_of_step h hd := hd.of_same h.toSameDocument
  fails_of_same _ _ := trivial
  fails_of_internal _ _ := trivial

/-- **An action agrees on two documents**: where it succeeds on documents alongside each other, its
results are the same, and the documents go on alongside up to a place that it tells. -/
def Agrees (anchors : List (Option Nat)) (p q : Nat) (x : DocumentM α) (stop : α → Nat) : Prop :=
  ∀ d e a b d' e', Alongside anchors p q d e → x.run d = (.ok a, d') → x.run e = (.ok b, e') →
    a = b ∧ Alongside anchors p (stop a) d' e'

namespace Agrees

theorem pure {a : α} {stop : α → Nat} (h : stop a = q) :
    Agrees anchors p q (Pure.pure a) stop := by
  rintro d e _ _ _ _ halong ⟨⟩ ⟨⟩
  exact ⟨rfl, h ▸ halong⟩

theorem bind {x : DocumentM α} {f : α → DocumentM β} {stop : α → Nat} {stop' : β → Nat}
    (hx : Agrees anchors p q x stop) (hf : ∀ a, Agrees anchors p (stop a) (f a) stop') :
    Agrees anchors p q (x >>= f) stop' := by
  intro d e b b' d'' e'' halong hd he
  obtain ⟨a, d', hd, hd'⟩ := run_bind_eq_ok_iff.mp hd
  obtain ⟨a', e', he, he'⟩ := run_bind_eq_ok_iff.mp he
  obtain ⟨rfl, halong'⟩ := hx d e a a' d' e' halong hd he
  exact hf a d' e' b b' d'' e'' halong' hd' he'

/-- What changes nothing that can be seen. -/
theorem of_keeps {x : DocumentM Unit} (h : ∀ d₀, Keeps (looking d₀) x) :
    Agrees anchors p q x fun _ => q := by
  intro d e _ _ d' e' halong hd he
  exact ⟨rfl, halong.of_looks ((h d).of_ok ⟨rfl, rfl, rfl, rfl⟩ hd)
    ((h e).of_ok ⟨rfl, rfl, rfl, rfl⟩ he)⟩

/-- A call that checks a range and changes the document from there. -/
theorem call_around {r : TextRange} {f : Document → α × Document} {stop : α → Nat}
    (h : ∀ d e, Alongside anchors p q d e →
      (f d).1 = (f e).1 ∧ Alongside anchors p (stop (f d).1) (f d).2 (f e).2) :
    Agrees anchors p q (call fun d => do
      let _ ← d.cellsAround r
      return f d) stop := by
  intro d e a b d' e' halong hd he
  obtain ⟨rest, -, hd⟩ := run_call_eq_ok_iff.mp hd
  obtain ⟨rest', -, he⟩ := run_call_eq_ok_iff.mp he
  have hrest : Alongside anchors p q { d with connection := rest }
      { e with connection := rest' } :=
    ⟨halong.alike, halong.left, halong.right, halong.lineWidth, halong.linesPerPage,
      halong.inside, halong.le⟩
  have hgo {d d' : Document} {a : α}
      (hd : (do
        let _ ← d.cellsAround r
        return f d : Except DocumentError (α × Document)) = .ok (a, d')) : f d = (a, d') := by
    cases haround : d.cellsAround r with
    | error reason => rw [haround] at hd; cases hd
    | ok cells => rw [haround] at hd; exact Except.ok.inj hd
  have hafter := h _ _ hrest
  rw [hgo hd, hgo he] at hafter
  exact hafter

end Agrees

theorem agrees_replace (new : String) :
    Agrees anchors p q (replace (.collapsed .body q) new) TextRange.stop := by
  refine Agrees.call_around fun d e halong => ⟨rfl, ?_⟩
  have hstop : (Document.typedRange (.collapsed .body q) new).stop = q + new.length :=
    Nat.max_eq_right (Nat.le_add_right _ _)
  rw [hstop]
  exact halong.replaceText new

theorem keeps_looking_modifyCells (d₀ : Document) (r : TextRange) {f : Cell → Cell}
    (hchar : ∀ c, (f c).char = c.char) (hrole : ∀ c, (f c).role = c.role) :
    Keeps (looking d₀) (modifyCells r f) :=
  keeps_call_around fun _ _ _ _ hd => hd.modifyCells r hchar hrole

theorem keeps_looking_setParagraphStyle (d₀ : Document) (r : TextRange) (style : String) :
    Keeps (looking d₀) (setParagraphStyle r style) :=
  keeps_call_unless (fun _ _ _ => trivial) fun _ _ _ _ hd =>
    hd.modifyCells _ (fun _ => rfl) fun _ => rfl

theorem agrees_typeAt (s : String) : Agrees anchors p q (typeAt q s) id :=
  (agrees_replace s).bind fun _ => .pure rfl

theorem agrees_writeMarkup (markup : String) :
    Agrees anchors p q (writeMarkup (.collapsed .body q) markup) TextRange.stop := by
  unfold writeMarkup
  refine (agrees_replace _).bind fun written => ?_
  split
  · exact .pure rfl
  · refine (Agrees.of_keeps fun d₀ => ?_).bind fun _ => (Agrees.of_keeps fun d₀ => ?_).bind fun _ =>
      .pure rfl
    · exact keeps_looking_modifyCells d₀ written (fun _ => rfl) fun _ => rfl
    · exact keeps_formatRuns
        (fun _ _ => keeps_looking_modifyCells d₀ _ (fun _ => rfl) fun _ => rfl) _ _ _

theorem agrees_insertPageField (mark : String) :
    Agrees anchors p q (insertPageField (.collapsed .body q) mark) TextRange.stop := by
  refine Agrees.call_around fun d e halong => ?_
  have hshown : (d.marks.get? mark).bind d.page? = (e.marks.get? mark).bind e.page? := by
    rw [show d.marks.get? mark = e.marks.get? mark from halong.alike.marks mark]
    exact congrArg _ (funext halong.page?_eq)
  have hstop (shown : String) :
      (Document.typedRange (.collapsed .body q) shown).stop = q + shown.length :=
    Nat.max_eq_right (Nat.le_add_right _ _)
  rw [hshown]
  refine ⟨rfl, ?_⟩
  rw [hstop]
  exact halong.insertField _ (fun _ => rfl) fun _ => rfl

theorem agrees_writePageFields (marks : List String) :
    Agrees anchors p q (writePageFields q marks) id := by
  fun_induction writePageFields q marks with
  | case1 place => exact .pure rfl
  | case2 place mark => exact (agrees_insertPageField mark).bind fun _ => .pure rfl
  | case3 place mark rest _ ih =>
    exact (agrees_insertPageField mark).bind fun field => (agrees_typeAt ", ").bind fun next =>
      ih next

theorem agrees_writeEntry (format : String) (withPages : Bool) (entry : BibliographyEntry) :
    Agrees anchors p q (writeEntry format withPages q entry) id := by
  have hend {start stop : Nat} : Agrees anchors p stop (do
      setParagraphStyle (.inBody start stop) format
      return stop) id :=
    (Agrees.of_keeps fun d₀ => keeps_looking_setParagraphStyle d₀ _ _).bind fun _ => .pure rfl
  refine (agrees_typeAt "\n").bind fun start => (agrees_writeMarkup entry.markup).bind
    fun written => ?_
  simp only
  split
  · exact (agrees_typeAt _).bind fun opened => (agrees_writePageFields entry.citedIn).bind
      fun next => (agrees_typeAt ")").bind fun stop => hend
  · exact hend

theorem agrees_entries (format : String) (withPages : Bool) (entries : List BibliographyEntry) :
    Agrees anchors p q (entries.foldlM (writeEntry format withPages) q) id := by
  induction entries generalizing q with
  | nil => exact .pure rfl
  | cons entry entries ih =>
    rw [List.foldlM_cons]
    exact (agrees_writeEntry format withPages entry).bind fun next => ih

/-- What is left to do when the former text of a bibliography is deleted. -/
def writeSection (b : Bibliography) (preferences : Preferences) (start : Nat) :
    DocumentM Unit := do
  let title ← writeMarkup (.collapsed .body start) b.title
  setParagraphStyle title b.headerFormat
  let stop ← b.entries.foldlM
    (writeEntry b.paragraphFormat preferences.alwaysAddCitedOnPages) title.stop
  removeBookmark MarkName.bibliographyBookmark
  removeBookmark MarkName.bibliographyEndBookmark
  createBookmark MarkName.bibliographyBookmark (.inBody start stop)
  createBookmark MarkName.bibliographyEndBookmark (.collapsed .body stop)

theorem keeps_looking_removeBookmark (d₀ : Document) (name : String) :
    Keeps (looking d₀) (removeBookmark name) := by
  unfold removeBookmark change
  refine .call fun d hd => ?_
  exact LooksLike.mk hd.markedText hd.anchors hd.lineWidth hd.linesPerPage

theorem keeps_looking_createBookmark (d₀ : Document) (name : String) (r : TextRange) :
    Keeps (looking d₀) (createBookmark name r) :=
  keeps_create trivial fun _ _ _ _ _ hd =>
    ⟨hd.markedText, hd.anchors, hd.lineWidth, hd.linesPerPage⟩

/-- **A bibliography comes out the same** in documents alongside each other. -/
theorem agree_writeSection {b : Bibliography} {preferences : Preferences}
    (halong : Alongside anchors p p d e)
    (hd : (writeSection b preferences p).run d = (.ok (), d'))
    (he : (writeSection b preferences p).run e = (.ok (), e')) :
    ∃ stop, Alongside anchors p stop d' e' := by
  have hset (start stop : Nat) : Agrees anchors p stop (do
      removeBookmark MarkName.bibliographyBookmark
      removeBookmark MarkName.bibliographyEndBookmark
      createBookmark MarkName.bibliographyBookmark (.inBody start stop)
      createBookmark MarkName.bibliographyEndBookmark (.collapsed .body stop)) fun _ => stop :=
    (Agrees.of_keeps fun d₀ => keeps_looking_removeBookmark d₀ _).bind fun _ =>
      (Agrees.of_keeps fun d₀ => keeps_looking_removeBookmark d₀ _).bind fun _ =>
      (Agrees.of_keeps fun d₀ => keeps_looking_createBookmark d₀ _ _).bind fun _ =>
      Agrees.of_keeps fun d₀ => keeps_looking_createBookmark d₀ _ _
  obtain ⟨title, d₁, hd₁, hd⟩ := run_bind_eq_ok_iff.mp hd
  obtain ⟨title', e₁, he₁, he⟩ := run_bind_eq_ok_iff.mp he
  obtain ⟨rfl, halong₁⟩ := agrees_writeMarkup b.title _ _ _ _ _ _ halong hd₁ he₁
  obtain ⟨u, d₂, hd₂, hd⟩ := run_bind_eq_ok_iff.mp hd
  obtain ⟨u', e₂, he₂, he⟩ := run_bind_eq_ok_iff.mp he
  obtain ⟨-, halong₂⟩ := (Agrees.of_keeps fun d₀ =>
    keeps_looking_setParagraphStyle d₀ title b.headerFormat) _ _ _ _ _ _ halong₁ hd₂ he₂
  obtain ⟨stop, d₃, hd₃, hd⟩ := run_bind_eq_ok_iff.mp hd
  obtain ⟨stop', e₃, he₃, he⟩ := run_bind_eq_ok_iff.mp he
  obtain ⟨rfl, halong₃⟩ := agrees_entries _ _ _ _ _ _ _ _ _ halong₂ hd₃ he₃
  exact ⟨stop, (hset p stop _ _ _ _ _ _ halong₃ hd he).2⟩

end DocumentM

end DocCite
