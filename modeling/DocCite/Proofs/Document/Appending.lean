import DocCite.Document.BibliographySection
import DocCite.Proofs.Document.Actions
import DocCite.Proofs.Document.MarkedText

/-!
# Text typed piece by piece

An action that writes a longer text types one piece after another into the body, each at the place
where the one before it stops. What was typed so far ends there, and what was behind it still is:
so the pieces come out joined, in the order in which they were typed (`Appends.bind`), whatever
their lengths are. Formats and styles change nothing of what the text reads (`Appends.of_keeps`).
-/

namespace DocCite

/-- **The body reads as given**, and the footnotes as those of another document. -/
structure Reads (d₀ : Document) (text : List Char) (d : Document) : Prop where
  body : d.markedText.text .body = some text
  elsewhere : ∀ flow, flow ≠ .body → d.markedText.text flow = d₀.markedText.text flow

namespace Reads

variable {d₀ d d' : Document} {text : List Char}

theorem self (d : Document) : Reads d (Cells.chars d.body) d := ⟨rfl, fun _ _ => rfl⟩

theorem chars_body (h : Reads d₀ text d) : Cells.chars d.body = text := Option.some.inj h.body

/-- The footnotes have the characters of those of the other document. -/
theorem chars_footnotes (h : Reads d₀ text d) :
    d.footnotes.map Cells.chars = d₀.footnotes.map Cells.chars := by
  refine List.ext_getElem? fun n => ?_
  rw [List.getElem?_map, List.getElem?_map]
  exact h.elsewhere (.footnote (n + 1)) Flow.noConfusion

/-- Documents with the same text read the same. -/
theorem congr (h : Reads d₀ text d) (htext : d'.markedText.text = d.markedText.text) :
    Reads d₀ text d' := by
  refine ⟨?_, fun flow hflow => ?_⟩
  · rw [htext]
    exact h.body
  · rw [htext]
    exact h.elsewhere flow hflow

theorem of_same (h : Reads d₀ text d) (hsame : SameDocument d d') : Reads d₀ text d' :=
  h.congr (congrArg MarkedText.text ((shows_self d).of_same hsame).markedText)

theorem modifyCells (h : Reads d₀ text d) (r : TextRange) {f : Cell → Cell}
    (hf : ∀ c, (f c).char = c.char) : Reads d₀ text (d.modifyCells r f) :=
  h.congr (congrArg MarkedText.text (d.markedText_modifyCells r hf))

/-- What is under a range of the body is replaced. -/
theorem replaceText (h : Reads d₀ text d) {r : TextRange} (hr : r.flow = .body) (new : String) :
    Reads d₀ (text.take r.start ++ new.toList ++ text.drop r.stop) (d.replaceText r new) := by
  refine ⟨?_, fun flow hflow => ?_⟩
  · rw [Document.markedText_replaceText, MarkedText.replace, hr]
    simp only [if_true, h.body, Option.map_some]
  · rw [Document.markedText_replaceText, MarkedText.replace, hr]
    simp only [if_neg hflow]
    exact h.elsewhere flow hflow

end Reads

namespace DocumentM

variable {d₀ : Document} {text before : List Char} {α β : Type}

/-- The contract that the text stays as it reads. Styles may be missing. -/
def readsAs (d₀ : Document) (text : List Char) : Contract where
  Holds := Reads d₀ text
  Fails _ _ := True
  holds_of_step hstep h := h.of_same hstep.toSameDocument
  fails_of_same _ _ := trivial
  fails_of_internal _ _ := trivial

theorem keeps_readsAs_modifyCells (r : TextRange) {f : Cell → Cell}
    (hf : ∀ c, (f c).char = c.char) : Keeps (readsAs d₀ text) (modifyCells r f) :=
  keeps_call_around fun _ _ _ _ h => h.modifyCells r hf

theorem keeps_readsAs_setParagraphStyle (r : TextRange) (style : String) :
    Keeps (readsAs d₀ text) (setParagraphStyle r style) :=
  keeps_call_unless (fun _ _ _ => trivial) fun _ _ _ _ h => h.modifyCells _ fun _ => rfl

theorem keeps_readsAs_removeBookmark (name : String) :
    Keeps (readsAs d₀ text) (removeBookmark name) :=
  keeps_change fun _ h => h.congr rfl

theorem keeps_readsAs_createBookmark (name : String) (r : TextRange) :
    Keeps (readsAs d₀ text) (createBookmark name r) :=
  keeps_create trivial fun _ _ _ _ _ h => h.congr rfl

/-- What is under a range of the body is replaced, if the range is inside the text. -/
theorem triple_reads_replace {r : TextRange} (hr : r.flow = .body) (new : String) :
    Triple (Reads d₀ text) (replace r new)
      (fun written d => written = Document.typedRange r new ∧ r.stop ≤ text.length ∧
        Reads d₀ (text.take r.start ++ new.toList ++ text.drop r.stop) d)
      fun _ _ => True := by
  refine Triple.call (fun d c hc h => h.of_same (sameDocument_connection hc)) (fun d h => ?_)
    fun _ _ _ => trivial
  obtain ⟨cells, hcells, hstop, haround⟩ | ⟨reason, haround⟩ := d.cellsAround_eq_ok_or r
  · rw [haround]
    refine ⟨rfl, ?_, h.replaceText hr new⟩
    rw [hr] at hcells
    cases hcells
    rwa [← h.chars_body, Cells.chars, List.length_map]
  · rw [haround]
    trivial

/-! ## Pieces -/

/-- **An action types a piece** behind `before`: one of which `P` holds. Its result tells where the
piece stops. -/
def Appends (d₀ : Document) (before : List Char) (x : DocumentM α) (stop : α → Nat)
    (P : List Char → Prop) : Prop :=
  ∀ behind, Triple (Reads d₀ (before ++ behind)) x
    (fun a d => ∃ s, P s ∧ stop a = (before ++ s).length ∧ Reads d₀ (before ++ s ++ behind) d)
    fun _ _ => True

namespace Appends

variable {x : DocumentM α} {f : α → DocumentM β} {stop : α → Nat} {stop' : β → Nat}
  {P Q : List Char → Prop}

/-- No text is a piece, too. -/
theorem pure {a : α} (ha : stop a = before.length) :
    Appends d₀ before (Pure.pure a) stop fun s => s = [] := by
  refine fun behind => Triple.pure fun d h => ⟨[], rfl, ?_, ?_⟩
  · rw [ha, List.append_nil]
  · rwa [List.append_nil]

/-- **Pieces are joined.** -/
theorem bind (hx : Appends d₀ before x stop P)
    (hf : ∀ a s, P s → stop a = (before ++ s).length →
      Appends d₀ (before ++ s) (f a) stop' fun t => Q (s ++ t)) :
    Appends d₀ before (x >>= f) stop' Q := by
  intro behind
  -- for the second action, the first piece belongs to what is before its own
  refine (hx behind).bind fun a => .exists fun s => .assume fun hs => .assume fun ha => ?_
  refine (hf a s hs ha behind).weaken (fun _ h => h) (fun b d hd => ?_) fun _ _ _ => trivial
  obtain ⟨t, ht, hb, hreads⟩ := hd
  rw [List.append_assoc before s t] at hb hreads
  exact ⟨s ++ t, ht, hb, hreads⟩

theorem imp (hx : Appends d₀ before x stop P) (hPQ : ∀ s, P s → Q s) :
    Appends d₀ before x stop Q := by
  refine fun behind => (hx behind).weaken (fun _ h => h) (fun a d hd => ?_) fun _ _ _ => trivial
  obtain ⟨s, hs, hd⟩ := hd
  exact ⟨s, hPQ s hs, hd⟩

/-- A piece can be told by another result that stops at the same place. -/
theorem tell {g : α → β} (hx : Appends d₀ before x stop P) (hg : ∀ a, stop' (g a) = stop a) :
    Appends d₀ before (x >>= fun a => Pure.pure (g a)) stop' P := by
  refine hx.bind fun a s hs ha => (pure ((hg a).trans ha)).imp fun t ht => ?_
  rwa [ht, List.append_nil]

/-- What changes nothing of the text comes first. -/
theorem of_keeps (hx : ∀ text, Keeps (readsAs d₀ text) x)
    (hf : ∀ a, Appends d₀ before (f a) stop' P) : Appends d₀ before (x >>= f) stop' P :=
  fun behind => Triple.bind (hx (before ++ behind)) fun a => hf a behind

end Appends

/-- A call that types a piece, at a range that is checked first. -/
theorem appends_call_around {r : TextRange} {f : Document → α × Document} {stop : α → Nat}
    {P : List Char → Prop}
    (h : ∀ d, ∃ s, P s.toList ∧ stop (f d).1 = before.length + s.length ∧
      ∀ text, Reads d₀ text (d.replaceText (.collapsed .body before.length) s) →
        Reads d₀ text (f d).2) :
    Appends d₀ before (DocumentM.call fun d => do
      let _ ← d.cellsAround r
      return f d) stop P := by
  intro behind
  refine Triple.call (fun d c hc hd => hd.of_same (sameDocument_connection hc)) (fun d hd => ?_)
    fun _ _ _ => trivial
  obtain ⟨cells, -, -, haround⟩ | ⟨reason, haround⟩ := d.cellsAround_eq_ok_or r
  · rw [haround]
    obtain ⟨s, hs, hstop, hreads⟩ := h d
    refine ⟨s.toList, hs, ?_, hreads _ ?_⟩
    · rw [List.length_append, String.length_toList]
      exact hstop
    · have htyped := hd.replaceText (r := .collapsed .body before.length) rfl s
      rwa [TextRange.start_collapsed, TextRange.stop_collapsed, List.take_left,
        List.drop_left] at htyped
  · rw [haround]
    trivial

/-- Text typed at the end of what was typed before. -/
theorem appends_replace (s : String) :
    Appends d₀ before (replace (.collapsed .body before.length) s) TextRange.stop
      fun t => t = s.toList :=
  appends_call_around fun _ =>
    ⟨s, rfl, Nat.max_eq_right (Nat.le_add_right _ _), fun _ htyped => htyped⟩

theorem appends_typeAt {place : Nat} (hplace : place = before.length) (s : String) :
    Appends d₀ before (typeAt place s) id fun t => t = s.toList := by
  subst hplace
  exact (appends_replace s).tell fun _ => rfl

/-- **Markup is typed as its plain text**; its formats cannot be read. -/
theorem appends_writeMarkup {place : Nat} (hplace : place = before.length) (markup : String) :
    Appends d₀ before (writeMarkup (.collapsed .body place) markup) TextRange.stop
      fun t => t = Markup.plainChars markup.toList := by
  subst hplace
  have htyped : Appends d₀ before (replace (.collapsed .body before.length)
      (String.join ((Markup.runs markup).map Markup.Run.text))) TextRange.stop
      fun t => t = Markup.plainChars markup.toList :=
    (appends_replace _).imp fun t ht => ht.trans (Markup.join_text_runs markup)
  refine htyped.bind fun written s hs hstop => ?_
  -- whether formats are set or not, nothing more is typed
  have hend : Appends d₀ (before ++ s) (Pure.pure written) TextRange.stop
      fun t => s ++ t = Markup.plainChars markup.toList :=
    (Appends.pure hstop).imp fun t ht => by rw [ht, List.append_nil, hs]
  split
  · exact hend
  · refine .of_keeps (fun _ => keeps_readsAs_modifyCells _ fun _ => rfl) fun _ => ?_
    refine .of_keeps (fun _ => keeps_formatRuns (fun _ _ => ?_) _ _ _) fun _ => hend
    exact keeps_readsAs_modifyCells _ fun _ => rfl

end DocumentM

end DocCite
