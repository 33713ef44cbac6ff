import DocCite.Proofs.Document.WellFormed

/-!
# Text with marks

For what an action writes, the characters of each flow and the ranges of the marks are enough:
formats and styles of characters make no difference to it. A `MarkedText` holds just these, and an
action `Makes` one out of another where its result and the text it leaves are known, and only a
breaking connection can stop it.
-/

namespace DocCite

/-- The text of all flows, with the marks in it. -/
structure MarkedText where
  text : Flow → Option (List Char)
  marks : Keyed String TextRange

namespace MarkedText

/-- A range lies inside the text. -/
def Inside (v : MarkedText) (r : TextRange) : Prop :=
  ∃ s, v.text r.flow = some s ∧ r.stop ≤ s.length

/-- The text under a range, if it is there. -/
def under? (v : MarkedText) (r : TextRange) : Option (List Char) :=
  (v.text r.flow).map fun s => (s.take r.stop).drop r.start

/-- The text with the part under a range replaced; all marks move along. -/
def replace (v : MarkedText) (r : TextRange) (new : List Char) : MarkedText where
  text flow :=
    if flow = r.flow then (v.text flow).map fun s => s.take r.start ++ new ++ s.drop r.stop
    else v.text flow
  marks := v.marks.map fun m => (m.1, m.2.afterReplacing .mark r new)

@[ext] theorem ext' {v w : MarkedText} (text : ∀ flow, v.text flow = w.text flow)
    (marks : v.marks = w.marks) : v = w := by
  cases v; cases w
  congr
  exact funext text

end MarkedText

namespace Document

/-- What a document shows: its text and its marks. -/
def markedText (d : Document) : MarkedText := ⟨fun flow => (d.cells? flow).map Cells.chars, d.marks⟩

variable {d : Document}

theorem inside_markedText_iff {r : TextRange} : d.markedText.Inside r ↔ d.Inside r := by
  constructor
  · rintro ⟨s, hs, hstop⟩
    obtain ⟨cells, hcells, rfl⟩ := Option.map_eq_some_iff.mp hs
    exact ⟨cells, hcells, by simpa [Cells.chars] using hstop⟩
  · rintro ⟨cells, hcells, hstop⟩
    exact ⟨Cells.chars cells, congrArg (Option.map Cells.chars) hcells,
      by simpa [Cells.chars] using hstop⟩

theorem chars_typedOver (cells : List Cell) (r : TextRange) (new : List Char) :
    Cells.chars (typedOver cells r new) =
      (Cells.chars cells).take r.start ++ new ++ (Cells.chars cells).drop r.stop := by
  have htyped : (Cells.typed (Cells.cut cells r.start r.stop) r.start new).map Cell.char = new := by
    rw [Cells.typed, List.map_map]
    exact List.map_id new
  simp only [Cells.chars, typedOver, List.map_append, List.map_take, List.map_drop, htyped]

theorem markedText_replaceText (d : Document) (r : TextRange) (new : String) :
    (d.replaceText r new).markedText = d.markedText.replace r new.toList := by
  refine MarkedText.ext' (fun flow => ?_) (marks_replaceText d r new)
  simp only [markedText, MarkedText.replace, cells?_replaceText]
  split_ifs
  · cases d.cells? flow with
    | none => rfl
    | some cells => exact congrArg some (chars_typedOver cells r new.toList)
  · rfl

theorem markedText_modifyCells (d : Document) (r : TextRange) {f : Cell → Cell}
    (hf : ∀ c, (f c).char = c.char) : (d.modifyCells r f).markedText = d.markedText := by
  have hchars (cells : List Cell) :
      Cells.chars (Cells.modify f cells r.start r.stop) = Cells.chars cells := by
    have hmap (part : List Cell) : (part.map f).map Cell.char = part.map Cell.char := by
      rw [List.map_map]
      exact List.map_congr_left fun c _ => hf c
    have hid := Cells.modify_id cells r.start_le_stop
    simp only [Cells.modify, List.map_id] at hid
    simp only [Cells.chars, Cells.modify, List.map_append, hmap]
    rw [← List.map_append, ← List.map_append, hid]
  refine MarkedText.ext' (fun flow => ?_) (by rw [markedText, modifyCells_eq]; rfl)
  simp only [markedText, cells?_modifyCells]
  split_ifs
  · cases d.cells? flow with
    | none => rfl
    | some cells => exact congrArg some (hchars cells)
  · rfl

end Document

/-- **A document shows a text** and has kept the properties and the styles of another one. -/
structure Shows (d₀ : Document) (v : MarkedText) (d : Document) : Prop where
  markedText : d.markedText = v
  properties : d.properties = d₀.properties
  characterStyles : d.characterStyles = d₀.characterStyles
  steady : d₀.connection = .steady ↔ d.connection = .steady

theorem shows_self (d : Document) : Shows d d.markedText d := ⟨rfl, rfl, rfl, Iff.rfl⟩

theorem Shows.of_same {d₀ d d' : Document} {v : MarkedText} (h : SameDocument d d')
    (hd : Shows d₀ v d) : Shows d₀ v d' := by
  have htext : d'.markedText = d.markedText :=
    MarkedText.ext' (fun flow => congrArg (Option.map Cells.chars) (h.cells? flow).symm)
      h.marks.symm
  exact ⟨htext.trans hd.markedText, h.properties.symm.trans hd.properties,
    h.characterStyles.symm.trans hd.characterStyles, hd.steady.trans h.steady⟩

/-- The marks of a document are those that it shows. -/
theorem Shows.get?_marks {d₀ d : Document} {v : MarkedText} (hd : Shows d₀ v d) (name : String) :
    d.marks.get? name = v.marks.get? name := by
  rw [← hd.markedText]
  rfl

/-- The contract that a document shows a text. -/
def showing (d₀ : Document) (v : MarkedText) : Contract where
  Holds := Shows d₀ v
  Fails _ _ := True
  holds_of_step h hd := hd.of_same h.toSameDocument
  fails_of_same _ _ := trivial
  fails_of_internal _ _ := trivial

/-- What changes formats and styles only cannot be seen. -/
theorem Shows.modifyCells {d₀ d : Document} {v : MarkedText} (hd : Shows d₀ v d) (r : TextRange)
    {f : Cell → Cell} (hf : ∀ c, (f c).char = c.char) : Shows d₀ v (d.modifyCells r f) := by
  refine ⟨?_, ?_, ?_, ?_⟩
  · rw [Document.markedText_modifyCells d r hf, hd.markedText]
  · rw [Document.modifyCells_eq]
    exact hd.properties
  · rw [Document.modifyCells_eq]
    exact hd.characterStyles
  · rw [Document.modifyCells_eq]
    exact hd.steady

/-- Text that is replaced is shown replaced. -/
theorem Shows.replaceText {d₀ d : Document} {v : MarkedText} (hd : Shows d₀ v d) (r : TextRange)
    (new : String) : Shows d₀ (v.replace r new.toList) (d.replaceText r new) := by
  refine ⟨?_, ?_, ?_, ?_⟩
  · rw [Document.markedText_replaceText, hd.markedText]
  · rw [Document.replaceText_eq]
    exact hd.properties
  · rw [Document.replaceText_eq]
    exact hd.characterStyles
  · rw [Document.replaceText_eq]
    exact hd.steady

/-- **What an action makes of a text**: its result and the text after it are certain, and only a
breaking connection can stop it. -/
def Makes (d₀ : Document) (v : MarkedText) {α : Type} (x : DocumentM α) (a : α)
    (v' : MarkedText) : Prop :=
  DocumentM.Triple (Shows d₀ v) x (fun b d => b = a ∧ Shows d₀ v' d) fun e _ => d₀.Breaks e

namespace Makes

open DocumentM

variable {o : Document} {v v' v'' : MarkedText} {α β : Type}

theorem pure (a : α) : Makes o v (Pure.pure a) a v := Triple.pure fun _ hd => ⟨rfl, hd⟩

theorem bind {x : DocumentM α} {f : α → DocumentM β} {a : α} {b : β} (hx : Makes o v x a v')
    (hf : Makes o v' (f a) b v'') : Makes o v (x >>= f) b v'' := by
  refine Triple.bind hx fun a' => .assume fun ha => ?_
  rw [ha]
  exact hf

/-- What an action makes, together with a contract that it keeps. -/
theorem keeping {C : Contract} {x : DocumentM α} {a : α} (h : Makes o v x a v')
    (hkeeps : Keeps C x) :
    Triple (fun d => Shows o v d ∧ C.Holds d) x (fun b d => b = a ∧ Shows o v' d ∧ C.Holds d)
      fun e _ => o.Breaks e :=
  (Triple.and h hkeeps).weaken (fun _ hd => hd) (fun _ _ hd => ⟨hd.1.1, hd.1.2, hd.2⟩)
    fun _ _ he => he.1

/-- A call that gets through does what it says. -/
theorem call {f : Document → Except DocumentError (α × Document)} {a : α}
    (h : ∀ d, Shows o v d → ∃ d', f d = .ok (a, d') ∧ Shows o v' d') :
    Makes o v (call f) a v' := by
  refine Triple.call (fun d c hc hd => hd.of_same (sameDocument_connection hc)) (fun d hd => ?_)
    fun d hbroken hd => ⟨rfl, fun h => hbroken (hd.steady.mp h)⟩
  obtain ⟨d', hrun, hd'⟩ := h d hd
  rw [hrun]
  exact ⟨rfl, hd'⟩

theorem look {f : Document → Except DocumentError α} {a : α}
    (h : ∀ d, Shows o v d → f d = .ok a) : Makes o v (look f) a v :=
  call fun d hd => ⟨d, by rw [h d hd]; rfl, hd⟩

theorem see {f : Document → α} {a : α} (h : ∀ d, Shows o v d → f d = a) :
    Makes o v (see f) a v :=
  look fun d hd => congrArg Except.ok (h d hd)

/-- A call that checks a range inside the text goes on from there. -/
theorem call_around {r : TextRange} {f : Document → α × Document} {a : α} (hr : v.Inside r)
    (h : ∀ d, Shows o v d → (f d).1 = a ∧ Shows o v' (f d).2) :
    Makes o v (DocumentM.call fun d => do
      let _ ← d.cellsAround r
      return f d) a v' := by
  refine call fun d hd => ⟨(f d).2, ?_, (h d hd).2⟩
  have hinside : d.Inside r := by
    rw [← Document.inside_markedText_iff, hd.markedText]
    exact hr
  obtain ⟨cells, hcells, hstop⟩ := hinside
  rw [Document.cellsAround_of_le hcells hstop, ← (h d hd).1]
  rfl

theorem replace {r : TextRange} (hr : v.Inside r) (new : String) :
    Makes o v (replace r new) (Document.typedRange r new) (v.replace r new.toList) :=
  call_around hr fun _ hd => ⟨rfl, hd.replaceText r new⟩

theorem modifyCells {r : TextRange} (hr : v.Inside r) {f : Cell → Cell}
    (hf : ∀ c, (f c).char = c.char) : Makes o v (modifyCells r f) () v :=
  call_around hr fun _ hd => ⟨rfl, hd.modifyCells r hf⟩

theorem groupRange {id : String} {r : TextRange} (h : v.marks.get? id = some r) :
    Makes o v (groupRange id) r v := by
  refine bind (a := some r) (see fun d hd => ?_) (pure r)
  rw [← h, ← hd.markedText]
  rfl

theorem text {r : TextRange} {s : List Char} (hr : v.Inside r) (h : v.under? r = some s) :
    Makes o v (text r) (String.ofList s) v := by
  refine look fun d hd => ?_
  have hunder : d.markedText.under? r = some s := hd.markedText ▸ h
  have hinside : d.Inside r := by
    rw [← Document.inside_markedText_iff, hd.markedText]
    exact hr
  obtain ⟨cells, hcells, hstop⟩ := hinside
  rw [Document.textUnder, Document.cellsAround_of_le hcells hstop]
  simp only [Document.markedText, MarkedText.under?, hcells, Option.map_some,
    Option.some.injEq] at hunder
  rw [← hunder, Cells.chars, ← List.map_take, ← List.map_drop]
  rfl

end Makes

end DocCite
