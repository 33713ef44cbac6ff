import DocCite.Proofs.Document.Actions
import DocCite.Proofs.Document.Filling

/-!
# What surrounds a range

While the text of a range is written anew, bookmarks beside it and anchors outside of it move along
with the text. A statement about a document `Surrounds` a range if no edit inside of the range can
harm it, so that it is enough to know where the edits are. What an action makes of a text is told
together with such a statement (`MakesWithin`).
-/

namespace DocCite

/-- **A statement surrounds a range** of a text: it does not depend on the session, on marks, nor on
formats and styles, and it goes on to hold when part of what fills the range is replaced. -/
structure Surrounds (I : Document → Prop) (v : MarkedText) (r : TextRange) : Prop where
  of_same : ∀ {d d'}, SameDocument d d' → I d → I d'
  setMarks : ∀ {d} marks, I d → I { d with marks := marks }
  modifyCells : ∀ {d} q {f : Cell → Cell}, (∀ c, (f c).char = c.char) →
    (∀ c, (f c).role = c.role) → I d → I (d.modifyCells q f)
  replaceText : ∀ {d s i j} new, d.markedText.text = v.filled r s → i ≤ j → j ≤ s.length → I d →
    I (d.replaceText (.new r.flow (r.start + i) (r.start + j)) new)

variable {I : Document → Prop} {v w : MarkedText} {r : TextRange}

/-- Every range is surrounded by nothing. -/
theorem Surrounds.nothing (v : MarkedText) (r : TextRange) : Surrounds (fun _ => True) v r where
  of_same _ _ := trivial
  setMarks _ _ := trivial
  modifyCells _ _ _ _ _ := trivial
  replaceText _ _ _ _ _ := trivial

/-- Filling what fills a range comes to filling the range. -/
theorem MarkedText.filled_filled (hr : v.Inside r) {s : List Char} (hw : w.text = v.filled r s)
    (t : List Char) : w.filled (.new r.flow r.start (r.start + s.length)) t = v.filled r t := by
  obtain ⟨text, htext, hstop⟩ := hr
  have hle := r.start_le_stop
  have hbefore : (text.take r.start).length = r.start := List.length_take_of_le (by omega)
  have hlength : (text.take r.start ++ s).length = r.start + s.length := by
    rw [List.length_append, hbefore]
  funext flow
  simp only [filled, hw, TextRange.flow_new, TextRange.start_new, TextRange.stop_new,
    Nat.min_eq_left (Nat.le_add_right _ _), Nat.max_eq_right (Nat.le_add_right _ _)]
  split_ifs with hflow
  · subst hflow
    simp only [htext, Option.map_some, List.drop_left' hlength]
    rw [List.append_assoc _ s, List.take_left' hbefore]
  · rfl

/-- What surrounds a range surrounds it when other text fills it. -/
theorem Surrounds.filled (hI : Surrounds I v r) (hr : v.Inside r) {s : List Char}
    (hw : w.text = v.filled r s) : Surrounds I w (.new r.flow r.start (r.start + s.length)) where
  of_same := hI.of_same
  setMarks := hI.setMarks
  modifyCells := hI.modifyCells
  replaceText new hd hij hj h := by
    rw [MarkedText.filled_filled hr hw] at hd
    rw [TextRange.flow_new, TextRange.start_new, Nat.min_eq_left (Nat.le_add_right _ _)]
    exact hI.replaceText new hd hij hj h

/-- What surrounds a range surrounds the place that is left of it when its text is deleted. -/
theorem Surrounds.deleted (hI : Surrounds I v r) (hr : v.Inside r) (hw : w.text = v.filled r []) :
    Surrounds I w (.collapsed r.flow r.start) := by
  rw [TextRange.collapsed_eq_new]
  exact hI.filled hr hw

/-- The contract that a statement goes on to hold that surrounds a range. -/
def Surrounds.contract (hI : Surrounds I v r) : Contract where
  Holds := I
  Fails _ _ := True
  holds_of_step h hd := hI.of_same h.toSameDocument hd
  fails_of_same _ _ := trivial
  fails_of_internal _ _ := trivial

/-- **What an action makes of a text, and what it keeps around**: its result and the text after it
are certain, a statement that held before holds after it, and only a breaking connection can stop
it. -/
def MakesWithin (I : Document → Prop) (o : Document) (v : MarkedText) {α : Type} (x : DocumentM α)
    (a : α) (v' : MarkedText) : Prop :=
  DocumentM.Triple (fun d => Shows o v d ∧ I d) x (fun b d => b = a ∧ Shows o v' d ∧ I d)
    fun e _ => o.Breaks e

open DocumentM

variable {o : Document} {v' v'' : MarkedText} {α β : Type}

/-- What an action makes, with a contract that it keeps. -/
theorem Makes.within {x : DocumentM α} {a : α} (h : Makes o v x a v') (hI : Surrounds I w r)
    (hkeeps : Keeps hI.contract x) : MakesWithin I o v x a v' :=
  h.keeping hkeeps

namespace MakesWithin

theorem makes {x : DocumentM α} {a : α} (h : MakesWithin (fun _ => True) o v x a v') :
    Makes o v x a v' :=
  Triple.weaken h (fun _ hd => ⟨hd, trivial⟩) (fun _ _ hd => ⟨hd.1, hd.2.1⟩) fun _ _ he => he

theorem pure (a : α) : MakesWithin I o v (Pure.pure a) a v := Triple.pure fun _ hd => ⟨rfl, hd⟩

theorem bind {x : DocumentM α} {f : α → DocumentM β} {a : α} {b : β}
    (hx : MakesWithin I o v x a v') (hf : MakesWithin I o v' (f a) b v'') :
    MakesWithin I o v (x >>= f) b v'' := by
  refine Triple.bind hx fun a' => .assume fun ha => ?_
  rw [ha]
  exact hf

/-- Part of what fills a range is replaced. -/
theorem replace_filled (hI : Surrounds I v r) {s t : List Char} {new : String} {i j : Nat}
    (hr : v.Inside r) (hw : w.text = v.filled r s) (hij : i ≤ j) (hj : j ≤ s.length)
    (hnew : new.toList = t) :
    MakesWithin I o w (DocumentM.replace (.new r.flow (r.start + i) (r.start + j)) new)
      (Document.typedRange (.new r.flow (r.start + i) (r.start + j)) new)
      (w.replace (.new r.flow (r.start + i) (r.start + j)) t) := by
  subst hnew
  refine Triple.call (fun d c hc hd => ?_) (fun d hd => ?_) fun d hbroken hd =>
    ⟨rfl, fun h => hbroken (hd.1.steady.mp h)⟩
  · exact ⟨hd.1.of_same (sameDocument_connection hc), hI.of_same (sameDocument_connection hc) hd.2⟩
  · obtain ⟨cells, hcells, hstop⟩ : d.Inside (.new r.flow (r.start + i) (r.start + j)) := by
      rw [← Document.inside_markedText_iff, hd.1.markedText]
      exact MarkedText.inside_filled hr hw hij hj
    rw [Document.cellsAround_of_le hcells hstop]
    refine ⟨rfl, hd.1.replaceText _ new, hI.replaceText new ?_ hij hj hd.2⟩
    rw [hd.1.markedText, hw]

/-- Text is typed into what fills a range. -/
theorem type_filled (hI : Surrounds I v r) {s t : List Char} {new : String} {i : Nat}
    (hr : v.Inside r) (hw : w.text = v.filled r s) (hi : i ≤ s.length) (hnew : new.toList = t) :
    MakesWithin I o w (DocumentM.replace (.collapsed r.flow (r.start + i)) new)
      (Document.typedRange (.collapsed r.flow (r.start + i)) new)
      (w.replace (.collapsed r.flow (r.start + i)) t) := by
  rw [TextRange.collapsed_eq_new]
  exact replace_filled hI hr hw (Nat.le_refl i) hi hnew

end MakesWithin

namespace Surrounds

variable {α : Type} (hI : Surrounds I v r)
include hI

theorem keeps_createMark (id : String) (q : TextRange) :
    Keeps hI.contract (createMark id q) :=
  keeps_create trivial fun _ _ _ _ _ hd => hI.setMarks _ hd

theorem keeps_removeMark (id : String) : Keeps hI.contract (removeMark id) := by
  refine .call fun d hd => ?_
  cases hname : (d.marks.get? id).isNone with
  | true => exact trivial
  | false => exact hI.setMarks _ hd

theorem keeps_modifyCells (q : TextRange) {f : Cell → Cell} (hchar : ∀ c, (f c).char = c.char)
    (hrole : ∀ c, (f c).role = c.role) : Keeps hI.contract (DocumentM.modifyCells q f) :=
  keeps_call_around fun _ _ _ _ hd => hI.modifyCells q hchar hrole hd

theorem keeps_applyFormat (q : TextRange) (format : TextFormat) :
    Keeps hI.contract (applyFormat q format) :=
  hI.keeps_modifyCells q (fun _ => rfl) fun _ => rfl

theorem keeps_setCharacterStyle (q : TextRange) (style : String) :
    Keeps hI.contract (setCharacterStyle q style) :=
  keeps_call_unless (fun _ _ _ => trivial) fun _ _ _ _ hd =>
    hI.modifyCells q (fun _ => rfl) (fun _ => rfl) hd

end Surrounds

end DocCite
