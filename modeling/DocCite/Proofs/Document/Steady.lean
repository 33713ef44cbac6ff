import DocCite.Document.Refresh
import DocCite.Proofs.Document.Logic

/-!
# Runs over a connection that lasts

An action that succeeds over a connection that could have broken gives the same over one that
cannot break (`Lasts`). What an action tells of a document can therefore be stated over such a
connection.
-/

namespace DocCite

/-- The document over a connection that does not break. -/
def Document.steady (d : Document) : Document := { d with connection := .steady }

namespace DocumentM

variable {α β γ : Type}

/-- An action that succeeds over any connection gives the same over one that does not break. -/
def Lasts (x : DocumentM α) : Prop :=
  ∀ d a d', x.run d = (.ok a, d') → x.run d.steady = (.ok a, d'.steady)

theorem Lasts.pure (a : α) : Lasts (pure a) := by
  intro d b d' h
  cases h
  rfl

theorem Lasts.throw (e : DocumentError) : Lasts (throw e : DocumentM α) := by
  intro d b d' h
  cases h

theorem Lasts.bind {x : DocumentM α} {f : α → DocumentM β} (hx : Lasts x)
    (hf : ∀ a, Lasts (f a)) : Lasts (x >>= f) := by
  intro d b d'' h
  obtain ⟨a, d', hrun, hrest⟩ := run_bind_eq_ok_iff.mp h
  exact run_bind_eq_ok_iff.mpr ⟨a, d'.steady, hx d a d' hrun, hf a d' b d'' hrest⟩

theorem Lasts.mapM {f : γ → DocumentM α} (hf : ∀ c, Lasts (f c)) (l : List γ) :
    Lasts (l.mapM f) := by
  induction l with
  | nil => exact .pure _
  | cons c l ih =>
    rw [List.mapM_cons]
    exact (hf c).bind fun a => ih.bind fun as => .pure _

/-- A call lasts if what it does has nothing to do with the connection. -/
theorem Lasts.call {f : Document → Except DocumentError (α × Document)}
    (hf : ∀ d c, f { d with connection := c } =
      (f d).map fun r => (r.1, { r.2 with connection := c })) : Lasts (DocumentM.call f) := by
  intro d a d' h
  simp only [DocumentM.call, ExceptT.run] at h
  cases hspend : d.connection.spend? with
  | none =>
    rw [hspend] at h
    cases h
  | some rest =>
    simp only [hspend] at h
    rw [hf] at h
    cases hrun : f d with
    | error e =>
      rw [hrun] at h
      cases h
    | ok r =>
      rw [hrun] at h
      cases h
      have hsteady : f d.steady = .ok (r.1, r.2.steady) := by
        rw [Document.steady, hf, hrun]
        rfl
      rw [run_call_of_steady f rfl, hsteady]
      rfl

theorem Lasts.look {f : Document → Except DocumentError α}
    (hf : ∀ d c, f { d with connection := c } = f d) : Lasts (DocumentM.look f) := by
  refine Lasts.call fun d c => ?_
  rw [hf]
  cases f d <;> rfl

theorem Lasts.see {f : Document → α} (hf : ∀ d c, f { d with connection := c } = f d) :
    Lasts (DocumentM.see f) :=
  .look fun d c => congrArg Except.ok (hf d c)

/-- A call that checks a range first. -/
theorem Lasts.call_around {r : TextRange} {f : Document → α × Document}
    (hf : ∀ d c, f { d with connection := c } = ((f d).1, { (f d).2 with connection := c })) :
    Lasts (DocumentM.call fun d => do
      let _ ← d.cellsAround r
      return f d) := by
  refine Lasts.call fun d c => ?_
  have haround : Document.cellsAround { d with connection := c } r = d.cellsAround r := by
    unfold Document.cellsAround Document.cellsOf
    rcases r.flow with _ | _ | n <;> rfl
  rw [haround, hf]
  cases d.cellsAround r <;> rfl

theorem Lasts.closing {x : DocumentM α} {close : DocumentM Unit} (hx : Lasts x)
    (hclose : Lasts close) : Lasts (DocumentM.closing x close) := by
  intro d a d'' h
  rw [run_closing] at h ⊢
  cases hrun : x.run d with
  | mk outcome d' =>
    cases outcome with
    | error e => rw [hrun] at h; cases h
    | ok b =>
      simp only [hrun] at h
      rw [hx d b d' hrun]
      cases hend : close.run d' with
      | mk closed d₃ =>
        cases closed with
        | error e => simp only [hend] at h; cases h
        | ok u =>
          simp only [hend] at h
          cases h
          simp only [hclose d' u d'' hend]

/-! ## Reading a document -/

theorem lasts_anchorOf? (r : TextRange) : Lasts (anchorOf? r) := by
  unfold anchorOf?
  split
  · exact .pure _
  · exact .see fun _ _ => rfl

theorem lasts_viewPosition (r : TextRange) : Lasts (viewPosition r) := by
  refine .call_around fun d c => ?_
  refine Prod.ext ?_ rfl
  change Document.screenPoint { d with connection := c } r = d.screenPoint r
  unfold Document.screenPoint Document.position Document.page?
  rcases r.flow with _ | _ | n <;> rfl

theorem lasts_requireViewCursor : Lasts requireViewCursor := by
  refine (Lasts.see fun d c => rfl).bind fun cursor => ?_
  cases cursor with
  | some cursor => exact .pure _
  | none =>
    have hrestore : Lasts restoreSelection := .call fun d c => by
      cases hselection : d.selection <;> simp [hselection, Except.map]
    refine hrestore.bind fun restored => ?_
    cases restored with
    | false => exact .throw _
    | true =>
      refine (Lasts.see fun d c => rfl).bind fun cursor => ?_
      cases cursor with
      | some cursor => exact .pure _
      | none => exact .throw _

/-- **The reading order is the same over a connection that lasts.** -/
theorem lasts_readingOrder (items : List (TextRange × α)) : Lasts (readingOrder items) := by
  have hplace (item : TextRange × α) : Lasts (placeItem item) := by
    refine (lasts_anchorOf? _).bind fun anchor => ?_
    cases anchor <;> exact .pure _
  have hsort (part : List (PlacedItem α)) : Lasts (sortByScreen part) :=
    (Lasts.mapM (fun p => (lasts_viewPosition _).bind fun _ => .pure _) part).bind fun _ =>
      .pure _
  have horder : Lasts (orderByScreen items) :=
    (Lasts.mapM hplace items).bind fun placed =>
      (Lasts.mapM hsort _).bind fun _ => .pure _
  unfold readingOrder
  split
  · exact .pure _
  · exact lasts_requireViewCursor.bind fun saved =>
      horder.closing (.call_around fun d c => rfl)

end DocumentM

end DocCite
