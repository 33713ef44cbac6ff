import DocCite.Document.Citing
import DocCite.Proofs.Document.Same

/-!
# What runs of actions keep

An action that runs on a document succeeds or fails, and either way leaves a document behind.
A `Triple` says what holds then, and an action is put together from parts whose triples chain. A
`Contract` is the common case of one statement that holds before, between and after all parts.
-/

namespace DocCite

/-- A connection that cannot break stays so, and no other becomes so. -/
theorem Connection.steady_iff_of_spend? {c rest : Connection} (h : c.spend? = some rest) :
    c = .steady ↔ rest = .steady := by
  rcases c with _ | ⟨_ | n⟩ | _ <;> cases h <;> simp

namespace DocumentM

variable {α β : Type}

/-! ## Runs -/

theorem run_bind (x : DocumentM α) (f : α → DocumentM β) (d : Document) :
    (x >>= f).run d =
      match x.run d with
      | (.ok a, d') => (f a).run d'
      | (.error e, d') => (.error e, d') := by
  change (ExceptT.bind x f).run d = _
  simp only [ExceptT.run, ExceptT.bind, ExceptT.mk, bind, StateT.bind]
  cases hx : x d with
  | mk outcome d' => cases outcome <;> rfl

/-- A composed action succeeds when both of its parts do. -/
theorem run_bind_eq_ok_iff {x : DocumentM α} {f : α → DocumentM β} {d d'' : Document} {b : β} :
    (x >>= f).run d = (.ok b, d'') ↔
      ∃ a d', x.run d = (.ok a, d') ∧ (f a).run d' = (.ok b, d'') := by
  rw [run_bind]
  constructor
  · intro h
    cases hx : x.run d with
    | mk outcome d' =>
      rw [hx] at h
      cases outcome with
      | ok a => exact ⟨a, d', rfl, h⟩
      | error e => cases h
  · rintro ⟨a, d', hx, hf⟩
    rw [hx]
    exact hf

/-- A composed action fails where its first failing part does. -/
theorem run_bind_eq_error_iff {x : DocumentM α} {f : α → DocumentM β} {d d'' : Document}
    {e : DocumentError} :
    (x >>= f).run d = (.error e, d'') ↔
      x.run d = (.error e, d'') ∨
        ∃ a d', x.run d = (.ok a, d') ∧ (f a).run d' = (.error e, d'') := by
  rw [run_bind]
  constructor
  · intro h
    cases hx : x.run d with
    | mk outcome d' =>
      rw [hx] at h
      cases outcome with
      | ok a => exact Or.inr ⟨a, d', rfl, h⟩
      | error e' =>
        cases h
        exact Or.inl rfl
  · rintro (hx | ⟨a, d', hx, hf⟩)
    · rw [hx]
    · rw [hx]
      exact hf

/-- A call succeeds when it gets through and does what it says. -/
theorem run_call_eq_ok_iff {f : Document → Except DocumentError (α × Document)} {d d' : Document}
    {a : α} :
    (call f).run d = (.ok a, d') ↔
      ∃ rest, d.connection.spend? = some rest ∧
        f { d with connection := rest } = .ok (a, d') := by
  simp only [call, ExceptT.run]
  constructor
  · intro h
    cases hspend : d.connection.spend? with
    | none =>
      rw [hspend] at h
      cases h
    | some rest =>
      simp only [hspend] at h
      cases hf : f { d with connection := rest } with
      | ok r =>
        rw [hf] at h
        cases h
        exact ⟨rest, rfl, hf⟩
      | error e =>
        rw [hf] at h
        cases h
  · rintro ⟨rest, hspend, hf⟩
    simp only [hspend, hf]

/-- A look that cannot fail by itself succeeds when it gets through. -/
theorem run_see_eq_ok_iff {f : Document → α} {d d' : Document} {a : α} :
    (see f).run d = (.ok a, d') ↔
      ∃ rest, d.connection.spend? = some rest ∧ f { d with connection := rest } = a ∧
        { d with connection := rest } = d' := by
  rw [see, look, run_call_eq_ok_iff]
  refine exists_congr fun rest => and_congr_right fun _ => ?_
  rw [Except.map, Except.ok.injEq, Prod.mk.injEq]

theorem run_liftExcept (outcome : Except DocumentError α) (d : Document) :
    (liftExcept outcome : DocumentM α).run d = (outcome, d) := by
  cases outcome <;> rfl

/-- The closing action runs either way; the error of the first action wins. -/
theorem run_closing (x : DocumentM α) (close : DocumentM Unit) (d : Document) :
    (closing x close).run d =
      match x.run d with
      | (.ok a, d') =>
        match close.run d' with
        | (.ok _, d'') => (.ok a, d'')
        | (.error e, d'') => (.error e, d'')
      | (.error e, d') => (.error e, (close.run d').2) := by
  simp only [closing, run_bind, run_attempt, run_liftExcept]
  cases x.run d with
  | mk outcome d' =>
    cases outcome with
    | error e => rfl
    | ok a =>
      simp only
      cases close.run d' with
      | mk closed d'' => cases closed <;> rfl

/-- A closed action succeeds when it does and the closing one does. -/
theorem run_closing_eq_ok_iff {x : DocumentM α} {close : DocumentM Unit} {d d'' : Document}
    {a : α} :
    (closing x close).run d = (.ok a, d'') ↔
      ∃ d' u, x.run d = (.ok a, d') ∧ close.run d' = (.ok u, d'') := by
  rw [run_closing]
  constructor
  · intro h
    cases hx : x.run d with
    | mk outcome d' =>
      rw [hx] at h
      cases outcome with
      | error e => cases h
      | ok b =>
        simp only at h
        cases hclose : close.run d' with
        | mk closed d₃ =>
          rw [hclose] at h
          cases closed with
          | error e => cases h
          | ok u =>
            cases h
            exact ⟨d', u, rfl, hclose⟩
  · rintro ⟨d', u, hx, hclose⟩
    rw [hx]
    simp only [hclose]

/-! ## Triples -/

/-- From a document of which `P` holds, success leads to a result and a document of which `Q`
holds, and failure to an error and a document of which `E` holds. -/
def Triple (P : Document → Prop) (action : DocumentM α) (Q : α → Document → Prop)
    (E : DocumentError → Document → Prop) : Prop :=
  ∀ d, P d →
    match action.run d with
    | (.ok a, d') => Q a d'
    | (.error e, d') => E e d'

variable {P P' : Document → Prop} {Q Q' : α → Document → Prop} {R : β → Document → Prop}
  {E E' : DocumentError → Document → Prop}

theorem Triple.of_ok {action : DocumentM α} (h : Triple P action Q E) {d d' : Document} {a : α}
    (hd : P d) (hrun : action.run d = (.ok a, d')) : Q a d' := by
  have hpost := h d hd
  rwa [hrun] at hpost

theorem Triple.of_error {action : DocumentM α} (h : Triple P action Q E) {d d' : Document}
    {e : DocumentError} (hd : P d) (hrun : action.run d = (.error e, d')) : E e d' := by
  have hpost := h d hd
  rwa [hrun] at hpost

/-- An action that cannot fail succeeds. -/
theorem Triple.exists_ok {action : DocumentM α} (h : Triple P action Q E) {d : Document} (hd : P d)
    (hE : ∀ e d', ¬ E e d') : ∃ a d', action.run d = (.ok a, d') ∧ Q a d' := by
  have hpost := h d hd
  cases hrun : action.run d with
  | mk outcome d' =>
    rw [hrun] at hpost
    cases outcome with
    | ok a => exact ⟨a, d', rfl, hpost⟩
    | error e => exact absurd hpost (hE e d')

theorem Triple.pure {a : α} (h : ∀ d, P d → Q a d) : Triple P (Pure.pure a) Q E :=
  fun d hd => h d hd

theorem Triple.trivial {x : DocumentM α} : Triple P x (fun _ _ => True) fun _ _ => True := by
  intro d _
  cases x.run d with
  | mk outcome d' => cases outcome <;> exact True.intro

theorem Triple.throw {e : DocumentError} (h : ∀ d, P d → E e d) :
    Triple P (throw e : DocumentM α) Q E :=
  fun d hd => h d hd

theorem Triple.liftExcept {outcome : Except DocumentError α}
    (hok : ∀ a, outcome = .ok a → ∀ d, P d → Q a d)
    (herror : ∀ e, outcome = .error e → ∀ d, P d → E e d) :
    Triple P (liftExcept outcome) Q E := by
  intro d hd
  rw [run_liftExcept]
  cases outcome with
  | ok a => exact hok a rfl d hd
  | error e => exact herror e rfl d hd

/-- **Triples chain.** -/
theorem Triple.bind {x : DocumentM α} {f : α → DocumentM β} (hx : Triple P x Q E)
    (hf : ∀ a, Triple (Q a) (f a) R E) : Triple P (x >>= f) R E := by
  intro d hd
  rw [run_bind]
  have hpost := hx d hd
  cases hrun : x.run d with
  | mk outcome d' =>
    rw [hrun] at hpost
    cases outcome with
    | ok a => exact hf a d' hpost
    | error e => exact hpost

/-- A triple with more before and less after. -/
theorem Triple.weaken {x : DocumentM α} (h : Triple P x Q E) (hP : ∀ d, P' d → P d)
    (hQ : ∀ a d, Q a d → Q' a d) (hE : ∀ e d, E e d → E' e d) : Triple P' x Q' E' := by
  intro d hd
  have hpost := h d (hP d hd)
  cases hrun : x.run d with
  | mk outcome d' =>
    rw [hrun] at hpost
    cases outcome with
    | ok a => exact hQ a d' hpost
    | error e => exact hE e d' hpost

theorem Triple.weaken_error {x : DocumentM α} (h : Triple P x Q E) (hE : ∀ e d, E e d → E' e d) :
    Triple P x Q E' :=
  h.weaken (fun _ hd => hd) (fun _ _ hd => hd) hE

/-- What does not depend on the document can be assumed from the start. -/
theorem Triple.assume {p : Prop} {x : DocumentM α} (h : p → Triple P x Q E) :
    Triple (fun d => p ∧ P d) x Q E :=
  fun d hd => h hd.1 d hd.2

theorem Triple.exists {ι : Type} {P : ι → Document → Prop} {x : DocumentM α}
    (h : ∀ i, Triple (P i) x Q E) : Triple (fun d => ∃ i, P i d) x Q E :=
  fun d ⟨i, hd⟩ => h i d hd

/-- Triples of one action hold together. -/
theorem Triple.and {x : DocumentM α} (h : Triple P x Q E) (h' : Triple P' x Q' E') :
    Triple (fun d => P d ∧ P' d) x (fun a d => Q a d ∧ Q' a d) (fun e d => E e d ∧ E' e d) := by
  intro d hd
  have hpost := h d hd.1
  have hpost' := h' d hd.2
  cases hrun : x.run d with
  | mk outcome d' =>
    rw [hrun] at hpost hpost'
    cases outcome <;> exact ⟨hpost, hpost'⟩

/-- An attempt passes the outcome of an action on, error or not. -/
theorem Triple.attempt {x : DocumentM α} (h : Triple P x Q E) :
    Triple P (attempt x)
      (fun outcome d =>
        match outcome with
        | .ok a => Q a d
        | .error e => E e d)
      E' := by
  intro d hd
  rw [run_attempt]
  have hpost := h d hd
  cases hrun : x.run d with
  | mk outcome d' =>
    rw [hrun] at hpost
    cases outcome <;> exact hpost

/-- A closing action has to lead on from success and from failure. -/
theorem Triple.closing {x : DocumentM α} {close : DocumentM Unit}
    (hx : Triple P x Q E) (hok : ∀ a, Triple (Q a) close (fun _ => Q' a) E')
    (herror : ∀ e d, E e d → E' e (close.run d).2) :
    Triple P (closing x close) Q' E' := by
  intro d hd
  rw [run_closing]
  have hpost := hx d hd
  cases hrun : x.run d with
  | mk outcome d' =>
    rw [hrun] at hpost
    cases outcome with
    | error e => exact herror e d' hpost
    | ok a =>
      have hclosed := hok a d' hpost
      simp only
      cases hclose : close.run d' with
      | mk closed d'' =>
        rw [hclose] at hclosed
        cases closed <;> exact hclosed

/-- A loop keeps what each of its steps keeps. -/
theorem Triple.forM {γ : Type} {I : Document → Prop} {f : γ → DocumentM PUnit} {l : List γ}
    (h : ∀ c ∈ l, Triple I (f c) (fun _ => I) E) : Triple I (l.forM f) (fun _ => I) E := by
  induction l with
  | nil => exact .pure fun d hd => hd
  | cons c l ih =>
    refine .bind (h c List.mem_cons_self) fun _ => ?_
    exact ih fun c' hc' => h c' (List.mem_cons_of_mem _ hc')

/-- A loop goes on from what holds of the part that is done. -/
theorem Triple.forM_prefix {γ : Type} {I : List γ → Document → Prop} {f : γ → DocumentM PUnit}
    {l : List γ} (h : ∀ done c rest, l = done ++ c :: rest →
      Triple (I done) (f c) (fun _ => I (done ++ [c])) E) :
    Triple (I []) (l.forM f) (fun _ => I l) E := by
  have hrest (done rest : List γ) (hl : l = done ++ rest) :
      Triple (I done) (rest.forM f) (fun _ => I l) E := by
    induction rest generalizing done with
    | nil =>
      rw [hl, List.append_nil]
      exact .pure fun d hd => hd
    | cons c rest ih =>
      exact .bind (h done c rest hl) fun _ => ih (done ++ [c]) (by rw [hl, List.append_cons])
  exact hrest [] l rfl

/-- A loop of checks passes when all of them do. -/
theorem Triple.forM_all {γ : Type} {I : Document → Prop} {p : γ → Prop} {f : γ → DocumentM PUnit}
    {l : List γ} (h : ∀ c ∈ l, Triple I (f c) (fun _ d => p c ∧ I d) E) :
    Triple I (l.forM f) (fun _ d => (∀ c ∈ l, p c) ∧ I d) E := by
  induction l with
  | nil => exact .pure fun d hd => ⟨fun c hc => absurd hc List.not_mem_nil, hd⟩
  | cons c l ih =>
    refine .bind (h c List.mem_cons_self) fun _ => .assume fun hc => ?_
    refine (ih fun c' hc' => h c' (List.mem_cons_of_mem _ hc')).weaken (fun _ hd => hd)
      (fun _ d hd => ⟨List.forall_mem_cons.mpr ⟨hc, hd.1⟩, hd.2⟩) fun _ _ he => he

/-- What an action does can be told for one document after another. -/
theorem Triple.of_each {x : DocumentM α} (h : ∀ d, P d → Triple (SameDocument d) x Q E) :
    Triple P x Q E :=
  fun d hd => h d hd d (SameDocument.refl d)

/-- A call that gets through does what it says; another one loses the connection. -/
theorem Triple.call {f : Document → Except DocumentError (α × Document)}
    (hP : ∀ d c, (d.connection = .steady ↔ c = .steady) → P d → P { d with connection := c })
    (hf : ∀ d, P d →
      match f d with
      | .ok (a, d') => Q a d'
      | .error e => E e d)
    (hlost : ∀ d, d.connection ≠ .steady → P d → E .connectionLost d) :
    Triple P (call f) Q E := by
  intro d hd
  simp only [DocumentM.call, ExceptT.run]
  cases hspend : d.connection.spend? with
  | none =>
    have hbroken : d.connection ≠ .steady := fun h => by simp [h, Connection.spend?] at hspend
    exact hlost _ (by simp) (hP d _ (iff_of_false hbroken (by simp)) hd)
  | some rest =>
    have hpost := hf _ (hP d rest (Connection.steady_iff_of_spend? hspend) hd)
    simp only at hpost ⊢
    cases hrun : f { d with connection := rest } with
    | error e => rw [hrun] at hpost; exact hpost
    | ok r => rw [hrun] at hpost; exact hpost

/-! ## Contracts -/

end DocumentM

/-- The errors of operations and of documents that have come apart, which no check of a
precondition gives. -/
def DocumentError.IsInternal : DocumentError → Prop
  | .connectionLost | .illegalArgument _ | .creation _ | .wrappedTarget _ | .inconsistent _ => True
  | _ => False

/-- What is to hold of a document throughout an action, and of the errors it can fail with. Steps
of the session do not count, and errors of single operations are always allowed. -/
structure Contract where
  Holds : Document → Prop
  Fails : DocumentError → Document → Prop
  holds_of_step : ∀ {d d'}, SessionStep d d' → Holds d → Holds d'
  fails_of_same : ∀ {e d d'}, SameDocument d d' → Fails e d → Fails e d'
  fails_of_internal : ∀ {e d}, e.IsInternal → Holds d → Fails e d

namespace DocumentM

variable {α β : Type} {C : Contract}

/-- **An action keeps a contract** when it leads from documents of which it holds to such
documents, and fails with allowed errors only. -/
def Keeps (C : Contract) (action : DocumentM α) : Prop :=
  Triple C.Holds action (fun _ => C.Holds) C.Fails

theorem Keeps.pure (a : α) : Keeps C (pure a) := Triple.pure fun _ hd => hd

theorem Keeps.throw {e : DocumentError} (h : e.IsInternal) :
    Keeps C (throw e : DocumentM α) :=
  Triple.throw fun _ hd => C.fails_of_internal h hd

theorem Keeps.bind {x : DocumentM α} {f : α → DocumentM β} (hx : Keeps C x)
    (hf : ∀ a, Keeps C (f a)) : Keeps C (x >>= f) :=
  Triple.bind hx hf

theorem Keeps.forM {γ : Type} {f : γ → DocumentM PUnit} {l : List γ}
    (h : ∀ c ∈ l, Keeps C (f c)) : Keeps C (l.forM f) :=
  Triple.forM h

theorem Keeps.mapM {γ : Type} {f : γ → DocumentM α} {l : List γ}
    (h : ∀ c ∈ l, Keeps C (f c)) : Keeps C (l.mapM f) := by
  induction l with
  | nil => exact .pure _
  | cons c l ih =>
    rw [List.mapM_cons]
    refine (h c List.mem_cons_self).bind fun a => ?_
    exact (ih fun c' hc' => h c' (List.mem_cons_of_mem _ hc')).bind fun _ => .pure _

theorem Keeps.foldlM {γ : Type} {f : β → γ → DocumentM β} {l : List γ} {b : β}
    (h : ∀ b, ∀ c ∈ l, Keeps C (f b c)) : Keeps C (l.foldlM f b) := by
  induction l generalizing b with
  | nil => exact .pure _
  | cons c l ih =>
    refine (h b c List.mem_cons_self).bind fun b' => ?_
    exact ih fun b'' c' hc' => h b'' c' (List.mem_cons_of_mem _ hc')

/-- A call keeps a contract when what it does to a document that it reaches keeps it. -/
theorem Keeps.call {f : Document → Except DocumentError (α × Document)}
    (h : ∀ d, C.Holds d →
      match f d with
      | .ok (_, d') => C.Holds d'
      | .error e => C.Fails e d) : Keeps C (call f) :=
  Triple.call (fun _ _ hc => C.holds_of_step ((sameDocument_connection hc).step rfl)) h
    fun _ _ hd => C.fails_of_internal trivial hd

/-- The contract that a document stays the same. -/
def sameAs (d₀ : Document) : Contract where
  Holds := SameDocument d₀
  Fails _ := SameDocument d₀
  holds_of_step h hd := hd.trans_step h
  fails_of_same h hd := hd.trans h
  fails_of_internal _ hd := hd

/-- **What keeps every contract leaves the document the same.** -/
theorem sameDocument_of_keeps {x : DocumentM α} (h : ∀ C, Keeps C x) (d : Document) :
    SameDocument d (x.run d).2 := by
  have hpost := h (sameAs d) d (SameDocument.refl d)
  cases hrun : x.run d with
  | mk outcome d' =>
    rw [hrun] at hpost
    cases outcome <;> exact hpost

/-- What keeps every contract fails only as single operations do. -/
theorem isInternal_of_keeps {x : DocumentM α} (h : ∀ C, Keeps C x) {d d' : Document}
    {e : DocumentError} (hrun : x.run d = (.error e, d')) : e.IsInternal := by
  let C : Contract :=
    { Holds := fun _ => True
      Fails := fun e _ => e.IsInternal
      holds_of_step := fun _ _ => trivial
      fails_of_same := fun _ he => he
      fails_of_internal := fun he _ => he }
  exact (h C).of_error trivial hrun

theorem Keeps.closing {x : DocumentM α} {close : DocumentM Unit} (hx : Keeps C x)
    (hclose : ∀ C, Keeps C close) : Keeps C (closing x close) :=
  Triple.closing hx (fun _ => hclose C) fun _ d hd =>
    C.fails_of_same (sameDocument_of_keeps hclose d) hd

end DocumentM

end DocCite
