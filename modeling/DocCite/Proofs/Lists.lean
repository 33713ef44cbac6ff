import Mathlib.Data.List.Forall2

/-!
# Elements of a list, one by one

A list that grows at its end shows a new element among its distinct ones, behind them. A function
that can fail, run on all elements of a list, gives the results one by one or fails where it fails on
one of them; and what each of its steps keeps is kept by a loop.
-/

namespace DocCite

/-- One more element at the end shows up among the distinct ones if it is new. -/
theorem eraseDups_concat {α : Type} [DecidableEq α] (l : List α) (a : α) :
    (l ++ [a]).eraseDups = if a ∈ l then l.eraseDups else l.eraseDups ++ [a] := by
  rw [List.eraseDups_append]
  by_cases h : a ∈ l
  · simp [List.removeAll, h]
  · simp [List.removeAll, h, List.eraseDups_cons]

theorem exists_of_forall₂_of_mem {α β : Type} {R : α → β → Prop} {l : List α} {l' : List β}
    (h : List.Forall₂ R l l') : (∀ a ∈ l, ∃ b ∈ l', R a b) ∧ ∀ b ∈ l', ∃ a ∈ l, R a b := by
  induction h with
  | nil => exact ⟨fun _ h => absurd h List.not_mem_nil, fun _ h => absurd h List.not_mem_nil⟩
  | cons hab _ ih =>
    constructor
    · refine List.forall_mem_cons.mpr ⟨⟨_, List.mem_cons_self, hab⟩, fun a ha => ?_⟩
      obtain ⟨b, hb, hR⟩ := ih.1 a ha
      exact ⟨b, List.mem_cons_of_mem _ hb, hR⟩
    · refine List.forall_mem_cons.mpr ⟨⟨_, List.mem_cons_self, hab⟩, fun b hb => ?_⟩
      obtain ⟨a, ha, hR⟩ := ih.2 b hb
      exact ⟨a, List.mem_cons_of_mem _ ha, hR⟩

/-- Elements that agree one by one make lists that agree. -/
theorem map_eq_map_of_forall₂ {α β γ : Type} {R : α → β → Prop} {f : α → γ} {g : β → γ} {l : List α}
    {l' : List β} (h : List.Forall₂ R l l') (hR : ∀ a b, R a b → f a = g b) :
    l.map f = l'.map g := by
  rw [← List.forall₂_eq_eq_eq, List.forall₂_map_left_iff, List.forall₂_map_right_iff]
  exact h.imp hR

/-- Elements that each have a partner have partners one by one. -/
theorem exists_forall₂ {α β : Type} {R : α → β → Prop} {l : List α} (h : ∀ a ∈ l, ∃ b, R a b) :
    ∃ l', List.Forall₂ R l l' := by
  induction l with
  | nil => exact ⟨[], .nil⟩
  | cons a l ih =>
    obtain ⟨⟨b, hb⟩, hrest⟩ := List.forall_mem_cons.mp h
    obtain ⟨l', hl'⟩ := ih hrest
    exact ⟨b :: l', .cons hb hl'⟩

/-- Look-ups that all succeed, each with its result. -/
theorem forall₂_of_mapM_eq_ok {ε α β : Type} {f : α → Except ε β} {l : List α} {found : List β}
    (h : l.mapM f = .ok found) : List.Forall₂ (fun a b => f a = .ok b) l found := by
  induction l generalizing found with
  | nil =>
    cases h
    exact .nil
  | cons a l ih =>
    rw [List.mapM_cons] at h
    cases ha : f a with
    | error e => rw [ha] at h; cases h
    | ok b =>
      cases hl : l.mapM f with
      | error e => rw [ha, hl] at h; cases h
      | ok rest =>
        rw [ha, hl] at h
        cases h
        exact .cons ha (ih hl)

/-- Look-ups that each succeed give the list of their results. -/
theorem mapM_eq_ok_of_forall₂ {ε α β : Type} {f : α → Except ε β} {l : List α} {found : List β}
    (h : List.Forall₂ (fun a b => f a = .ok b) l found) : l.mapM f = .ok found := by
  induction h with
  | nil => rfl
  | cons hab _ ih =>
    rw [List.mapM_cons, hab, ih]
    rfl

/-- Look-ups fail where one of them does. -/
theorem exists_of_mapM_eq_error {ε β γ : Type} {f : β → Except ε γ} {l : List β} {e : ε}
    (h : l.mapM f = .error e) : ∃ b ∈ l, f b = .error e := by
  induction l with
  | nil => cases h
  | cons b l ih =>
    rw [List.mapM_cons] at h
    cases hb : f b with
    | error e' =>
      rw [hb] at h
      cases h
      exact ⟨b, List.mem_cons_self, hb⟩
    | ok c =>
      cases hl : l.mapM f with
      | error e' =>
        rw [hb, hl] at h
        cases h
        obtain ⟨b', hb', herror⟩ := ih hl
        exact ⟨b', List.mem_cons_of_mem _ hb', herror⟩
      | ok rest =>
        rw [hb, hl] at h
        cases h

/-- The results of a partial function on a list, one by one. -/
theorem mapM_eq_some_iff {α β : Type} {f : α → Option β} {l : List α} {l' : List β} :
    l.mapM f = some l' ↔ List.Forall₂ (fun a b => f a = some b) l l' := by
  induction l generalizing l' with
  | nil =>
    rw [List.mapM_nil, List.forall₂_nil_left_iff]
    exact Option.some_inj.trans eq_comm
  | cons a l ih =>
    rw [List.mapM_cons, List.forall₂_cons_left_iff]
    simp only [Option.bind_eq_bind, Option.bind_eq_some_iff, Option.pure_def, Option.some.injEq, ih]
    constructor
    · rintro ⟨b, hb, rest, hrest, rfl⟩
      exact ⟨b, rest, hb, hrest, rfl⟩
    · rintro ⟨b, rest, hb, hrest, rfl⟩
      exact ⟨b, hb, rest, hrest, rfl⟩

/-- Look-ups succeed if each of them does. -/
theorem exists_mapM_eq_some {α β : Type} {R : α → β → Prop} {f : α → Option β} {l : List α}
    (h : ∀ a ∈ l, ∃ b, f a = some b ∧ R a b) : ∃ l', l.mapM f = some l' ∧ List.Forall₂ R l l' := by
  induction l with
  | nil => exact ⟨[], rfl, .nil⟩
  | cons a l ih =>
    rw [List.forall_mem_cons] at h
    obtain ⟨b, hb, hR⟩ := h.1
    obtain ⟨rest, hrest, hforall⟩ := ih h.2
    exact ⟨b :: rest, by rw [List.mapM_cons, hb, hrest]; rfl, .cons hR hforall⟩

/-- What every step of a fold keeps holds in the end. -/
theorem of_foldlM_eq_some {α β : Type} {P : β → Prop} {f : β → α → Option β} {l : List α}
    (hstep : ∀ b a b', a ∈ l → P b → f b a = some b' → P b') {b b' : β}
    (h : l.foldlM f b = some b') (hb : P b) : P b' := by
  induction l generalizing b with
  | nil =>
    cases h
    exact hb
  | cons a l ih =>
    rw [List.foldlM_cons] at h
    obtain ⟨next, hnext, hrest⟩ := Option.bind_eq_some_iff.mp h
    exact ih (fun b a b' ha => hstep b a b' (List.mem_cons_of_mem _ ha)) hrest
      (hstep b a next List.mem_cons_self hb hnext)

/-- A loop whose steps all succeed, keeping something, succeeds and keeps it. -/
theorem exists_foldlM_eq_some {α β : Type} {P : β → Prop} {f : β → α → Option β} {l : List α}
    (hstep : ∀ b, ∀ a ∈ l, P b → ∃ b', f b a = some b' ∧ P b') {b : β} (hb : P b) :
    ∃ b', l.foldlM f b = some b' ∧ P b' := by
  induction l generalizing b with
  | nil => exact ⟨b, rfl, hb⟩
  | cons a l ih =>
    obtain ⟨next, hnext, hnextP⟩ := hstep b a List.mem_cons_self hb
    rw [List.foldlM_cons, hnext]
    exact ih (fun b a ha => hstep b a (List.mem_cons_of_mem _ ha)) hnextP

/-- A loop whose steps first look something up can do all the look-ups before. -/
theorem foldlM_eq_bind_mapM {α β γ : Type} {f : β → α → Option β} {g : α → Option γ}
    {k : β → γ → Option β} {l : List α} (h : ∀ b, ∀ a ∈ l, f b a = (g a).bind (k b)) (b : β) :
    l.foldlM f b = (l.mapM g).bind fun found => found.foldlM k b := by
  induction l generalizing b with
  | nil => rfl
  | cons a l ih =>
    rw [List.foldlM_cons, List.mapM_cons, h b a List.mem_cons_self]
    cases g a with
    | none => rfl
    | some c =>
      have hrest (b' : β) := ih (fun b a ha => h b a (List.mem_cons_of_mem _ ha)) b'
      simp only [Option.bind_eq_bind, Option.bind_some, Option.pure_def]
      cases hl : l.mapM g with
      | none =>
        refine Option.bind_eq_none_iff.mpr fun b' _ => ?_
        rw [hrest, hl]
        rfl
      | some found =>
        refine congrArg (Option.bind (k b c)) (funext fun b' => ?_)
        rw [hrest, hl]
        rfl

end DocCite
