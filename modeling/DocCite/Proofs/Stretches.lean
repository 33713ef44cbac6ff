import Mathlib.Data.List.SplitBy

/-!
# Maximal stretches

A list falls into stretches in which each element is joined to the next one, and which end where an
element is not joined to its neighbour. What a function does to a list stretch by stretch is proved
along them, with `MaximalStretches.of_cons` as the step.
-/

namespace DocCite

variable {α : Type} {joins : α → α → Prop}

/-- **The maximal stretches** of a list in which each element is joined to the next one. -/
structure MaximalStretches (joins : α → α → Prop) (l : List α) (stretches : List (List α)) :
    Prop where
  flatten_eq : stretches.flatten = l
  ne_nil : ∀ s ∈ stretches, s ≠ []
  isChain : ∀ s ∈ stretches, s.IsChain joins
  maximal : stretches.IsChain fun s next => ∀ a ∈ s.getLast?, ∀ b ∈ next.head?, ¬ joins a b

namespace MaximalStretches

/-- **Every list has maximal stretches.** -/
theorem exists_of (joins : α → α → Prop) (l : List α) :
    ∃ stretches, MaximalStretches joins l stretches := by
  classical
  let stretches := l.splitBy fun a b => decide (joins a b)
  refine ⟨stretches, List.flatten_splitBy _ l, fun s hs => List.ne_nil_of_mem_splitBy hs, ?_, ?_⟩
  · intro s hs
    exact (List.isChain_of_mem_splitBy hs).imp fun a b hab => of_decide_eq_true hab
  · refine (List.isChain_getLast_head_splitBy _ l).imp fun s next hends a ha b hb => ?_
    obtain ⟨hs, hnext, hnot⟩ := hends
    rw [List.getLast?_eq_some_getLast hs, Option.mem_some_iff] at ha
    rw [List.head?_eq_some_head hnext, Option.mem_some_iff] at hb
    rw [← ha, ← hb]
    exact of_decide_eq_false hnot

/-- The first stretch goes as far as it can, and the other ones are the stretches of the rest. -/
theorem of_cons {l s : List α} {stretches : List (List α)}
    (h : MaximalStretches joins l (s :: stretches)) :
    l = s ++ stretches.flatten ∧ s ≠ [] ∧ s.IsChain joins ∧
      (∀ a ∈ s.getLast?, ∀ b ∈ stretches.flatten.head?, ¬ joins a b) ∧
      MaximalStretches joins stretches.flatten stretches := by
  obtain ⟨hs, hne⟩ := List.forall_mem_cons.mp h.ne_nil
  obtain ⟨hchain, hchains⟩ := List.forall_mem_cons.mp h.isChain
  refine ⟨h.flatten_eq.symm, hs, hchain, ?_, rfl, hne, hchains, h.maximal.tail⟩
  cases stretches with
  | nil => exact fun a _ b hb => absurd hb (Option.not_mem_none b)
  | cons next stretches =>
    -- the rest begins with the next stretch, which is not empty
    intro a ha b hb
    have hhead : b ∈ next.head? := by
      obtain ⟨c, next', rfl⟩ := List.exists_cons_of_ne_nil (hne next List.mem_cons_self)
      exact hb
    exact (List.isChain_cons_cons.mp h.maximal).1 a ha b hhead

end MaximalStretches

end DocCite
