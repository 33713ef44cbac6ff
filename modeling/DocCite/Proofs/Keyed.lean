import DocCite.Keyed
import Mathlib.Data.List.Nodup

/-!
# Tables of keys and values

What reading, erasing and changing the values of a table come to. Reading tells a table whose keys
are all different from its entries alone (`get?_eq_some_iff`).
-/

namespace DocCite.Keyed

variable {α β γ : Type} [DecidableEq α]

theorem get?_eq_none_iff {m : Keyed α β} {k : α} : m.get? k = none ↔ k ∉ m.map Prod.fst := by
  induction m with
  | nil => simp [get?]
  | cons p rest ih =>
    by_cases h : p.1 = k
    · simp [get?, h]
    · simp [get?, h, ih, Ne.symm h]

/-- **Reading a table of different keys** gives its entries. -/
theorem get?_eq_some_iff {m : Keyed α β} (hnodup : (m.map Prod.fst).Nodup) {k : α} {v : β} :
    m.get? k = some v ↔ (k, v) ∈ m := by
  induction m with
  | nil => simp [get?]
  | cons p rest ih =>
    rw [List.map_cons, List.nodup_cons] at hnodup
    rw [get?, List.mem_cons]
    by_cases h : p.1 = k
    · have hnot : (k, v) ∉ rest := fun hmem => hnodup.1 (h ▸ List.mem_map_of_mem hmem)
      rw [if_pos h, Option.some.injEq, or_iff_left hnot]
      constructor
      · rintro rfl
        exact Prod.ext h.symm rfl
      · rintro rfl
        rfl
    · rw [if_neg h, ih hnodup.2, or_iff_right fun heq => h (congrArg Prod.fst heq).symm]

/-- Tables of different keys that are read alike have the same entries. -/
theorem perm_of_get?_eq {m m' : Keyed α β} (hnodup : (m.map Prod.fst).Nodup)
    (hnodup' : (m'.map Prod.fst).Nodup) (h : ∀ k, m.get? k = m'.get? k) : m.Perm m' := by
  refine (List.perm_ext_iff_of_nodup hnodup.of_map hnodup'.of_map).mpr fun p => ?_
  rw [← get?_eq_some_iff hnodup, h, get?_eq_some_iff hnodup']

theorem get?_map (m : Keyed α β) (f : β → γ) (k : α) :
    Keyed.get? (m.map fun p => (p.1, f p.2)) k = (m.get? k).map f := by
  induction m with
  | nil => rfl
  | cons p rest ih => grind [get?]

theorem get?_append (m m' : Keyed α β) (k : α) :
    Keyed.get? (m ++ m') k = (m.get? k).or (m'.get? k) := by
  induction m with
  | nil => rfl
  | cons p rest ih => grind [get?]

/-- A key that is kept is read as before. -/
theorem get?_filter {m : Keyed α β} {k : α} {keep : α × β → Bool}
    (h : ∀ v, m.get? k = some v → keep (k, v) = true) :
    Keyed.get? (m.filter keep) k = m.get? k := by
  induction m with
  | nil => rfl
  | cons p rest ih => grind [get?]

/-- A key whose entry is left out is gone. -/
theorem get?_filter_eq_none {m : Keyed α β} (hnodup : (m.map Prod.fst).Nodup) {k : α} {v : β}
    {keep : α × β → Bool} (h : m.get? k = some v) (hkeep : keep (k, v) = false) :
    Keyed.get? (m.filter keep) k = none := by
  refine get?_eq_none_iff.mpr fun hmem => ?_
  obtain ⟨⟨k', v'⟩, hkept, rfl⟩ := List.mem_map.mp hmem
  obtain ⟨hold, hkeep'⟩ := List.mem_filter.mp hkept
  rw [(get?_eq_some_iff hnodup).mpr hold, Option.some.injEq] at h
  rw [h, hkeep] at hkeep'
  cases hkeep'

theorem nodup_map_fst_put {m : Keyed α β} (h : (m.map Prod.fst).Nodup) (k : α) (v : β) :
    ((m.put k v).map Prod.fst).Nodup := by
  rw [map_fst_put]
  split
  · exact h
  · next hnew =>
    rw [List.contains_iff_mem] at hnew
    exact List.nodup_append.mpr ⟨h, List.nodup_singleton _, fun a ha b hb heq =>
      hnew (List.mem_singleton.mp hb ▸ heq ▸ ha)⟩

theorem nodup_map_fst_putAll {m : Keyed α β} (h : (m.map Prod.fst).Nodup) (pairs : List (α × β)) :
    ((m.putAll pairs).map Prod.fst).Nodup :=
  List.foldlRecOn (motive := fun m : Keyed α β => (m.map Prod.fst).Nodup) pairs _ h
    fun _ hm p _ => nodup_map_fst_put hm p.1 p.2

/-- A new key goes to the end. -/
theorem put_of_get?_eq_none {m : Keyed α β} {k : α} (v : β) (h : m.get? k = none) :
    m.put k v = m ++ [(k, v)] := by
  induction m with
  | nil => rfl
  | cons p rest ih => grind [get?, put]

/-- Setting different new keys puts them to the end. -/
theorem putAll_eq_append {m : Keyed α β} {pairs : List (α × β)}
    (hnodup : ((m ++ pairs).map Prod.fst).Nodup) : m.putAll pairs = m ++ pairs := by
  induction pairs generalizing m with
  | nil => exact (List.append_nil m).symm
  | cons p rest ih =>
    have hnew : m.get? p.1 = none := by
      rw [List.map_append, List.nodup_append] at hnodup
      refine get?_eq_none_iff.mpr fun hmem => hnodup.2.2 _ hmem p.1 ?_ rfl
      exact List.mem_cons_self
    have happend : m ++ p :: rest = m.put p.1 p.2 ++ rest := by
      rw [put_of_get?_eq_none p.2 hnew, List.append_assoc]
      rfl
    rw [happend] at hnodup ⊢
    exact ih hnodup

theorem mem_putAll {pairs : List (α × β)} {m : Keyed α β} {p : α × β}
    (h : p ∈ m.putAll pairs) : p ∈ m ∨ p ∈ pairs := by
  induction pairs generalizing m with
  | nil => exact Or.inl h
  | cons q rest ih =>
    rcases ih h with hput | hrest
    · rcases mem_put hput with hm | heq
      · exact Or.inl hm
      · exact Or.inr (heq ▸ List.mem_cons_self)
    · exact Or.inr (List.mem_cons_of_mem _ hrest)

theorem mem_of_get?_eq_some {m : Keyed α β} {k : α} {v : β} (h : m.get? k = some v) :
    (k, v) ∈ m := by
  induction m with
  | nil => cases h
  | cons p rest ih => grind [get?]

theorem get?_putAll_of_not_mem {pairs : List (α × β)} {m : Keyed α β} {k : α}
    (h : k ∉ pairs.map Prod.fst) : (m.putAll pairs).get? k = m.get? k := by
  induction pairs generalizing m with
  | nil => rfl
  | cons p rest ih =>
    rw [List.map_cons, List.mem_cons, not_or] at h
    exact (ih h.2).trans ((get?_put _ _ _ _).trans (if_neg (Ne.symm h.1)))

/-- Pairs that do not contradict each other are all found. -/
theorem get?_putAll_of_mem {pairs : List (α × β)} {m : Keyed α β} {p : α × β}
    (hfunction : ∀ q ∈ pairs, q.1 = p.1 → q = p) (h : p ∈ pairs) :
    (m.putAll pairs).get? p.1 = some p.2 := by
  induction pairs generalizing m with
  | nil => cases h
  | cons q rest ih =>
    have hrest (hmem : p ∈ rest) : ((m.put q.1 q.2).putAll rest).get? p.1 = some p.2 :=
      ih (fun q' hq' => hfunction q' (List.mem_cons_of_mem _ hq')) hmem
    by_cases hlater : p.1 ∈ rest.map Prod.fst
    · obtain ⟨q', hq', hkey⟩ := List.mem_map.mp hlater
      exact hrest (hfunction q' (List.mem_cons_of_mem _ hq') hkey ▸ hq')
    · have hq : q = p := by
        rcases List.mem_cons.mp h with rfl | hmem
        · rfl
        · exact absurd (List.mem_map_of_mem hmem) hlater
      subst hq
      exact (get?_putAll_of_not_mem hlater).trans ((get?_put _ _ _ _).trans (if_pos rfl))

/-! ## Erasing -/

/-- The keys of a table after one of them was taken out. -/
theorem map_fst_erase (m : Keyed α β) (k : α) :
    (m.erase k).map Prod.fst = (m.map Prod.fst).filter (· ≠ k) := by
  rw [erase, List.filter_map]
  rfl

/-- A key that is taken out is the only one that is missed. -/
theorem perm_map_fst_erase {m : Keyed α β} (hnodup : (m.map Prod.fst).Nodup) {k : α} {v : β}
    (h : m.get? k = some v) : (k :: (m.erase k).map Prod.fst).Perm (m.map Prod.fst) := by
  have hmem : k ∈ m.map Prod.fst := by
    by_contra hnot
    rw [get?_eq_none_iff.mpr hnot] at h
    cases h
  have herase : (m.erase k).map Prod.fst = (m.map Prod.fst).erase k := by
    rw [map_fst_erase, hnodup.erase_eq_filter]
    exact List.filter_congr fun k' _ => by by_cases hk : k' = k <;> simp [hk]
  rw [herase]
  exact (List.perm_cons_erase hmem).symm

theorem get?_erase_self (m : Keyed α β) (k : α) : (m.erase k).get? k = none := by
  rw [get?_eq_none_iff, map_fst_erase, List.mem_filter]
  simp

theorem get?_erase_of_ne (m : Keyed α β) {k k' : α} (h : k' ≠ k) :
    (m.erase k).get? k' = m.get? k' := by
  induction m with
  | nil => rfl
  | cons p rest ih => grind [get?, erase]

theorem erase_map (m : Keyed α β) (f : β → γ) (k : α) :
    Keyed.erase (m.map fun p => (p.1, f p.2)) k = (m.erase k).map fun p => (p.1, f p.2) := by
  rw [erase, erase, List.filter_map]
  rfl

end DocCite.Keyed
