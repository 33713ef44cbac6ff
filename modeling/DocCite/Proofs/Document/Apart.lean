import DocCite.Proofs.Document.Scanning
import Mathlib.Data.List.Pairwise

/-!
# Ranges that keep apart

The check of overlaps compares each range with the one before it that reaches furthest. That stands
for all pairs: a scan finds nothing just when no range is in the way of a later one
(`overlapsFrom_eq_nil_iff`). Then no two ranges of a flow share a character, and none is inside
another.
-/

namespace DocCite.TextRange

/-- One of two ranges ends before the other one starts, if they are in one flow. -/
def Apart (a b : TextRange) : Prop := a.flow = b.flow → a.stop ≤ b.start ∨ b.stop ≤ a.start

theorem Apart.symm {a b : TextRange} (h : a.Apart b) : b.Apart a :=
  fun hflow => (h hflow.symm).symm

variable {α : Type} {touching : Bool}

theorem overlapKind?_eq_none_iff {earlier later : TextRange} :
    overlapKind? touching earlier later = none ↔
      ¬ (earlier.start = later.start ∧ earlier.stop = later.stop) ∧ earlier.stop ≤ later.start ∧
        (touching = true → later.start ≠ earlier.stop) := by
  unfold overlapKind?
  by_cases hequal : earlier.start = later.start ∧ earlier.stop = later.stop
  · simp [hequal]
  by_cases hover : later.start < earlier.stop
  · have hnot : ¬ earlier.stop ≤ later.start := Nat.not_le.mpr hover
    simp [hequal, hover, hnot]
  have hstop : earlier.stop ≤ later.start := Nat.le_of_not_lt hover
  rw [if_neg hequal, if_neg hover]
  by_cases htouch : later.start = earlier.stop ∧ touching = true
  · simp [htouch]
  · simpa [hequal, hstop, htouch] using fun ht hs => htouch ⟨hs, ht⟩

theorem stop_le_start_of_overlapKind? {earlier later : TextRange}
    (h : overlapKind? touching earlier later = none) : earlier.stop ≤ later.start :=
  (overlapKind?_eq_none_iff.mp h).2.1

/-- What is not in the way of a range is not in the way of the ones before it either. -/
theorem overlapKind?_trans {a b c : TextRange} (hab : overlapKind? touching a b = none)
    (hbc : overlapKind? touching b c = none) : overlapKind? touching a c = none := by
  obtain ⟨hne, hle, hapart⟩ := overlapKind?_eq_none_iff.mp hab
  obtain ⟨hne', hle', hapart'⟩ := overlapKind?_eq_none_iff.mp hbc
  have ha := a.start_le_stop
  have hb := b.start_le_stop
  refine overlapKind?_eq_none_iff.mpr ⟨by omega, by omega, fun ht => ?_⟩
  have := hapart ht
  omega

/-- A scan finds nothing just when no range is in the way of a later one. -/
theorem overlapsFrom_eq_nil_iff {widest : TextRange × α} {items : List (TextRange × α)} :
    overlapsFrom touching (some widest) items = [] ↔
      (widest :: items).Pairwise fun a b => overlapKind? touching a.1 b.1 = none := by
  induction items generalizing widest with
  | nil => simp [overlapsFrom]
  | cons item rest ih =>
    rw [overlapsFrom, List.append_eq_nil_iff, Option.toList_eq_nil_iff, Option.map_eq_none_iff]
    constructor
    · rintro ⟨hnext, hscan⟩
      -- where nothing is found, the range that reaches furthest is always the last one
      have hreach : widest.1.stop ≤ item.1.stop :=
        Nat.le_trans (stop_le_start_of_overlapKind? hnext) item.1.start_le_stop
      rw [if_pos hreach] at hscan
      have hrest := ih.mp hscan
      refine List.pairwise_cons.mpr ⟨fun x hx => ?_, hrest⟩
      rcases List.mem_cons.mp hx with rfl | hx
      · exact hnext
      · exact overlapKind?_trans hnext ((List.pairwise_cons.mp hrest).1 x hx)
    · intro hall
      obtain ⟨hwidest, hrest⟩ := List.pairwise_cons.mp hall
      have hnext := hwidest item List.mem_cons_self
      have hreach : widest.1.stop ≤ item.1.stop :=
        Nat.le_trans (stop_le_start_of_overlapKind? hnext) item.1.start_le_stop
      rw [if_pos hreach]
      exact ⟨hnext, ih.mpr hrest⟩

/-- All scans find nothing just when none of them does, flow by flow. -/
theorem allOverlaps_eq_nil_iff {items : List (TextRange × α)} :
    allOverlaps items touching = [] ↔
      ∀ flow, (inFlow flow items).Pairwise
        fun a b => overlapKind? touching a.1 b.1 = none := by
  have hscan (part : List (TextRange × α)) :
      overlapsFrom touching none part = [] ↔
        part.Pairwise fun a b => overlapKind? touching a.1 b.1 = none := by
    cases part with
    | nil => simp [overlapsFrom]
    | cons first rest => exact overlapsFrom_eq_nil_iff
  rw [allOverlaps_eq_flatMap, List.flatMap_eq_nil_iff]
  simp only [hscan]
  constructor
  · intro h flow
    by_cases hflow : flow ∈ (items.map fun item => item.1.flow).eraseDups
    · exact h flow hflow
    · have hnone : inFlow flow items = [] := by
        rw [List.eq_nil_iff_forall_not_mem]
        intro x hx
        obtain ⟨hitem, rfl⟩ := mem_inFlow.mp hx
        exact hflow (List.mem_eraseDups.mpr (List.mem_map_of_mem hitem))
      rw [hnone]
      exact List.Pairwise.nil
  · exact fun h flow _ => h flow

theorem findOverlaps_eq_nil_iff {items : List (TextRange × α)} {limit : Nat} :
    findOverlaps items touching limit = [] ↔ limit = 0 ∨ allOverlaps items touching = [] := by
  rw [findOverlaps_eq_take, List.take_eq_nil_iff]

/-- A relation that ranges of different flows are in holds of a list if it holds flow by flow. -/
theorem pairwise_of_flows {R : TextRange → TextRange → Prop}
    (hR : ∀ a b, a.flow ≠ b.flow → R a b) {items : List (TextRange × α)}
    (h : ∀ flow, (items.filter fun item => item.1.flow = flow).Pairwise fun a b => R a.1 b.1) :
    items.Pairwise fun a b => R a.1 b.1 := by
  refine List.pairwise_iff_forall_sublist.mpr fun {a b} hsublist => ?_
  by_cases hflow : a.1.flow = b.1.flow
  · have hboth : [a, b].filter (fun item => item.1.flow = b.1.flow) = [a, b] := by simp [hflow]
    have hfilter := hsublist.filter fun item => item.1.flow = b.1.flow
    rw [hboth] at hfilter
    exact List.pairwise_iff_forall_sublist.mp (h b.1.flow) hfilter
  · exact hR a.1 b.1 hflow

/-- **Where no overlap is found, all items keep apart.** -/
theorem pairwise_apart_of_findOverlaps {items : List (TextRange × α)} {limit : Nat}
    (hlimit : 1 ≤ limit) (h : findOverlaps items touching limit = []) :
    items.Pairwise fun a b => a.1.Apart b.1 := by
  have hnone : allOverlaps items touching = [] :=
    (findOverlaps_eq_nil_iff.mp h).resolve_left (by omega)
  refine pairwise_of_flows (fun a b hne hflow => absurd hflow hne) fun flow => ?_
  -- the scan goes over the sorted items, and keeping apart does not depend on the order
  refine ((inFlow_perm flow items).pairwise_iff fun h => h.symm).mp ?_
  exact (allOverlaps_eq_nil_iff.mp hnone flow).imp fun h _ =>
    Or.inl (stop_le_start_of_overlapKind? h)

end DocCite.TextRange
