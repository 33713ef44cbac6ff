import DocCite.Proofs.Citation.MarkName
import Mathlib.Data.List.Perm.Subperm
import Mathlib.Data.List.Nodup
import Mathlib.Data.Option.Basic

/-!
# Fresh names are not used

A new mark takes the first name of its keys that is not used: the one without serial, then those
with the serials zero, one, two and so on. Names with different serials are different
(`render_serial_injective`), so the used names cannot cover them all: as long as there are fewer of
them than serials, the search ends at a name that is free (`isFirstUnused_fresh`).
-/

namespace DocCite.MarkName

variable {keys : List String} {kind : CitationKind} {used : List String}

/-- Different serials have different digits, and no serial has none. -/
theorem serialDigits_injective : Function.Injective serialDigits := by
  intro serial serial' h
  have hne (i : Nat) : serialDigits (some i) ≠ serialDigits none := Nat.toDigits_ne_nil
  cases serial with
  | none =>
    cases serial' with
    | none => rfl
    | some j => exact absurd h.symm (hne j)
  | some i =>
    cases serial' with
    | none => exact absurd h (hne i)
    | some j =>
      have hdigits : Nat.toDigits 10 i = Nat.toDigits 10 j := h
      exact congrArg some <| calc
        i = Nat.ofDigitChars 10 (Nat.toDigits 10 i) 0 := Nat.ofDigitChars_ten_toDigits.symm
        _ = Nat.ofDigitChars 10 (Nat.toDigits 10 j) 0 := by rw [hdigits]
        _ = j := Nat.ofDigitChars_ten_toDigits

/-- **Names of the same keys and kind with different serials are different**, whatever the keys
are: the serial stands before the first underscore. -/
theorem render_serial_injective (kind : CitationKind) (keys : List String) :
    Function.Injective fun serial => render ⟨serial, kind, keys⟩ := by
  intro serial serial' h
  have hchars := congrArg String.toList h
  simp only [toList_render] at hchars
  exact serialDigits_injective (List.append_cancel_right (List.append_cancel_left hchars))

/-- **A free serial is found among the first ones**, as many as there are used names: where one of
them has no serial, the others cannot have all of these. -/
theorem exists_serial_unused (hbare : render ⟨none, kind, keys⟩ ∈ used) :
    ∃ i < used.length, render ⟨some i, kind, keys⟩ ∉ used := by
  by_contra hall
  push Not at hall
  -- otherwise the names with and without serial are used, and they are one too many
  have hnodup : ((none :: (List.range used.length).map some).map fun serial =>
      render ⟨serial, kind, keys⟩).Nodup := by
    refine List.Nodup.map (render_serial_injective kind keys) (List.nodup_cons.mpr ⟨by simp, ?_⟩)
    exact List.nodup_range.map (Option.some_injective _)
  have hsub : ((none :: (List.range used.length).map some).map fun serial =>
      render ⟨serial, kind, keys⟩) ⊆ used := by
    intro name hname
    obtain ⟨serial, hserial, rfl⟩ := List.mem_map.mp hname
    rcases List.mem_cons.mp hserial with rfl | hserial
    · exact hbare
    · obtain ⟨i, hi, rfl⟩ := List.mem_map.mp hserial
      exact hall i (List.mem_range.mp hi)
  have hlength := (hnodup.subperm hsub).length_le
  simp only [List.length_map, List.length_cons, List.length_range] at hlength
  omega

/-- **The first name that is not used**, of all names for some keys and a kind. -/
structure IsFirstUnused (keys : List String) (kind : CitationKind) (used : List String)
    (name : String) : Prop where
  unused : name ∉ used
  /-- The name without serial comes before all others. -/
  bare : render ⟨none, kind, keys⟩ ∉ used → name = render ⟨none, kind, keys⟩
  /-- Where it is used, the smallest serial counts whose name is not. -/
  numbered : render ⟨none, kind, keys⟩ ∈ used → ∃ i < serialBound,
    name = render ⟨some i, kind, keys⟩ ∧ ∀ j < i, render ⟨some j, kind, keys⟩ ∈ used

/-- **A fresh name is the first one that is not used**, if fewer names are used than there are
serials. -/
theorem isFirstUnused_fresh (keys : List String) (kind : CitationKind) {used : List String}
    (h : used.length < serialBound) : IsFirstUnused keys kind used (fresh keys kind used) := by
  by_cases hbare : render ⟨none, kind, keys⟩ ∈ used
  · obtain ⟨k, hk, hfree⟩ := exists_serial_unused hbare
    have hserials : min (used.length + 1) serialBound = used.length + 1 := by omega
    cases hfind : (List.range (used.length + 1)).find? fun i =>
        !used.contains (render ⟨some i, kind, keys⟩) with
    | none =>
      -- the search does not fail, for it comes to a free serial
      have hall := List.find?_range_eq_none.mp hfind k (by omega)
      exact absurd hfree (by simpa using hall)
    | some i =>
      have hfresh : fresh keys kind used = render ⟨some i, kind, keys⟩ := by
        simp only [fresh, List.contains_iff_mem.mpr hbare, hserials, hfind, Bool.not_true,
          Bool.false_eq_true, if_false]
      obtain ⟨hunused, hi, hearlier⟩ := List.find?_range_eq_some.mp hfind
      have hnot : render ⟨some i, kind, keys⟩ ∉ used := by simpa using hunused
      refine ⟨hfresh ▸ hnot, fun hmem => absurd hbare hmem, fun _ => ⟨i, ?_, hfresh, ?_⟩⟩
      · have := List.mem_range.mp hi
        omega
      · intro j hj
        simpa using hearlier j hj
  · have hfresh : fresh keys kind used = render ⟨none, kind, keys⟩ := by
      simp [fresh, hbare]
    exact ⟨hfresh ▸ hbare, fun _ => hfresh, fun hmem => absurd hmem hbare⟩

/-- Two serials are used and a third one after a gap: the gap is filled. -/
theorem isFirstUnused_fresh_gap :
    ["JR_cite_1_a", "JR_cite0_1_a", "JR_cite2_1_a"].length < serialBound ∧
      IsFirstUnused ["a"] .parenthetical ["JR_cite_1_a", "JR_cite0_1_a", "JR_cite2_1_a"]
        "JR_cite1_1_a" := by
  have hlength : ["JR_cite_1_a", "JR_cite0_1_a", "JR_cite2_1_a"].length < serialBound := by decide
  have hfresh : fresh ["a"] .parenthetical ["JR_cite_1_a", "JR_cite0_1_a", "JR_cite2_1_a"] =
      "JR_cite1_1_a" := by decide +kernel
  exact ⟨hlength, hfresh ▸ isFirstUnused_fresh ["a"] .parenthetical hlength⟩

end DocCite.MarkName
