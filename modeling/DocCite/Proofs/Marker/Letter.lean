import DocCite.Marker.Letter
import Mathlib.Tactic.IntervalCases

/-!
# Letters tell indices apart

The letters at an index are the digits of a numbering without zero, so no two indices have the
same ones (`uniqueLetter_injective`).
-/

namespace DocCite.Marker

/-- The place of a letter of the alphabet is read off its code. -/
theorem toNat_letterChar {n : ℕ} (h : n < 26) : (letterChar n).toNat = 97 + n := by
  interval_cases n <;> rfl

theorem letterChar_injective {m n : ℕ} (hm : m < 26) (hn : n < 26)
    (h : letterChar m = letterChar n) : m = n := by
  have heq : 97 + m = 97 + n := by rw [← toNat_letterChar hm, ← toNat_letterChar hn, h]
  omega

theorem lettersReversed_of_lt {n : ℕ} (h : n < 26) : lettersReversed n = [letterChar n] := by
  rw [lettersReversed, if_pos h]

theorem lettersReversed_of_ge {n : ℕ} (h : 26 ≤ n) :
    lettersReversed n = letterChar (n % 26) :: lettersReversed (n / 26 - 1) := by
  rw [lettersReversed, if_neg (by omega)]

theorem lettersReversed_ne_nil (n : ℕ) : lettersReversed n ≠ [] := by
  rcases Nat.lt_or_ge n 26 with h | h
  · simp [lettersReversed_of_lt h]
  · simp [lettersReversed_of_ge h]

/-- **No two indices have the same letters**, read from the last one. -/
theorem lettersReversed_injective : ∀ m n : ℕ, lettersReversed m = lettersReversed n → m = n := by
  intro m
  induction m using Nat.strong_induction_on with
  | _ m ih =>
    intro n h
    rcases Nat.lt_or_ge m 26 with hm | hm <;> rcases Nat.lt_or_ge n 26 with hn | hn
    · rw [lettersReversed_of_lt hm, lettersReversed_of_lt hn] at h
      exact letterChar_injective hm hn (List.singleton_inj.mp h)
    · rw [lettersReversed_of_lt hm, lettersReversed_of_ge hn, List.cons.injEq] at h
      exact absurd h.2.symm (lettersReversed_ne_nil _)
    · rw [lettersReversed_of_ge hm, lettersReversed_of_lt hn, List.cons.injEq] at h
      exact absurd h.2 (lettersReversed_ne_nil _)
    · rw [lettersReversed_of_ge hm, lettersReversed_of_ge hn, List.cons.injEq] at h
      have hlast : m % 26 = n % 26 :=
        letterChar_injective (Nat.mod_lt _ (by omega)) (Nat.mod_lt _ (by omega)) h.1
      have hrest : m / 26 - 1 = n / 26 - 1 := ih _ (by omega) _ h.2
      omega

/-- **Different indices have different letters.** -/
theorem uniqueLetter_injective {m n : ℕ} (h : uniqueLetter m = uniqueLetter n) : m = n :=
  lettersReversed_injective m n (List.reverse_inj.mp (String.ofList_injective h))

end DocCite.Marker
