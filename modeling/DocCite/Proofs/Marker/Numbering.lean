import DocCite.Proofs.Marker.Letter
import Mathlib.Data.List.Shortlex
import Mathlib.Data.Nat.PSub

/-!
# Letters number the words

The words over the alphabet come in the order of their length, and those of one length in that of
the alphabet. The letters at an index are the word at that place of the order: a greater index has a
later word, and each word is at exactly one index (`numbersWords_uniqueLetter`).

A number from 26 on is `26 * (q + 1) + k`, where `k` is the place of the last letter and `q` the
index of the letters before it. This form has no subtraction, and the proofs follow it
(`carry_induction`).
-/

namespace DocCite.Marker

open List (Lex Shortlex)

variable {α : Type} {r : α → α → Prop} {s t : List α}

/-! ## The order of words -/

/-- Of words of one length the earlier one stays earlier, whatever letters follow. -/
theorem lex_append (h : Lex r s t) (hlength : s.length = t.length) (u v : List α) :
    Lex r (s ++ u) (t ++ v) := by
  induction h with
  | nil => cases hlength
  | cons _ ih => exact .cons (ih (Nat.succ.inj hlength))
  | rel hlt => exact .rel hlt

/-- **One more letter each** keeps the order of two words. -/
theorem shortlex_concat (h : Shortlex r s t) (c d : α) : Shortlex r (s ++ [c]) (t ++ [d]) := by
  obtain hlt | ⟨hlength, hlex⟩ := List.shortlex_def.mp h
  · refine .of_length_lt ?_
    rw [List.length_append, List.length_append]
    exact Nat.add_lt_add_right hlt 1
  · refine .of_lex ?_ (lex_append hlex hlength [c] [d])
    rw [List.length_append, List.length_append, hlength]
    rfl

/-- **A word over the alphabet** has a letter, and all its letters are from `a` to `z`. -/
structure IsWord (word : List Char) : Prop where
  ne_nil : word ≠ []
  letters : ∀ c ∈ word, 'a' ≤ c ∧ c ≤ 'z'

/-! ## Letters at an index -/

theorem letterChar_lt {m n : ℕ} (hn : n < 26) (h : m < n) : letterChar m < letterChar n := by
  have hcodes : (letterChar m).toNat < (letterChar n).toNat := by
    rw [toNat_letterChar (h.trans hn), toNat_letterChar hn]
    omega
  exact hcodes

theorem letterChar_bounds {n : ℕ} (h : n < 26) : 'a' ≤ letterChar n ∧ letterChar n ≤ 'z' := by
  have hcode : 97 ≤ (letterChar n).toNat ∧ (letterChar n).toNat ≤ 122 := by
    rw [toNat_letterChar h]
    omega
  exact hcode

/-- Each letter has a place in the alphabet. -/
theorem exists_letterChar {c : Char} (h : 'a' ≤ c ∧ c ≤ 'z') : ∃ n < 26, letterChar n = c := by
  have hcode : 97 ≤ c.toNat ∧ c.toNat ≤ 122 := h
  refine ⟨c.toNat - 97, by omega, ?_⟩
  rw [letterChar, Nat.add_sub_cancel' hcode.1, Char.ofNat_toNat]

/-- **The last letter of a longer word**, and the letters before it. -/
theorem lettersReversed_carry (q : ℕ) {k : ℕ} (hk : k < 26) :
    lettersReversed (26 * (q + 1) + k) = letterChar k :: lettersReversed q := by
  have hlast : (26 * (q + 1) + k) % 26 = k := by omega
  have hbefore : (26 * (q + 1) + k) / 26 - 1 = q := by omega
  rw [lettersReversed_of_ge (by omega), hlast, hbefore]

/-- **Induction on the letters of an index**: it has one, or one more than a smaller index. -/
theorem carry_induction {motive : ℕ → Prop} (digit : ∀ k < 26, motive k)
    (carry : ∀ q, ∀ k < 26, motive q → motive (26 * (q + 1) + k)) (n : ℕ) : motive n := by
  induction n using Nat.strong_induction_on with
  | _ n ih =>
    rcases Nat.lt_or_ge n 26 with h | h
    · exact digit n h
    · have hn : 26 * (n / 26 - 1 + 1) + n % 26 = n := by omega
      rw [← hn]
      exact carry _ _ (Nat.mod_lt n (by decide)) (ih _ (by omega))

/-- Every index has a word. -/
theorem isWord_lettersReversed (n : ℕ) : IsWord (lettersReversed n) := by
  refine ⟨lettersReversed_ne_nil n, ?_⟩
  induction n using carry_induction with
  | digit k hk =>
    rw [lettersReversed_of_lt hk]
    exact List.forall_mem_singleton.mpr (letterChar_bounds hk)
  | carry q k hk ih =>
    rw [lettersReversed_carry q hk]
    exact List.forall_mem_cons.mpr ⟨letterChar_bounds hk, ih⟩

/-- **A greater index has a later word.** -/
theorem shortlex_reverse_lettersReversed {m n : ℕ} (h : m < n) :
    Shortlex (· < ·) (lettersReversed m).reverse (lettersReversed n).reverse := by
  induction n using carry_induction generalizing m with
  | digit k hk =>
    rw [lettersReversed_of_lt hk, lettersReversed_of_lt (h.trans hk)]
    exact (List.shortlex_singleton_iff _ _).mpr (letterChar_lt hk h)
  | carry q k hk ih =>
    rw [lettersReversed_carry q hk, List.reverse_cons]
    cases m using carry_induction with
    | digit j hj =>
      -- one letter comes before two or more
      refine .of_length_lt ?_
      have hpos := List.length_pos_iff.mpr (lettersReversed_ne_nil q)
      rw [lettersReversed_of_lt hj, List.reverse_singleton, List.length_append,
        List.length_reverse]
      exact Nat.lt_add_of_pos_left hpos
    | carry p j hj =>
      rw [lettersReversed_carry p hj, List.reverse_cons]
      -- the letters before the last one decide, and the last one if they agree
      rcases Nat.lt_or_ge p q with hlt | hge
      · exact shortlex_concat (ih hlt) _ _
      · obtain rfl : p = q := by omega
        have hlast : letterChar j < letterChar k := letterChar_lt hk (by omega)
        exact ((List.shortlex_singleton_iff _ _).mpr hlast).append_left _

/-- **Each word is at an index**, read from the last letter. -/
theorem exists_lettersReversed_eq {word : List Char} (h : IsWord word) :
    ∃ n, lettersReversed n = word := by
  obtain ⟨hne, hletters⟩ := h
  induction word with
  | nil => exact absurd rfl hne
  | cons c word ih =>
    obtain ⟨hc, hrest⟩ := List.forall_mem_cons.mp hletters
    obtain ⟨k, hk, rfl⟩ := exists_letterChar hc
    cases word with
    | nil => exact ⟨k, lettersReversed_of_lt hk⟩
    | cons d word =>
      obtain ⟨q, hq⟩ := ih (List.cons_ne_nil d word) hrest
      exact ⟨26 * (q + 1) + k, by rw [lettersReversed_carry q hk, hq]⟩

/-! ## The loop that collects letters -/

/-- **A run of the loop** from a number, with the letters that it collects. Each pass takes the
letter of the remainder; from 26 on, one less than the quotient is left, and the run goes on only
where there is such a number. -/
inductive Collects : ℕ → List Char → Prop
  | stop {n : ℕ} : n < 26 → Collects n [letterChar (n % 26)]
  | carry {n q : ℕ} {letters : List Char} : 26 ≤ n → Nat.psub (n / 26) 1 = some q →
      Collects q letters → Collects n (letterChar (n % 26) :: letters)

/-- **The loop runs to its end from every number**: nothing is taken from a quotient of zero. -/
theorem collects_lettersReversed (n : ℕ) : Collects n (lettersReversed n) := by
  induction n using carry_induction with
  | digit k hk =>
    have hstop := Collects.stop hk
    rwa [Nat.mod_eq_of_lt hk, ← lettersReversed_of_lt hk] at hstop
  | carry q k hk ih =>
    have hquotient : Nat.psub ((26 * (q + 1) + k) / 26) 1 = some q :=
      Nat.psub_eq_some.mpr (by omega)
    have hlast : (26 * (q + 1) + k) % 26 = k := by omega
    have hcarry := Collects.carry (by omega) hquotient ih
    rwa [hlast, ← lettersReversed_carry q hk] at hcarry

theorem collects_iff {n : ℕ} {letters : List Char} :
    Collects n letters ↔ letters = lettersReversed n := by
  refine ⟨fun h => ?_, fun h => h ▸ collects_lettersReversed n⟩
  induction h with
  | stop hn => rw [lettersReversed_of_lt hn, Nat.mod_eq_of_lt hn]
  | carry hn hquotient _ ih =>
    have hq := Nat.psub_eq_some.mp hquotient
    rw [lettersReversed_of_ge hn, ih, ← hq, Nat.add_sub_cancel]

/-! ## The numbering -/

/-- **A numbering of the words over the alphabet.** -/
structure NumbersWords (wordAt : ℕ → String) : Prop where
  isWord : ∀ n, IsWord (wordAt n).toList
  /-- Greater numbers have longer words, or later ones of the same length. -/
  lt_iff : ∀ m n, m < n ↔ Shortlex (· < ·) (wordAt m).toList (wordAt n).toList
  /-- Each word has exactly one number. -/
  existsUnique : ∀ word : String, IsWord word.toList → ∃! n, wordAt n = word
  /-- The word of a number is what the loop collects from it, read backwards. -/
  collects : ∀ n letters, Collects n letters ↔ wordAt n = String.ofList letters.reverse

/-- **The letters at an index are a bijective numbering** of the words over the alphabet, in the
order of their length and then of the alphabet, and the loop that makes them runs to its end. -/
theorem numbersWords_uniqueLetter : NumbersWords uniqueLetter where
  isWord n := by
    obtain ⟨hne, hletters⟩ := isWord_lettersReversed n
    rw [uniqueLetter, String.toList_ofList]
    exact ⟨List.reverse_ne_nil_iff.mpr hne, fun c hc => hletters c (List.mem_reverse.mp hc)⟩
  lt_iff m n := by
    rw [uniqueLetter, uniqueLetter, String.toList_ofList, String.toList_ofList]
    refine ⟨shortlex_reverse_lettersReversed, fun h => ?_⟩
    by_contra hle
    rcases Nat.eq_or_lt_of_not_lt hle with rfl | hlt
    · exact irrefl_of _ _ h
    · exact asymm_of _ h (shortlex_reverse_lettersReversed hlt)
  existsUnique word hword := by
    have hreverse : IsWord word.toList.reverse :=
      ⟨List.reverse_ne_nil_iff.mpr hword.ne_nil,
        fun c hc => hword.letters c (List.mem_reverse.mp hc)⟩
    obtain ⟨n, hn⟩ := exists_lettersReversed_eq hreverse
    have hwordAt : uniqueLetter n = word := by
      rw [uniqueLetter, hn, List.reverse_reverse, String.ofList_toList]
    exact ⟨n, hwordAt, fun m hm => uniqueLetter_injective (hm.trans hwordAt.symm)⟩
  collects n letters := by
    rw [collects_iff, uniqueLetter, String.ofList_inj, List.reverse_inj]
    exact eq_comm

/-- The words of two letters end with `zz`, and those of three begin with `aaa`. -/
example : uniqueLetter 701 = "zz" ∧ uniqueLetter 702 = "aaa" := by decide +kernel

end DocCite.Marker
