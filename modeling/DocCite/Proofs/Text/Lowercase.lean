import DocCite.Text.Blank
import DocCite.Text.Case

/-!
# Texts in lowercase

Lowering the case of a text leaves characters that it would leave alone
(`isLowered_of_mem_lower`), so doing it again changes nothing (`lowercase_lowercase`). Letters beyond
ASCII become letters beyond it, but for two (`IsNewLetter`): a text that becomes one of other ASCII
letters is that text already, up to the case of ASCII letters (`lower_eq_self`).
-/

namespace DocCite.Text

/-- A code point that lies in no interval of a class is not in it. -/
theorem CodeRanges.has_eq_false {ranges : CodeRanges} {n : Nat}
    (h : ∀ r ∈ ranges, ¬ (r.1 ≤ n ∧ n ≤ r.2)) : ranges.has n = false := by
  induction ranges with
  | nil => rfl
  | cons r rest ih =>
    rw [List.forall_mem_cons] at h
    rw [has_cons, ih h.2]
    split
    · rfl
    · rw [if_neg (by omega)]

/-! ## Runs -/

namespace CaseRun

/-- The last code point that a run leads to. -/
def top (run : CaseRun) : Nat := run.target + (run.last - run.first)

/-- The code points that a run leads to. -/
def targets (run : CaseRun) : List Nat :=
  ((List.range (run.last - run.first + 1)).filter (· % run.step = 0)).map (run.target + ·)

theorem mem_targets_bounds {run : CaseRun} {n : Nat} (h : n ∈ run.targets) :
    run.target ≤ n ∧ n ≤ run.top := by
  obtain ⟨k, hk, rfl⟩ := List.mem_map.mp h
  have hrange := List.mem_range.mp (List.mem_filter.mp hk).1
  exact ⟨Nat.le_add_right _ _, Nat.add_le_add_left (by omega) _⟩

/-- A run takes a code point somewhere. -/
def Takes (run : CaseRun) (n : Nat) : Prop :=
  run.first ≤ n ∧ n ≤ run.last ∧ (n - run.first) % run.step = 0

theorem exists_of_image? {runs : List CaseRun} {n m : Nat} (h : image? runs n = some m) :
    ∃ run ∈ runs, run.Takes n ∧ m ∈ run.targets := by
  induction runs with
  | nil => cases h
  | cons run rest ih =>
    rw [image?] at h
    split at h
    · cases h
    · next hfirst =>
      split at h
      · next hlast =>
        split at h
        · next hstep =>
          cases h
          refine ⟨run, List.mem_cons_self, ⟨by omega, hlast, hstep⟩, List.mem_map_of_mem ?_⟩
          rw [List.mem_filter, List.mem_range, decide_eq_true_eq]
          exact ⟨by omega, hstep⟩
        · cases h
      · obtain ⟨run', hrun', hm⟩ := ih h
        exact ⟨run', List.mem_cons_of_mem _ hrun', hm⟩

/-- A check that one run leads to nothing that another one takes; only where their intervals meet
does it go through the code points. -/
def misses (run next : CaseRun) : Bool :=
  run.top.blt next.first || next.last.blt run.target ||
    run.targets.all fun n =>
      n.blt next.first || next.last.blt n || (n - next.first) % next.step != 0

theorem not_takes_of_misses {run next : CaseRun} (h : run.misses next = true) {n : Nat}
    (hn : n ∈ run.targets) : ¬ next.Takes n := by
  rintro ⟨hfirst, hlast, hstep⟩
  have hbounds := mem_targets_bounds hn
  simp only [misses, Bool.or_eq_true, Nat.blt_eq, List.all_eq_true, bne_iff_ne] at h
  rcases h with (hbelow | habove) | hall
  · omega
  · omega
  · rcases hall n hn with (hbelow | habove) | hother
    · omega
    · omega
    · exact hother hstep

/-- A check that a run leads to letters beyond ASCII or to `k`, to no blank, and to nothing that is
taken further. -/
def isFinal (run : CaseRun) : Bool :=
  (run.top == 107 && run.target == 107 || Nat.ble 160 run.target) &&
    (run.top.blt 0xd800 || (Nat.ble 0xe000 run.target && run.top.blt 0x110000)) &&
    (run.top.blt 304 || Nat.blt 304 run.target) &&
    blankRanges.all (fun r => run.top.blt r.1 || r.2.blt run.target) &&
    lowerRuns.all run.misses

theorem isFinal_of_mem : ∀ run ∈ lowerRuns, run.isFinal = true := by
  rw [← List.all_eq_true]
  decide +kernel

end CaseRun

/-! ## Characters -/

/-- A character that lowering the case leaves alone, wherever it stands. -/
def IsLowered (c : Char) : Prop := lowerChar c = [c] ∧ c ≠ 'Σ'

instance (c : Char) : Decidable (IsLowered c) := inferInstanceAs (Decidable (_ ∧ _))

/-- What one character of a text may become. -/
def Lowers (c d : Char) : Prop := if c = 'Σ' then d = 'σ' ∨ d = 'ς' else d ∈ lowerChar c

theorem isLowered_toLower {c : Char} (h : c.toNat < 128) : IsLowered c.toLower := by
  have hall : ∀ n < 128, IsLowered (Char.ofNat n).toLower := by decide
  simpa only [Char.ofNat_toNat] using hall c.toNat h

theorem toLower_of_le {c : Char} (h : 128 ≤ c.toNat) : c.toLower = c := by
  have hnot : ¬ (c.val ≥ 'A'.val ∧ c.val ≤ 'Z'.val) := by
    rintro ⟨-, hle⟩
    have hnat : c.toNat ≤ 90 := hle
    omega
  exact dif_neg hnot

theorem toLower_of_isLowered {c : Char} (h : IsLowered c) : c.toLower = c := by
  have hlower := h.1
  unfold lowerChar at hlower
  split at hlower
  · exact List.singleton_inj.mp hlower
  · exact toLower_of_le (by omega)

/-- A property that ASCII characters keep is kept by every character. -/
theorem toLower_keeps {P : Char → Prop}
    (hascii : ∀ n < 128, P (Char.ofNat n) → P (Char.ofNat n).toLower) {c : Char} (hc : P c) :
    P c.toLower := by
  by_cases h : c.toNat < 128
  · simpa only [Char.ofNat_toNat] using
      hascii c.toNat h (by simpa only [Char.ofNat_toNat] using hc)
  · rwa [toLower_of_le (by omega)]

theorem toLower_toLower (c : Char) : c.toLower.toLower = c.toLower := by
  by_cases h : c.toNat < 128
  · exact toLower_of_isLowered (isLowered_toLower h)
  · rw [toLower_of_le (Nat.le_of_not_lt h), toLower_of_le (Nat.le_of_not_lt h)]

/-- **What runs lead to** is left alone, lies beyond ASCII or is `k`, and is no blank. -/
theorem final_of_image? {n m : Nat} (h : CaseRun.image? lowerRuns n = some m) :
    (Char.ofNat m).toNat = m ∧ IsLowered (Char.ofNat m) ∧
      (m = 107 ∨ 160 ≤ m ∧ isBlank (Char.ofNat m) = false) := by
  obtain ⟨run, hrun, -, hm⟩ := CaseRun.exists_of_image? h
  obtain ⟨hlow, htop⟩ := CaseRun.mem_targets_bounds hm
  have hfinal := CaseRun.isFinal_of_mem run hrun
  simp only [CaseRun.isFinal, Bool.and_eq_true, Bool.or_eq_true, beq_iff_eq, Nat.ble_eq, Nat.blt_eq,
    List.all_eq_true] at hfinal
  obtain ⟨⟨⟨⟨hascii, hvalid⟩, h304⟩, hblank⟩, hmisses⟩ := hfinal
  have htoNat : (Char.ofNat m).toNat = m := by
    have hchar : m.isValidChar := by
      simp only [Nat.isValidChar]
      omega
    rw [Char.ofNat, dif_pos hchar]
    rfl
  have hfixed : CaseRun.image? lowerRuns m = none := by
    cases hnext : CaseRun.image? lowerRuns m with
    | none => rfl
    | some m' =>
      obtain ⟨next, hnext, htakes, -⟩ := CaseRun.exists_of_image? hnext
      exact absurd htakes (CaseRun.not_takes_of_misses (hmisses next hnext) hm)
  refine ⟨htoNat, ?_, ?_⟩
  · rcases hascii with ⟨htop', hlow'⟩ | hbeyond
    · obtain rfl : m = 107 := by omega
      decide
    · refine ⟨?_, ?_⟩
      · rw [lowerChar, htoNat, if_neg (by omega), if_neg (by omega), hfixed]
      · intro hsigma
        have hm : m = 931 := by rw [← htoNat, hsigma]; rfl
        rw [hm] at hfixed
        exact absurd hfixed (by decide)
  · rcases hascii with ⟨htop', hlow'⟩ | hbeyond
    · exact Or.inl (by omega)
    · refine Or.inr ⟨by omega, ?_⟩
      rw [isBlank, htoNat]
      exact CodeRanges.has_eq_false fun r hr => by
        rcases hblank r hr with hbelow | habove <;> omega

/-- **What becomes of a character** is left alone from then on. -/
theorem Lowers.isLowered {c d : Char} (h : Lowers c d) : IsLowered d := by
  unfold Lowers at h
  split at h
  · rcases h with rfl | rfl <;> decide
  next hsigma =>
  unfold lowerChar at h
  split at h
  · next hascii =>
    obtain rfl := List.mem_singleton.mp h
    exact isLowered_toLower hascii
  next hascii =>
  split at h
  · rw [List.mem_cons, List.mem_singleton] at h
    rcases h with rfl | rfl <;> decide
  next h304 =>
  split at h
  · next m hm =>
    obtain rfl := List.mem_singleton.mp h
    exact (final_of_image? hm).2.1
  · next hnone =>
    obtain rfl := List.mem_singleton.mp h
    exact ⟨by rw [lowerChar, if_neg hascii, if_neg h304, hnone], hsigma⟩

/-- A letter that another one beyond ASCII can become. -/
def IsNewLetter (d : Char) : Prop := d = 'i' ∨ d = 'k' ∨ (160 ≤ d.toNat ∧ isBlank d = false)

instance (d : Char) : Decidable (IsNewLetter d) := inferInstanceAs (Decidable (_ ∨ _))

/-- A character becomes itself, its ASCII lowercase or a new letter. -/
theorem Lowers.cases {c d : Char} (h : Lowers c d) :
    d = c ∨ (c.toNat < 128 ∧ d = c.toLower) ∨ IsNewLetter d := by
  unfold Lowers at h
  split at h
  · refine Or.inr (Or.inr ?_)
    rcases h with rfl | rfl <;> decide
  unfold lowerChar at h
  split at h
  · next hascii => exact Or.inr (Or.inl ⟨hascii, List.mem_singleton.mp h⟩)
  split at h
  · refine Or.inr (Or.inr ?_)
    rw [List.mem_cons, List.mem_singleton] at h
    rcases h with rfl | rfl <;> decide
  split at h
  · next m hm =>
    obtain rfl := List.mem_singleton.mp h
    obtain ⟨htoNat, -, rfl | hbeyond⟩ := final_of_image? hm
    · exact Or.inr (Or.inr (Or.inr (Or.inl rfl)))
    · exact Or.inr (Or.inr (Or.inr (Or.inr (htoNat.symm ▸ hbeyond))))
  · exact Or.inl (List.mem_singleton.mp h)

/-- A property that ASCII characters keep and new letters have is kept by every character. -/
theorem Lowers.keeps {P : Char → Prop}
    (hascii : ∀ n < 128, P (Char.ofNat n) → P (Char.ofNat n).toLower)
    (hnew : ∀ d, IsNewLetter d → P d) {c d : Char} (h : Lowers c d) (hc : P c) : P d := by
  rcases h.cases with rfl | ⟨-, rfl⟩ | hd
  · exact hc
  · exact toLower_keeps hascii hc
  · exact hnew d hd

/-! ## Texts -/

variable {before s : List Char}

/-- What a text becomes starts with what its first character becomes. -/
theorem exists_lowerAfter_cons (before : List Char) (c : Char) (rest : List Char) :
    ∃ d more, lowerAfter before (c :: rest) = d :: more ++ lowerAfter (c :: before) rest ∧
      ∀ d' ∈ d :: more, Lowers c d' := by
  rw [lowerAfter]
  unfold Lowers
  split
  · split
    · exact ⟨_, [], rfl, by simp⟩
    · exact ⟨_, [], rfl, by simp⟩
  · cases hlower : lowerChar c with
    | nil =>
      unfold lowerChar at hlower
      repeat' split at hlower
      all_goals cases hlower
    | cons d more => exact ⟨d, more, rfl, fun _ hd' => hd'⟩

theorem exists_lowers_of_mem {d : Char} (h : d ∈ lowerAfter before s) : ∃ c ∈ s, Lowers c d := by
  induction s generalizing before with
  | nil => cases h
  | cons c rest ih =>
    obtain ⟨first, more, heq, hfirst⟩ := exists_lowerAfter_cons before c rest
    rw [heq] at h
    rcases List.mem_append.mp h with hd | hd
    · exact ⟨c, List.mem_cons_self, hfirst d hd⟩
    · obtain ⟨c', hc', hlowers⟩ := ih hd
      exact ⟨c', List.mem_cons_of_mem _ hc', hlowers⟩

theorem lowerAfter_eq_self (h : ∀ c ∈ s, IsLowered c) : lowerAfter before s = s := by
  induction s generalizing before with
  | nil => rfl
  | cons c rest ih =>
    rw [List.forall_mem_cons] at h
    rw [lowerAfter, if_neg h.1.2, h.1.1, ih h.2]
    rfl

theorem isLowered_of_mem_lower {d : Char} (h : d ∈ lower s) : IsLowered d := by
  obtain ⟨c, -, hlowers⟩ := exists_lowers_of_mem h
  exact hlowers.isLowered

/-- **Lowering the case twice** is lowering it once. -/
theorem lower_lower (s : List Char) : lower (lower s) = lower s :=
  lowerAfter_eq_self fun _ h => isLowered_of_mem_lower h

/-- A text without upper ASCII letters that becomes one without new letters stays what it is. -/
theorem lower_eq_self (hs : ∀ c ∈ s, c.toLower = c) (h : ∀ d ∈ lower s, ¬ IsNewLetter d) :
    lower s = s := by
  refine lowerAfter_eq_self ?_
  unfold lower at h
  generalize ([] : List Char) = before at h
  induction s generalizing before with
  | nil => exact fun c hc => absurd hc List.not_mem_nil
  | cons c rest ih =>
    obtain ⟨d, more, heq, hfirst⟩ := exists_lowerAfter_cons before c rest
    rw [heq] at h
    rw [List.forall_mem_cons] at hs ⊢
    have hd : Lowers c d := hfirst d List.mem_cons_self
    refine ⟨?_, ih hs.2 _ fun d' hd' => h d' (List.mem_append_right _ hd')⟩
    rcases hd.cases with rfl | ⟨-, rfl⟩ | hnew
    · exact hd.isLowered
    · rw [← hs.1]
      exact hd.isLowered
    · exact absurd hnew (h d List.mem_cons_self)

end DocCite.Text

namespace DocCite

theorem lowercase_lowercase (s : String) : lowercase (lowercase s) = lowercase s := by
  rw [lowercase, lowercase, String.toList_ofList, Text.lower_lower]

/-- Lowercase letters are ASCII letters in lowercase, among others. -/
theorem asciiLowercase_lowercase (s : String) : asciiLowercase (lowercase s) = lowercase s := by
  rw [asciiLowercase, lowercase, String.toList_ofList]
  refine congrArg String.ofList ((List.map_congr_left fun c hc => ?_).trans (List.map_id _))
  exact Text.toLower_of_isLowered (Text.isLowered_of_mem_lower hc)

theorem asciiLowercase_asciiLowercase (s : String) :
    asciiLowercase (asciiLowercase s) = asciiLowercase s := by
  rw [asciiLowercase, asciiLowercase, String.toList_ofList, List.map_map]
  exact congrArg String.ofList (List.map_congr_left fun c _ => Text.toLower_toLower c)

theorem toLower_eq_of_asciiLowercase {s : String} (h : asciiLowercase s = s) :
    ∀ c ∈ s.toList, c.toLower = c := by
  have hmap : s.toList.map Char.toLower = s.toList := by
    rw [← String.toList_ofList (l := s.toList.map Char.toLower)]
    exact congrArg String.toList h
  exact List.map_inj_left.mp (hmap.trans (List.map_id _).symm)

end DocCite
