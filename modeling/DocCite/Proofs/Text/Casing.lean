import DocCite.Proofs.Text.Lowercase
import DocCite.Text.Letter
import Mathlib.Data.Bool.AllAny
import Mathlib.Data.List.Basic

/-!
# Mapping the case of a text

Both case mappings read a text from left to right, and both change nothing but letters: the signs of
ASCII stay, and nothing else becomes one of them. What becomes of a character depends on the text
around it for the capital sigma alone. A `Casing` is a mapping of this kind, and `Casing.upper` and
`Casing.lower` are the two there are (`apply_upper`, `apply_lower`).
-/

namespace DocCite.Text

/-- A character of ASCII that is no letter. -/
def IsSign (c : Char) : Prop := c.toNat < 128 ∧ isAsciiLetter c = false

instance (c : Char) : Decidable (IsSign c) := inferInstanceAs (Decidable (_ ∧ _))

/-- The characters beyond ASCII that markup and hyphens stand for. -/
def marks : List Char := ['\u00a0', '–', '—']

/-- **A mapping of the case**: what becomes of a character between a text, held in reverse, and
another one. -/
structure Casing where
  image : List Char → Char → List Char → List Char
  image_of_isSign {before after : List Char} {c : Char} :
    IsSign c → image before c after = [c]
  eq_of_mem_image {before after : List Char} {c d : Char} :
    d ∈ image before c after → IsSign d → d = c
  image_of_isAsciiLetter {before after : List Char} {c : Char} :
    isAsciiLetter c = true → ∃ d, image before c after = [d] ∧ d.toLower = c.toLower
  image_of_ne {c : Char} (before after : List Char) :
    c ≠ 'Σ' → image before c after = image [] c []
  image_of_mem_marks {c : Char} (before after : List Char) : c ∈ marks → image before c after = [c]
  image_sigma (before after : List Char) : ∃ d, image before 'Σ' after = [d] ∧ 128 ≤ d.toNat
  image_ne_nil (before : List Char) (c : Char) (after : List Char) : image before c after ≠ []

namespace Casing

/-- What becomes of a text behind another one, which is held in reverse. -/
def apply (k : Casing) : List Char → List Char → List Char
  | _, [] => []
  | before, c :: after => k.image before c after ++ k.apply (c :: before) after

/-- What becomes of a character that stands alone. -/
def alone (k : Casing) (c : Char) : List Char := k.image [] c []

end Casing

/-! ## Letters of ASCII -/

/-- A property of ASCII characters is checked one by one. -/
theorem ascii_forall {P : Char → Prop} (h : ∀ n < 128, P (Char.ofNat n)) {c : Char}
    (hc : c.toNat < 128) : P c := by
  have hchar := h c.toNat hc
  rwa [Char.ofNat_toNat] at hchar

theorem lt_of_isAsciiLetter {c : Char} (h : isAsciiLetter c = true) : c.toNat < 128 := by
  simp only [isAsciiLetter, Bool.or_eq_true, Bool.and_eq_true, decide_eq_true_eq] at h
  omega

theorem isLower_iff {c : Char} : c.isLower = true ↔ 97 ≤ c.toNat ∧ c.toNat ≤ 122 :=
  Bool.and_eq_true_iff.trans (and_congr decide_eq_true_iff decide_eq_true_iff)

/-- A character is an ASCII letter if its lowercase is one. -/
theorem isAsciiLetter_of_isLower_toLower {c : Char} (h : c.toLower.isLower = true) :
    isAsciiLetter c = true := by
  by_cases hascii : c.toNat < 128
  · exact ascii_forall (P := fun c => c.toLower.isLower = true → isAsciiLetter c = true)
      (by decide) hascii h
  · rw [toLower_of_le (Nat.le_of_not_lt hascii), isLower_iff] at h
    omega

theorem isLower_toLower {c : Char} (h : isAsciiLetter c = true) : c.toLower.isLower = true :=
  ascii_forall (P := fun c => isAsciiLetter c = true → c.toLower.isLower = true) (by decide)
    (lt_of_isAsciiLetter h) h

theorem toUpper_eq_self {c : Char} (hascii : c.toNat < 128) (h : IsSign c ∨ IsSign c.toUpper) :
    c.toUpper = c :=
  ascii_forall (P := fun c => IsSign c ∨ IsSign c.toUpper → c.toUpper = c) (by decide) hascii h

theorem toLower_eq_self {c : Char} (hascii : c.toNat < 128) (h : IsSign c ∨ IsSign c.toLower) :
    c.toLower = c :=
  ascii_forall (P := fun c => IsSign c ∨ IsSign c.toLower → c.toLower = c) (by decide) hascii h

theorem toLower_toUpper {c : Char} (hascii : c.toNat < 128) : c.toUpper.toLower = c.toLower :=
  ascii_forall (P := fun c => c.toUpper.toLower = c.toLower) (by decide) hascii

/-! ## The two mappings -/

theorem toNat_ofNat {n : Nat} (h : n.isValidChar) : (Char.ofNat n).toNat = n := by
  rw [Char.ofNat, dif_pos h]
  rfl

/-- A run leads to capital letters of ASCII or beyond ASCII. -/
def CaseRun.leadsToLetters (run : CaseRun) : Bool :=
  (Nat.ble 65 run.target && run.top.ble 90) ||
    (Nat.ble 128 run.target &&
      (run.top.blt 0xd800 || (Nat.ble 0xe000 run.target && run.top.blt 0x110000)))

theorem CaseRun.leadsToLetters_of_mem : ∀ run ∈ upperRuns, run.leadsToLetters = true := by
  rw [← List.all_eq_true]
  decide +kernel

/-- A capital letter of ASCII, or a character beyond ASCII. -/
def IsCapital (d : Char) : Prop := (65 ≤ d.toNat ∧ d.toNat ≤ 90) ∨ 128 ≤ d.toNat

instance (d : Char) : Decidable (IsCapital d) := inferInstanceAs (Decidable (_ ∨ _))

theorem isCapital_of_image? {n m : Nat} (h : CaseRun.image? upperRuns n = some m) :
    IsCapital (Char.ofNat m) := by
  obtain ⟨run, hrun, -, hm⟩ := CaseRun.exists_of_image? h
  obtain ⟨hlow, htop⟩ := CaseRun.mem_targets_bounds hm
  have hleads := CaseRun.leadsToLetters_of_mem run hrun
  simp only [CaseRun.leadsToLetters, Bool.or_eq_true, Bool.and_eq_true, Nat.ble_eq,
    Nat.blt_eq] at hleads
  have htoNat : (Char.ofNat m).toNat = m := toNat_ofNat <| by
    simp only [Nat.isValidChar]
    omega
  rw [IsCapital, htoNat]
  omega

/-- **What becomes of a letter beyond ASCII** in uppercase is no sign and not lowercase. -/
theorem mem_upperChar {c d : Char} (h : d ∈ upperChar c) :
    (c.toNat < 128 ∧ d = c.toUpper) ∨ IsCapital d := by
  unfold upperChar at h
  split at h
  · next hascii => exact .inl ⟨hascii, List.mem_singleton.mp h⟩
  next hbeyond =>
  refine .inr ?_
  split at h
  · next m hm =>
    obtain rfl := List.mem_singleton.mp h
    exact isCapital_of_image? hm
  · split at h
    · next ns hlookup =>
      obtain ⟨m, hm, rfl⟩ := List.mem_map.mp h
      obtain ⟨before, after, heq, -⟩ := List.lookup_eq_some_iff.mp hlookup
      have hall : ∀ p ∈ upperExpansions, ∀ m ∈ p.2, IsCapital (Char.ofNat m) := by
        decide +kernel
      exact hall _ (heq ▸ List.mem_append_right _ List.mem_cons_self) m hm
    · obtain rfl := List.mem_singleton.mp h
      exact .inr (Nat.le_of_not_lt hbeyond)

theorem upperChar_ne_nil (c : Char) : upperChar c ≠ [] := by
  unfold upperChar
  split
  · exact List.cons_ne_nil _ _
  · split
    · exact List.cons_ne_nil _ _
    · split
      · next ns hlookup =>
        obtain ⟨before, after, heq, -⟩ := List.lookup_eq_some_iff.mp hlookup
        have hall : ∀ p ∈ upperExpansions, p.2 ≠ [] := by decide
        exact List.map_eq_nil_iff.not.mpr <|
          hall _ (heq ▸ List.mem_append_right _ List.mem_cons_self)
      · exact List.cons_ne_nil _ _

theorem lowerChar_ne_nil (c : Char) : lowerChar c ≠ [] := by
  unfold lowerChar
  split
  · exact List.cons_ne_nil _ _
  · split
    · exact List.cons_ne_nil _ _
    · split <;> exact List.cons_ne_nil _ _

/-- **No letter becomes a sign** in uppercase. -/
theorem eq_of_mem_upperChar {c d : Char} (h : d ∈ upperChar c) (hd : IsSign d) : d = c := by
  rcases mem_upperChar h with ⟨hascii, rfl⟩ | hcapital
  · exact toUpper_eq_self hascii (.inr hd)
  · obtain ⟨hlt, hletter⟩ := hd
    simp only [isAsciiLetter, Bool.or_eq_false_iff, Bool.and_eq_false_iff,
      decide_eq_false_iff_not] at hletter
    unfold IsCapital at hcapital
    omega

theorem upperChar_of_isSign {c : Char} (hc : IsSign c) : upperChar c = [c] := by
  rw [upperChar, if_pos hc.1, toUpper_eq_self hc.1 (.inl hc)]

theorem exists_upperChar_of_isAsciiLetter {c : Char} (hc : isAsciiLetter c = true) :
    ∃ d, upperChar c = [d] ∧ d.toLower = c.toLower :=
  have hascii := lt_of_isAsciiLetter hc
  ⟨c.toUpper, if_pos hascii, toLower_toUpper hascii⟩

theorem upperChar_of_mem_marks {c : Char} (hc : c ∈ marks) : upperChar c = [c] := by
  have hall : ∀ c ∈ marks, upperChar c = [c] := List.all_iff_forall_prop.mp rfl
  exact hall c hc

theorem exists_upperChar_sigma : ∃ d, upperChar 'Σ' = [d] ∧ 128 ≤ d.toNat :=
  ⟨'Σ', rfl, by decide⟩

/-- Nothing is lowercase in uppercase. -/
theorem isLower_of_mem_upperChar {c d : Char} (h : d ∈ upperChar c) : d.isLower = false := by
  rcases mem_upperChar h with ⟨hascii, rfl⟩ | hcapital
  · exact ascii_forall (P := fun c => c.toUpper.isLower = false) (by decide) hascii
  · rw [Bool.eq_false_iff, Ne, isLower_iff]
    unfold IsCapital at hcapital
    omega

namespace Casing

/-- The mapping to uppercase. -/
def upper : Casing where
  image _ c _ := upperChar c
  image_of_isSign := upperChar_of_isSign
  eq_of_mem_image := eq_of_mem_upperChar
  image_of_isAsciiLetter := exists_upperChar_of_isAsciiLetter
  image_of_ne _ _ _ := rfl
  image_of_mem_marks _ _ := upperChar_of_mem_marks
  image_sigma _ _ := exists_upperChar_sigma
  image_ne_nil _ c _ := upperChar_ne_nil c

/-- What becomes of a character in lowercase. A capital sigma is final at the end of a word. -/
def lowerImage (before : List Char) (c : Char) (after : List Char) : List Char :=
  if c = 'Σ' then [if casedNext before && !casedNext after then 'ς' else 'σ'] else lowerChar c

theorem lowerImage_of_lt (before after : List Char) {c : Char} (hc : c.toNat < 128) :
    lowerImage before c after = [c.toLower] := by
  have hne : c ≠ 'Σ' := by
    rintro rfl
    exact absurd hc (by decide)
  rw [lowerImage, if_neg hne, lowerChar, if_pos hc]

theorem lowers_of_mem_lowerImage {before after : List Char} {c d : Char}
    (h : d ∈ lowerImage before c after) : Lowers c d := by
  unfold lowerImage at h
  unfold Lowers
  split at h
  · next hsigma =>
    rw [if_pos hsigma, List.mem_singleton.mp h]
    split
    · exact .inr rfl
    · exact .inl rfl
  · next hsigma => rwa [if_neg hsigma]

/-- **No letter becomes a sign** in lowercase. -/
theorem eq_of_mem_lowerImage {before after : List Char} {c d : Char}
    (h : d ∈ lowerImage before c after) (hd : IsSign d) : d = c := by
  rcases (lowers_of_mem_lowerImage h).cases with rfl | ⟨hascii, rfl⟩ | rfl | rfl | ⟨hbeyond, -⟩
  · rfl
  · exact toLower_eq_self hascii (.inr hd)
  · exact absurd hd (by decide)
  · exact absurd hd (by decide)
  · have hlt := hd.1
    omega

theorem exists_lowerImage_of_isAsciiLetter {before after : List Char} {c : Char}
    (hc : isAsciiLetter c = true) :
    ∃ d, lowerImage before c after = [d] ∧ d.toLower = c.toLower :=
  ⟨c.toLower, lowerImage_of_lt before after (lt_of_isAsciiLetter hc), toLower_toLower c⟩

theorem lowerImage_of_mem_marks {c : Char} (before after : List Char) (hc : c ∈ marks) :
    lowerImage before c after = [c] := by
  have hall : ∀ c ∈ marks, c ≠ 'Σ' ∧ lowerChar c = [c] :=
    List.all_iff_forall_prop.mp rfl
  rw [lowerImage, if_neg (hall c hc).1, (hall c hc).2]

theorem exists_lowerImage_sigma (before after : List Char) :
    ∃ d, lowerImage before 'Σ' after = [d] ∧ 128 ≤ d.toNat := by
  rw [lowerImage, if_pos rfl]
  split
  · exact ⟨'ς', rfl, by decide⟩
  · exact ⟨'σ', rfl, by decide⟩

theorem lowerImage_ne_nil (before : List Char) (c : Char) (after : List Char) :
    lowerImage before c after ≠ [] := by
  unfold lowerImage
  split
  · exact List.cons_ne_nil _ _
  · exact lowerChar_ne_nil c

theorem lowerImage_of_isSign {before after : List Char} {c : Char} (hc : IsSign c) :
    lowerImage before c after = [c] := by
  rw [lowerImage_of_lt before after hc.1, toLower_eq_self hc.1 (.inl hc)]

theorem lowerImage_of_ne {c : Char} (before after : List Char) (hne : c ≠ 'Σ') :
    lowerImage before c after = lowerImage [] c [] := by
  rw [lowerImage, lowerImage, if_neg hne, if_neg hne]

/-- The mapping to lowercase. -/
def lower : Casing where
  image := lowerImage
  image_of_isSign := lowerImage_of_isSign
  eq_of_mem_image := eq_of_mem_lowerImage
  image_of_isAsciiLetter := exists_lowerImage_of_isAsciiLetter
  image_of_ne := lowerImage_of_ne
  image_of_mem_marks := lowerImage_of_mem_marks
  image_sigma := exists_lowerImage_sigma
  image_ne_nil := lowerImage_ne_nil

theorem lower_alone_of_lt {c : Char} (hc : c.toNat < 128) : lower.alone c = [c.toLower] :=
  lowerImage_of_lt [] [] hc

/-- A letter beyond ASCII becomes one that is beyond it as well, or `k`. -/
theorem exists_mem_lower_alone {c : Char} (hc : 128 ≤ c.toNat) :
    ∃ d ∈ lower.alone c, d = 'k' ∨ 128 ≤ d.toNat := by
  by_cases hsigma : c = 'Σ'
  · subst hsigma
    exact ⟨'σ', by decide, .inr (by decide)⟩
  have halone : lower.alone c = lowerChar c := if_neg hsigma
  rw [halone, lowerChar, if_neg (Nat.not_lt.mpr hc)]
  split
  · exact ⟨Char.ofNat 775, by simp, .inr (by decide)⟩
  · split
    · next m hm =>
      obtain ⟨htoNat, -, rfl | ⟨hbeyond, -⟩⟩ := final_of_image? hm
      · exact ⟨_, List.mem_singleton_self _, .inl rfl⟩
      · exact ⟨_, List.mem_singleton_self _, .inr (by omega)⟩
    · exact ⟨c, List.mem_singleton_self c, .inr hc⟩

theorem apply_upper (before s : List Char) : upper.apply before s = Text.upper s := by
  induction s generalizing before with
  | nil => rfl
  | cons c s ih => rw [apply, ih, Text.upper, Text.upper, List.flatMap_cons]; rfl

theorem apply_lower (before s : List Char) : lower.apply before s = lowerAfter before s := by
  induction s generalizing before with
  | nil => rfl
  | cons c s ih => rw [apply, ih, lowerAfter]; rfl

variable {k : Casing} {before after s t body : List Char} {c d sign : Char}

theorem image_eq_alone (hc : c ≠ 'Σ') : k.image before c after = k.alone c :=
  k.image_of_ne before after hc

/-- A text without a capital sigma becomes what its characters become. -/
theorem apply_append_of_not_mem (h : 'Σ' ∉ s) (before t : List Char) :
    k.apply before (s ++ t) = s.flatMap k.alone ++ k.apply (s.reverse ++ before) t := by
  induction s generalizing before with
  | nil => rfl
  | cons c s ih =>
    rw [List.mem_cons, not_or] at h
    rw [List.cons_append, apply, image_eq_alone (Ne.symm h.1), ih h.2, List.flatMap_cons,
      List.append_assoc]
    simp

/-- The front of a text becomes something of its own, made of what its characters become. -/
theorem exists_apply_append (k : Casing) (before s t : List Char) :
    ∃ s', k.apply before (s ++ t) = s' ++ k.apply (s.reverse ++ before) t ∧
      (∀ d ∈ s', ∃ c ∈ s, ∃ before after, d ∈ k.image before c after) ∧
      ∀ c ∈ s, ∃ before after, ∀ d ∈ k.image before c after, d ∈ s' := by
  induction s generalizing before with
  | nil => exact ⟨[], rfl, by simp, by simp⟩
  | cons c s ih =>
    obtain ⟨s', heq, hfrom, hto⟩ := ih (c :: before)
    refine ⟨k.image before c (s ++ t) ++ s', ?_, ?_, ?_⟩
    · rw [List.cons_append, apply, heq, List.append_assoc]
      simp
    · intro d hd
      rcases List.mem_append.mp hd with hd | hd
      · exact ⟨c, List.mem_cons_self, before, s ++ t, hd⟩
      · obtain ⟨c', hc', hmem⟩ := hfrom d hd
        exact ⟨c', List.mem_cons_of_mem _ hc', hmem⟩
    · refine List.forall_mem_cons.mpr ⟨⟨before, s ++ t, fun d => List.mem_append_left _⟩, ?_⟩
      intro c' hc'
      obtain ⟨before', after', hall⟩ := hto c' hc'
      exact ⟨before', after', fun d hd => List.mem_append_right _ (hall d hd)⟩

/-! ## Signs stay where they are -/

theorem count_image (hsign : IsSign sign) :
    (k.image before c after).count sign = [c].count sign := by
  by_cases hc : c = sign
  · subst hc
    rw [k.image_of_isSign hsign]
  · have hnot : sign ∉ k.image before c after := fun hmem =>
      hc (k.eq_of_mem_image hmem hsign).symm
    rw [List.count_eq_zero_of_not_mem hnot, List.count_singleton, if_neg (by simpa using hc)]

/-- **A sign is there as often as before.** -/
theorem count_apply (hsign : IsSign sign) (before s : List Char) :
    (k.apply before s).count sign = s.count sign := by
  induction s generalizing before with
  | nil => rfl
  | cons c s ih =>
    rw [apply, List.count_append, ih, count_image hsign, ← List.count_append,
      List.singleton_append]

theorem mem_apply_iff (hsign : IsSign sign) (before s : List Char) :
    sign ∈ k.apply before s ↔ sign ∈ s := by
  rw [← List.count_pos_iff, count_apply hsign, List.count_pos_iff]

theorem mem_flatMap_alone_iff (hsign : IsSign sign) : sign ∈ s.flatMap k.alone ↔ sign ∈ s := by
  constructor
  · intro hmem
    obtain ⟨c, hc, hd⟩ := List.mem_flatMap.mp hmem
    exact k.eq_of_mem_image hd hsign ▸ hc
  · intro hmem
    exact List.mem_flatMap.mpr ⟨sign, hmem, by simp [alone, k.image_of_isSign hsign]⟩

/-- What stands before the first element of a kind is told by the list. -/
theorem eq_of_append_cons {x y z w : List Char} (hx : c ∉ x) (hy : c ∉ y)
    (h : x ++ c :: z = y ++ c :: w) : x = y := by
  rcases List.append_eq_append_iff.mp h with ⟨more, rfl, hmore⟩ | ⟨more, rfl, hmore⟩
  · cases more with
    | nil => exact (List.append_nil x).symm
    | cons d more => exact absurd (by simp [(List.cons.inj hmore).1]) hy
  · cases more with
    | nil => exact List.append_nil y
    | cons d more => exact absurd (by simp [(List.cons.inj hmore).1]) hx

/-- What stands before the first sign of a kind becomes what stands before it then. If that is all
of ASCII, there was no capital sigma. -/
theorem exists_before_sign_iff {p : List Char → Prop} (hsign : IsSign sign)
    (hascii : ∀ body, p body → ∀ d ∈ body, d.toNat < 128) :
    (∃ body rest, k.apply before s = body ++ sign :: rest ∧ sign ∉ body ∧ p body) ↔
      ∃ body rest, s = body ++ sign :: rest ∧ sign ∉ body ∧ 'Σ' ∉ body ∧
        p (body.flatMap k.alone) := by
  have himage {before after : List Char} : k.image before sign after = [sign] :=
    k.image_of_isSign hsign
  constructor
  · rintro ⟨body', rest', heq, hbody', hp⟩
    have hmem : sign ∈ k.apply before s :=
      heq ▸ List.mem_append_right body' List.mem_cons_self
    rw [mem_apply_iff hsign] at hmem
    -- The first sign is still the first one, because nothing else becomes a sign.
    obtain ⟨body, rest, rfl, hbody⟩ := List.eq_append_cons_of_mem hmem
    obtain ⟨body'', hfront, hfrom, hto⟩ := k.exists_apply_append before body (sign :: rest)
    have hbody'' : sign ∉ body'' := by
      intro hmem
      obtain ⟨c, hc, _, _, hd⟩ := hfrom sign hmem
      exact hbody (k.eq_of_mem_image hd hsign ▸ hc)
    rw [hfront, apply, himage, List.singleton_append] at heq
    obtain rfl := eq_of_append_cons hbody'' hbody' heq
    have hsigma : 'Σ' ∉ body := by
      intro hmem
      obtain ⟨before', after', hall⟩ := hto 'Σ' hmem
      obtain ⟨d, hd, hbeyond⟩ := k.image_sigma before' after'
      have hlt := hascii _ hp d (hall d (hd ▸ List.mem_singleton_self d))
      omega
    rw [apply_append_of_not_mem hsigma, List.append_cancel_right_eq] at hfront
    exact ⟨body, rest, rfl, hbody, hsigma, hfront ▸ hp⟩
  · rintro ⟨body, rest, rfl, hbody, hsigma, hp⟩
    refine ⟨body.flatMap k.alone, k.apply (sign :: (body.reverse ++ before)) rest, ?_,
      (mem_flatMap_alone_iff hsign).not.mpr hbody, hp⟩
    rw [apply_append_of_not_mem hsigma, apply, himage]
    rfl

theorem alone_of_isSign (hc : IsSign c) : k.alone c = [c] := k.image_of_isSign hc

theorem flatMap_alone_eq_self (h : ∀ c ∈ s, k.alone c = [c]) : s.flatMap k.alone = s := by
  induction s with
  | nil => rfl
  | cons c s ih =>
    obtain ⟨hc, hrest⟩ := List.forall_mem_cons.mp h
    rw [List.flatMap_cons, hc, ih hrest]
    rfl

theorem flatMap_alone_of_isSign (h : ∀ c ∈ s, IsSign c) : s.flatMap k.alone = s :=
  flatMap_alone_eq_self fun c hc => alone_of_isSign (h c hc)

/-- A letter of ASCII becomes a letter of ASCII. -/
theorem exists_alone_of_isAsciiLetter (hc : isAsciiLetter c = true) :
    ∃ d, k.alone c = [d] ∧ isAsciiLetter d = true := by
  obtain ⟨d, hd, hlower⟩ : ∃ d, k.alone c = [d] ∧ d.toLower = c.toLower :=
    k.image_of_isAsciiLetter hc
  exact ⟨d, hd, isAsciiLetter_of_isLower_toLower (hlower ▸ isLower_toLower hc)⟩

theorem isAsciiLetter_of_mem_flatMap_alone (h : ∀ c ∈ s, isAsciiLetter c = true) :
    ∀ d ∈ s.flatMap k.alone, isAsciiLetter d = true := by
  intro d hd
  obtain ⟨c, hc, hmem⟩ := List.mem_flatMap.mp hd
  obtain ⟨d', hd', hletter⟩ := exists_alone_of_isAsciiLetter (k := k) (h c hc)
  rw [hd'] at hmem
  exact List.mem_singleton.mp hmem ▸ hletter

/-- No text begins with a sign that did not. -/
theorem head?_apply_ne (hsign : IsSign sign) (h : s.head? ≠ some sign) (before : List Char) :
    (k.apply before s).head? ≠ some sign := by
  cases s with
  | nil => exact h
  | cons c s =>
    intro heq
    rw [apply, List.head?_append_of_ne_nil _ (k.image_ne_nil before c s)] at heq
    refine h (congrArg some ?_)
    exact (k.eq_of_mem_image (List.mem_of_mem_head? heq) hsign).symm

/-! ## Reading a text whose case was mapped

A text is read piece by piece, and what is read from it is mapped as well. -/

section

variable {read : List Char → List Char} {shown rest x : List Char}

/-- **Each capital sigma becomes the same** in a text and in what is read from it. -/
def SameSigmas (k : Casing) (read : List Char → List Char) (before shown s : List Char) : Prop :=
  ∀ x rest, s = x ++ 'Σ' :: rest →
    k.image (x.reverse ++ before) 'Σ' rest = k.image ((read x).reverse ++ shown) 'Σ' (read rest)

theorem sameSigmas_of_not_mem (h : 'Σ' ∉ s) : SameSigmas k read before shown s := by
  rintro x rest rfl
  exact absurd (List.mem_append_right x List.mem_cons_self) h

theorem sameSigmas_nil : SameSigmas k read before shown [] := sameSigmas_of_not_mem List.not_mem_nil

theorem sameSigmas_append (hsigma : 'Σ' ∉ s) (hnil : read [] = [])
    (hfront : ∀ x r, rest = x ++ 'Σ' :: r → read (s ++ x) = t ++ read x) :
    SameSigmas k read before shown (s ++ rest) ↔
      SameSigmas k read (s.reverse ++ before) (t.reverse ++ shown) rest := by
  constructor
  · intro h x r hrest
    have hplace := h (s ++ x) r (by rw [hrest, List.append_assoc])
    rw [hfront x r hrest] at hplace
    simpa using hplace
  · intro h x r heq
    rcases List.append_eq_append_iff.mp heq with ⟨y, rfl, hrest⟩ | ⟨more, rfl, hmore⟩
    · rw [hfront y r hrest]
      simpa using h y r hrest
    · cases more with
      | nil =>
        have hx : read x = t := by simpa [hnil] using hfront [] r hmore.symm
        rw [hx]
        simpa [hnil] using h [] r hmore.symm
      | cons d more =>
        obtain ⟨rfl, -⟩ := List.cons.inj hmore
        simp at hsigma

/-- A piece without a capital sigma is read alike, and the rest decides. -/
theorem read_apply_append (hsigma : 'Σ' ∉ s) (hshown : 'Σ' ∉ t) (hnil : read [] = [])
    (hread : read (s ++ rest) = t ++ read rest)
    (hfront : ∀ x r, rest = x ++ 'Σ' :: r → read (s ++ x) = t ++ read x)
    (hrecased : read (s.flatMap k.alone ++ k.apply (s.reverse ++ before) rest) =
      t.flatMap k.alone ++ read (k.apply (s.reverse ++ before) rest))
    (ih : read (k.apply (s.reverse ++ before) rest) =
        k.apply (t.reverse ++ shown) (read rest) ↔
      SameSigmas k read (s.reverse ++ before) (t.reverse ++ shown) rest) :
    read (k.apply before (s ++ rest)) = k.apply shown (read (s ++ rest)) ↔
      SameSigmas k read before shown (s ++ rest) := by
  rw [apply_append_of_not_mem hsigma, hrecased, hread, apply_append_of_not_mem hshown,
    List.append_cancel_left_eq, ih, sameSigmas_append hsigma hnil hfront]

/-- A capital sigma has to become the same here, and then the rest decides. -/
theorem read_apply_sigma (hnil : read [] = [])
    (hbeyond : ∀ d x, 128 ≤ d.toNat → read (d :: x) = d :: read x)
    (ih : read (k.apply ('Σ' :: before) rest) = k.apply ('Σ' :: shown) (read rest) ↔
      SameSigmas k read ('Σ' :: before) ('Σ' :: shown) rest) :
    read (k.apply before ('Σ' :: rest)) = k.apply shown (read ('Σ' :: rest)) ↔
      SameSigmas k read before shown ('Σ' :: rest) := by
  have hread (x : List Char) : read ('Σ' :: x) = 'Σ' :: read x := hbeyond 'Σ' x (by decide)
  have hsplit : SameSigmas k read before shown ('Σ' :: rest) ↔
      k.image before 'Σ' rest = k.image shown 'Σ' (read rest) ∧
        SameSigmas k read ('Σ' :: before) ('Σ' :: shown) rest := by
    constructor
    · intro h
      refine ⟨by simpa [hnil] using h [] rest rfl, fun x r hrest => ?_⟩
      have hplace := h ('Σ' :: x) r (by rw [hrest]; rfl)
      rw [hread] at hplace
      simpa using hplace
    · rintro ⟨hhead, htail⟩ x r heq
      cases x with
      | nil =>
        cases heq
        simpa [hnil] using hhead
      | cons c x =>
        obtain ⟨rfl, hrest⟩ := List.cons.inj heq
        rw [hread]
        simpa using htail x r hrest
  obtain ⟨d, hd, hd128⟩ := k.image_sigma before rest
  obtain ⟨d', hd', -⟩ := k.image_sigma shown (read rest)
  rw [hsplit, apply, hread, apply, hd, hd', List.singleton_append, List.singleton_append,
    hbeyond d _ hd128, List.cons.injEq, ih, List.singleton_inj]

/-- Whether a capital sigma between two texts ends a word. -/
def endsWord (before after : List Char) : Bool := casedNext before.reverse && !casedNext after

/-- **The capital sigmas that end a word** are those that end one in what is read from the text. -/
def KeepsSigmas (read : List Char → List Char) (s : List Char) : Prop :=
  ∀ before after, s = before ++ 'Σ' :: after →
    endsWord before after = endsWord (read before) (read after)

theorem sameSigmas_lower_iff : SameSigmas lower read [] [] s ↔ KeepsSigmas read s := by
  refine forall₃_congr fun x rest _ => ?_
  have himage (before after : List Char) : lower.image (before.reverse ++ []) 'Σ' after =
      [if endsWord before after then 'ς' else 'σ'] := by
    rw [List.append_nil]
    rfl
  rw [himage, himage]
  cases endsWord x rest <;> cases endsWord (read x) (read rest) <;> decide

theorem sameSigmas_upper : SameSigmas upper read before shown s := fun _ _ _ => rfl

end

end Casing

/-! ## Counting places -/

/-- The places of a sign behind which a text of some kind begins. -/
def countAt (sign : Char) (p : List Char → Bool) : List Char → Nat
  | [] => 0
  | c :: s => (if c = sign ∧ p s = true then 1 else 0) + countAt sign p s

section

variable {p q : List Char → Bool} {before s t : List Char} {sign : Char} {k : Casing}

theorem countAt_cons_of_ne {c : Char} (hc : c ≠ sign) :
    countAt sign p (c :: s) = countAt sign p s := by
  rw [countAt, if_neg fun h => hc h.1, Nat.zero_add]

theorem countAt_append_of_not_mem (h : sign ∉ s) (t : List Char) :
    countAt sign p (s ++ t) = countAt sign p t := by
  induction s with
  | nil => rfl
  | cons c s ih =>
    rw [List.mem_cons, not_or] at h
    rw [List.cons_append, countAt_cons_of_ne (Ne.symm h.1), ih h.2]

/-- The places stay, and what begins there is what has become of it. -/
theorem countAt_apply (hsign : IsSign sign) (hp : ∀ before s, p (k.apply before s) = q s)
    (before s : List Char) : countAt sign p (k.apply before s) = countAt sign q s := by
  induction s generalizing before with
  | nil => rfl
  | cons c s ih =>
    rw [Casing.apply]
    by_cases hc : c = sign
    · subst hc
      rw [k.image_of_isSign hsign, List.singleton_append, countAt, countAt, hp, ih]
    · have hnot : sign ∉ k.image before c s := fun hmem =>
        hc (k.eq_of_mem_image hmem hsign).symm
      rw [countAt_append_of_not_mem hnot, ih, countAt_cons_of_ne hc]

theorem countAt_eq_zero (h : ∀ s, p s = false) (s : List Char) : countAt sign p s = 0 := by
  induction s with
  | nil => rfl
  | cons c s ih => rw [countAt, if_neg (by simp [h]), ih]

theorem countAt_le (sign : Char) (h : ∀ s, p s = true → q s = true) (s : List Char) :
    countAt sign p s ≤ countAt sign q s := by
  induction s with
  | nil => exact Nat.le_refl _
  | cons c s ih =>
    rw [countAt, countAt]
    by_cases hp : c = sign ∧ p s = true
    · rw [if_pos hp, if_pos ⟨hp.1, h s hp.2⟩]
      omega
    · rw [if_neg hp]
      omega

/-- **Places of a kind among others** are all of them if they are as many. -/
theorem eq_of_countAt_eq (h : ∀ s, p s = true → q s = true)
    (heq : countAt sign p s = countAt sign q s) {before after : List Char}
    (hs : s = before ++ sign :: after) : p after = q after := by
  induction s generalizing before with
  | nil => cases before <;> cases hs
  | cons c s ih =>
    -- The places in the rest are no more of the one kind, so nothing makes up for a place here.
    have hle := countAt_le sign h s
    rw [countAt, countAt] at heq
    cases before with
    | nil =>
      cases hs
      cases hp : p after with
      | true => exact (h after hp).symm
      | false =>
        rw [hp, if_neg (by simp)] at heq
        cases hq : q after with
        | false => rfl
        | true =>
          rw [hq, if_pos ⟨rfl, rfl⟩] at heq
          omega
    | cons b before =>
      refine ih ?_ (List.cons.inj hs).2
      by_cases hp : c = sign ∧ p s = true
      · rw [if_pos hp, if_pos ⟨hp.1, h s hp.2⟩] at heq
        omega
      · rw [if_neg hp] at heq
        omega

end

end DocCite.Text
