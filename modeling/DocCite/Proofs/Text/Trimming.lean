import DocCite.Text.Blank
import DocCite.Text.Split
import Mathlib.Data.List.TakeWhile

/-!
# Trimmed texts

A tidy text has no blanks at its ends and is not empty. Trimming leaves it as it is
(`trim_of_isTidy`), and what trimming leaves is tidy (`isTidy_trim`): it is the text between the
blanks at the ends (`trimsTo_iff`).
-/

namespace DocCite.Text

/-- A text that is not empty and has no blanks at its ends. -/
def IsTidy (s : List Char) : Prop :=
  (∃ c ∈ s.head?, isBlank c = false) ∧ ∃ c ∈ s.getLast?, isBlank c = false

variable {s : List Char}

/-- Trimming the end stops at a character that is not blank. -/
theorem getLast?_trimEnd {c : Char} (h : c ∈ (trimEnd s).getLast?) : isBlank c = false := by
  induction s with
  | nil => cases h
  | cons a s ih =>
    rw [trimEnd] at h
    split at h
    · split at h
      · cases h
      · next hblank =>
        cases h
        exact eq_false_of_ne_true hblank
    · next kept hkept =>
      rw [List.getLast?_cons_of_ne_nil hkept] at h
      exact ih h

theorem trimEnd_of_getLast? {c : Char} (h : c ∈ s.getLast?) (hc : isBlank c = false) :
    trimEnd s = s := by
  induction s with
  | nil => rfl
  | cons a s ih =>
    by_cases hnil : s = []
    · subst hnil
      rw [List.getLast?_singleton, Option.mem_some_iff] at h
      simp [trimEnd, h, hc]
    · rw [List.getLast?_cons_of_ne_nil hnil] at h
      have hrest := ih h
      rw [trimEnd, hrest]
      split
      · exact absurd rfl hnil
      · rfl

theorem head?_trimEnd {c : Char} (h : c ∈ s.head?) (hc : isBlank c = false) :
    (trimEnd s).head? = some c := by
  cases s with
  | nil => cases h
  | cons a s =>
    cases h
    rw [trimEnd]
    split
    · simp [hc]
    · rfl

/-- **Tidy text is left as it is.** -/
theorem trim_of_isTidy (h : IsTidy s) : trim s = s := by
  obtain ⟨⟨c, hc, hhead⟩, d, hd, hlast⟩ := h
  have hstart : trimStart s = s := by
    cases s with
    | nil => rfl
    | cons a s =>
      cases hc
      exact List.dropWhile_cons_of_neg (by simp [hhead])
  rw [trim, hstart, trimEnd_of_getLast? hd hlast]

/-- **Trimmed text is tidy**, if anything is left. -/
theorem isTidy_trim (h : isAllBlank s = false) : IsTidy (trim s) := by
  have hstart : ∃ c ∈ (trimStart s).head?, isBlank c = false := by
    cases hs : trimStart s with
    | nil =>
      rw [trimStart, List.dropWhile_eq_nil_iff] at hs
      rw [isAllBlank, List.all_eq_false] at h
      obtain ⟨c, hc, hblank⟩ := h
      exact absurd (hs c hc) hblank
    | cons c rest =>
      have hnot := List.head?_dropWhile_not isBlank s
      rw [← trimStart, hs] at hnot
      exact ⟨c, rfl, eq_false_of_ne_true (by simpa using hnot)⟩
  obtain ⟨c, hc, hblank⟩ := hstart
  have hhead := head?_trimEnd hc hblank
  refine ⟨⟨c, hhead, hblank⟩, ?_⟩
  cases hlast : (trim s).getLast? with
  | none =>
    rw [List.getLast?_eq_none_iff] at hlast
    rw [trim] at hlast
    rw [hlast] at hhead
    cases hhead
  | some d => exact ⟨d, rfl, getLast?_trimEnd (Option.mem_def.mpr hlast)⟩

theorem IsTidy.append {t : List Char} (hs : IsTidy s) (ht : IsTidy t) (between : List Char) :
    IsTidy (s ++ between ++ t) := by
  obtain ⟨⟨c, hc, hhead⟩, -⟩ := hs
  obtain ⟨-, d, hd, hlast⟩ := ht
  refine ⟨⟨c, ?_, hhead⟩, d, ?_, hlast⟩
  · rw [List.append_assoc, List.head?_append, Option.mem_def.mp hc]
    rfl
  · rw [List.getLast?_append, Option.mem_def.mp hd]
    rfl

theorem isTidy_join {sep : List Char} {parts : List (List Char)} (hne : parts ≠ [])
    (h : ∀ part ∈ parts, IsTidy part) : IsTidy (join sep parts) := by
  induction parts with
  | nil => exact absurd rfl hne
  | cons part parts ih =>
    obtain ⟨hpart, hparts⟩ := List.forall_mem_cons.mp h
    cases parts with
    | nil => exact hpart
    | cons next rest =>
      rw [join_cons_of_ne_nil _ _ (by simp)]
      exact hpart.append (ih (by simp) hparts) sep

theorem IsTidy.ne_nil (h : IsTidy s) : s ≠ [] := by
  rintro rfl
  obtain ⟨⟨c, hc, -⟩, -⟩ := h
  cases hc

/-- Blanks before a tidy text are trimmed. -/
theorem IsTidy.trim_cons {c : Char} (h : IsTidy s) (hc : isBlank c = true) : trim (c :: s) = s := by
  have hstart : trim (c :: s) = trim s := by
    rw [trim, trimStart, List.dropWhile_cons_of_pos hc]
    rfl
  rw [hstart, trim_of_isTidy h]

/-! ## Texts without their blanks -/

/-- The text without its blanks. -/
def solid (s : List Char) : List Char := s.filter fun c => !isBlank c

@[simp] theorem solid_nil : solid [] = [] := rfl

theorem solid_append (s t : List Char) : solid (s ++ t) = solid s ++ solid t :=
  List.filter_append ..

theorem solid_cons_of_isBlank {c : Char} (hc : isBlank c = true) : solid (c :: s) = solid s :=
  List.filter_cons_of_neg (by simp [hc])

theorem solid_cons_of_not_isBlank {c : Char} (hc : isBlank c = false) :
    solid (c :: s) = c :: solid s :=
  List.filter_cons_of_pos (by simp [hc])

theorem solid_trimStart (s : List Char) : solid (trimStart s) = solid s := by
  induction s with
  | nil => rfl
  | cons c s ih =>
    by_cases hc : isBlank c = true
    · rw [trimStart, List.dropWhile_cons_of_pos hc, ← trimStart, ih, solid_cons_of_isBlank hc]
    · rw [trimStart, List.dropWhile_cons_of_neg hc]

theorem solid_trimEnd (s : List Char) : solid (trimEnd s) = solid s := by
  induction s with
  | nil => rfl
  | cons c s ih =>
    by_cases hc : isBlank c = true
    · rw [solid_cons_of_isBlank hc, ← ih, trimEnd]
      split
      · next hnil => rw [if_pos hc, hnil]
      · exact solid_cons_of_isBlank hc
    · rw [Bool.not_eq_true] at hc
      rw [solid_cons_of_not_isBlank hc, ← ih, trimEnd]
      split
      · next hnil => rw [if_neg (by simp [hc]), hnil, solid_cons_of_not_isBlank hc]
      · exact solid_cons_of_not_isBlank hc

/-- **Trimming takes blanks away only.** -/
theorem solid_trim (s : List Char) : solid (trim s) = solid s :=
  (solid_trimEnd _).trans (solid_trimStart s)

/-- **Nothing is left of blanks.** -/
theorem trim_eq_nil_iff : trim s = [] ↔ solid s = [] := by
  constructor
  · intro h
    rw [← solid_trim, h, solid_nil]
  · intro h
    by_contra hne
    have hsome : isAllBlank s = false := by
      rw [Bool.eq_false_iff]
      intro hall
      refine hne ?_
      have hstart : trimStart s = [] := List.dropWhile_eq_nil_iff.mpr (List.all_eq_true.mp hall)
      rw [trim, hstart, trimEnd]
    obtain ⟨⟨c, hc, hblank⟩, -⟩ := isTidy_trim hsome
    obtain ⟨rest, heq⟩ := List.head?_eq_some_iff.mp (Option.mem_def.mp hc)
    rw [← solid_trim, heq, solid_cons_of_not_isBlank hblank] at h
    cases h

theorem trim_eq_nil_iff_isAllBlank : trim s = [] ↔ isAllBlank s = true := by
  rw [trim_eq_nil_iff, solid, List.filter_eq_nil_iff, isAllBlank, List.all_eq_true]
  simp

/-! ## The text between its blanks -/

/-- **A text without the blanks at its ends**: what is around it in the other text is blank. -/
def TrimsTo (s t : List Char) : Prop :=
  ∃ before after, s = before ++ t ++ after ∧ (∀ c ∈ before ++ after, isBlank c = true) ∧
    (t = [] ∨ IsTidy t)

theorem exists_eq_trimEnd_append (s : List Char) :
    ∃ after, s = trimEnd s ++ after ∧ ∀ c ∈ after, isBlank c = true := by
  induction s with
  | nil => exact ⟨[], rfl, fun _ hc => absurd hc List.not_mem_nil⟩
  | cons c s ih =>
    obtain ⟨after, hs, hafter⟩ := ih
    rw [trimEnd]
    split
    · next hnil =>
      rw [hnil, List.nil_append] at hs
      subst hs
      split
      · next hc => exact ⟨c :: s, rfl, List.forall_mem_cons.mpr ⟨hc, hafter⟩⟩
      · exact ⟨s, rfl, hafter⟩
    · exact ⟨after, congrArg (c :: ·) hs, hafter⟩

theorem trimEnd_eq_nil (h : ∀ c ∈ s, isBlank c = true) : trimEnd s = [] := by
  induction s with
  | nil => rfl
  | cons c s ih =>
    obtain ⟨hc, hs⟩ := List.forall_mem_cons.mp h
    rw [trimEnd, ih hs]
    exact if_pos hc

theorem trimEnd_append_of_blank {after : List Char} (h : ∀ c ∈ after, isBlank c = true)
    (s : List Char) : trimEnd (s ++ after) = trimEnd s := by
  induction s with
  | nil => exact trimEnd_eq_nil h
  | cons c s ih => rw [List.cons_append, trimEnd, ih, trimEnd]

theorem trimsTo_trim (s : List Char) : TrimsTo s (trim s) := by
  obtain ⟨after, hafter, hblank⟩ := exists_eq_trimEnd_append (trimStart s)
  refine ⟨s.takeWhile isBlank, after, ?_, ?_, ?_⟩
  · rw [List.append_assoc, trim, ← hafter]
    exact List.takeWhile_append_dropWhile.symm
  · intro c hc
    rcases List.mem_append.mp hc with hbefore | hc
    · exact List.mem_takeWhile_imp hbefore
    · exact hblank c hc
  · by_cases hall : isAllBlank s = true
    · exact Or.inl (trim_eq_nil_iff_isAllBlank.mpr hall)
    · exact Or.inr (isTidy_trim (eq_false_of_ne_true hall))

/-- **Trimming finds the text between the blanks**, and there is only one. -/
theorem trimsTo_iff {t : List Char} : TrimsTo s t ↔ t = trim s := by
  constructor
  · rintro ⟨before, after, rfl, hblank, ht⟩
    obtain ⟨hbefore, hafter⟩ := List.forall_mem_append.mp hblank
    have hstart : trimStart (before ++ t ++ after) = trimStart (t ++ after) := by
      rw [List.append_assoc, trimStart, List.dropWhile_append_of_pos hbefore]
      rfl
    rcases ht with rfl | ht
    · have hnil : trimStart ([] ++ after) = [] := List.dropWhile_eq_nil_iff.mpr hafter
      rw [trim, hstart, hnil, trimEnd]
    · have hself : trimStart (t ++ after) = t ++ after := by
        obtain ⟨⟨c, hc, hhead⟩, -⟩ := ht
        obtain ⟨rest, rfl⟩ := List.head?_eq_some_iff.mp (Option.mem_def.mp hc)
        exact List.dropWhile_cons_of_neg (by simp [hhead])
      obtain ⟨-, d, hd, hlast⟩ := ht
      rw [trim, hstart, hself, trimEnd_append_of_blank hafter, trimEnd_of_getLast? hd hlast]
  · rintro rfl
    exact trimsTo_trim s

/-- Blanks behind a text are trimmed away. -/
theorem trim_append_of_blank {after : List Char} (h : ∀ c ∈ after, isBlank c = true) :
    trim (s ++ after) = trim s := by
  obtain ⟨first, last, hs, hblank, htidy⟩ := trimsTo_trim s
  refine (trimsTo_iff.mp ⟨first, last ++ after, ?_, ?_, htidy⟩).symm
  · rw [← List.append_assoc, ← hs]
  · rw [← List.append_assoc]
    exact List.forall_mem_append.mpr ⟨hblank, h⟩

end DocCite.Text
