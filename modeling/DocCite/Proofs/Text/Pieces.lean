import DocCite.Text.Split
import Mathlib.Data.List.Basic

/-!
# Pieces of texts

Parts that were joined are read back by cutting the text again (`splitOn_join`). A piece occurs in a
text where the text has it in the middle (`occursIn_iff`), and so it occurs on one side of every
character that it does not have (`isInfix_append_cons_iff`).
-/

namespace DocCite.Text

/-- The parts are those of the standard list operation. -/
theorem splitOn_eq (sep : Char) (s : List Char) : splitOn sep s = List.splitOn sep s := by
  induction s with
  | nil => rfl
  | cons c s ih =>
    rw [splitOn, List.splitOn, List.splitOnP_cons_eq_if_modifyHead, ← List.splitOn, ← ih]
    by_cases hc : c = sep
    · rw [if_pos hc, if_pos (beq_iff_eq.mpr hc)]
    · rw [if_neg hc, if_neg (beq_iff_eq.not.mpr hc)]
      cases hparts : splitOn sep s with
      | nil => exact absurd hparts (splitOn_ne_nil sep s)
      | cons part parts => rfl

theorem intercalate_eq_join (sep : List Char) (parts : List (List Char)) :
    sep.intercalate parts = join sep parts := by
  induction parts with
  | nil => rfl
  | cons part parts ih =>
    cases parts with
    | nil => simp [List.intercalate, join]
    | cons next rest =>
      rw [join_cons_of_ne_nil _ _ (by simp), ← ih]
      simp [List.intercalate]

/-- Each part but the first one stands behind a separator. -/
theorem join_cons (sep part : List Char) (parts : List (List Char)) :
    join sep (part :: parts) = part ++ parts.flatMap (sep ++ ·) := by
  induction parts generalizing part with
  | nil => simp [join]
  | cons next parts ih =>
    rw [join_cons_of_ne_nil _ _ (List.cons_ne_nil next parts), ih, List.flatMap_cons]
    simp only [List.append_assoc]

/-- Parts without the separator are read back. -/
theorem splitOn_join {sep : Char} {parts : List (List Char)} (hne : parts ≠ [])
    (h : ∀ part ∈ parts, sep ∉ part) : splitOn sep (join [sep] parts) = parts := by
  rw [splitOn_eq, ← intercalate_eq_join]
  exact List.splitOn_intercalate sep h hne

/-- Parts of a text hold no separator, and only characters of the text. -/
theorem not_mem_of_mem_splitOn {sep : Char} {s part : List Char} (h : part ∈ splitOn sep s) :
    sep ∉ part ∧ ∀ c ∈ part, c ∈ s := by
  induction s generalizing part with
  | nil =>
    rw [splitOn, List.mem_singleton] at h
    subst h
    exact ⟨List.not_mem_nil, fun c hc => hc⟩
  | cons a s ih =>
    rw [splitOn] at h
    split at h
    · rcases List.mem_cons.mp h with rfl | hrest
      · exact ⟨List.not_mem_nil, fun c hc => absurd hc List.not_mem_nil⟩
      · obtain ⟨hsep, hmem⟩ := ih hrest
        exact ⟨hsep, fun c hc => List.mem_cons_of_mem _ (hmem c hc)⟩
    · next hne =>
      split at h
      · next hnil => exact absurd hnil (splitOn_ne_nil sep s)
      · next first rest hparts =>
        rcases List.mem_cons.mp h with rfl | hrest
        · obtain ⟨hsep, hmem⟩ := ih (hparts ▸ List.mem_cons_self)
          refine ⟨List.mem_cons.not.mpr (not_or.mpr ⟨Ne.symm hne, hsep⟩), fun c hc => ?_⟩
          rcases List.mem_cons.mp hc with rfl | hc
          · exact List.mem_cons_self
          · exact List.mem_cons_of_mem _ (hmem c hc)
        · obtain ⟨hsep, hmem⟩ := ih (hparts ▸ List.mem_cons_of_mem _ hrest)
          exact ⟨hsep, fun c hc => List.mem_cons_of_mem _ (hmem c hc)⟩

theorem after?_append (p s : List Char) : after? p (p ++ s) = some s := by
  induction p with
  | nil => rfl
  | cons c p ih => simpa [after?] using ih

theorem isSome_after?_iff {piece s : List Char} : (after? piece s).isSome = true ↔ piece <+: s := by
  constructor
  · intro h
    obtain ⟨rest, hrest⟩ := Option.isSome_iff_exists.mp h
    exact ⟨rest, (eq_append_of_after? hrest).symm⟩
  · rintro ⟨rest, rfl⟩
    rw [after?_append]
    rfl

/-- A piece occurs where it is in the middle of the text. -/
theorem occursIn_iff {piece s : List Char} : occursIn piece s = true ↔ piece <:+: s := by
  induction s with
  | nil =>
    rw [occursIn, breakOn?, List.infix_nil]
    cases piece <;> simp
  | cons c rest ih =>
    rw [List.infix_cons_iff, ← ih, ← isSome_after?_iff, occursIn, breakOn?, occursIn]
    split
    · next tail htail => simp [htail]
    · next hnone => simp [hnone]

/-- A piece is on one side of a character that it does not have. -/
theorem isInfix_append_cons_iff {piece a b : List Char} {c : Char} (hc : c ∉ piece) :
    piece <:+: a ++ c :: b ↔ piece <:+: a ∨ piece <:+: b := by
  constructor
  · rintro ⟨before, after, heq⟩
    rcases List.append_eq_append_iff.mp heq with ⟨more, hmore, -⟩ | ⟨more, hmore, hafter⟩
    · exact Or.inl ⟨before, more, hmore.symm⟩
    cases more with
    | nil => exact Or.inl ⟨before, [], by rw [List.append_nil, hmore, List.append_nil]⟩
    | cons d more =>
      cases hafter
      -- the piece reaches over to the other side, and so it starts there
      rcases List.append_eq_append_iff.mp hmore with ⟨start, -, hpiece⟩ | ⟨start, -, hstart⟩
      · exact absurd (hpiece ▸ List.mem_append_right _ List.mem_cons_self) hc
      · cases start with
        | nil =>
          rw [List.nil_append] at hstart
          exact absurd (hstart ▸ List.mem_cons_self) hc
        | cons d start =>
          cases hstart
          exact Or.inr ⟨start, after, rfl⟩
  · rintro (h | h)
    · exact h.trans (List.prefix_append a _).isInfix
    · exact h.trans ⟨a ++ [c], [], by simp⟩

theorem isInfix_cons_iff {piece s : List Char} {c : Char} (hc : c ∉ piece) :
    piece <:+: c :: s ↔ piece <:+: s := by
  have h := isInfix_append_cons_iff (a := []) (b := s) hc
  rwa [List.nil_append, List.infix_nil,
    or_iff_right_of_imp fun hnil => hnil ▸ List.nil_infix] at h

/-! ## Cutting at a piece -/

section

variable {piece part s : List Char} {skip : Nat} {c : Char}

/-- What is passed over is dropped. -/
theorem cutAtPiece_skip (piece part s : List Char) (skip : Nat) :
    cutAtPiece piece skip part s = cutAtPiece piece 0 part (s.drop skip) := by
  induction s generalizing skip with
  | nil => simp [cutAtPiece]
  | cons c s ih =>
    cases skip with
    | zero => rfl
    | succ n => exact ih n

/-- At the piece a part ends. -/
theorem cutAtPiece_append (hne : piece ≠ []) (part rest : List Char) :
    cutAtPiece piece 0 part (piece ++ rest) = part.reverse :: cutAtPiece piece 0 [] rest := by
  obtain ⟨c, more, rfl⟩ := List.exists_cons_of_ne_nil hne
  have hfound : (after? (c :: more) (c :: more ++ rest)).isSome = true :=
    isSome_after?_iff.mpr (List.prefix_append _ rest)
  rw [List.cons_append] at hfound ⊢
  simp only [cutAtPiece, hfound, if_true]
  rw [cutAtPiece_skip, List.length_cons, Nat.add_sub_cancel, List.drop_left]

/-- Anywhere else the part goes on. -/
theorem cutAtPiece_of_not_prefix (h : ¬ piece <+: c :: s) :
    cutAtPiece piece 0 part (c :: s) = cutAtPiece piece 0 (c :: part) s := by
  simp only [cutAtPiece, isSome_after?_iff.not.mpr h, if_false, Bool.false_eq_true]

/-- What was read of the first part stands at its start. -/
theorem exists_cutAtPiece_eq_cons (piece part s : List Char) (skip : Nat) :
    ∃ more parts, cutAtPiece piece skip part s = (part.reverse ++ more) :: parts := by
  induction s generalizing part skip with
  | nil => exact ⟨[], [], by simp [cutAtPiece]⟩
  | cons c s ih =>
    cases skip with
    | succ n => exact ih part n
    | zero =>
      simp only [cutAtPiece]
      split
      · exact ⟨[], _, by rw [List.append_nil]⟩
      · obtain ⟨more, parts, h⟩ := ih (c :: part) 0
        exact ⟨c :: more, parts, by rw [h, List.reverse_cons, List.append_assoc]; rfl⟩

end

end DocCite.Text
