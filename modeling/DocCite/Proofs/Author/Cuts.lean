import DocCite.Author.Parser
import DocCite.Proofs.Text.Lowercase
import Mathlib.Data.Bool.AllAny
import Mathlib.Data.List.Basic

/-!
# Where lists of names are cut

A list of names is cut at the word `and` between blanks outside braces (`startsWithAnd_iff`), and
goes on with the blank behind the word. Anywhere else one more character is read.
-/

namespace DocCite.Author

variable {c : Char} {rest s : List Char}

theorem isBlank_of_isSeparatorBlank (h : isSeparatorBlank c = true) : Text.isBlank c = true := by
  unfold isSeparatorBlank at h
  simp only [Bool.or_eq_true, decide_eq_true_eq] at h
  rcases h with (((rfl | rfl) | rfl) | rfl) | rfl <;> decide

/-- **The letters of the word `and`**, in either case. -/
theorem mem_letters_of_toLower (h : c.toLower ∈ "and".toList) : c ∈ "andAND".toList := by
  by_cases hascii : c.toNat < 128
  · have hall : ∀ n < 128, (Char.ofNat n).toLower ∈ "and".toList →
        Char.ofNat n ∈ "andAND".toList := by decide
    simpa only [Char.ofNat_toNat] using hall c.toNat hascii (by rwa [Char.ofNat_toNat])
  · rw [Text.toLower_of_le (Nat.le_of_not_lt hascii)] at h
    exact List.mem_append_left "AND".toList h

/-- **An `and` starts a text** between two blanks. -/
theorem startsWithAnd_iff :
    startsWithAnd s = true ↔ ∃ b word b' rest, s = b :: (word ++ b' :: rest) ∧
      isSeparatorBlank b = true ∧ word.map Char.toLower = "and".toList ∧
        isSeparatorBlank b' = true := by
  constructor
  · intro h
    unfold startsWithAnd at h
    split at h
    · next b c₁ c₂ c₃ b' rest =>
      rw [Bool.and_eq_true, Bool.and_eq_true, beq_iff_eq] at h
      exact ⟨b, [c₁, c₂, c₃], b', rest, rfl, h.1.1, h.1.2, h.2⟩
    · cases h
  · rintro ⟨b, word, b', rest, rfl, hb, hword, hb'⟩
    have hlength : word.length = 3 := by
      rw [← List.length_map Char.toLower, hword]
      rfl
    obtain ⟨c₁, c₂, c₃, rfl⟩ := List.length_eq_three.mp hlength
    have hletters : [c₁, c₂, c₃].map Char.toLower = ['a', 'n', 'd'] := hword
    simp [startsWithAnd, hb, hb', hletters]

/-- No `and` starts a text that does not begin with a blank. -/
theorem startsWithAnd_of_not_blank (h : isSeparatorBlank c = false) :
    startsWithAnd (c :: rest) = false := by
  rw [Bool.eq_false_iff]
  intro hand
  obtain ⟨b, word, b', after, heq, hb, -⟩ := startsWithAnd_iff.mp hand
  cases heq
  rw [h] at hb
  cases hb

variable {depth : Nat} {name : List Char}

theorem cutNames_nil : cutNames depth name [] = [name.reverse] := by rw [cutNames]

/-- At an `and` outside braces the name ends. -/
theorem cutNames_of_startsWithAnd (h : startsWithAnd (c :: rest) = true) (name : List Char) :
    cutNames 0 name (c :: rest) = name.reverse :: cutNames 0 [] (rest.drop 3) := by
  rw [cutNames, if_pos ⟨rfl, h⟩]

/-- Anywhere else the name goes on. -/
theorem cutNames_of_not (h : ¬ (depth = 0 ∧ startsWithAnd (c :: rest) = true))
    (name : List Char) :
    cutNames depth name (c :: rest) = cutNames (braceDepth depth c) (c :: name) rest := by
  rw [cutNames, if_neg h]

/-- What was read of the first name stands at its start. -/
theorem exists_cutNames_eq_cons (depth : Nat) (name s : List Char) :
    ∃ more names, cutNames depth name s = (name.reverse ++ more) :: names := by
  induction s generalizing depth name with
  | nil => exact ⟨[], [], by rw [cutNames_nil, List.append_nil]⟩
  | cons c s ih =>
    by_cases hand : depth = 0 ∧ startsWithAnd (c :: s) = true
    · obtain ⟨rfl, hand⟩ := hand
      exact ⟨[], _, by rw [cutNames_of_startsWithAnd hand, List.append_nil]⟩
    · obtain ⟨more, names, h⟩ := ih (braceDepth depth c) (c :: name)
      exact ⟨c :: more, names, by
        rw [cutNames_of_not hand, h, List.reverse_cons, List.append_assoc]; rfl⟩

theorem braceDepth_of_ne (hopen : c ≠ '{') (hclose : c ≠ '}') : braceDepth depth c = depth := by
  rw [braceDepth, if_neg hopen, if_neg hclose]

end DocCite.Author
