import DocCite.Proofs.Text.Trimming
import DocCite.Style.Option
import Mathlib.Algebra.Group.Nat.Defs
import Mathlib.Data.List.Induction

/-!
# Spellings of options

The value of an option is told apart by its spelling and kept without it, so the text that a value
gives back is the one that was spelled unless an integer or a truth value has other spellings
(`asText_ofSpelling_eq_iff`).
-/

namespace DocCite.OptionValue

variable {s digits : List Char} {n : Int} {k : Nat}

/-! ## Quotes -/

/-- **A text without one pair of quotes** around it; without such a pair it is as it is. -/
def Unquotes (s text : List Char) : Prop :=
  s = '"' :: (text ++ ['"']) ∨ text = s ∧ ∀ inner, s ≠ '"' :: (inner ++ ['"'])

theorem unquotes_iff {text : List Char} : Unquotes s text ↔ text = unquote s := by
  unfold unquote
  split
  · next rest =>
    split
    · next hlast =>
      obtain ⟨inner, rfl⟩ := List.getLast?_eq_some_iff.mp hlast
      rw [List.dropLast_concat]
      constructor
      · rintro (heq | ⟨-, hnot⟩)
        · exact (List.append_cancel_right (List.cons.inj heq).2).symm
        · exact absurd rfl (hnot inner)
      · rintro rfl
        exact Or.inl rfl
    · next hlast =>
      have hnot (inner : List Char) : '"' :: rest ≠ '"' :: (inner ++ ['"']) := by
        intro heq
        exact hlast ((List.cons.inj heq).2 ▸ List.getLast?_concat)
      exact ⟨fun h => h.elim (fun heq => absurd heq (hnot text)) And.left,
        fun h => Or.inr ⟨h, hnot⟩⟩
  · next hquote =>
    have hnot (inner : List Char) : s ≠ '"' :: (inner ++ ['"']) := fun heq => hquote _ heq
    exact ⟨fun h => h.elim (fun heq => absurd heq (hnot text)) And.left, fun h => Or.inr ⟨h, hnot⟩⟩

/-! ## Digits -/

/-- A text of digits, at least one. -/
def AreDigits (s : List Char) : Prop := s ≠ [] ∧ ∀ c ∈ s, Text.isAsciiDigit c = true

theorem ofDigits_concat (digits : List Char) (c : Char) :
    ofDigits (digits ++ [c]) = 10 * ofDigits digits + (c.toNat - 48) := by
  rw [ofDigits, List.foldl_append]
  rfl

theorem toNat_of_isAsciiDigit {c : Char} (hc : Text.isAsciiDigit c = true) :
    48 ≤ c.toNat ∧ c.toNat ≤ 57 := by
  simpa [Text.isAsciiDigit] using hc

/-- A digit is written as it is read. -/
theorem toDigits_digit {c : Char} (hc : Text.isAsciiDigit c = true) :
    Nat.toDigits 10 (c.toNat - 48) = [c] := by
  obtain ⟨hmin, hmax⟩ := toNat_of_isAsciiDigit hc
  rw [Nat.toDigits_of_lt_base (by omega)]
  refine congrArg (fun c => [c]) (Char.toNat_inj.mp ?_)
  have hdigit : ∀ d < 10, (Nat.digitChar d).toNat = 48 + d := by decide
  rw [hdigit _ (by omega)]
  omega

theorem ofDigits_lt (h : ∀ c ∈ digits, Text.isAsciiDigit c = true) :
    ofDigits digits < 10 ^ digits.length := by
  induction digits using List.reverseRecOn with
  | nil => decide
  | append_singleton digits c ih =>
    obtain ⟨hdigits, hc⟩ := List.forall_mem_append.mp h
    have hlt := ih hdigits
    have hmax := (toNat_of_isAsciiDigit (hc c List.mem_cons_self)).2
    rw [ofDigits_concat, List.length_append, List.length_singleton, Nat.pow_succ]
    omega

/-- Digits without a zero before them denote a positive number. -/
theorem ofDigits_pos (h : AreDigits digits) (hzero : digits.head? ≠ some '0') :
    0 < ofDigits digits := by
  obtain ⟨hne, hdigits⟩ := h
  induction digits using List.reverseRecOn with
  | nil => exact absurd rfl hne
  | append_singleton digits c ih =>
    obtain ⟨hdigits, hc⟩ := List.forall_mem_append.mp hdigits
    rw [ofDigits_concat]
    by_cases hnil : digits = []
    · subst hnil
      have hmin := (toNat_of_isAsciiDigit (hc c List.mem_cons_self)).1
      have hne : c.toNat ≠ 48 := fun heq => hzero (congrArg some (Char.toNat_inj.mp heq))
      omega
    · rw [List.head?_append, Option.or_of_isSome (List.isSome_head?.mpr hnil)] at hzero
      have hpos := ih hzero hnil hdigits
      omega

/-- **A number is written with the digits that it is read from** unless a zero is before other
digits. -/
theorem toDigits_ofDigits_eq_iff (h : AreDigits digits) :
    Nat.toDigits 10 (ofDigits digits) = digits ↔ digits.head? ≠ some '0' ∨ digits = ['0'] := by
  constructor
  · intro heq
    by_contra hnot
    rw [not_or, not_not] at hnot
    obtain ⟨rest, rfl⟩ := List.head?_eq_some_iff.mp hnot.1
    have hrest : rest ≠ [] := fun hnil => hnot.2 (congrArg (List.cons '0') hnil)
    -- the zero adds nothing to the number and one digit to the text
    have hlt : ofDigits ('0' :: rest) < 10 ^ rest.length :=
      ofDigits_lt fun c hc => h.2 c (List.mem_cons_of_mem _ hc)
    have hlength := (Nat.length_toDigits_le_iff (by decide) (List.length_pos_iff.mpr hrest)).mpr hlt
    rw [heq, List.length_cons] at hlength
    omega
  · rintro (hzero | rfl)
    · obtain ⟨hne, hdigits⟩ := h
      induction digits using List.reverseRecOn with
      | nil => exact absurd rfl hne
      | append_singleton digits c ih =>
        obtain ⟨hdigits, hc⟩ := List.forall_mem_append.mp hdigits
        have hdigit := hc c List.mem_cons_self
        rw [ofDigits_concat]
        by_cases hnil : digits = []
        · subst hnil
          rw [ofDigits, List.foldl_nil, Nat.mul_zero, Nat.zero_add, toDigits_digit hdigit,
            List.nil_append]
        · rw [List.head?_append, Option.or_of_isSome (List.isSome_head?.mpr hnil)] at hzero
          have hmax := (toNat_of_isAsciiDigit hdigit).2
          rw [← Nat.toDigits_append_toDigits (by decide) (ofDigits_pos ⟨hnil, hdigits⟩ hzero)
            (by omega), ih hzero hnil hdigits, toDigits_digit hdigit]
    · decide

/-! ## Integers -/

theorem not_areDigits_iff :
    (digits.isEmpty || !digits.all Text.isAsciiDigit) = true ↔ ¬ AreDigits digits := by
  rw [AreDigits, not_and_or, ne_eq, not_not, ← List.all_eq_true, Bool.or_eq_true,
    List.isEmpty_iff, Bool.not_eq_true']
  exact or_congr_right (Bool.not_eq_true _).to_iff.symm

theorem not_areDigits_minus (digits : List Char) : ¬ AreDigits ('-' :: digits) :=
  fun h => absurd (h.2 '-' List.mem_cons_self) (by decide)

/-- An integer is spelled with digits, behind a minus sign if it is not positive. -/
theorem int?_eq_some_iff :
    int? s = some n ↔ fitsWord n = true ∧ ((AreDigits s ∧ n = ofDigits s) ∨
      ∃ digits, s = '-' :: digits ∧ AreDigits digits ∧ n = -(ofDigits digits : Int)) := by
  have hread (digits : List Char) (m : Int) :
      (if digits.isEmpty || !digits.all Text.isAsciiDigit then none
        else if fitsWord m then some m else none) = some n ↔
        fitsWord n = true ∧ AreDigits digits ∧ n = m := by
    by_cases hdigits : AreDigits digits
    · rw [if_neg (not_areDigits_iff.not.mpr (not_not.mpr hdigits)), Option.ite_none_right_eq_some,
        Option.some.injEq]
      constructor
      · rintro ⟨hfits, rfl⟩
        exact ⟨hfits, hdigits, rfl⟩
      · rintro ⟨hfits, -, rfl⟩
        exact ⟨hfits, rfl⟩
    · rw [if_pos (not_areDigits_iff.mpr hdigits)]
      exact iff_of_false (Option.some_ne_none n).symm fun h => hdigits h.2.1
  by_cases hminus : ∃ digits, s = '-' :: digits
  · obtain ⟨digits, rfl⟩ := hminus
    refine (hread digits (-(ofDigits digits : Int))).trans (and_congr_right fun _ => ?_)
    rw [or_iff_right fun h => not_areDigits_minus digits h.1]
    constructor
    · rintro ⟨hdigits, rfl⟩
      exact ⟨digits, rfl, hdigits, rfl⟩
    · rintro ⟨digits', heq, hdigits, rfl⟩
      cases heq
      exact ⟨hdigits, rfl⟩
  · have hplain : int? s =
        if s.isEmpty || !s.all Text.isAsciiDigit then none
        else if fitsWord (ofDigits s : Int) then some (ofDigits s : Int) else none := by
      cases s with
      | nil => rfl
      | cons c rest =>
        have hc : c ≠ '-' := fun hc => hminus ⟨rest, hc ▸ rfl⟩
        unfold int?
        split
        next negative digits heq =>
          split at heq
          · next heq' => exact absurd (List.cons.inj heq').1 hc
          · cases heq
            rfl
    rw [hplain, hread s (ofDigits s), or_iff_left]
    rintro ⟨digits, heq, -⟩
    exact hminus ⟨digits, heq⟩

theorem toString_natCast (n : Nat) : toString (n : Int) = String.ofList (Nat.toDigits 10 n) := by
  rw [Int.toString_eq_repr, Int.repr_eq_if, if_pos (Int.natCast_nonneg n), Int.toNat_natCast,
    Nat.repr_eq_ofList_toDigits]

theorem toString_neg_natCast (h : 0 < k) :
    toString (-(k : Int)) = String.ofList ('-' :: Nat.toDigits 10 k) := by
  rw [Int.toString_eq_repr, Int.repr_eq_if, if_neg (by omega), Int.neg_neg, Int.toNat_natCast,
    Nat.repr_eq_ofList_toDigits, ← String.toList_inj, String.toList_append]
  simp only [String.toList_ofList]
  rfl

/-- A positive integer is written as it is spelled unless a zero is before other digits. -/
theorem toString_ofDigits_eq_iff (h : AreDigits digits) :
    toString (ofDigits digits : Int) = String.ofList digits ↔
      digits.head? ≠ some '0' ∨ digits = ['0'] := by
  rw [toString_natCast, String.ofList_inj, toDigits_ofDigits_eq_iff h]

/-- An integer behind a minus sign is written as it is spelled unless a zero is behind the sign. -/
theorem toString_neg_ofDigits_eq_iff (h : AreDigits digits) :
    toString (-(ofDigits digits : Int)) = String.ofList ('-' :: digits) ↔
      digits.head? ≠ some '0' := by
  rcases Nat.eq_zero_or_pos (ofDigits digits) with hnull | hpos
  · have hzero : digits.head? = some '0' := by
      by_contra hnot
      exact absurd (ofDigits_pos h hnot) (by omega)
    have htext : toString (-((0 : Nat) : Int)) = String.ofList ['0'] := by decide
    rw [hnull, htext, String.ofList_inj]
    exact iff_of_false (by simp) (not_not.mpr hzero)
  · rw [toString_neg_natCast hpos, String.ofList_inj, List.cons.injEq, and_iff_right rfl,
      toDigits_ofDigits_eq_iff h, or_iff_left]
    rintro rfl
    exact absurd hpos (by decide)

/-! ## Other spellings -/

/-- How truth values are written. -/
def words : List (List Char) := [['t', 'r', 'u', 'e'], ['f', 'a', 'l', 's', 'e']]

/-- A truth value is written in one way. -/
theorem mem_words_iff {word : List Char} (h : s.map Char.toLower = word) (hword : word ∈ words) :
    s ∈ words ↔ s = word := by
  have hsame : ∀ word ∈ words, word.map Char.toLower = word := by decide
  constructor
  · intro hs
    rw [← h, hsame s hs]
  · rintro rfl
    exact hword

/-- **Other spellings** of integers and truth values than those they are written with. -/
inductive IsRespelled : List Char → Prop
  /-- A zero is before other digits. -/
  | padded {digits : List Char} :
      AreDigits digits → digits.head? = some '0' → digits ≠ ['0'] →
      ofDigits digits < 0x8000000000000000 → IsRespelled digits
  /-- A zero is behind the minus sign, alone or before other digits. -/
  | minusPadded {digits : List Char} :
      AreDigits digits → digits.head? = some '0' →
      ofDigits digits ≤ 0x8000000000000000 → IsRespelled ('-' :: digits)
  /-- A truth value has capitals. -/
  | recased {s word : List Char} :
      word ∈ words → s.map Char.toLower = word → s ≠ word → IsRespelled s

/-- Truth values are not spelled like integers. -/
theorem not_int_of_recased {word : List Char} (hword : word ∈ words)
    (h : s.map Char.toLower = word) : int? s = none := by
  have hletter : ∃ c rest, s = c :: rest ∧ 57 < c.toNat := by
    cases s with
    | nil => exact absurd (h ▸ hword) (by decide)
    | cons c rest =>
      refine ⟨c, rest, rfl, Nat.lt_of_not_le fun hc => ?_⟩
      have hsmall : ¬ (c.val ≥ 'A'.val ∧ c.val ≤ 'Z'.val) := by
        rintro ⟨hmin, -⟩
        have hmin' : 65 ≤ c.toNat := hmin
        omega
      have hsame : c.toLower = c := dif_neg hsmall
      rw [List.map_cons, hsame] at h
      subst h
      have hfirst : ∀ word ∈ words, 57 < (word.headD '0').toNat := by decide
      exact absurd (hfirst _ hword) (Nat.not_lt.mpr hc)
  obtain ⟨c, rest, rfl, hc⟩ := hletter
  by_contra hsome
  obtain ⟨n, hn⟩ := Option.ne_none_iff_exists'.mp hsome
  obtain ⟨-, ⟨hdigits, -⟩ | ⟨digits, heq, -⟩⟩ := int?_eq_some_iff.mp hn
  · have hmax := (toNat_of_isAsciiDigit (hdigits.2 c List.mem_cons_self)).2
    omega
  · cases heq
    exact absurd hc (by decide)

theorem fitsWord_natCast : fitsWord (k : Int) = true ↔ k < 0x8000000000000000 := by
  rw [fitsWord, Bool.and_eq_true, decide_eq_true_iff, decide_eq_true_iff]
  omega

theorem fitsWord_neg_natCast : fitsWord (-(k : Int)) = true ↔ k ≤ 0x8000000000000000 := by
  rw [fitsWord, Bool.and_eq_true, decide_eq_true_iff, decide_eq_true_iff]
  omega

theorem isRespelled_iff_of_areDigits (h : AreDigits s) (hfits : ofDigits s < 0x8000000000000000) :
    IsRespelled s ↔ s.head? = some '0' ∧ s ≠ ['0'] := by
  have hint : int? s = some (ofDigits s : Int) :=
    int?_eq_some_iff.mpr ⟨fitsWord_natCast.mpr hfits, Or.inl ⟨h, rfl⟩⟩
  constructor
  · rintro (⟨-, hzero, hne, -⟩ | ⟨-, -, -⟩ | ⟨hword, hcase, -⟩)
    · exact ⟨hzero, hne⟩
    · exact absurd h (not_areDigits_minus _)
    · exact absurd ((not_int_of_recased hword hcase).symm.trans hint) (Option.some_ne_none _).symm
  · rintro ⟨hzero, hne⟩
    exact .padded h hzero hne hfits

theorem isRespelled_minus_iff (h : AreDigits digits)
    (hfits : ofDigits digits ≤ 0x8000000000000000) :
    IsRespelled ('-' :: digits) ↔ digits.head? = some '0' := by
  have hint : int? ('-' :: digits) = some (-(ofDigits digits : Int)) :=
    int?_eq_some_iff.mpr ⟨fitsWord_neg_natCast.mpr hfits, Or.inr ⟨digits, rfl, h, rfl⟩⟩
  constructor
  · rintro (⟨hdigits, -, -, -⟩ | ⟨-, hzero, -⟩ | ⟨hword, hcase, -⟩)
    · exact absurd hdigits (not_areDigits_minus _)
    · exact hzero
    · exact absurd ((not_int_of_recased hword hcase).symm.trans hint) (Option.some_ne_none _).symm
  · exact fun hzero => .minusPadded h hzero hfits

/-- What is no integer can only be another spelling of a truth value. -/
theorem isRespelled_iff_of_int?_eq_none (h : int? s = none) :
    IsRespelled s ↔ s.map Char.toLower ∈ words ∧ s ∉ words := by
  constructor
  · have hnone (n : Int) : int? s ≠ some n := h ▸ (Option.some_ne_none n).symm
    rintro (⟨hdigits, -, -, hfits⟩ | ⟨hdigits, -, hfits⟩ | ⟨hword, hcase, hne⟩)
    · exact absurd (int?_eq_some_iff.mpr ⟨fitsWord_natCast.mpr hfits, Or.inl ⟨hdigits, rfl⟩⟩)
        (hnone _)
    · exact absurd (int?_eq_some_iff.mpr
        ⟨fitsWord_neg_natCast.mpr hfits, Or.inr ⟨_, rfl, hdigits, rfl⟩⟩) (hnone _)
    · exact ⟨hcase ▸ hword, fun hs => hne ((mem_words_iff hcase hword).mp hs)⟩
  · rintro ⟨hword, hnot⟩
    exact .recased hword rfl fun heq => hnot (heq ▸ hword)

/-- **A value gives back what was spelled** unless that is another spelling. -/
theorem asText_ofSpelling_eq_iff (s : List Char) :
    (ofSpelling s).asText = String.ofList s ↔ ¬ IsRespelled s := by
  cases hint : int? s with
  | some n =>
    have hread : (ofSpelling s).asText = toString n := by rw [ofSpelling, hint, asText]
    rw [hread]
    obtain ⟨hfits, ⟨hdigits, rfl⟩ | ⟨digits, rfl, hdigits, rfl⟩⟩ := int?_eq_some_iff.mp hint
    · rw [toString_ofDigits_eq_iff hdigits,
        isRespelled_iff_of_areDigits hdigits (fitsWord_natCast.mp hfits), not_and_or, ne_eq,
        not_not]
    · rw [toString_neg_ofDigits_eq_iff hdigits,
        isRespelled_minus_iff hdigits (fitsWord_neg_natCast.mp hfits)]
  | none =>
    -- a truth value is written as the word it spells in small letters
    have hwritten {word : List Char} (hcase : s.map Char.toLower = word) (hword : word ∈ words) :
        String.ofList word = String.ofList s ↔ ¬ IsRespelled s := by
      rw [isRespelled_iff_of_int?_eq_none hint, hcase, and_iff_right hword, not_not,
        mem_words_iff hcase hword, String.ofList_inj]
      exact eq_comm
    rw [ofSpelling, hint]
    dsimp only
    split
    · next htrue => exact hwritten htrue (by decide)
    · next htrue =>
      split
      · next hfalse => exact hwritten hfalse (by decide)
      · next hfalse =>
        refine iff_of_true rfl fun h => ?_
        have hword := ((isRespelled_iff_of_int?_eq_none hint).mp h).1
        rcases List.mem_cons.mp hword with hcase | hrest
        · exact htrue hcase
        · exact hfalse (List.mem_singleton.mp hrest)

end DocCite.OptionValue
