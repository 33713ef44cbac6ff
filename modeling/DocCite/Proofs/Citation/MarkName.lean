import DocCite.Citation.Group
import DocCite.Citation.MarkName
import DocCite.Proofs.Text.Pieces
import Mathlib.Data.List.Basic

/-!
# Names of marks are read back

The name of a mark is written from the kind and the keys of its group, and these are all that is
ever read from it. Names that can be read are those of one form (`MarkName.Spells`), which leaves no
choice how to take a name apart. Keys that were read from a name can be written again, in any
selection, and the new name says just what was written (`parse?_fresh`). Page info that was read is
written as it is.
-/

namespace DocCite

namespace MarkName

/-- A key that a name can hold: not empty, on one line and without a comma. -/
structure IsWritable (key : String) : Prop where
  ne_empty : key.toList ≠ []
  no_comma : ',' ∉ key.toList
  no_break : '\n' ∉ key.toList

instance (key : String) : Decidable (IsWritable key) :=
  decidable_of_iff (key.toList ≠ [] ∧ ',' ∉ key.toList ∧ '\n' ∉ key.toList)
    ⟨fun h => ⟨h.1, h.2.1, h.2.2⟩, fun h => ⟨h.ne_empty, h.no_comma, h.no_break⟩⟩

/-! ## The parts of a name -/

theorem isAsciiDigit_eq (c : Char) : Text.isAsciiDigit c = c.isDigit := by
  rw [Bool.eq_iff_iff, Text.isAsciiDigit, Char.isDigit, Bool.and_eq_true, Bool.and_eq_true]
  simp only [decide_eq_true_eq]
  exact Iff.rfl

theorem isDecimalDigit_of_isDigit {c : Char} (h : c.isDigit = true) :
    Text.isDecimalDigit c = true := by
  rw [← isAsciiDigit_eq, Text.isAsciiDigit, Bool.and_eq_true, decide_eq_true_eq,
    decide_eq_true_eq] at h
  rw [Text.isDecimalDigit, Text.digitRanges, Text.CodeRanges.has_cons, if_neg (by omega),
    if_pos h.2]

/-- **The serial that digits denote**: none without digits, otherwise their number, if it is a word
of 32 bits. -/
def Denotes (digits : List Char) : Option Nat → Prop
  | none => digits = []
  | some i =>
    digits ≠ [] ∧ (∀ c ∈ digits, c.isDigit = true) ∧ Nat.ofDigitChars 10 digits 0 = i ∧
      i < serialBound

/-- Digits are read as the serial that they denote. -/
theorem serial?_eq_some_iff {digits : List Char} {serial : Option Nat} :
    serial? digits = some serial ↔ Denotes digits serial := by
  have hread : (digits.all Text.isAsciiDigit && decide (ofDigits digits < serialBound)) = true ↔
      (∀ c ∈ digits, c.isDigit = true) ∧ Nat.ofDigitChars 10 digits 0 < serialBound := by
    simp only [Bool.and_eq_true, List.all_eq_true, isAsciiDigit_eq, decide_eq_true_eq]
    exact Iff.rfl
  by_cases hempty : digits = []
  · cases serial <;> simp [serial?, Denotes, hempty]
  · rw [serial?, if_neg (by simpa using hempty)]
    cases serial with
    | none =>
      refine iff_of_false ?_ hempty
      split <;> simp
    | some i =>
      constructor
      · intro h
        split at h
        · next hdigits =>
          cases h
          exact ⟨hempty, (hread.mp hdigits).1, rfl, (hread.mp hdigits).2⟩
        · cases h
      · rintro ⟨-, hdigits, rfl, hlt⟩
        exact if_pos (hread.mpr ⟨hdigits, hlt⟩)

theorem Denotes.isDigit {digits : List Char} {serial : Option Nat} (h : Denotes digits serial) :
    ∀ c ∈ digits, c.isDigit = true := by
  cases serial with
  | none =>
    rw [Denotes] at h
    subst h
    exact fun _ hc => absurd hc List.not_mem_nil
  | some i => exact h.2.1

/-- **How a name is cut into its parts**: the digits end before the first underscore, and the kind
is one sign, so there is one way to do it. -/
theorem split?_eq_some_iff {name digits keys : List Char} {kind : CitationKind} :
    split? name = some (digits, kind, keys) ↔
      name = stem.toList ++ (digits ++ '_' :: Nat.digitChar kind.code :: '_' :: keys) ∧
        (∀ c ∈ digits, Text.isDecimalDigit c = true) ∧ '\n' ∉ keys := by
  constructor
  · intro h
    simp only [split?, Option.bind_eq_bind, Option.bind_eq_some_iff] at h
    obtain ⟨body, hbody, h⟩ := h
    split at h
    · next rest digit keys' hrest =>
      split at h
      · cases h
      · next hline =>
        rw [List.contains_iff_mem] at hline
        have hcut : body = body.takeWhile Text.isDecimalDigit ++ '_' :: digit :: '_' :: keys' := by
          rw [← hrest, List.takeWhile_append_dropWhile]
        have hdigits : ∀ c ∈ body.takeWhile Text.isDecimalDigit, Text.isDecimalDigit c = true :=
          List.all_eq_true.mp List.all_takeWhile
        rw [Text.eq_append_of_after? hbody]
        split at h <;> cases h <;> exact ⟨congrArg _ hcut, hdigits, hline⟩
    · cases h
  · rintro ⟨rfl, hdigits, hline⟩
    have hunderscore : ¬ Text.isDecimalDigit '_' = true := by decide
    have hcontains : keys.contains '\n' = false := by
      rwa [List.contains_eq_mem, decide_eq_false_iff_not]
    rw [split?, Text.after?_append]
    simp only [Option.bind_eq_bind, Option.bind_some]
    rw [List.takeWhile_append_of_pos hdigits, List.dropWhile_append_of_pos hdigits,
      List.takeWhile_cons_of_neg hunderscore, List.dropWhile_cons_of_neg hunderscore,
      List.append_nil]
    simp only [hcontains]
    cases kind <;> rfl

/-! ## Reading what was written -/

/-- The digits of a serial. -/
def serialDigits (serial : Option Nat) : List Char :=
  match serial with
  | some i => Nat.toDigits 10 i
  | none => []

theorem denotes_serialDigits {serial : Option Nat} (h : ∀ i ∈ serial, i < serialBound) :
    Denotes (serialDigits serial) serial := by
  cases serial with
  | none => rfl
  | some i =>
    exact ⟨Nat.toDigits_ne_nil, fun c hc => Nat.isDigit_of_mem_toDigits (by decide) (by decide) hc,
      Nat.ofDigitChars_toDigits (by decide) (by decide), h i rfl⟩

/-- The keys of a name, with commas between. -/
def keyList (keys : List String) : List Char := Text.join [','] (keys.map String.toList)

theorem toList_intercalate_keys (keys : List String) :
    (",".intercalate keys).toList = keyList keys := by
  rw [String.toList_intercalate, Text.intercalate_eq_join]
  rfl

/-- The code of a kind is one digit. -/
theorem toList_code (kind : CitationKind) :
    (toString kind.code).toList = [Nat.digitChar kind.code] := by
  cases kind <;> rfl

theorem toList_render (n : MarkName) :
    n.render.toList =
      stem.toList ++ (serialDigits n.serial ++
        '_' :: Nat.digitChar n.kind.code :: '_' :: keyList n.keys) := by
  rw [render, String.toList_append, String.toList_append, String.toList_append,
    String.toList_append, String.toList_append, toList_code, toList_intercalate_keys]
  cases n.serial with
  | none => simp [serialDigits]
  | some i => simp [serialDigits]

theorem mem_keyList {keys : List String} {c : Char} (h : c ∈ keyList keys) :
    c = ',' ∨ ∃ key ∈ keys, c ∈ key.toList := by
  induction keys with
  | nil => exact absurd h List.not_mem_nil
  | cons key keys ih =>
    cases keys with
    | nil => exact Or.inr ⟨key, List.mem_cons_self, h⟩
    | cons next rest =>
      rw [keyList, List.map_cons, Text.join_cons_of_ne_nil _ _ (by simp), List.append_assoc,
        List.mem_append] at h
      rcases h with hkey | hrest
      · exact Or.inr ⟨key, List.mem_cons_self, hkey⟩
      · rcases List.mem_cons.mp hrest with rfl | hrest
        · exact Or.inl rfl
        · rcases ih hrest with heq | ⟨k, hk, hc⟩
          · exact Or.inl heq
          · exact Or.inr ⟨k, List.mem_cons_of_mem _ hk, hc⟩

/-- **A name says what was written into it.** -/
theorem parse?_render {n : MarkName} (hne : n.keys ≠ []) (hkeys : ∀ key ∈ n.keys, IsWritable key)
    (hserial : ∀ i ∈ n.serial, i < serialBound) : parse? n.render = some n := by
  have hdenotes := denotes_serialDigits hserial
  have hline : '\n' ∉ keyList n.keys := by
    intro hmem
    rcases mem_keyList hmem with h | ⟨key, hkey, h⟩
    · exact absurd h (by decide)
    · exact (hkeys key hkey).no_break h
  have hsplit : split? n.render.toList = some (serialDigits n.serial, n.kind, keyList n.keys) :=
    split?_eq_some_iff.mpr ⟨toList_render n,
      fun c hc => isDecimalDigit_of_isDigit (hdenotes.isDigit c hc), hline⟩
  have hparts : Text.splitOn ',' (keyList n.keys) = n.keys.map String.toList := by
    refine Text.splitOn_join (by simpa using hne) fun part hpart => ?_
    obtain ⟨key, hkey, rfl⟩ := List.mem_map.mp hpart
    exact (hkeys key hkey).no_comma
  have hfull : (n.keys.map String.toList).any List.isEmpty = false := by
    rw [List.any_eq_false]
    intro part hpart
    obtain ⟨key, hkey, rfl⟩ := List.mem_map.mp hpart
    simpa using (hkeys key hkey).ne_empty
  have hback : (n.keys.map String.toList).map String.ofList = n.keys := by
    rw [List.map_map]
    exact (List.map_congr_left fun key _ => String.ofList_toList).trans (List.map_id _)
  rw [parse?, hsplit]
  simp only [Option.bind_eq_bind, Option.bind_some, serial?_eq_some_iff.mpr hdenotes, hparts, hfull,
    hback, Bool.false_eq_true, if_false]

/-- What is read from a name, part by part. -/
theorem parse?_eq_some_iff {name : String} {n : MarkName} :
    parse? name = some n ↔ ∃ digits keys : List Char,
      split? name.toList = some (digits, n.kind, keys) ∧ Denotes digits n.serial ∧
        (∀ part ∈ Text.splitOn ',' keys, part ≠ []) ∧
        n.keys = (Text.splitOn ',' keys).map String.ofList := by
  constructor
  · intro h
    simp only [parse?, Option.bind_eq_bind, Option.bind_eq_some_iff] at h
    obtain ⟨⟨digits, kind, keys⟩, hsplit, serial, hserial, h⟩ := h
    split at h
    · cases h
    · next hfull =>
      cases h
      rw [Bool.not_eq_true, List.any_eq_false] at hfull
      exact ⟨digits, keys, hsplit, serial?_eq_some_iff.mp hserial,
        fun part hpart => by simpa using hfull part hpart, rfl⟩
  · rintro ⟨digits, keys, hsplit, hdenotes, hfull, hkeys⟩
    have hany : (Text.splitOn ',' keys).any List.isEmpty = false :=
      List.any_eq_false.mpr fun part hpart => by simpa using hfull part hpart
    rw [parse?, hsplit]
    simp only [Option.bind_eq_bind, Option.bind_some, serial?_eq_some_iff.mpr hdenotes, hany,
      ← hkeys, Bool.false_eq_true, if_false]

/-- Keys that were read from a name can be written into another one. -/
theorem isWritable_of_parse? {name : String} {n : MarkName} (h : parse? name = some n) :
    n.keys ≠ [] ∧ ∀ key ∈ n.keys, IsWritable key := by
  obtain ⟨digits, keys, hsplit, -, hfull, hkeys⟩ := parse?_eq_some_iff.mp h
  have hline := (split?_eq_some_iff.mp hsplit).2.2
  rw [hkeys]
  refine ⟨by simpa using Text.splitOn_ne_nil ',' keys, fun key hkey => ?_⟩
  obtain ⟨part, hpart, rfl⟩ := List.mem_map.mp hkey
  obtain ⟨hcomma, hmem⟩ := Text.not_mem_of_mem_splitOn hpart
  refine ⟨?_, ?_, ?_⟩ <;> rw [String.toList_ofList]
  · exact hfull part hpart
  · exact hcomma
  · exact fun hbreak => hline (hmem _ hbreak)

/-- **A fresh name says the kind and the keys that it was made for.** -/
theorem parse?_fresh {keys : List String} (hne : keys ≠ [])
    (hkeys : ∀ key ∈ keys, IsWritable key) (kind : CitationKind) (used : List String) :
    ∃ serial, parse? (fresh keys kind used) = some ⟨serial, kind, keys⟩ := by
  have hnone : parse? (render ⟨none, kind, keys⟩) = some ⟨none, kind, keys⟩ :=
    parse?_render hne hkeys fun i hi => by cases hi
  rw [fresh]
  split
  · exact ⟨none, hnone⟩
  · simp only
    split
    · next i hi =>
      have hlt : i < min (used.length + 1) serialBound :=
        List.mem_range.mp (List.mem_of_find?_eq_some hi)
      refine ⟨some i, parse?_render hne hkeys fun j hj => ?_⟩
      cases hj
      exact Nat.lt_of_lt_of_le hlt (Nat.min_le_right _ _)
    · exact ⟨none, hnone⟩

/-! ## The form of a name -/

/-- **The names that say something**: the stem, digits for the serial, the digit of the kind and
the keys, none of them empty, with commas between and in one line. -/
def Spells (name : String) (n : MarkName) : Prop :=
  ∃ digits keys : String,
    name = stem ++ digits ++ "_" ++ toString n.kind.code ++ "_" ++ keys ∧
      Denotes digits.toList n.serial ∧ '\n' ∉ keys.toList ∧
      (∀ part ∈ keys.toList.splitOn ',', part ≠ []) ∧
      n.keys = (keys.toList.splitOn ',').map String.ofList

/-- **Names are read as they are spelled, and a fresh name spells what it was made for**: a name is
read just when it has the form, as what its parts say; and the name for new keys is read as these
keys and their kind, whatever names are used. -/
theorem parse?_decodes :
    (∀ name n, parse? name = some n ↔ Spells name n) ∧
      ∀ keys, keys ≠ [] → (∀ key ∈ keys, IsWritable key) → ∀ kind used,
        ∃ serial, parse? (fresh keys kind used) = some ⟨serial, kind, keys⟩ := by
  refine ⟨fun name n => ?_, fun keys hne hkeys => parse?_fresh hne hkeys⟩
  have hform (digits keys : String) :
      name = stem ++ digits ++ "_" ++ toString n.kind.code ++ "_" ++ keys ↔
        name.toList = stem.toList ++
          (digits.toList ++ '_' :: Nat.digitChar n.kind.code :: '_' :: keys.toList) := by
    rw [← String.toList_inj]
    simp only [String.toList_append, toList_code, List.append_assoc]
    exact Iff.rfl
  rw [parse?_eq_some_iff]
  constructor
  · rintro ⟨digits, keys, hsplit, hdenotes, hfull, hkeys⟩
    obtain ⟨hname, -, hline⟩ := split?_eq_some_iff.mp hsplit
    rw [Text.splitOn_eq] at hfull hkeys
    refine ⟨String.ofList digits, String.ofList keys, (hform _ _).mpr ?_, ?_⟩
    · rwa [String.toList_ofList, String.toList_ofList]
    · rw [String.toList_ofList, String.toList_ofList]
      exact ⟨hdenotes, hline, hfull, hkeys⟩
  · -- a digit that denotes something is a digit of the pattern as well, which accepts more of them
    rintro ⟨digits, keys, hname, hdenotes, hline, hfull, hkeys⟩
    have hdigits : ∀ c ∈ digits.toList, Text.isDecimalDigit c = true := fun c hc =>
      isDecimalDigit_of_isDigit (hdenotes.isDigit c hc)
    refine ⟨digits.toList, keys.toList, ?_, hdenotes, ?_⟩
    · exact split?_eq_some_iff.mpr ⟨(hform _ _).mp hname, hdigits, hline⟩
    · rw [Text.splitOn_eq]
      exact ⟨hfull, hkeys⟩

/-- Keys with underscores, digits and the stem itself, whose first name is taken. -/
theorem parse?_decodes_ambiguousKeys :
    (["1_a", "JR_cite_2_b"] ≠ [] ∧ ∀ key ∈ ["1_a", "JR_cite_2_b"], IsWritable key) ∧
      ∃ serial,
        parse? (fresh ["1_a", "JR_cite_2_b"] .inText ["JR_cite_2_1_a,JR_cite_2_b"]) =
          some ⟨serial, .inText, ["1_a", "JR_cite_2_b"]⟩ := by
  have hne : ["1_a", "JR_cite_2_b"] ≠ [] := by decide
  have hkeys : ∀ key ∈ ["1_a", "JR_cite_2_b"], IsWritable key := by decide
  exact ⟨⟨hne, hkeys⟩, parse?_decodes.2 _ hne hkeys .inText _⟩

end MarkName

end DocCite
