import DocCite.Proofs.Author.Cuts
import DocCite.Proofs.Text.Pieces
import DocCite.Proofs.Text.Trimming
import DocCite.Style.Layout

/-!
# Lists of names with their `and`s replaced

The formatter that replaces the `and`s of a list cuts it at the text ` and `, the reader of names at
the word in any case, between any blanks and outside braces. So the formatter prints the names that
are read just if each `and` between names is spelled ` and `, none stands in braces and no name is
empty (`replacesAnds_iff`).
-/

namespace DocCite.Author

/-- **The `and`s are replaced**: the names that are read from the list, each as it stands there up
to blanks around it, are printed with commas between them and with `&` before the last one. -/
def ReplacesAnds (value : String) : Prop :=
  ∃ names : List String, names.map (fun name => Text.trim name.toList) = nameTexts value.toList ∧
    Formatter.authorAndsReplacer.apply value = joinWithLast ", " " & " names

/-- **A plainly separated list**: an `and` between names is lowercase with a space on each side,
none stands in braces, and there are no empty names. -/
structure IsPlainlySeparated (value : List Char) : Prop where
  spelled : ∀ before after, value = before ++ after → before.foldl braceDepth 0 = 0 →
    startsWithAnd after = true → " and ".toList <+: after
  outside : ∀ before after, value = before ++ after → " and ".toList <+: after →
    before.foldl braceDepth 0 = 0
  named : ∀ name ∈ cutNames 0 [] value, Text.trim name ≠ []

variable {depth : Nat} {part name s rest more x : List Char} {c : Char}
  {names parts xs ys : List (List Char)}

/-! ## Places where both cut -/

/-- From here on, both cut at the same places. -/
def CutsAlike (depth : Nat) (s : List Char) : Prop :=
  ∀ before after, s = before ++ after →
    ((before.foldl braceDepth depth = 0 ∧ startsWithAnd after = true) ↔ " and ".toList <+: after)

theorem startsWithAnd_append (rest : List Char) : startsWithAnd (" and ".toList ++ rest) = true :=
  rfl

theorem startsWithAnd_of_piece (h : " and ".toList <+: s) : startsWithAnd s = true := by
  obtain ⟨rest, rfl⟩ := h
  exact startsWithAnd_append rest

theorem cutsAlike_nil : CutsAlike depth [] := by
  intro before after heq
  obtain ⟨rfl, rfl⟩ := List.nil_eq_append_iff.mp heq
  exact iff_of_false (fun h => nomatch h.2) (by simp)

theorem cutsAlike_cons :
    CutsAlike depth (c :: s) ↔
      ((depth = 0 ∧ startsWithAnd (c :: s) = true) ↔ " and ".toList <+: c :: s) ∧
        CutsAlike (braceDepth depth c) s := by
  constructor
  · intro h
    exact ⟨h [] _ rfl, fun before after heq => h (c :: before) after (by rw [heq]; rfl)⟩
  · rintro ⟨hhead, htail⟩ before after heq
    cases before with
    | nil =>
      rw [List.nil_append] at heq
      exact heq ▸ hhead
    | cons b before =>
      obtain ⟨rfl, hafter⟩ := List.cons.inj heq
      exact htail before after hafter

/-- No `and` starts at a character that is no blank. -/
theorem cutsAlike_cons_of_not_blank (h : isSeparatorBlank c = false) :
    CutsAlike depth (c :: s) ↔ CutsAlike (braceDepth depth c) s := by
  have hnot : startsWithAnd (c :: s) = false := startsWithAnd_of_not_blank h
  have hpiece : ¬ " and ".toList <+: c :: s := fun hp => by
    rw [startsWithAnd_of_piece hp] at hnot
    cases hnot
  rw [cutsAlike_cons, and_iff_right (iff_of_false (by simp [hnot]) hpiece)]

/-- Behind a ` and ` both go on alike, and if they do so behind the space that they share, they did
so from the start. -/
theorem cutsAlike_append (hnot : startsWithAnd (' ' :: rest) = false) :
    CutsAlike 0 (" and ".toList ++ rest) ↔ CutsAlike 0 rest := by
  have hpiece : ¬ " and ".toList <+: ' ' :: rest := fun hp => by
    rw [startsWithAnd_of_piece hp] at hnot
    cases hnot
  have hstart : ((0 = 0 ∧ startsWithAnd (" and ".toList ++ rest) = true) ↔
      " and ".toList <+: " and ".toList ++ rest) :=
    iff_of_true ⟨rfl, startsWithAnd_append rest⟩ (List.prefix_append _ rest)
  have hblank : CutsAlike 0 (' ' :: rest) ↔ CutsAlike 0 rest := by
    rw [cutsAlike_cons, and_iff_right (iff_of_false (by simp [hnot]) hpiece)]
    rfl
  have hletters : CutsAlike 0 ("and".toList ++ ' ' :: rest) ↔ CutsAlike 0 (' ' :: rest) :=
    (cutsAlike_cons_of_not_blank (by decide)).trans <|
      (cutsAlike_cons_of_not_blank (by decide)).trans <|
        cutsAlike_cons_of_not_blank (by decide)
  exact (cutsAlike_cons.trans (and_iff_right hstart)).trans (hletters.trans hblank)

/-- The list is plainly separated where both cut alike. -/
theorem isPlainlySeparated_iff :
    IsPlainlySeparated s ↔ CutsAlike 0 s ∧ ∀ name ∈ cutNames 0 [] s, Text.trim name ≠ [] := by
  constructor
  · intro h
    refine ⟨fun before after heq => ⟨fun hand => ?_, fun hpiece => ?_⟩, h.named⟩
    · exact h.spelled before after heq hand.1 hand.2
    · exact ⟨h.outside before after heq hpiece, startsWithAnd_of_piece hpiece⟩
  · rintro ⟨halike, hnamed⟩
    exact ⟨fun before after heq hdepth hand => (halike before after heq).mp ⟨hdepth, hand⟩,
      fun before after heq hpiece => ((halike before after heq).mpr hpiece).1, hnamed⟩

/-! ## Parts between ` and ` -/

/-- The parts that the formatter reads; `part` is what was read of the first one, in reverse. -/
def cutAnds (part s : List Char) : List (List Char) := Text.cutAtPiece " and ".toList 0 part s

theorem cutAnds_append (part rest : List Char) :
    cutAnds part (" and ".toList ++ rest) = part.reverse :: cutAnds [] rest :=
  Text.cutAtPiece_append (by decide) part rest

theorem cutAnds_of_not_piece (h : ¬ " and ".toList <+: c :: s) :
    cutAnds part (c :: s) = cutAnds (c :: part) s := Text.cutAtPiece_of_not_prefix h

/-- Behind a ` and ` no name ends at once if none is empty, and the space belongs to a name. -/
theorem cutNames_append (hnamed : ∀ n ∈ cutNames 0 name (" and ".toList ++ rest), n ≠ []) :
    cutNames 0 name (" and ".toList ++ rest) = name.reverse :: cutNames 0 [' '] rest ∧
      startsWithAnd (' ' :: rest) = false := by
  have hcut : cutNames 0 name (" and ".toList ++ rest) =
      name.reverse :: cutNames 0 [] (' ' :: rest) :=
    cutNames_of_startsWithAnd (startsWithAnd_append rest) name
  have hnot : startsWithAnd (' ' :: rest) = false := by
    rw [Bool.eq_false_iff]
    intro hand
    rw [hcut, cutNames_of_startsWithAnd hand] at hnamed
    exact hnamed [] (by simp) rfl
  rw [hcut, cutNames_of_not (by simp [hnot])]
  exact ⟨rfl, hnot⟩

/-! ## Where both cut alike, the names are printed -/

/-- **Both read the same names** up to blanks. A name that is being read may begin with the space
of the `and` before it. -/
theorem map_trim_cutAnds (halike : CutsAlike depth s) (hname : name = part ∨ name = part ++ [' '])
    (hnamed : ∀ n ∈ cutNames depth name s, n ≠ []) :
    (cutAnds part s).map Text.trim = (cutNames depth name s).map Text.trim := by
  induction hn : s.length using Nat.strong_induction_on generalizing s depth part name with
  | _ n ih =>
    subst hn
    have htrim : Text.trim name.reverse = Text.trim part.reverse := by
      rcases hname with rfl | rfl
      · rfl
      · rw [List.reverse_append]
        rfl
    cases s with
    | nil => rw [cutNames_nil, List.map_singleton, htrim]; rfl
    | cons c s =>
      obtain ⟨hhead, htail⟩ := cutsAlike_cons.mp halike
      by_cases hpiece : " and ".toList <+: c :: s
      · obtain ⟨rfl, -⟩ := hhead.mpr hpiece
        obtain ⟨rest, hrest⟩ := hpiece
        rw [← hrest] at halike hnamed ⊢
        obtain ⟨hcut, hnot⟩ := cutNames_append hnamed
        rw [hcut] at hnamed ⊢
        have hshorter : rest.length < (c :: s).length := by
          rw [← hrest]
          simp
          omega
        have hrest' : (cutAnds [] rest).map Text.trim = (cutNames 0 [' '] rest).map Text.trim :=
          ih _ hshorter ((cutsAlike_append hnot).mp halike) (.inr rfl)
            (List.forall_mem_cons.mp hnamed).2 rfl
        rw [cutAnds_append, List.map_cons, List.map_cons, hrest', htrim]
      · have hcut := cutNames_of_not (hhead.not.mpr hpiece) name
        rw [hcut] at hnamed ⊢
        rw [cutAnds_of_not_piece hpiece]
        exact ih s.length (Nat.lt_succ_self _) htail
          (hname.imp (congrArg (c :: ·)) (congrArg (c :: ·))) hnamed rfl

/-! ## Printed names without their blanks -/

/-- What stands behind a name, before those that are left. -/
def sign (names : List (List Char)) : List Char :=
  match names.length with
  | 0 => []
  | 1 => ['&']
  | _ => [',']

/-- Names with a comma or `&` behind each but the last one. -/
def signed : List (List Char) → List Char
  | [] => []
  | name :: names => name ++ (sign names ++ signed names)

theorem joinWithLast_cons_cons_cons (separator lastSeparator text next third : String)
    (more : List String) :
    joinWithLast separator lastSeparator (text :: next :: third :: more) =
      text ++ separator ++ joinWithLast separator lastSeparator (next :: third :: more) := by
  obtain ⟨last, hlast⟩ := List.getLast?_isSome.mpr (List.cons_ne_nil third more) |>
    Option.isSome_iff_exists.mp
  simp only [joinWithLast, List.getLast?_cons_cons, List.dropLast_cons_cons, hlast]
  rw [String.intercalate_cons_cons]
  simp only [String.append_assoc]

/-- Of the printed names the blanks take away nothing but the signs between them. -/
theorem solid_joinWithLast (texts : List String) :
    Text.solid (joinWithLast ", " " & " texts).toList =
      signed (texts.map fun text => Text.solid text.toList) := by
  have hamp : Text.solid " & ".toList = ['&'] := by decide
  have hcomma : Text.solid ", ".toList = [','] := by decide
  induction texts with
  | nil => rfl
  | cons text texts ih =>
    match texts with
    | [] => exact (List.append_nil _).symm
    | [last] =>
      have hpair : joinWithLast ", " " & " [text, last] = text ++ " & " ++ last := rfl
      rw [hpair, String.toList_append, String.toList_append, Text.solid_append, Text.solid_append,
        hamp, List.append_assoc]
      simp [signed, sign]
    | next :: third :: more =>
      rw [joinWithLast_cons_cons_cons, String.toList_append, String.toList_append,
        Text.solid_append, Text.solid_append, ih, hcomma, List.append_assoc]
      rfl

/-- A name is followed by a sign, not by its own letters. -/
theorem signed_ne (hxs : xs ≠ []) (hc : c ≠ ',' ∧ c ≠ '&') :
    signed (x :: xs) ≠ signed ((x ++ c :: more) :: ys) := by
  intro heq
  rw [signed, signed, List.append_assoc, List.append_cancel_left_eq] at heq
  match xs with
  | [] => exact hxs rfl
  | [_] => exact hc.2 (List.cons.inj heq).1.symm
  | _ :: _ :: _ => exact hc.1 (List.cons.inj heq).1.symm

theorem solid_of_toLower {word : List Char} (hword : word.map Char.toLower = "and".toList) :
    Text.solid word = word := by
  refine List.filter_eq_self.mpr fun c hc => ?_
  have hall : ∀ c ∈ "andAND".toList, (!Text.isBlank c) = true := List.all_eq_true.mp (by decide)
  exact hall c (mem_letters_of_toLower (hword ▸ List.mem_map_of_mem hc))

/-- The names that are read, without their blanks. -/
def readNames (value : List Char) : List (List Char) :=
  ((cutNames 0 [] value).map Text.solid).filter fun name => !name.isEmpty

/-! ## Counting

Some characters of a list are counted: `lost` of them are in an `and`, and `gained` of them are a
sign. -/

section

variable {p : Char → Bool} {lost gained : Nat}

theorem countP_signed (hcomma : [','].countP p = gained) (hamp : ['&'].countP p = gained)
    (hne : names ≠ []) :
    (signed names).countP p + gained =
      names.flatten.countP p + names.length * gained := by
  induction names with
  | nil => exact absurd rfl hne
  | cons name names ih =>
    rw [signed, List.countP_append, List.countP_append, List.flatten_cons, List.countP_append,
      List.length_cons, Nat.succ_mul]
    match names with
    | [] => simp [sign, signed]
    | [last] =>
      have hrest := ih (List.cons_ne_nil _ _)
      have hsign : (sign [last]).countP p = gained := hamp
      omega
    | next :: third :: more =>
      have hrest := ih (List.cons_ne_nil _ _)
      have hsign : (sign (next :: third :: more)).countP p = gained := hcomma
      omega

theorem countP_join (hlost : (Text.solid "and".toList).countP p = lost) (hne : parts ≠ []) :
    (Text.solid (Text.join " and ".toList parts)).countP p + lost =
      (parts.map Text.solid).flatten.countP p + parts.length * lost := by
  have hpiece : Text.solid " and ".toList = Text.solid "and".toList := by decide
  induction parts with
  | nil => exact absurd rfl hne
  | cons part parts ih =>
    by_cases hnil : parts = []
    · subst hnil
      simp [Text.join]
    · have hrest := ih hnil
      rw [Text.join_cons_of_ne_nil _ _ hnil, Text.solid_append, Text.solid_append, hpiece,
        List.countP_append, List.countP_append, hlost, List.map_cons, List.flatten_cons,
        List.countP_append, List.length_cons, Nat.succ_mul]
      omega

theorem countP_cutNames
    (hlost : ∀ word, word.map Char.toLower = "and".toList → (Text.solid word).countP p = lost)
    (depth : Nat) (name s : List Char) :
    (Text.solid (name.reverse ++ s)).countP p + lost =
      ((cutNames depth name s).map Text.solid).flatten.countP p +
        (cutNames depth name s).length * lost := by
  induction hn : s.length using Nat.strong_induction_on generalizing s depth name with
  | _ n ih =>
    subst hn
    cases s with
    | nil => simp [cutNames_nil]
    | cons c s =>
      by_cases hand : depth = 0 ∧ startsWithAnd (c :: s) = true
      · obtain ⟨rfl, hand⟩ := hand
        obtain ⟨b, word, b', rest, heq, hb, hword, hb'⟩ := startsWithAnd_iff.mp hand
        obtain ⟨rfl, rfl⟩ := List.cons.inj heq
        have hlength : word.length = 3 := by
          rw [← List.length_map Char.toLower, hword]
          rfl
        have hdrop : (word ++ b' :: rest).drop 3 = b' :: rest := by rw [← hlength, List.drop_left]
        have hshorter : (b' :: rest).length < (c :: (word ++ b' :: rest)).length := by
          simp only [List.length_cons, List.length_append]
          omega
        have hrest := ih _ hshorter 0 [] (b' :: rest) rfl
        rw [cutNames_of_startsWithAnd hand, hdrop, Text.solid_append,
          Text.solid_cons_of_isBlank (isBlank_of_isSeparatorBlank hb), Text.solid_append,
          List.countP_append, List.countP_append, hlost word hword, List.map_cons,
          List.flatten_cons, List.countP_append, List.length_cons, Nat.succ_mul]
        rw [List.reverse_nil, List.nil_append] at hrest
        omega
      · rw [cutNames_of_not hand, ← ih s.length (Nat.lt_succ_self _) _ _ s rfl,
          List.reverse_cons, List.append_assoc]
        rfl

/-- What is printed from parts and from names is the same, and so is what they were cut from. -/
theorem countP_balance (gained : Nat) {value : List Char} (hcomma : [','].countP p = gained)
    (hamp : ['&'].countP p = gained)
    (hlost : ∀ word, word.map Char.toLower = "and".toList → (Text.solid word).countP p = lost)
    (hne : readNames value ≠ [])
    (heq : signed ((cutAnds [] value).map Text.solid) = signed (readNames value)) :
    ∃ printed read, printed + (cutAnds [] value).length * gained =
        read + (readNames value).length * gained ∧
      printed + (cutAnds [] value).length * lost = read + (cutNames 0 [] value).length * lost := by
  have hparts : cutAnds [] value ≠ [] := Text.cutAtPiece_ne_nil _ _ _ _
  have hjoin : Text.join " and ".toList (cutAnds [] value) = value :=
    Text.join_splitOnPiece " and ".toList value
  have hsolid : (cutAnds [] value).map Text.solid ≠ [] := List.map_eq_nil_iff.not.mpr hparts
  have hsigned := countP_signed hcomma hamp hsolid
  have hsigned' := countP_signed hcomma hamp hne
  have hcut := countP_join (hlost _ rfl) hparts
  have hcut' := countP_cutNames hlost 0 [] value
  have hread : (readNames value).flatten = ((cutNames 0 [] value).map Text.solid).flatten :=
    List.flatten_filter_not_isEmpty
  rw [heq, List.length_map] at hsigned
  rw [hread] at hsigned'
  rw [hjoin] at hcut
  rw [List.reverse_nil, List.nil_append] at hcut'
  exact ⟨((cutAnds [] value).map Text.solid).flatten.countP p,
    ((cutNames 0 [] value).map Text.solid).flatten.countP p, by omega, by omega⟩

end

/-- **Cut equally often**, and no name is empty, if the same is printed: an `and` has one letter `a`
and a sign has none, and a sign is shorter than an `and`. -/
theorem length_eq_of_signed_eq {value : List Char} (hne : readNames value ≠ [])
    (heq : signed ((cutAnds [] value).map Text.solid) = signed (readNames value)) :
    (cutAnds [] value).length = (cutNames 0 [] value).length ∧
      readNames value = (cutNames 0 [] value).map Text.solid := by
  -- in any case of its letters the word has as many characters of a kind
  have hcount (q : Char → Bool) (word : List Char) (hword : word.map Char.toLower = "and".toList) :
      (Text.solid word).countP (q ∘ Char.toLower) = "and".toList.countP q := by
    rw [solid_of_toLower hword, ← List.countP_map, hword]
  obtain ⟨printed, read, hsigns, hands⟩ :=
    countP_balance 0 (by decide) (by decide) (hcount (· = 'a')) hne heq
  obtain ⟨printed', read', hsigns', hands'⟩ :=
    countP_balance 1 (by decide) (by decide) (hcount fun _ => true) hne heq
  have hone : "and".toList.countP (· = 'a') = 1 := by decide
  have hthree : "and".toList.countP (fun _ => true) = 3 := by decide
  rw [hone] at hands
  rw [hthree] at hands'
  have hlength : (cutAnds [] value).length = (cutNames 0 [] value).length := by omega
  have hkept : (readNames value).length = ((cutNames 0 [] value).map Text.solid).length := by
    rw [List.length_map]
    omega
  exact ⟨hlength, List.filter_eq_self.mpr (List.length_filter_eq_length_iff.mp hkept)⟩

/-! ## Where one of them cuts alone, something else is printed -/

theorem solid_begun {blank letter : Char} (hblank : Text.isBlank blank = true)
    (hletter : Text.isBlank letter = false) :
    Text.solid ((letter :: blank :: part).reverse ++ more) =
      Text.solid part.reverse ++ letter :: Text.solid more := by
  simp only [List.reverse_cons, List.append_assoc, Text.solid_append, List.singleton_append,
    Text.solid_cons_of_isBlank hblank, Text.solid_cons_of_not_isBlank hletter, Text.solid_nil]

/-- The parts go on with the word where only the reader cuts. -/
theorem exists_map_cutAnds_eq_cons (hand : startsWithAnd (c :: s) = true)
    (hpiece : ¬ " and ".toList <+: c :: s) :
    ∃ letter more parts, letter ∈ "andAND".toList ∧
      (cutAnds part (c :: s)).map Text.solid =
        (Text.solid part.reverse ++ letter :: more) :: parts := by
  obtain ⟨b, word, b', rest, heq, hb, hword, hb'⟩ := startsWithAnd_iff.mp hand
  obtain ⟨rfl, rfl⟩ := List.cons.inj heq
  cases word with
  | nil => cases hword
  | cons letter word =>
    have hletter : letter ∈ "andAND".toList :=
      mem_letters_of_toLower (hword ▸ List.mem_map_of_mem List.mem_cons_self)
    have hblank : Text.isBlank letter = false ∧ letter ≠ ' ' := by
      have hall : ∀ c ∈ "andAND".toList, Text.isBlank c = false ∧ c ≠ ' ' :=
        List.all_iff_forall_prop.mp (by decide)
      exact hall letter hletter
    have hgoes : ¬ " and ".toList <+: letter :: (word ++ b' :: rest) := by
      rintro ⟨after, hafter⟩
      exact hblank.2 (List.cons.inj hafter).1.symm
    obtain ⟨more, parts, hparts⟩ :=
      Text.exists_cutAtPiece_eq_cons " and ".toList (letter :: c :: part) (word ++ b' :: rest) 0
    refine ⟨letter, Text.solid more, parts.map Text.solid, hletter, ?_⟩
    rw [cutAnds_of_not_piece hpiece, List.cons_append, cutAnds_of_not_piece hgoes, cutAnds,
      hparts, List.map_cons, solid_begun (isBlank_of_isSeparatorBlank hb) hblank.1]

/-- A name goes on with the word where only the formatter cuts. -/
theorem exists_map_cutNames_eq_cons (hdepth : depth ≠ 0) (name rest : List Char) :
    ∃ more names, (cutNames depth name (" and ".toList ++ rest)).map Text.solid =
      (Text.solid name.reverse ++ 'a' :: more) :: names := by
  have hnot (s : List Char) : ¬ (depth = 0 ∧ startsWithAnd s = true) := fun h => hdepth h.1
  obtain ⟨more, names, hnames⟩ :=
    exists_cutNames_eq_cons depth ('a' :: ' ' :: name) ("nd ".toList ++ rest)
  have hcut : cutNames depth name (" and ".toList ++ rest) =
      cutNames depth ('a' :: ' ' :: name) ("nd ".toList ++ rest) :=
    (cutNames_of_not (hnot _) name).trans (cutNames_of_not (hnot _) _)
  refine ⟨Text.solid more, names.map Text.solid, ?_⟩
  rw [hcut, hnames, List.map_cons, solid_begun (by decide) (by decide)]

/-- **Both cut at the same places** if the same is printed, where no name is empty. -/
theorem cutsAlike_of_signed_eq (hread : Text.solid part.reverse = Text.solid name.reverse)
    (hnamed : ∀ n ∈ cutNames depth name s, n ≠ [])
    (hlength : (cutAnds part s).length = (cutNames depth name s).length)
    (heq : signed ((cutAnds part s).map Text.solid) =
      signed ((cutNames depth name s).map Text.solid)) : CutsAlike depth s := by
  induction hn : s.length using Nat.strong_induction_on generalizing s depth part name with
  | _ n ih =>
    subst hn
    cases s with
    | nil => exact cutsAlike_nil
    | cons c s =>
      by_cases hpiece : " and ".toList <+: c :: s
      · obtain ⟨rest, hrest⟩ := hpiece
        rw [← hrest] at hnamed hlength heq ⊢
        rw [cutAnds_append] at hlength heq
        by_cases hdepth : depth = 0
        · subst hdepth
          obtain ⟨hcut, hnot⟩ := cutNames_append hnamed
          rw [hcut] at hnamed hlength heq
          have hshorter : rest.length < (c :: s).length := by
            rw [← hrest]
            simp
            omega
          have hlength' : (cutAnds [] rest).length = (cutNames 0 [' '] rest).length :=
            Nat.succ.inj hlength
          have hsign : sign ((cutAnds [] rest).map Text.solid) =
              sign ((cutNames 0 [' '] rest).map Text.solid) := by
            simp only [sign, List.length_map, hlength']
          rw [List.map_cons, List.map_cons, signed, signed, hread, List.append_cancel_left_eq,
            hsign, List.append_cancel_left_eq] at heq
          exact (cutsAlike_append hnot).mpr <|
            ih _ hshorter (by decide) (List.forall_mem_cons.mp hnamed).2 hlength' heq rfl
        · -- only the formatter cuts
          obtain ⟨more, names, hnames⟩ := exists_map_cutNames_eq_cons hdepth name rest
          rw [List.map_cons, hread, hnames] at heq
          have hparts : (cutAnds [] rest).map Text.solid ≠ [] :=
            List.map_eq_nil_iff.not.mpr (Text.cutAtPiece_ne_nil _ _ _ _)
          exact absurd heq (signed_ne hparts (by decide))
      · by_cases hand : depth = 0 ∧ startsWithAnd (c :: s) = true
        · -- only the reader cuts
          obtain ⟨rfl, hand⟩ := hand
          obtain ⟨letter, more, parts, hletter, hparts⟩ := exists_map_cutAnds_eq_cons hand hpiece
          rw [cutNames_of_startsWithAnd hand, List.map_cons, ← hread, hparts] at heq
          obtain ⟨_, _, hnames⟩ := exists_cutNames_eq_cons 0 [] (s.drop 3)
          have hnot : ∀ c ∈ "andAND".toList, c ≠ ',' ∧ c ≠ '&' :=
            List.all_iff_forall_prop.mp (by decide)
          exact absurd heq.symm (signed_ne (by simp [hnames]) (hnot letter hletter))
        · have hcut := cutNames_of_not hand name
          rw [hcut] at hnamed hlength heq
          rw [cutAnds_of_not_piece hpiece] at hlength heq
          refine cutsAlike_cons.mpr ⟨iff_of_false hand hpiece, ?_⟩
          refine ih s.length (Nat.lt_succ_self _) ?_ hnamed hlength heq rfl
          rw [List.reverse_cons, List.reverse_cons, Text.solid_append, Text.solid_append, hread]

/-! ## Printed lists -/

theorem map_solid_nameTexts (value : List Char) :
    (nameTexts value).map Text.solid = readNames value := by
  have hsame : (fun name => !name.isEmpty) ∘ Text.trim =
      (fun name : List Char => !name.isEmpty) ∘ Text.solid := by
    funext name
    refine congrArg not (Bool.eq_iff_iff.mpr ?_)
    rw [List.isEmpty_iff, List.isEmpty_iff, Text.trim_eq_nil_iff]
  rw [nameTexts, readNames, List.filter_map, List.filter_map, hsame, List.map_map]
  exact List.map_congr_left fun name _ => Text.solid_trim name

theorem solid_replaceAnds (value : String) :
    Text.solid (Formatter.replaceAnds value).toList =
      signed ((cutAnds [] value.toList).map Text.solid) := by
  rw [Formatter.replaceAnds, solid_joinWithLast, List.map_map]
  refine congrArg signed ?_
  exact List.map_congr_left fun part _ => congrArg Text.solid String.toList_ofList

/-- **The `and`s are replaced just in plainly separated lists**, if there is a name at all. -/
theorem replacesAnds_iff {value : String} (hne : nameTexts value.toList ≠ []) :
    ReplacesAnds value ↔ IsPlainlySeparated value.toList := by
  rw [isPlainlySeparated_iff]
  constructor
  · rintro ⟨names, hnames, hprinted⟩
    have hread : names.map (fun name => Text.solid name.toList) = readNames value.toList := by
      rw [← map_solid_nameTexts, ← hnames, List.map_map]
      exact List.map_congr_left fun name _ => (Text.solid_trim _).symm
    have hreadne : readNames value.toList ≠ [] := by
      rw [← map_solid_nameTexts]
      exact List.map_eq_nil_iff.not.mpr hne
    have heq : signed ((cutAnds [] value.toList).map Text.solid) =
        signed (readNames value.toList) := by
      rw [← solid_replaceAnds, ← hread, ← solid_joinWithLast, ← hprinted]
      rfl
    obtain ⟨hlength, hall⟩ := length_eq_of_signed_eq hreadne heq
    have hnamed : ∀ name ∈ cutNames 0 [] value.toList, Text.solid name ≠ [] := by
      intro name hname
      have hmem : Text.solid name ∈ readNames value.toList :=
        hall ▸ List.mem_map_of_mem hname
      simpa using (List.mem_filter.mp hmem).2
    rw [hall] at heq
    have hsome : ∀ name ∈ cutNames 0 [] value.toList, name ≠ [] := by
      rintro name hname rfl
      exact hnamed [] hname Text.solid_nil
    exact ⟨cutsAlike_of_signed_eq rfl hsome hlength heq,
      fun name hname => Text.trim_eq_nil_iff.not.mpr (hnamed name hname)⟩
  · rintro ⟨halike, hnamed⟩
    have hsome : ∀ name ∈ cutNames 0 [] value.toList, name ≠ [] := by
      rintro name hname rfl
      exact hnamed [] hname rfl
    refine ⟨(cutAnds [] value.toList).map String.ofList, ?_, rfl⟩
    have hkept : ∀ name ∈ (cutNames 0 [] value.toList).map Text.trim,
        (!name.isEmpty) = true :=
      List.forall_mem_map.mpr fun name hname => by simp [hnamed name hname]
    rw [nameTexts, List.filter_eq_self.mpr hkept,
      ← map_trim_cutAnds halike (.inl rfl) hsome, List.map_map]
    exact List.map_congr_left fun part _ => congrArg Text.trim String.toList_ofList

theorem replacesAnds_iff_threeNames :
    nameTexts "Smith, J. and  Doe, A. and Anders, B.".toList ≠ [] ∧
      ReplacesAnds "Smith, J. and  Doe, A. and Anders, B." ∧
        IsPlainlySeparated "Smith, J. and  Doe, A. and Anders, B.".toList := by
  have hne : nameTexts "Smith, J. and  Doe, A. and Anders, B.".toList ≠ [] := by decide +kernel
  have hreplaces : ReplacesAnds "Smith, J. and  Doe, A. and Anders, B." :=
    ⟨["Smith, J.", " Doe, A.", "Anders, B."], by decide +kernel, by decide +kernel⟩
  exact ⟨hne, hreplaces, (replacesAnds_iff hne).mp hreplaces⟩

/-- **Braces do not protect an `and`** from being replaced. -/
theorem not_replacesAnds_bracedNames :
    nameTexts "\x7bBarnes and Noble\x7d and Smith, J.".toList =
        ["\x7bBarnes and Noble\x7d".toList, "Smith, J.".toList] ∧
      Formatter.authorAndsReplacer.apply "\x7bBarnes and Noble\x7d and Smith, J." =
        "\x7bBarnes, Noble\x7d & Smith, J." ∧
      ¬ ReplacesAnds "\x7bBarnes and Noble\x7d and Smith, J." := by
  have htexts : nameTexts "\x7bBarnes and Noble\x7d and Smith, J.".toList =
      ["\x7bBarnes and Noble\x7d".toList, "Smith, J.".toList] := by decide +kernel
  have hprints : Formatter.authorAndsReplacer.apply "\x7bBarnes and Noble\x7d and Smith, J." =
      "\x7bBarnes, Noble\x7d & Smith, J." := by decide +kernel
  refine ⟨htexts, hprints, ?_⟩
  rintro ⟨names, hnames, hprinted⟩
  have hsolid : names.map (fun name => Text.solid name.toList) =
      ["\x7bBarnesandNoble\x7d".toList, "Smith,J.".toList] := by
    have hmap := congrArg (List.map Text.solid) (hnames.trans htexts)
    rw [List.map_map] at hmap
    exact (List.map_congr_left fun name _ => (Text.solid_trim _).symm).trans hmap
  have heq := congrArg (fun text => Text.solid text.toList) (hprints.symm.trans hprinted)
  simp only [solid_joinWithLast, hsolid] at heq
  exact absurd heq (by decide)

end DocCite.Author
