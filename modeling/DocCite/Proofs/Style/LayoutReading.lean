import DocCite.Style.LayoutParser
import DocCite.Proofs.Text.Pieces

/-!
# What the parser of layouts reads

The parser returns rests with a proof that they are short enough; `ReadsOne` and `ReadsMany` say
what is read and what is left. There is one rule for each kind of part. A name is read up to the
first character that is none of a name, so what follows a field must not go on like one, and a
keyword is told by the whole name behind the backslash.
-/

namespace DocCite.LayoutNode

/-! ## Names and keywords -/

/-- A text that does not begin with a character of a kind. -/
def StopsAt (p : Char → Bool) (s : List Char) : Prop := ∀ c ∈ s.head?, p c = false

theorem stopsAt_cons {p : Char → Bool} {c : Char} (h : p c = false) (rest : List Char) :
    StopsAt p (c :: rest) := by
  intro d hd
  cases hd
  exact h

theorem StopsAt.append {p : Char → Bool} {s : List Char} (h : StopsAt p s) (hne : s ≠ [])
    (rest : List Char) : StopsAt p (s ++ rest) := by
  obtain ⟨c, s, rfl⟩ := List.exists_cons_of_ne_nil hne
  exact stopsAt_cons (h c rfl) (s ++ rest)

theorem StopsAt.takeWhile_eq {p : Char → Bool} {name rest : List Char} (h : StopsAt p rest)
    (hname : ∀ c ∈ name, p c = true) : (name ++ rest).takeWhile p = name := by
  rw [List.takeWhile_append_of_pos hname]
  cases rest with
  | nil => rw [List.takeWhile_nil, List.append_nil]
  | cons c rest =>
    rw [List.takeWhile_cons_of_neg (Bool.eq_false_iff.mp (h c rfl)), List.append_nil]

theorem StopsAt.dropWhile_eq {p : Char → Bool} {name rest : List Char} (h : StopsAt p rest)
    (hname : ∀ c ∈ name, p c = true) : (name ++ rest).dropWhile p = rest := by
  rw [List.dropWhile_append_of_pos hname]
  cases rest with
  | nil => rfl
  | cons c rest => rw [List.dropWhile_cons_of_neg (Bool.eq_false_iff.mp (h c rfl))]

/-- A text that is not empty, all of characters of a kind. -/
def IsWordOf (p : Char → Bool) (s : List Char) : Prop := s ≠ [] ∧ ∀ c ∈ s, p c = true

instance (p : Char → Bool) : DecidablePred (IsWordOf p) := fun s =>
  decidable_of_iff (s ≠ [] ∧ s.all p = true) (and_congr_right fun _ => List.all_eq_true)

/-- A name of a field, in any case. -/
abbrev IsFieldName := IsWordOf isFieldChar

/-- A name of a formatter, known or not. -/
abbrev IsFormatterName := IsWordOf isFormatterChar

theorem literal_append (start rest : List Char) :
    literal start (start ++ rest) = some ⟨rest, (List.suffix_append start rest).length_le⟩ := by
  unfold literal
  split
  · next h =>
    rw [Text.after?_append] at h
    cases h
  · next h =>
    rw [Text.after?_append] at h
    cases h
    rfl

theorem literal_eq_none {start s : List Char} (h : Text.after? start s = none) :
    literal start s = none := by
  unfold literal
  split
  · rfl
  · next h' =>
    rw [h] at h'
    cases h'

theorem takeWhile_keyword (keyword : List Char) (bracket : Char) {start : List Char}
    (hstart : start = keyword ++ [bracket]) (hkeyword : IsFieldName keyword)
    (hbracket : isFieldChar bracket = false) (rest : List Char) :
    (start ++ rest).takeWhile isFieldChar = keyword := by
  rw [hstart, List.append_assoc]
  exact (stopsAt_cons hbracket rest).takeWhile_eq hkeyword.2

/-- **A keyword** and its bracket are not read where the name is another one. -/
theorem after?_keyword (keyword : List Char) (bracket : Char) {start s : List Char}
    (hstart : start = keyword ++ [bracket]) (hkeyword : IsFieldName keyword)
    (hbracket : isFieldChar bracket = false) (h : s.takeWhile isFieldChar ≠ keyword) :
    Text.after? start s = none := by
  by_contra hsome
  obtain ⟨rest, hrest⟩ := Option.ne_none_iff_exists'.mp hsome
  apply h
  rw [Text.eq_append_of_after? hrest]
  exact takeWhile_keyword keyword bracket hstart hkeyword hbracket rest

theorem nameUpTo_append {name : List Char} (hname : IsFieldName name) {closing : Char}
    (hclosing : isFieldChar closing = false) (rest : List Char) :
    nameUpTo closing (name ++ closing :: rest) =
      some (name, ⟨rest, (List.suffix_append name (closing :: rest)).length_le⟩) := by
  have htake := (stopsAt_cons hclosing rest).takeWhile_eq hname.2
  have hdrop := (stopsAt_cons hclosing rest).dropWhile_eq hname.2
  unfold nameUpTo
  dsimp only
  split
  · next h =>
    rw [hdrop] at h
    cases h
  · next h =>
    rw [hdrop] at h
    cases h
    simp [htake, hname.1]

/-! ## Names of formatters -/

theorem isSpacing_of_isFormatterChar {c : Char} (h : isFormatterChar c = true) :
    isSpacing c = false := by
  by_contra hspacing
  rw [Bool.not_eq_false, isSpacing, Bool.or_eq_true, decide_eq_true_eq, decide_eq_true_eq]
    at hspacing
  rcases hspacing with rfl | rfl <;> exact absurd h (by decide)

/-- No blank stands before the name of a formatter. -/
theorem IsFormatterName.dropWhile_isSpacing {name : List Char} (h : IsFormatterName name)
    (rest : List Char) : (name ++ rest).dropWhile isSpacing = name ++ rest := by
  obtain ⟨c, name, rfl⟩ := List.exists_cons_of_ne_nil h.1
  have hc : isSpacing c = false := isSpacing_of_isFormatterChar (h.2 c List.mem_cons_self)
  rw [List.cons_append, List.dropWhile_cons_of_neg (Bool.eq_false_iff.mp hc)]

theorem IsFormatterName.afterFormatter_eq {name : List Char} (h : IsFormatterName name) {c : Char}
    (hname : isFormatterChar c = false) (hspacing : isSpacing c = false) (rest : List Char) :
    afterFormatter (name ++ c :: rest) = c :: rest := by
  rw [afterFormatter, h.dropWhile_isSpacing, (stopsAt_cons hname rest).dropWhile_eq h.2,
    List.dropWhile_cons_of_neg (Bool.eq_false_iff.mp hspacing)]

theorem IsFormatterName.takeWhile_eq {name : List Char} (h : IsFormatterName name) {c : Char}
    (hname : isFormatterChar c = false) (rest : List Char) :
    ((name ++ c :: rest).dropWhile isSpacing).takeWhile isFormatterChar = name := by
  rw [h.dropWhile_isSpacing, (stopsAt_cons hname rest).takeWhile_eq h.2]

/-- Names of formatters are read up to the closing bracket, and the rest is left. -/
def ReadsNames (s : List Char) (names : List (List Char)) (rest : List Char) : Prop :=
  ∃ h, formatterNames s = some (names, ⟨rest, h⟩)

/-- What is done behind one name depends on the character there. -/
theorem IsFormatterName.formatterNames_eq {name : List Char} (h : IsFormatterName name) {c : Char}
    (hname : isFormatterChar c = false) (hspacing : isSpacing c = false) {rest : List Char}
    (hshorter : rest.length < (name ++ c :: rest).length) :
    formatterNames (name ++ c :: rest) =
      if c = ']' then some ([name], ⟨rest, hshorter⟩)
      else if c = ',' then
        (formatterNames rest).map fun (names, after) =>
          (name :: names, ⟨after.1, Nat.lt_trans after.2 hshorter⟩)
      else none := by
  have hafter := h.afterFormatter_eq hname hspacing rest
  rw [formatterNames]
  dsimp only
  split
  · next heq =>
    rw [hafter] at heq
    cases heq
  · next heq =>
    rw [hafter] at heq
    cases heq
    rw [h.takeWhile_eq hname, if_neg h.1]
    cases formatterNames rest <;> rfl

theorem IsFormatterName.readsNames_last {name : List Char} (h : IsFormatterName name)
    (rest : List Char) : ReadsNames (name ++ ']' :: rest) [name] rest := by
  have hshorter : rest.length < (name ++ ']' :: rest).length := by simp; omega
  exact ⟨hshorter, by rw [h.formatterNames_eq (by decide) (by decide) hshorter, if_pos rfl]⟩

theorem IsFormatterName.readsNames_cons {name : List Char} (h : IsFormatterName name)
    {s rest : List Char} {names : List (List Char)} (hs : ReadsNames s names rest) :
    ReadsNames (name ++ ',' :: s) (name :: names) rest := by
  obtain ⟨hafter, hnames⟩ := hs
  have hshorter : s.length < (name ++ ',' :: s).length := by simp; omega
  refine ⟨Nat.lt_trans hafter hshorter, ?_⟩
  rw [h.formatterNames_eq (by decide) (by decide) hshorter, if_neg (by decide), if_pos rfl, hnames]
  rfl

/-- **Names with commas between them** are read back. -/
theorem readsNames_join {names : List (List Char)} (hne : names ≠ [])
    (h : ∀ name ∈ names, IsFormatterName name) (rest : List Char) :
    ReadsNames (Text.join [','] names ++ ']' :: rest) names rest := by
  induction names with
  | nil => exact absurd rfl hne
  | cons name names ih =>
    obtain ⟨hname, hnames⟩ := List.forall_mem_cons.mp h
    by_cases hlast : names = []
    · subst hlast
      exact hname.readsNames_last rest
    · rw [Text.join_cons_of_ne_nil _ _ hlast, List.append_assoc, List.append_assoc]
      exact hname.readsNames_cons (ih hlast hnames)

/-! ## One part and many -/

/-- A part is read, and the rest is left. -/
def ReadsOne (s : List Char) (node : LayoutNode) (rest : List Char) : Prop :=
  ∃ h, readOne s = some (node, ⟨rest, h⟩)

/-- Parts are read, and the rest is left, from which no part is read. -/
def ReadsMany (s : List Char) (nodes : List LayoutNode) (rest : List Char) : Prop :=
  ∃ h, readMany s = (nodes, ⟨rest, h⟩)

section Many

variable {s rest : List Char} {node : LayoutNode} {nodes : List LayoutNode}

theorem readsMany_nil_iff : ReadsMany s [] rest ↔ readOne s = none ∧ rest = s := by
  unfold ReadsMany
  rw [readMany]
  constructor
  · rintro ⟨_, heq⟩
    split at heq
    · next hnone =>
      cases heq
      exact ⟨hnone, rfl⟩
    · cases heq
  · rintro ⟨hnone, rfl⟩
    exact ⟨Nat.le_refl _, by rw [hnone]⟩

theorem readsMany_cons_iff :
    ReadsMany s (node :: nodes) rest ↔
      ∃ after, ReadsOne s node after ∧ ReadsMany after nodes rest := by
  unfold ReadsMany ReadsOne
  rw [readMany]
  constructor
  · rintro ⟨_, heq⟩
    split at heq
    · cases heq
    · next node' after hshorter hone =>
      dsimp only at heq
      cases heq
      exact ⟨after, ⟨hshorter, hone⟩, (readMany after).2.2, rfl⟩
  · rintro ⟨after, ⟨hshorter, hone⟩, hle, hmany⟩
    refine ⟨by omega, ?_⟩
    rw [hone]
    dsimp only
    rw [hmany]

/-- **A whole layout** is read on from where many parts end. -/
theorem ReadsMany.readTop_eq (h : ReadsMany s nodes rest) :
    readTop s = (nodes ++ (readTop rest).1, (readTop rest).2) := by
  induction nodes generalizing s with
  | nil =>
    obtain ⟨-, rfl⟩ := readsMany_nil_iff.mp h
    rfl
  | cons node nodes ih =>
    obtain ⟨after, ⟨_, hone⟩, hmany⟩ := readsMany_cons_iff.mp h
    rw [readTop.eq_def, hone]
    dsimp only
    rw [ih hmany]
    rfl

end Many

/-! ## The kinds of parts -/

section Kinds

variable {s rest inside : List Char} {name : List Char} {body : List LayoutNode}

/-- **Literal text** is read as far as it goes. -/
theorem readsOne_text (hs : IsWordOf isTextChar s) (hrest : StopsAt isTextChar rest) :
    ReadsOne (s ++ rest) (text (String.ofList s)) rest := by
  obtain ⟨c, s, rfl⟩ := List.exists_cons_of_ne_nil hs.1
  obtain ⟨hc, hs⟩ := List.forall_mem_cons.mp hs.2
  rw [isTextChar, Bool.and_eq_true, decide_eq_true_eq, decide_eq_true_eq] at hc
  rw [List.cons_append]
  refine ⟨by simp only [List.length_append, List.length_cons]; omega, ?_⟩
  rw [readOne, if_neg hc.1, if_neg hc.2]
  simp only [hrest.takeWhile_eq hs, hrest.dropWhile_eq hs]

theorem readBlock_eq_none (h : s.takeWhile isFieldChar ≠ "begin".toList) : readBlock s = none := by
  have hafter : Text.after? "begin\x7b".toList s = none :=
    after?_keyword _ '{' rfl (by decide) (by decide) h
  rw [readBlock, literal_eq_none hafter]

theorem readFormat_eq_none (h : s.takeWhile isFieldChar ≠ "format".toList) :
    readFormat s = none := by
  have hafter : Text.after? "format[".toList s = none :=
    after?_keyword _ '[' rfl (by decide) (by decide) h
  rw [readFormat, literal_eq_none hafter]

/-- **A field** is read where its name ends. -/
theorem readsOne_field (hname : IsFieldName name) (hreserved : isReserved name = false)
    (hrest : StopsAt isFieldChar rest) :
    ReadsOne ('\\' :: (name ++ rest)) (field (fieldName name)) rest := by
  have htake := hrest.takeWhile_eq hname.2
  have hdrop := hrest.dropWhile_eq hname.2
  have hbegin : name ≠ "begin".toList := by
    rintro rfl
    cases hreserved
  have hformat : name ≠ "format".toList := by
    rintro rfl
    cases hreserved
  refine ⟨by simp only [List.length_append, List.length_cons]; omega, ?_⟩
  -- a block and a call are tried first, but the whole name is no keyword
  rw [readOne, if_pos rfl, readBlock_eq_none (htake.symm ▸ hbegin),
    readFormat_eq_none (htake.symm ▸ hformat)]
  simp [afterBackslash, htake, hdrop, hname.1, hreserved]

/-- **A block** is read up to the end of its own name, whatever blocks are inside. -/
theorem readsOne_block (hname : IsFieldName name)
    (hbody : ReadsMany inside body ("\\end\x7b".toList ++ (name ++ '}' :: rest))) :
    ReadsOne ('\\' :: ("begin\x7b".toList ++ (name ++ '}' :: inside))) (block (fieldName name) body)
      rest := by
  obtain ⟨hle, hmany⟩ := hbody
  refine ⟨by simp only [List.length_append, List.length_cons] at hle ⊢; omega, ?_⟩
  have hclosing : isFieldChar '}' = false := by decide
  rw [readOne, if_pos rfl, readBlock, literal_append]
  dsimp only
  rw [nameUpTo_append hname hclosing]
  dsimp only
  rw [hmany]
  dsimp only
  -- the ends of blocks inside are read with them, so the body stops at the end of this one
  rw [literal_append]
  dsimp only
  rw [nameUpTo_append hname hclosing]
  dsimp only
  rw [if_pos rfl]

/-- **A call of formatters** is read up to the brace that closes it. -/
theorem readsOne_format {names : List (List Char)} (hne : names ≠ [])
    (hnames : ∀ name ∈ names, IsFormatterName name) (hbody : ReadsMany inside body ('}' :: rest)) :
    ReadsOne ('\\' :: ("format[".toList ++ (Text.join [','] names ++ ']' :: '{' :: inside)))
      (format (names.map fun name => Formatter.ofName (String.ofList name)) body) rest := by
  obtain ⟨hle, hmany⟩ := hbody
  obtain ⟨hshorter, hread⟩ := readsNames_join hne hnames ('{' :: inside)
  refine ⟨by simp only [List.length_append, List.length_cons] at hle ⊢; omega, ?_⟩
  have htake : ("format[".toList ++ (Text.join [','] names ++ ']' :: '{' :: inside)).takeWhile
      isFieldChar = "format".toList :=
    takeWhile_keyword "format".toList '[' rfl (by decide) (by decide) _
  have hopen : literal ['{'] ('{' :: inside) = some ⟨inside, Nat.le_succ _⟩ :=
    literal_append ['{'] inside
  have hclose : literal ['}'] ('}' :: rest) = some ⟨rest, Nat.le_succ _⟩ :=
    literal_append ['}'] rest
  rw [readOne, if_pos rfl, readBlock_eq_none (by rw [htake]; decide), readFormat, literal_append]
  dsimp only
  rw [hread]
  dsimp only
  rw [hopen]
  dsimp only
  rw [hmany]
  dsimp only
  rw [hclose]

/-- A place where no part is read: the end of the layout, of a call, or of a block. -/
inductive Closes : List Char → Prop
  | nil : Closes []
  | brace (rest : List Char) : Closes ('}' :: rest)
  | ending (rest : List Char) : Closes ("\\end\x7b".toList ++ rest)

theorem Closes.readOne_eq_none (h : Closes s) : readOne s = none := by
  cases h with
  | nil => rw [readOne]
  | brace rest =>
    rw [readOne]
    simp
  | ending rest =>
    have htake : ("end\x7b".toList ++ rest).takeWhile isFieldChar = "end".toList :=
      takeWhile_keyword "end".toList '{' rfl (by decide) (by decide) rest
    have hbackslash : afterBackslash ("end\x7b".toList ++ rest) = none := by
      have hescaped : escapedChar ("end\x7b".toList ++ rest) = none := rfl
      unfold afterBackslash
      dsimp only
      rw [htake, if_neg (by decide), hescaped, Text.after?_append]
      rfl
    have hcons : "\\end\x7b".toList ++ rest = '\\' :: ("end\x7b".toList ++ rest) := rfl
    rw [hcons, readOne, if_pos rfl, readBlock_eq_none (by rw [htake]; decide),
      readFormat_eq_none (by rw [htake]; decide), hbackslash]
    rfl

end Kinds

end DocCite.LayoutNode
