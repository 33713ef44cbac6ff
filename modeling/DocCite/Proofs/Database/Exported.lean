import DocCite.Proofs.Database.Spelled
import DocCite.Proofs.Text.Pieces

/-!
# Exported databases as they are read

A database is exported as a file of one record for each entry, with one piece of text in braces for
each field. If the braces enclose what is written in them (`IsEnclosed`), the file is read as just
these records; but a record without fields cannot be read at all (`parse?_toBibtex`).
-/

namespace DocCite

namespace Bibtex

/-! ## Values in braces -/

/-- A text that braces enclose: reading it goes up to the brace that stands after it. -/
def IsEnclosed (v : List Char) : Prop := group? 0 (v ++ ['}']) = some (v, [])

instance (v : List Char) : Decidable (IsEnclosed v) := inferInstanceAs (Decidable (_ = _))

/-- What follows the closing brace does not count. -/
theorem group?_append {depth : Nat} {s text after : List Char}
    (h : group? depth s = some (text, after)) (rest : List Char) :
    group? depth (s ++ rest) = some (text, after ++ rest) := by
  fun_induction group? depth s generalizing text after with
  | case1 => cases h
  | case2 depth c s ih =>
    obtain ⟨p, hp, heq⟩ := Option.map_eq_some_iff.mp h
    cases heq
    rw [List.cons_append, List.cons_append, group?, ih hp]
    rfl
  | case3 depth c s hescape hclose =>
    cases h
    rw [List.cons_append, group?, if_pos hclose]
    rintro c' more rfl -
    exact absurd hclose.1 (by decide)
  | case4 depth c s hescape hclose ih =>
    obtain ⟨p, hp, heq⟩ := Option.map_eq_some_iff.mp h
    cases heq
    rw [List.cons_append, group?, if_neg hclose, ih hp]
    · rfl
    · intro c' more hc _
      cases s with
      | nil => cases hp
      | cons d s => exact hescape d s hc rfl

theorem group?_of_isEnclosed {v : List Char} (h : IsEnclosed v) (rest : List Char) :
    group? 0 (v ++ '}' :: rest) = some (v, rest) := by
  have happend := group?_append h rest
  rwa [List.append_assoc] at happend

/-! ## Fields -/

theorem isBlank_of_isNameChar {c : Char} (h : isNameChar c = true) : Text.isBlank c = false := by
  simp only [isNameChar, Bool.and_eq_true, Bool.not_eq_true'] at h
  exact h.1.2

theorem name_append {s rest : List Char} (h : isName s = true)
    (hrest : ∀ c ∈ rest.head?, isNameChar c = false) :
    name (s ++ rest) = some (String.ofList s, rest) := by
  have hall : ∀ c ∈ s, isNameChar c = true := List.all_eq_true.mp (Bool.and_eq_true_iff.mp h).2
  have htake : (s ++ rest).takeWhile isNameChar = s := by
    rw [List.takeWhile_append_of_pos hall]
    cases rest with
    | nil => rw [List.takeWhile_nil, List.append_nil]
    | cons c rest =>
      rw [List.takeWhile_cons_of_neg (by rw [hrest c rfl]; exact Bool.false_ne_true),
        List.append_nil]
  have hdrop : (s ++ rest).dropWhile isNameChar = rest := by
    rw [List.dropWhile_append_of_pos hall]
    cases rest with
    | nil => rfl
    | cons c rest =>
      rw [List.dropWhile_cons_of_neg (by rw [hrest c rfl]; exact Bool.false_ne_true)]
  cases s with
  | nil => cases h
  | cons c s =>
    rw [List.cons_append] at htake hdrop ⊢
    rw [name, if_pos (isName_cons_iff.mp h).1, htake, hdrop]

/-- Text in braces is a value of its own, unless more is strung to it. -/
theorem pieces_of_isEnclosed {n : Nat} {v rest : List Char} (h : IsEnclosed v)
    (hrest : (skipBlanks rest).head? ≠ some '#') :
    pieces (n + 1) ('{' :: (v ++ '}' :: rest)) = some ([.literal v], skipBlanks rest) := by
  rw [pieces, piece, if_pos rfl, group?_of_isEnclosed h]
  simp only [Option.map_some, Option.bind_eq_bind, Option.bind_some]
  split
  · next more hmore => exact absurd (by rw [hmore]; rfl) hrest
  · rfl

/-- A name does not start with a sign. -/
theorem append_ne_cons_of_isName {s rest more : List Char} {c : Char} (h : isName s = true)
    (hc : startsName c = false) : s ++ rest ≠ c :: more := by
  cases s with
  | nil => cases h
  | cons d s =>
    intro heq
    cases heq
    rw [(isName_cons_iff.mp h).1] at hc
    cases hc

theorem skipBlanks_append_of_isName {s : List Char} (h : isName s = true) (rest : List Char) :
    skipBlanks (s ++ rest) = s ++ rest := by
  cases s with
  | nil => cases h
  | cons c s =>
    have hblank := isBlank_of_isNameChar (isNameChar_of_startsName (isName_cons_iff.mp h).1)
    exact List.dropWhile_cons_of_neg (by rw [hblank]; exact Bool.false_ne_true)

/-- A field as it is written, without the comma before it. -/
def fieldText (f : String × String) : List Char :=
  ['\n', ' ', ' '] ++ (f.1.toList ++ [' ', '=', ' ', '{'] ++ f.2.toList ++ ['}'])

/-- A field as it is read. -/
def assigned (f : String × String) : Assignment := (f.1, [.literal f.2.toList])

theorem skipComment_fieldText {f : String × String} (hname : isName f.1.toList = true)
    (rest : List Char) :
    skipComment (fieldText f ++ rest) =
      f.1.toList ++ ' ' :: '=' :: ' ' :: '{' :: (f.2.toList ++ '}' :: rest) := by
  have hskip : skipBlanks (fieldText f ++ rest) =
      f.1.toList ++ ' ' :: '=' :: ' ' :: '{' :: (f.2.toList ++ '}' :: rest) := by
    rw [← skipBlanks_append_of_isName hname, fieldText]
    simp only [List.append_assoc, List.cons_append, List.nil_append]
    rfl
  rw [skipComment, hskip]
  split
  · next more hmore => exact absurd hmore (append_ne_cons_of_isName hname (by decide))
  · rfl

/-- **A field is read** up to the comma or the brace behind it. -/
theorem assignments_fieldText {f : String × String} (hname : isName f.1.toList = true)
    (henclosed : IsEnclosed f.2.toList) {n : Nat} {rest : List Char} :
    assignments (n + 2) (fieldText f ++ ',' :: rest) =
        (assignments (n + 1) rest).map (fun p => (assigned f :: p.1, p.2)) ∧
      assignments (n + 2) (fieldText f ++ '\n' :: '}' :: rest) = some ([assigned f], rest) := by
  have hequals (t : List Char) : expect '=' (skipBlanks (' ' :: '=' :: t)) = some t := rfl
  have hvalue (t : List Char) : skipBlanks (' ' :: '{' :: t) = '{' :: t := rfl
  have hcomma (t : List Char) : skipComment (skipBlanks (',' :: t)) = ',' :: t := rfl
  have hbrace (t : List Char) : skipComment (skipBlanks ('\n' :: '}' :: t)) = '}' :: t := rfl
  constructor
  all_goals
    rw [assignments, skipComment_fieldText hname]
    split
    · next more hmore => exact absurd hmore (append_ne_cons_of_isName hname (by decide))
    rw [name_append hname (by rintro c ⟨⟩; decide), String.ofList_toList]
    simp only [Option.bind_eq_bind, Option.bind_some, hequals, hvalue]
    rw [pieces_of_isEnclosed henclosed (by rintro ⟨⟩)]
    simp only [Option.bind_some, hcomma, hbrace]
  · cases assignments (n + 1) rest <;> rfl
  · rfl

/-- **Fields are read** one after the other. -/
theorem assignments_fieldTexts {f : String × String} {fs : List (String × String)}
    (hnames : ∀ g ∈ f :: fs, isName g.1.toList = true)
    (henclosed : ∀ g ∈ f :: fs, IsEnclosed g.2.toList) {n : Nat} (hn : fs.length + 2 ≤ n)
    (rest : List Char) :
    assignments n
        (fieldText f ++ (fs.flatMap (fun g => ',' :: fieldText g) ++ '\n' :: '}' :: rest)) =
      some ((f :: fs).map assigned, rest) := by
  induction fs generalizing f n with
  | nil =>
    obtain ⟨n, rfl⟩ := Nat.exists_eq_add_of_le' hn
    exact (assignments_fieldText (hnames f List.mem_cons_self) (henclosed f List.mem_cons_self)).2
  | cons g fs ih =>
    obtain ⟨n, rfl⟩ := Nat.exists_eq_add_of_le' hn
    rw [List.forall_mem_cons] at hnames henclosed
    rw [List.flatMap_cons, List.append_assoc, List.cons_append,
      ← Nat.add_assoc, (assignments_fieldText hnames.1 henclosed.1).1,
      ih hnames.2 henclosed.2 (by rw [List.length_cons]; omega)]
    rfl

end Bibtex

/-! ## Entries -/

/-- A key ends where a character stands that no key can have. -/
theorem Bibtex.key_append {key : List Char} (hne : key ≠ [])
    (hkey : ∀ c ∈ key, isKeyChar c = true) {c : Char} (hc : isKeyChar c = false)
    (rest : List Char) :
    skipBlanks (key ++ c :: rest) = key ++ c :: rest ∧
      (key ++ c :: rest).takeWhile isKeyChar = key ∧
      (key ++ c :: rest).dropWhile isKeyChar = c :: rest := by
  have hnot : ¬ isKeyChar c = true := by rw [hc]; exact Bool.false_ne_true
  refine ⟨?_, ?_, ?_⟩
  · obtain ⟨d, more, rfl⟩ := List.exists_cons_of_ne_nil hne
    have hd := hkey d List.mem_cons_self
    simp only [isKeyChar, Bool.and_eq_true, Bool.not_eq_true'] at hd
    exact List.dropWhile_cons_of_neg (by rw [hd.1.2]; exact Bool.false_ne_true)
  · rw [List.takeWhile_append_of_pos hkey, List.takeWhile_cons_of_neg hnot, List.append_nil]
  · rw [List.dropWhile_append_of_pos hkey, List.dropWhile_cons_of_neg hnot]

namespace Entry

variable {e : Entry}

/-- An entry as it is written, up to its closing brace. -/
def text (e : Entry) : List Char :=
  '@' :: (e.type.toList ++
    '{' :: ((e.key.getD "").toList ++
      (e.fields.flatMap (fun f => ',' :: Bibtex.fieldText f) ++ ['\n', '}'])))

theorem toList_toBibtex (e : Entry) : e.toBibtex.toList = e.text ++ ['\n'] := by
  simp only [toBibtex, text, Bibtex.fieldText, String.toList_append, String.toList_join,
    List.flatMap_map, show "@".toList = ['@'] from rfl, show "\x7b".toList = ['{'] from rfl,
    show ",\n  ".toList = [',', '\n', ' ', ' '] from rfl,
    show " = \x7b".toList = [' ', '=', ' ', '{'] from rfl, show "\x7d".toList = ['}'] from rfl,
    show "\n\x7d\n".toList = ['\n', '}', '\n'] from rfl, List.append_assoc, List.cons_append,
    List.nil_append]

theorem length_fields_lt_text (e : Entry) : e.fields.length + 3 ≤ e.text.length := by
  have hfields (fs : List (String × String)) :
      fs.length ≤ (fs.flatMap fun f => ',' :: Bibtex.fieldText f).length := by
    induction fs with
    | nil => exact Nat.le_refl 0
    | cons f fs ih =>
      rw [List.flatMap_cons, List.length_append, List.length_cons, List.length_cons]
      omega
  have := hfields e.fields
  simp only [text, List.length_cons, List.length_append, List.length_nil]
  omega

/-- An entry as it is read. -/
def item (e : Entry) : Bibtex.Item :=
  .record e.type (e.key.getD "") (e.fields.map Bibtex.assigned)

/-- **An entry is read** as it is written, if it has a field; without one it cannot be read. -/
theorem item_text_iff (hspelled : e.Spelled) (hne : e.key ≠ some "")
    (henclosed : ∀ f ∈ e.fields, Bibtex.IsEnclosed f.2.toList) {n : Nat}
    (hn : e.fields.length + 2 ≤ n) {rest after : List Char} {i : Bibtex.Item} :
    Bibtex.item n (e.text.tail ++ rest) = some (i, after) ↔
      e.fields ≠ [] ∧ i = e.item ∧ after = rest := by
  obtain ⟨key, hkey, hkeyChars⟩ := hspelled.key
  have htype := hspelled.type
  simp only [Bibtex.isEntryType, Bool.and_eq_true, decide_eq_true_eq, Bool.not_eq_true'] at htype
  obtain ⟨⟨-, hword⟩, hother⟩ := htype
  have hlower : String.ofList (e.type.toList.map Char.toLower) = e.type := by
    have := asciiLowercase_lowercase e.type
    rwa [Bibtex.lowercase_of_isPlainWord hword] at this
  have hstring : e.type ≠ "string" := by rintro heq; rw [heq] at hother; cases hother
  have hpreamble : e.type ≠ "preamble" := by rintro heq; rw [heq] at hother; cases hother
  have hcomment : e.type ≠ "comment" := by rintro heq; rw [heq] at hother; cases hother
  have hbrace (t : List Char) : Bibtex.expect '{' (Bibtex.skipBlanks ('{' :: t)) = some t := rfl
  rw [text, List.tail_cons, Bibtex.item, hkey, Option.getD_some]
  simp only [List.append_assoc, List.cons_append]
  rw [Bibtex.name_append (Bibtex.isName_of_isPlainWord hword) (by rintro c ⟨⟩; decide)]
  simp only [Option.bind_eq_bind, Option.bind_some, hbrace, String.toList_ofList, hlower,
    hstring, hpreamble, hcomment, if_false]
  have hkeyNe : key.toList ≠ [] := fun hnil =>
    hne (hkey.trans (congrArg some (String.toList_eq_nil_iff.mp hnil)))
  cases hfields : e.fields with
  | nil =>
    -- the key ends at the line's end, and no comma follows it
    obtain ⟨hskip, -, hdrop⟩ :=
      Bibtex.key_append hkeyNe hkeyChars (c := '\n') (by decide) ('}' :: ([] ++ rest))
    have hnone (t : List Char) :
        Bibtex.expect ',' (Bibtex.skipBlanks ('\n' :: '}' :: t)) = none := rfl
    rw [List.flatMap_nil, List.nil_append, hskip, hdrop, hnone]
    constructor
    · rintro ⟨⟩
    · exact fun h => absurd rfl h.1
  | cons f fs =>
    obtain ⟨hskip, htake, hdrop⟩ := Bibtex.key_append hkeyNe hkeyChars (c := ',') (by decide)
      (Bibtex.fieldText f ++
        (fs.flatMap (fun g => ',' :: Bibtex.fieldText g) ++ '\n' :: '}' :: rest))
    rw [hfields] at henclosed hn
    have hnames : ∀ g ∈ f :: fs, Bibtex.isName g.1.toList = true := hfields ▸ hspelled.isName
    rw [List.flatMap_cons, List.cons_append, List.cons_append, List.append_assoc, List.nil_append,
      hskip, htake, hdrop]
    have hcomma (t : List Char) : Bibtex.expect ',' (Bibtex.skipBlanks (',' :: t)) = some t := rfl
    rw [hcomma, Option.bind_some,
      Bibtex.assignments_fieldTexts hnames henclosed (by rw [List.length_cons] at hn; omega),
      Option.bind_some, String.ofList_toList, Option.some.injEq, Prod.mk.injEq, item, hkey,
      Option.getD_some, hfields]
    constructor
    · rintro ⟨rfl, rfl⟩
      exact ⟨List.cons_ne_nil _ _, rfl, rfl⟩
    · rintro ⟨-, rfl, rfl⟩
      exact ⟨rfl, rfl⟩

end Entry

/-! ## Files -/

namespace Bibtex

/-- Between items lines may end. -/
theorem items_newline (n : Nat) (s : List Char) : items n ('\n' :: s) = items n s := by
  cases n with
  | zero => rfl
  | succ n => rw [items, items]; rfl

theorem items_at (n : Nat) (s : List Char) :
    items (n + 1) ('@' :: s) = (item n s).bind fun p => (items n p.2).map (p.1 :: ·) := by
  simp only [Option.map_eq_bind]
  rfl

/-- The items of a file that starts with an entry. -/
theorem items_text_iff {e : Entry} (hspelled : e.Spelled) (hne : e.key ≠ some "")
    (henclosed : ∀ f ∈ e.fields, IsEnclosed f.2.toList) {n : Nat} (hn : e.fields.length + 2 ≤ n)
    {rest : List Char} {found : List Item} :
    items (n + 1) (e.text ++ rest) = some found ↔
      e.fields ≠ [] ∧ ∃ more, items n rest = some more ∧ found = e.item :: more := by
  have htext : e.text ++ rest = '@' :: (e.text.tail ++ rest) := rfl
  simp only [htext, items_at, Option.bind_eq_some_iff, Option.map_eq_some_iff, Prod.exists,
    e.item_text_iff hspelled hne henclosed hn]
  constructor
  · rintro ⟨i, after, ⟨hfields, rfl, rfl⟩, more, hmore, rfl⟩
    exact ⟨hfields, more, hmore, rfl⟩
  · rintro ⟨hfields, more, hmore, rfl⟩
    exact ⟨_, _, ⟨hfields, rfl, rfl⟩, more, hmore, rfl⟩

/-- **The items of the entries of a file** are read if every entry has a field. -/
theorem items_texts_iff {es : List Entry} (hspelled : ∀ e ∈ es, e.Spelled)
    (hne : ∀ e ∈ es, e.key ≠ some "")
    (henclosed : ∀ e ∈ es, ∀ f ∈ e.fields, IsEnclosed f.2.toList) {n : Nat}
    (hn : (es.flatMap fun e => e.text ++ ['\n', '\n']).length < n) {found : List Item} :
    items n (es.flatMap fun e => e.text ++ ['\n', '\n']) = some found ↔
      (∀ e ∈ es, e.fields ≠ []) ∧ found = es.map Entry.item := by
  obtain ⟨n, rfl⟩ := Nat.exists_eq_add_one.mpr (Nat.zero_lt_of_lt hn)
  induction es generalizing n found with
  | nil =>
    have hnil : items (n + 1) [] = some [] := rfl
    rw [List.flatMap_nil, hnil, Option.some.injEq, eq_comm]
    simp
  | cons e es ih =>
    rw [List.forall_mem_cons] at hspelled hne henclosed
    have hlength := e.length_fields_lt_text
    rw [List.flatMap_cons, List.length_append, List.length_append] at hn
    obtain ⟨n, rfl⟩ := Nat.exists_eq_add_one.mpr (show 0 < n by omega)
    rw [List.flatMap_cons, List.append_assoc,
      items_text_iff hspelled.1 hne.1 henclosed.1 (by omega), List.forall_mem_cons, and_assoc]
    refine and_congr_right fun _ => ?_
    rw [List.cons_append, List.cons_append, List.nil_append, items_newline, items_newline]
    constructor
    · rintro ⟨more, hmore, rfl⟩
      obtain ⟨hfields, rfl⟩ := (ih hspelled.2 hne.2 henclosed.2 n (by omega)).mp hmore
      exact ⟨hfields, rfl⟩
    · rintro ⟨hfields, rfl⟩
      exact ⟨_, (ih hspelled.2 hne.2 henclosed.2 n (by omega)).mpr ⟨hfields, rfl⟩, rfl⟩

end Bibtex

namespace Database

variable {d : Database}

/-- What stands in front of the entries of a file in the newer dialect. -/
def dialectText : DatabaseMode → List Char
  | .biblatex => "@Comment\x7bjabref-meta: databaseType:biblatex;\x7d\n\n".toList
  | .bibtex => []

/-- What is read there. -/
def dialectItems : DatabaseMode → List Bibtex.Item
  | .biblatex => [.other]
  | .bibtex => []

theorem toList_toBibtex (d : Database) :
    d.toBibtex.toList =
      dialectText d.mode ++ d.entries.flatMap fun e => e.text ++ ['\n', '\n'] := by
  have hentries : (String.join (d.entries.map fun e => e.toBibtex ++ "\n")).toList =
      d.entries.flatMap fun e => e.text ++ ['\n', '\n'] := by
    simp only [String.toList_join, List.flatMap_map, String.toList_append, Entry.toList_toBibtex,
      List.append_assoc]
    rfl
  unfold toBibtex
  split
  · next hmode => rw [String.toList_append, hentries, hmode]; rfl
  · next hmode => rw [String.toList_append, hentries, hmode]; rfl

theorem item_dialect (n : Nat) (s : List Char) :
    Bibtex.item n
        ("Comment".toList ++
          '{' :: ("jabref-meta: databaseType:biblatex;".toList ++ '}' :: s)) =
      some (.other, s) := by
  have hbrace (t : List Char) : Bibtex.expect '{' (Bibtex.skipBlanks ('{' :: t)) = some t := rfl
  have hclose (t : List Char) : Bibtex.expect '}' ('}' :: t) = some t := rfl
  have hword : String.ofList ("Comment".toList.map Char.toLower) = "comment" := by decide
  have hinside : ∀ c ∈ "jabref-meta: databaseType:biblatex;".toList,
      decide (c ≠ '}') = true := List.all_eq_true.mp (by decide)
  rw [Bibtex.item, Bibtex.name_append (by decide) (by rintro c ⟨⟩; decide)]
  simp only [Option.bind_eq_bind, Option.bind_some, hbrace, String.toList_ofList, hword,
    show "comment" ≠ "string" by decide, show "comment" ≠ "preamble" by decide, if_false, if_true,
    List.dropWhile_append_of_pos hinside]
  rw [List.dropWhile_cons_of_neg (by decide), hclose, Option.bind_some]

theorem items_biblatex (n : Nat) (s : List Char) :
    Bibtex.items (n + 1) (dialectText .biblatex ++ s) = (Bibtex.items n s).map (.other :: ·) := by
  have htext : dialectText .biblatex ++ s = '@' :: ("Comment".toList ++
      '{' :: ("jabref-meta: databaseType:biblatex;".toList ++ '}' :: '\n' :: '\n' :: s)) := rfl
  rw [htext, Bibtex.items_at, item_dialect, Option.bind_some, Bibtex.items_newline,
    Bibtex.items_newline]

/-- Braces enclose every value. -/
def Enclosed (d : Database) : Prop :=
  ∀ e ∈ d.entries, ∀ f ∈ e.fields, Bibtex.IsEnclosed f.2.toList

instance (d : Database) : Decidable d.Enclosed :=
  inferInstanceAs (Decidable (∀ e ∈ d.entries, ∀ f ∈ e.fields, Bibtex.IsEnclosed f.2.toList))

theorem WellKeyed.key_ne (h : d.WellKeyed) {e : Entry} (he : e ∈ d.entries) : e.key ≠ some "" := by
  obtain ⟨key, hkey⟩ := h.exists_citationKey he
  obtain ⟨heq, hne⟩ := Option.filter_eq_some_iff.mp hkey
  intro hempty
  rw [heq, Option.some.injEq] at hempty
  exact of_decide_eq_true hne hempty

/-- **An exported database is read** as the items of its entries if each of them has a field, and
not at all if one has none. -/
theorem parse?_toBibtex_iff (hkeyed : d.WellKeyed) (hspelled : ∀ e ∈ d.entries, e.Spelled)
    (henclosed : d.Enclosed) {found : List Bibtex.Item} :
    Bibtex.parse? d.toBibtex = some found ↔
      (∀ e ∈ d.entries, e.fields ≠ []) ∧
        found = dialectItems d.mode ++ d.entries.map Entry.item := by
  have hentries {n : Nat} (hn : (d.entries.flatMap fun e => e.text ++ ['\n', '\n']).length < n)
      {found : List Bibtex.Item} :
      Bibtex.items n (d.entries.flatMap fun e => e.text ++ ['\n', '\n']) = some found ↔
        (∀ e ∈ d.entries, e.fields ≠ []) ∧ found = d.entries.map Entry.item :=
    Bibtex.items_texts_iff hspelled (fun _ => hkeyed.key_ne) henclosed hn
  rw [Bibtex.parse?, toList_toBibtex, List.length_append]
  cases d.mode with
  | bibtex => exact hentries (by omega)
  | biblatex =>
    rw [items_biblatex, Option.map_eq_some_iff]
    constructor
    · rintro ⟨more, hmore, rfl⟩
      obtain ⟨hfields, rfl⟩ := (hentries (by omega)).mp hmore
      exact ⟨hfields, rfl⟩
    · rintro ⟨hfields, rfl⟩
      exact ⟨_, (hentries (by omega)).mpr ⟨hfields, rfl⟩, rfl⟩

/-! ## The mark of the dialect -/

/-- Whether a text spells the mark of the newer dialect. -/
def spellsMark (s : List Char) : Bool := Text.occursIn biblatexMark.toList s

/-- Signs and blanks keep what is on their sides apart. -/
theorem spellsMark_append_cons {a b : List Char} {c : Char} (hc : c ∉ biblatexMark.toList) :
    spellsMark (a ++ c :: b) = (spellsMark a || spellsMark b) := by
  rw [Bool.eq_iff_iff, Bool.or_eq_true]
  simp only [spellsMark, Text.occursIn_iff]
  exact Text.isInfix_append_cons_iff hc

theorem spellsMark_cons {s : List Char} {c : Char} (hc : c ∉ biblatexMark.toList) :
    spellsMark (c :: s) = spellsMark s := by
  rw [Bool.eq_iff_iff]
  simp only [spellsMark, Text.occursIn_iff]
  exact Text.isInfix_cons_iff hc

/-- Names in lowercase do not spell the mark. -/
theorem not_spellsMark {s : List Char} (h : 'T' ∉ s) : spellsMark s = false := by
  rw [← Bool.not_eq_true, spellsMark, Text.occursIn_iff]
  exact fun hspelled => h (hspelled.subset (by decide))

/-- Whether the key or a value of an entry spells the mark. -/
def entrySpellsMark (e : Entry) : Bool :=
  spellsMark (e.key.getD "").toList || e.fields.any fun f => spellsMark f.2.toList

theorem spellsMark_fieldTexts {fs : List (String × String)} (h : ∀ f ∈ fs, 'T' ∉ f.1.toList)
    (key : List Char) :
    spellsMark (key ++ fs.flatMap fun f => ',' :: Bibtex.fieldText f) =
      (spellsMark key || fs.any fun f => spellsMark f.2.toList) := by
  induction fs generalizing key with
  | nil => rw [List.flatMap_nil, List.append_nil, List.any_nil, Bool.or_false]
  | cons f fs ih =>
    rw [List.forall_mem_cons] at h
    have hrest := ih h.2 []
    simp only [List.flatMap_cons, Bibtex.fieldText, List.append_assoc, List.cons_append,
      List.nil_append] at hrest ⊢
    simp (disch := decide) only [spellsMark_cons, spellsMark_append_cons, not_spellsMark h.1, hrest,
      not_spellsMark (s := []) List.not_mem_nil, Bool.false_or, List.any_cons]

/-- A name in lowercase has no other letter. -/
theorem not_mem_of_lowercase_eq {n : String} (h : lowercase n = n) : 'T' ∉ n.toList := by
  intro hmem
  have hascii : asciiLowercase n = n := by rw [← h, asciiLowercase_lowercase]
  exact absurd (toLower_eq_of_asciiLowercase hascii 'T' hmem) (by decide)

/-- The mark is spelled in a key or a value, if at all. -/
theorem spellsMark_texts {es : List Entry} (hspelled : ∀ e ∈ es, e.Spelled) :
    spellsMark (es.flatMap fun e => e.text ++ ['\n', '\n']) = es.any entrySpellsMark := by
  induction es with
  | nil => rfl
  | cons e es ih =>
    rw [List.forall_mem_cons] at hspelled
    have htype : 'T' ∉ e.type.toList := not_mem_of_lowercase_eq
      (Bibtex.lowercase_of_isPlainWord (Bibtex.isPlainWord_of_isEntryType hspelled.1.type))
    have hnames : ∀ f ∈ e.fields, 'T' ∉ f.1.toList := fun f hf =>
      not_mem_of_lowercase_eq (hspelled.1.lowercase_eq f hf)
    have htext : e.text ++ ['\n', '\n'] = '@' :: (e.type.toList ++ '{' ::
        ((e.key.getD "").toList ++ (e.fields.flatMap fun f => ',' :: Bibtex.fieldText f) ++
          ['\n', '}', '\n', '\n'])) := by
      simp only [Entry.text, List.append_assoc, List.cons_append, List.nil_append]
    rw [List.flatMap_cons, htext]
    simp only [List.append_assoc (e.type.toList), List.cons_append,
      List.append_assoc ((e.key.getD "").toList ++ _), List.nil_append]
    simp (disch := decide) only [spellsMark_cons, spellsMark_append_cons, not_spellsMark htype,
      spellsMark_fieldTexts hnames, ih hspelled.2]
    rw [List.any_cons, entrySpellsMark, Bool.false_or]

/-- **Whether an exported database spells the mark** of the newer dialect. -/
theorem spellsMark_toBibtex (hspelled : ∀ e ∈ d.entries, e.Spelled) :
    spellsMark d.toBibtex.toList =
      (decide (d.mode = .biblatex) || d.entries.any entrySpellsMark) := by
  rw [toList_toBibtex]
  cases hmode : d.mode with
  | bibtex => exact spellsMark_texts hspelled
  | biblatex =>
    rw [decide_eq_true rfl, Bool.true_or, spellsMark, Text.occursIn_iff]
    have hdialect : biblatexMark.toList <:+: dialectText .biblatex :=
      ⟨"@Comment\x7bjabref-meta: ".toList, ";\x7d\n\n".toList, by decide⟩
    exact hdialect.trans (List.prefix_append _ _).isInfix

end Database

end DocCite
