import DocCite.Proofs.Author.Cuts
import DocCite.Proofs.Text.Pieces
import DocCite.Proofs.Text.Trimming

/-!
# Printed names are read back

A name is printed with commas between its parts and a space between the words of a part. The words
hold no blanks, commas and braces, and none of them is `and`, so a list of printed names is cut just
where names were joined, a name where its commas are, and a part where its spaces are. The particle
is told from the family name by its lowercase words. So printed lists of names are read back as they
were (`parseList_listLastFirst`).
-/

namespace DocCite.Author

/-! ## Words -/

/-- **A word of a name**: not empty, without blanks, commas and braces, and not `and` in any
case. -/
structure IsWord (w : List Char) : Prop where
  ne_nil : w ≠ []
  plain : ∀ c ∈ w, Text.isBlank c = false ∧ c ≠ ',' ∧ c ≠ '{' ∧ c ≠ '}'
  ne_and : w.map Char.toLower ≠ "and".toList

/-- **A lowercase word**: its first alphabetic character is lowercase. -/
def IsLowercase (w : List Char) : Prop :=
  ∃ before c after, w = before ++ c :: after ∧ (∀ b ∈ before, Text.isAlphabetic b = false) ∧
    Text.isAlphabetic c = true ∧ Text.isLowercase c = true

variable {w s t rest : List Char} {ws : List (List Char)}

instance (w : List Char) : Decidable (IsWord w) :=
  decidable_of_iff (w ≠ [] ∧
      (w.all fun c => Text.isBlank c = false ∧ c ≠ ',' ∧ c ≠ '{' ∧ c ≠ '}') = true ∧
      w.map Char.toLower ≠ "and".toList)
    ⟨fun h => ⟨h.1, List.all_iff_forall_prop.mp h.2.1, h.2.2⟩,
      fun h => ⟨h.ne_nil, List.all_iff_forall_prop.mpr h.plain, h.ne_and⟩⟩

/-- A word has no brace that could hide its letters. -/
theorem IsWord.isLowercaseWord_iff (h : IsWord w) : isLowercaseWord w = true ↔ IsLowercase w := by
  unfold isLowercaseWord IsLowercase
  constructor
  · intro hlower
    split at hlower
    · next c hfind =>
      obtain ⟨hc, before, after, rfl, hbefore⟩ := List.find?_eq_some_iff_append.mp hfind
      have hne : c ≠ '{' := (h.plain c (by simp)).2.2.1
      refine ⟨before, c, after, rfl, fun b hb => ?_, by simpa [hne] using hc, hlower⟩
      have hnot := hbefore b hb
      simp only [Bool.not_eq_true', Bool.or_eq_false_iff] at hnot
      exact hnot.1
    · cases hlower
  · rintro ⟨before, c, after, rfl, hbefore, hc, hlower⟩
    have hfind : (before ++ c :: after).find? (fun c => Text.isAlphabetic c || c = '{') =
        some c := by
      refine List.find?_eq_some_iff_append.mpr ⟨by simp [hc], before, after, rfl, fun b hb => ?_⟩
      have hne : b ≠ '{' := (h.plain b (List.mem_append_left _ hb)).2.2.1
      simp [hbefore b hb, hne]
    rw [hfind]
    exact hlower

theorem IsWord.isTidy (h : IsWord w) : Text.IsTidy w := by
  refine ⟨⟨w.head h.ne_nil, List.head_mem_head? _, ?_⟩, w.getLast h.ne_nil,
    List.getLast_mem_getLast? _, ?_⟩
  · exact (h.plain _ (List.head_mem _)).1
  · exact (h.plain _ (List.getLast_mem _)).1

/-- Words, each after a space. -/
def spaced (ws : List (List Char)) : List Char := ws.flatMap (' ' :: ·)

theorem join_eq_append_spaced (w : List Char) (ws : List (List Char)) :
    Text.join [' '] (w :: ws) = w ++ spaced ws := Text.join_cons ..

theorem cons_join (hne : ws ≠ []) : ' ' :: Text.join [' '] ws = spaced ws := by
  obtain ⟨w, ws, rfl⟩ := List.exists_cons_of_ne_nil hne
  rw [join_eq_append_spaced]
  rfl

theorem join_append {vs : List (List Char)} (hvs : vs ≠ []) (hws : ws ≠ []) :
    Text.join [' '] (vs ++ ws) = Text.join [' '] vs ++ ' ' :: Text.join [' '] ws := by
  obtain ⟨v, vs, rfl⟩ := List.exists_cons_of_ne_nil hvs
  rw [List.cons_append, join_eq_append_spaced, join_eq_append_spaced, cons_join hws, spaced,
    List.flatMap_append, List.append_assoc]
  rfl

theorem plain_of_mem_join {c : Char} (hws : ∀ w ∈ ws, IsWord w) (h : c ∈ Text.join [' '] ws) :
    c ≠ ',' ∧ c ≠ '{' ∧ c ≠ '}' := by
  by_cases hne : ws = []
  · subst hne
    cases h
  · have hmem : c ∈ spaced ws := cons_join hne ▸ List.mem_cons_of_mem _ h
    obtain ⟨w, hw, hc⟩ := List.mem_flatMap.mp hmem
    rcases List.mem_cons.mp hc with rfl | hc
    · decide
    · exact ((hws w hw).plain c hc).2

/-- A space before words is trimmed. -/
theorem trim_spaced (hne : ws ≠ []) (hws : ∀ w ∈ ws, IsWord w) :
    Text.trim (spaced ws) = Text.join [' '] ws := by
  have htidy : Text.IsTidy (Text.join [' '] ws) :=
    Text.isTidy_join hne fun w hw => (hws w hw).isTidy
  rw [← cons_join hne, htidy.trim_cons (by decide)]

/-! ## Words of a part -/

/-- The characters of a word are read one after another. -/
theorem IsWord.bracedWordsFrom_append (h : IsWord w) (word rest : List Char) :
    bracedWordsFrom 0 word (w ++ rest) = bracedWordsFrom 0 (w.reverse ++ word) rest := by
  have hplain := h.plain
  clear h
  induction w generalizing word with
  | nil => rfl
  | cons c w ih =>
    obtain ⟨⟨hblank, -, hopen, hclose⟩, hw⟩ := List.forall_mem_cons.mp hplain
    rw [List.cons_append, bracedWordsFrom, if_neg (by simp [hblank]),
      braceDepth_of_ne hopen hclose, ih _ hw]
    simp

/-- A space ends a word. -/
theorem bracedWordsFrom_space {word : List Char} (hne : word ≠ []) :
    bracedWordsFrom 0 word (' ' :: rest) = word.reverse :: bracedWordsFrom 0 [] rest := by
  have hblank : Text.isBlank ' ' = true := by decide
  rw [bracedWordsFrom, if_pos ⟨hblank, rfl⟩, if_neg (by simpa using hne)]

/-- Words behind a word that was begun are read one after another. -/
theorem bracedWordsFrom_spaced (hws : ∀ w ∈ ws, IsWord w) {word : List Char} (hne : word ≠ []) :
    bracedWordsFrom 0 word (spaced ws) = word.reverse :: ws := by
  induction ws generalizing word with
  | nil => simp [spaced, bracedWordsFrom, hne]
  | cons w ws ih =>
    obtain ⟨hw, hrest⟩ := List.forall_mem_cons.mp hws
    have hrev : w.reverse ≠ [] := by simpa using hw.ne_nil
    rw [spaced, List.flatMap_cons, List.cons_append, bracedWordsFrom_space hne,
      hw.bracedWordsFrom_append, List.append_nil, ← spaced, ih hrest hrev, List.reverse_reverse]

/-- **Joined words are read back.** -/
theorem bracedWords_join (hws : ∀ w ∈ ws, IsWord w) : bracedWords (Text.join [' '] ws) = ws := by
  cases ws with
  | nil => rfl
  | cons w ws =>
    obtain ⟨hw, hrest⟩ := List.forall_mem_cons.mp hws
    have hrev : w.reverse ≠ [] := by simpa using hw.ne_nil
    rw [bracedWords, join_eq_append_spaced, hw.bracedWordsFrom_append, List.append_nil,
      bracedWordsFrom_spaced hrest hrev, List.reverse_reverse]

/-! ## Parts of a name -/

/-- The words of a part, joined; a part without words is absent. -/
def joined? (ws : List String) : Option String :=
  if ws = [] then none else some (" ".intercalate ws)

theorem joined?_of_ne_nil {ws : List String} (h : ws ≠ []) :
    joined? ws = some (" ".intercalate ws) := if_neg h

theorem toList_joined (ws : List String) :
    (" ".intercalate ws).toList = Text.join [' '] (ws.map String.toList) := by
  rw [String.toList_intercalate, Text.intercalate_eq_join]
  rfl

/-- **A part is read** as its words. -/
theorem partOfWords?_eq {ws : List String} (hws : ∀ w ∈ ws, IsWord w.toList) :
    partOfWords? (ws.map String.toList) = joined? ws := by
  by_cases hne : ws = []
  · subst hne
    rfl
  have hwords : ∀ w ∈ ws.map String.toList, IsWord w := List.forall_mem_map.mpr hws
  have hmap : ws.map String.toList ≠ [] := List.map_eq_nil_iff.not.mpr hne
  have htidy : Text.IsTidy (Text.join [' '] (ws.map String.toList)) :=
    Text.isTidy_join hmap fun w hw => (hwords w hw).isTidy
  have hkept : (Text.join [' '] (ws.map String.toList)).filter (fun c => c ≠ '{' && c ≠ '}') =
      Text.join [' '] (ws.map String.toList) := by
    refine List.filter_eq_self.mpr fun c hc => ?_
    obtain ⟨-, hopen, hclose⟩ := plain_of_mem_join hwords hc
    simp [hopen, hclose]
  rw [partOfWords?, part?, Text.trim_of_isTidy htidy, joined?, if_neg hne]
  split
  · next hnil =>
    obtain ⟨⟨c, hc, -⟩, -⟩ := htidy
    rw [hnil] at hc
    cases hc
  · rw [hkept, ← toList_joined, String.ofList_toList]

/-- **A full name** in words: given names, a particle of lowercase words, a family name that does
not begin like a particle unless it is a single word, and what follows it. -/
structure FullName where
  first : List String
  von : List String := []
  last : List String
  jr : List String := []
  first_ne_nil : first ≠ []
  last_ne_nil : last ≠ []
  isWord : ∀ w ∈ first ++ von ++ last ++ jr, IsWord w.toList
  isLowercase_von : ∀ w ∈ von, IsLowercase w.toList
  not_isLowercase_last : ∀ w next more, last = w :: next :: more → ¬ IsLowercase w.toList

namespace FullName

/-- The name as it is stored. -/
def author (n : FullName) : Author :=
  ⟨joined? n.first, joined? n.von, joined? n.last, joined? n.jr⟩

variable (n : FullName)

/-- The words of the particle and the family name. -/
def family : List String := n.von ++ n.last

theorem family_ne_nil : n.family ≠ [] := List.append_ne_nil_of_right_ne_nil _ n.last_ne_nil

theorem isWord_first : ∀ w ∈ n.first, IsWord w.toList := fun w hw => n.isWord w (by simp [hw])

theorem isWord_family : ∀ w ∈ n.family, IsWord w.toList := fun w hw =>
  n.isWord w (by rcases List.mem_append.mp hw with hw | hw <;> simp [hw])

theorem isWord_jr : ∀ w ∈ n.jr, IsWord w.toList := fun w hw => n.isWord w (by simp [hw])

/-- The words of the particle are those before the last word that are lowercase without a gap. -/
theorem leadingCount_family :
    leadingCount isLowercaseWord (n.family.map String.toList) = n.von.length := by
  have hvon : ∀ w ∈ n.von.map String.toList, isLowercaseWord w = true := by
    refine List.forall_mem_map.mpr fun w hw => ?_
    exact (n.isWord_family w (List.mem_append_left _ hw)).isLowercaseWord_iff.mpr
      (n.isLowercase_von w hw)
  have hlast : (n.last.map String.toList).dropLast.takeWhile isLowercaseWord = [] := by
    match hwords : n.last, n.last_ne_nil with
    | [w], _ => rfl
    | w :: next :: more, _ =>
      have hw : IsWord w.toList :=
        n.isWord_family w (List.mem_append_right _ (hwords ▸ List.mem_cons_self))
      have hnot : ¬ isLowercaseWord w.toList = true :=
        hw.isLowercaseWord_iff.not.mpr (n.not_isLowercase_last w next more hwords)
      exact List.takeWhile_cons_of_neg hnot
  have hne : n.last.map String.toList ≠ [] := List.map_eq_nil_iff.not.mpr n.last_ne_nil
  rw [leadingCount, family, List.map_append, List.dropLast_append_of_ne_nil hne,
    List.takeWhile_append_of_pos hvon, hlast, List.append_nil, List.length_map]

/-- **The particle is told from the family name.** -/
theorem splitFamily_eq :
    splitFamily (Text.join [' '] (n.family.map String.toList)) =
      (joined? n.von, joined? n.last) := by
  have hwords : ∀ w ∈ n.family.map String.toList, IsWord w :=
    List.forall_mem_map.mpr n.isWord_family
  have hlength : n.von.length = (n.von.map String.toList).length := (List.length_map _).symm
  rw [splitFamily, bracedWords_join hwords, n.leadingCount_family, family, List.map_append, hlength,
    List.take_left, List.drop_left,
    partOfWords?_eq fun w hw => n.isWord_family w (List.mem_append_left _ hw),
    partOfWords?_eq fun w hw => n.isWord_family w (List.mem_append_right _ hw)]

/-! ## Printed names -/

/-- A part behind a comma. -/
def behindComma (ws : List String) : List Char :=
  if ws = [] then [] else ',' :: spaced (ws.map String.toList)

/-- The characters of the printed name. -/
def text : List Char :=
  Text.join [' '] (n.family.map String.toList) ++ (behindComma n.jr ++ behindComma n.first)

theorem toList_afterComma (ws : List String) :
    (afterComma (joined? ws)).toList = behindComma ws := by
  by_cases hne : ws = []
  · subst hne
    rfl
  · have hmap : ws.map String.toList ≠ [] := List.map_eq_nil_iff.not.mpr hne
    rw [joined?, if_neg hne, afterComma, String.toList_append, toList_joined, behindComma,
      if_neg hne, ← cons_join hmap]
    rfl

theorem toList_family : n.author.family.toList = Text.join [' '] (n.family.map String.toList) := by
  have hfamily : n.author.family =
      " ".intercalate ((joined? n.von).toList ++ (joined? n.last).toList) := rfl
  have hlast : n.last.map String.toList ≠ [] := List.map_eq_nil_iff.not.mpr n.last_ne_nil
  rw [hfamily, toList_joined, joined?_of_ne_nil n.last_ne_nil, family]
  by_cases hne : n.von = []
  · rw [hne]
    exact toList_joined n.last
  · have hvon : n.von.map String.toList ≠ [] := List.map_eq_nil_iff.not.mpr hne
    have hnames : (n.von ++ n.last).map String.toList =
        n.von.map String.toList ++ n.last.map String.toList := List.map_append
    rw [joined?_of_ne_nil hne, hnames, join_append hvon hlast, ← toList_joined n.von,
      ← toList_joined n.last]
    simp [Text.join]

theorem toList_lastFirst : (n.author.lastFirst false).toList = n.text := by
  rw [lastFirst, String.toList_append, String.toList_append, toList_family, text,
    List.append_assoc, author, toList_afterComma]
  exact congrArg (_ ++ ·) (congrArg (_ ++ ·) (toList_afterComma n.first))

/-! ## Cutting at commas -/

/-- A part without commas and braces is read through. -/
theorem cutCommas_append {t : List Char} (ht : ∀ c ∈ t, c ≠ ',' ∧ c ≠ '{' ∧ c ≠ '}')
    (part rest : List Char) :
    cutCommas 0 part (t ++ rest) = cutCommas 0 (t.reverse ++ part) rest := by
  induction t generalizing part with
  | nil => rfl
  | cons c t ih =>
    obtain ⟨⟨hcomma, hopen, hclose⟩, hrest⟩ := List.forall_mem_cons.mp ht
    rw [List.cons_append, cutCommas, if_neg (fun h => hcomma h.2), braceDepth_of_ne hopen hclose,
      ih hrest]
    simp

/-- A comma ends a part. -/
theorem cutCommas_comma (part rest : List Char) :
    cutCommas 0 part (',' :: rest) = part.reverse :: cutCommas 0 [] rest := by
  rw [cutCommas, if_pos ⟨rfl, rfl⟩]

/-- A part behind a comma is a part of its own. -/
theorem cutCommas_behindComma {ws : List String} (hne : ws ≠ []) (hws : ∀ w ∈ ws, IsWord w.toList)
    (part rest : List Char) :
    cutCommas 0 part (behindComma ws ++ rest) =
      part.reverse :: cutCommas 0 (spaced (ws.map String.toList)).reverse rest := by
  have hmap : ws.map String.toList ≠ [] := List.map_eq_nil_iff.not.mpr hne
  have hplain : ∀ c ∈ spaced (ws.map String.toList), c ≠ ',' ∧ c ≠ '{' ∧ c ≠ '}' := by
    intro c hc
    rw [← cons_join hmap] at hc
    rcases List.mem_cons.mp hc with rfl | hc
    · decide
    · exact plain_of_mem_join (List.forall_mem_map.mpr hws) hc
  rw [behindComma, if_neg hne, List.cons_append, cutCommas_comma, cutCommas_append hplain,
    List.append_nil]

/-- **The parts of a printed name** are cut at its commas. -/
theorem cutCommas_text :
    cutCommas 0 [] n.text =
      Text.join [' '] (n.family.map String.toList) ::
        ((if n.jr = [] then [] else [n.jr]) ++ [n.first]).map fun ws =>
          spaced (ws.map String.toList) := by
  have hfamily : ∀ c ∈ Text.join [' '] (n.family.map String.toList), c ≠ ',' ∧ c ≠ '{' ∧ c ≠ '}' :=
    fun c hc => plain_of_mem_join (List.forall_mem_map.mpr n.isWord_family) hc
  have hfirst (part : List Char) : cutCommas 0 part (behindComma n.first) =
      [part.reverse, spaced (n.first.map String.toList)] := by
    have h := cutCommas_behindComma n.first_ne_nil n.isWord_first part []
    rwa [List.append_nil, cutCommas, List.reverse_reverse] at h
  rw [text, cutCommas_append hfamily, List.append_nil]
  by_cases hjr : n.jr = []
  · rw [hjr, behindComma, if_pos rfl, List.nil_append, hfirst, List.reverse_reverse]
    rfl
  · rw [cutCommas_behindComma hjr n.isWord_jr, hfirst, if_neg hjr, List.reverse_reverse,
      List.reverse_reverse]
    rfl

/-- **A printed name is read back.** -/
theorem ofChars_text : ofChars n.text = n.author := by
  have htrim {ws : List String} (hne : ws ≠ []) (hws : ∀ w ∈ ws, IsWord w.toList) :
      Text.trim (spaced (ws.map String.toList)) = Text.join [' '] (ws.map String.toList) :=
    trim_spaced (List.map_eq_nil_iff.not.mpr hne) (List.forall_mem_map.mpr hws)
  have hpart {ws : List String} (hws : ∀ w ∈ ws, IsWord w.toList) :
      part? (Text.join [' '] (ws.map String.toList)) = joined? ws := partOfWords?_eq hws
  have hfamily : Text.IsTidy (Text.join [' '] (n.family.map String.toList)) :=
    Text.isTidy_join (List.map_eq_nil_iff.not.mpr n.family_ne_nil) <|
      List.forall_mem_map.mpr fun w hw => (n.isWord_family w hw).isTidy
  rw [ofChars, cutCommas_text, List.map_cons, Text.trim_of_isTidy hfamily]
  by_cases hjr : n.jr = []
  · simp only [if_pos hjr, List.nil_append, List.map_cons, List.map_nil,
      htrim n.first_ne_nil n.isWord_first, n.splitFamily_eq, hpart n.isWord_first]
    rw [author, hjr]
    rfl
  · simp only [if_neg hjr, List.cons_append, List.nil_append, List.map_cons, List.map_nil,
      htrim n.first_ne_nil n.isWord_first, htrim hjr n.isWord_jr, n.splitFamily_eq,
      hpart n.isWord_first, hpart n.isWord_jr]
    rfl

end FullName

/-! ## Cutting at `and` -/

/-- What may stand behind a word: nothing, a space or a comma. -/
def EndsWord (s : List Char) : Prop := ∀ c ∈ s.head?, c = ' ' ∨ c = ','

theorem EndsWord.append (hs : EndsWord s) (ht : EndsWord t) : EndsWord (s ++ t) := by
  cases s with
  | nil => exact ht
  | cons c s => exact hs

theorem endsWord_spaced (ws : List (List Char)) : EndsWord (spaced ws) := by
  cases ws with
  | nil => exact fun c hc => nomatch hc
  | cons w ws =>
    intro c hc
    cases hc
    exact .inl rfl

/-- **A text that is read through**: no name ends in it, whatever may stand behind a word
follows. -/
def IsReadThrough (t : List Char) : Prop :=
  ∀ name rest, EndsWord rest → cutNames 0 name (t ++ rest) = cutNames 0 (t.reverse ++ name) rest

theorem IsReadThrough.append (hs : IsReadThrough s) (ht : IsReadThrough t) (hends : EndsWord t) :
    IsReadThrough (s ++ t) := by
  intro name rest hrest
  rw [List.append_assoc, hs name _ (hends.append hrest), ht _ rest hrest]
  simp

theorem isReadThrough_nil : IsReadThrough [] := fun _ _ _ => rfl

/-- Characters that are no blanks and no braces are read through. -/
theorem isReadThrough_of_plain (h : ∀ c ∈ t, Text.isBlank c = false ∧ c ≠ '{' ∧ c ≠ '}') :
    IsReadThrough t := by
  intro name rest _
  induction t generalizing name with
  | nil => rfl
  | cons c t ih =>
    obtain ⟨⟨hblank, hopen, hclose⟩, ht⟩ := List.forall_mem_cons.mp h
    have hsep : isSeparatorBlank c = false := by
      by_contra hsep
      rw [isBlank_of_isSeparatorBlank (eq_true_of_ne_false hsep)] at hblank
      cases hblank
    have hnot : startsWithAnd (c :: (t ++ rest)) = false := startsWithAnd_of_not_blank hsep
    rw [List.cons_append, cutNames_of_not (by simp [hnot]), braceDepth_of_ne hopen hclose, ih ht]
    simp

/-- A word is no `and`, so none starts at the space before it. -/
theorem IsWord.not_startsWithAnd (h : IsWord w) (hrest : EndsWord rest) :
    startsWithAnd (' ' :: (w ++ rest)) = false := by
  rw [Bool.eq_false_iff]
  intro hand
  obtain ⟨b, word, b', after, heq, -, hword, hb'⟩ := startsWithAnd_iff.mp hand
  obtain ⟨-, heq⟩ := List.cons.inj heq
  have hletters : ∀ c ∈ word, Text.isBlank c = false ∧ c ≠ ',' := by
    intro c hc
    have hall : ∀ c ∈ "andAND".toList, Text.isBlank c = false ∧ c ≠ ',' :=
      List.all_iff_forall_prop.mp (by decide)
    exact hall c (mem_letters_of_toLower (hword ▸ List.mem_map_of_mem hc))
  -- neither of the two words goes on where the other one has ended
  rcases List.append_eq_append_iff.mp heq with ⟨more, rfl, hmore⟩ | ⟨more, rfl, hmore⟩
  · cases more with
    | nil => exact h.ne_and (by simpa using hword)
    | cons c more =>
      obtain ⟨hblank, hcomma⟩ := hletters c (by simp)
      rcases hrest c (by simp [hmore]) with rfl | rfl
      · exact absurd hblank (by decide)
      · exact hcomma rfl
  · cases more with
    | nil => exact h.ne_and (by simpa using hword)
    | cons c more =>
      obtain ⟨rfl, -⟩ := List.cons.inj hmore
      obtain ⟨hblank, -⟩ := h.plain b' (by simp)
      rw [isBlank_of_isSeparatorBlank hb'] at hblank
      cases hblank

theorem IsWord.isReadThrough (h : IsWord w) : IsReadThrough w :=
  isReadThrough_of_plain fun c hc =>
    have ⟨hblank, _, hopen, hclose⟩ := h.plain c hc
    ⟨hblank, hopen, hclose⟩

theorem isReadThrough_spaced (hws : ∀ w ∈ ws, IsWord w) : IsReadThrough (spaced ws) := by
  induction ws with
  | nil => exact isReadThrough_nil
  | cons w ws ih =>
    obtain ⟨hw, hrest⟩ := List.forall_mem_cons.mp hws
    have hspace : IsReadThrough (' ' :: w) := by
      intro name rest hends
      have hnot := hw.not_startsWithAnd hends
      rw [List.cons_append, cutNames_of_not (by simp [hnot]),
        braceDepth_of_ne (by decide) (by decide), hw.isReadThrough _ rest hends]
      simp
    exact hspace.append (ih hrest) (endsWord_spaced ws)

namespace FullName

variable (n : FullName)

theorem endsWord_behindComma (ws : List String) : EndsWord (behindComma ws) := by
  intro c hc
  unfold behindComma at hc
  split at hc
  · cases hc
  · cases hc
    exact .inr rfl

theorem isReadThrough_behindComma {ws : List String} (hws : ∀ w ∈ ws, IsWord w.toList) :
    IsReadThrough (behindComma ws) := by
  unfold behindComma
  split
  · exact isReadThrough_nil
  · have hcomma : IsReadThrough [','] :=
      isReadThrough_of_plain (List.forall_mem_singleton.mpr (by decide))
    exact hcomma.append (isReadThrough_spaced (List.forall_mem_map.mpr hws)) (endsWord_spaced _)

/-- **A printed name is read through**, behind a space as well. -/
theorem isReadThrough_text : IsReadThrough n.text ∧ IsReadThrough (' ' :: n.text) := by
  have hends : EndsWord (behindComma n.jr ++ behindComma n.first) :=
    (endsWord_behindComma n.jr).append (endsWord_behindComma n.first)
  have hcommas : IsReadThrough (behindComma n.jr ++ behindComma n.first) :=
    (isReadThrough_behindComma n.isWord_jr).append (isReadThrough_behindComma n.isWord_first)
      (endsWord_behindComma n.first)
  have hwords : ∀ w ∈ n.family.map String.toList, IsWord w :=
    List.forall_mem_map.mpr n.isWord_family
  have hne : n.family.map String.toList ≠ [] := List.map_eq_nil_iff.not.mpr n.family_ne_nil
  rw [text, ← List.cons_append, cons_join hne]
  refine ⟨IsReadThrough.append ?_ hcommas hends,
    (isReadThrough_spaced hwords).append hcommas hends⟩
  obtain ⟨w, ws, hcons⟩ := List.exists_cons_of_ne_nil hne
  rw [hcons] at hwords ⊢
  obtain ⟨hw, hws⟩ := List.forall_mem_cons.mp hwords
  rw [join_eq_append_spaced]
  exact hw.isReadThrough.append (isReadThrough_spaced hws) (endsWord_spaced ws)

theorem isTidy_text : Text.IsTidy n.text := by
  have htidy {ws : List String} (hne : ws ≠ []) (hws : ∀ w ∈ ws, IsWord w.toList) :
      Text.IsTidy (Text.join [' '] (ws.map String.toList)) :=
    Text.isTidy_join (List.map_eq_nil_iff.not.mpr hne) <|
      List.forall_mem_map.mpr fun w hw => (hws w hw).isTidy
  have hfirst : behindComma n.first =
      [',', ' '] ++ Text.join [' '] (n.first.map String.toList) := by
    rw [behindComma, if_neg n.first_ne_nil,
      ← cons_join (List.map_eq_nil_iff.not.mpr n.first_ne_nil)]
    rfl
  have hfamily := htidy n.family_ne_nil n.isWord_family
  rw [text, hfirst, ← List.append_assoc, ← List.append_assoc, List.append_assoc _ _ [',', ' ']]
  exact hfamily.append (htidy n.first_ne_nil n.isWord_first) _

theorem endsWord_flatMap (names : List FullName) :
    EndsWord (names.flatMap fun n => " and ".toList ++ n.text) := by
  intro c hc
  cases names with
  | nil => cases hc
  | cons n names =>
    cases hc
    exact .inl rfl

/-- **Printed names are cut** where they were joined. -/
theorem cutNames_flatMap (names : List FullName) (name : List Char) :
    cutNames 0 name (names.flatMap fun n => " and ".toList ++ n.text) =
      name.reverse :: names.map fun n => ' ' :: n.text := by
  induction names generalizing name with
  | nil => exact cutNames_nil
  | cons n names ih =>
    have hand : startsWithAnd (" and ".toList ++ (n.text ++ names.flatMap fun n =>
        " and ".toList ++ n.text)) = true := rfl
    -- the space behind the word stays with the name that follows
    have hcut := (cutNames_of_startsWithAnd hand name).trans <|
      congrArg (name.reverse :: ·) (n.isReadThrough_text.2 [] _ (endsWord_flatMap names))
    rw [List.flatMap_cons, List.append_assoc]
    refine hcut.trans ?_
    rw [ih, List.append_nil, List.reverse_reverse]
    rfl

/-- **The names of joined texts** are the texts. -/
theorem nameTexts_join (names : List FullName) :
    nameTexts (Text.join " and ".toList (names.map text)) = names.map text := by
  cases names with
  | nil =>
    rw [List.map_nil, Text.join, nameTexts, cutNames_nil]
    rfl
  | cons n names =>
    have hcut : cutNames 0 [] (Text.join " and ".toList ((n :: names).map text)) =
        n.text :: names.map fun n => ' ' :: n.text := by
      rw [List.map_cons, Text.join_cons, List.flatMap_map,
        n.isReadThrough_text.1 [] _ (endsWord_flatMap names), cutNames_flatMap, List.append_nil,
        List.reverse_reverse]
    have htrim : (names.map fun n => ' ' :: n.text).map Text.trim = names.map text := by
      rw [List.map_map]
      exact List.map_congr_left fun n _ => n.isTidy_text.trim_cons (by decide)
    have hkept : ∀ t ∈ (n :: names).map text, (!t.isEmpty) = true :=
      List.forall_mem_map.mpr fun n _ => by simp [n.isTidy_text.ne_nil]
    rw [nameTexts, hcut, List.map_cons, Text.trim_of_isTidy n.isTidy_text, htrim, ← List.map_cons,
      List.filter_eq_self.mpr hkept]

end FullName

/-- **Printed names parse back**: a list of full names, printed family name first, is read as the
list that it was printed from. -/
theorem parseList_listLastFirst (names : List FullName) :
    parseList (listLastFirst false (names.map FullName.author)) = names.map FullName.author := by
  have hprinted : (listLastFirst false (names.map FullName.author)).toList =
      Text.join " and ".toList (names.map FullName.text) := by
    rw [listLastFirst, String.toList_intercalate, Text.intercalate_eq_join, List.map_map,
      List.map_map]
    exact congrArg _ (List.map_congr_left fun n _ => n.toList_lastFirst)
  rw [parseList, hprinted, FullName.nameTexts_join, List.map_map]
  exact List.map_congr_left fun n _ => n.ofChars_text

/-- A name with every part, whose words hold `and` as a part of them. -/
def fullSample : FullName where
  first := ["Fernando", "A."]
  von := ["van", "der"]
  last := ["Sand", "de", "Andrade"]
  jr := ["Jr."]
  first_ne_nil := by decide
  last_ne_nil := by decide
  isWord := by decide
  isLowercase_von := by
    simp only [List.forall_mem_cons]
    exact ⟨⟨[], 'v', ['a', 'n'], rfl, List.forall_mem_nil _, by decide⟩,
      ⟨[], 'd', ['e', 'r'], rfl, List.forall_mem_nil _, by decide⟩, List.forall_mem_nil _⟩
  not_isLowercase_last := by
    rintro w next more heq
    cases heq
    rw [← IsWord.isLowercaseWord_iff (by decide)]
    decide

/-- A name whose family name is a lowercase word. -/
def lowercaseSample : FullName where
  first := ["bell"]
  last := ["hooks"]
  first_ne_nil := by decide
  last_ne_nil := by decide
  isWord := by decide
  isLowercase_von := List.forall_mem_nil _
  not_isLowercase_last := by
    rintro w next more heq
    cases heq

theorem parseList_listLastFirst_samples :
    parseList "van der Sand de Andrade, Jr., Fernando A. and hooks, bell" =
      [⟨some "Fernando A.", some "van der", some "Sand de Andrade", some "Jr."⟩,
        ⟨some "bell", none, some "hooks", none⟩] :=
  parseList_listLastFirst [fullSample, lowercaseSample]

end DocCite.Author
