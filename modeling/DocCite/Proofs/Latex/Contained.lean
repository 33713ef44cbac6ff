import DocCite.Proofs.Latex.Pieces
import DocCite.Proofs.Markup.Canonical

/-!
# What field content does to the markup around it

A field value is contained if its markup leaves the text around it alone: the tags in it nest, those
that open are its font commands, and text that follows stays plain. The characters of a value are
escaped, but the sign that a command names is written as it is, and two such signs can spell a tag
around characters between them. That is the only way out: a value is contained exactly if its pieces
spell no tag (`contained_iff`).
-/

namespace DocCite.Latex

open Markup (IsTagChar Nests Token isTagChar_of_tagNamed? openings readTag tagCount tagNamed?
  tokens)

/-- The pieces that end a tag: the sign itself, and the sign under an accent. -/
def Piece.EndsTag (p : Piece) : Prop := p = .greater ∨ ∃ accent, p = .accented accent '>'

/-- **The rest of a tag**: its name in characters of the text, and a piece that ends it. -/
def SpellsRest (ps : List Piece) : Prop :=
  ∃ body stop after, ps = body.map .char ++ stop :: after ∧ stop.EndsTag ∧ (tagNamed? body).isSome

/-- **Pieces that spell a tag** which none of them is: a sign that a command names begins it. -/
def SpellsTag (ps : List Piece) : Prop :=
  ∃ before after, ps = before ++ .less :: after ∧ SpellsRest after

theorem SpellsTag.cons {ps : List Piece} (h : SpellsTag ps) (p : Piece) : SpellsTag (p :: ps) := by
  obtain ⟨before, after, rfl, hrest⟩ := h
  exact ⟨p :: before, after, rfl, hrest⟩

theorem SpellsTag.of_cons {p : Piece} {ps : List Piece} (h : SpellsTag (p :: ps))
    (hp : p = .less → ¬ SpellsRest ps) : SpellsTag ps := by
  obtain ⟨before, after, heq, hrest⟩ := h
  cases before with
  | nil =>
    obtain ⟨rfl, rfl⟩ := List.cons.inj heq
    exact absurd hrest (hp rfl)
  | cons q before =>
    obtain ⟨rfl, rfl⟩ := List.cons.inj heq
    exact ⟨before, after, rfl, hrest⟩

/-! ## Reading what is spelled -/

/-- No accent is part of a tag, and none ends one. -/
theorem combiningMark_ne (accent : Char) :
    ¬ IsTagChar (combiningMark accent) ∧ combiningMark accent ≠ '>' ∧
      combiningMark accent ≠ '<' ∧ combiningMark accent ≠ '&' := by
  unfold combiningMark
  split <;> decide

theorem escapeChars_of_isTagChar {body : List Char} (h : ∀ c ∈ body, IsTagChar c) :
    Markup.escapeChars body = body :=
  Markup.escapeChars_eq_self fun c hc =>
    have hne := (h c hc).ne
    ⟨hne.2.2, hne.1, hne.2.1⟩

/-- A character is escaped by an entity, or stands for itself and is no sign of markup. -/
theorem escapeChar_cases (c : Char) :
    (Markup.escapeChar c = [c] ∧ c ≠ '<' ∧ c ≠ '>' ∧ c ≠ '&') ∨
      ∃ s, Markup.escapeChar c = '&' :: s := by
  unfold Markup.escapeChar
  split
  · exact .inr ⟨_, rfl⟩
  · split
    · exact .inr ⟨_, rfl⟩
    · split
      · exact .inr ⟨_, rfl⟩
      · exact .inl ⟨rfl, ‹_›, ‹_›, ‹_›⟩

/-- A piece that ends a tag is written with the sign first. -/
theorem Piece.EndsTag.text_eq {p : Piece} (h : p.EndsTag) : p.text = '>' :: p.text.tail := by
  rcases h with rfl | ⟨accent, rfl⟩ <;> rfl

/-- A spelled tag is read as one. -/
theorem readTag_spell {body : List Char} {t : Token} (hbody : tagNamed? body = some t)
    {stop : Piece} (hstop : stop.EndsTag) (after : List Piece) (m : List Char) :
    readTag (spell (body.map .char ++ stop :: after) ++ m) =
      some (t, stop.text.tail ++ (spell after ++ m)) := by
  have hchars : ∀ c ∈ body, IsTagChar c := fun _ => isTagChar_of_tagNamed? hbody
  refine Markup.readTag_eq_some_iff.mpr
    ⟨body, ?_, fun hmem => (hchars _ hmem).ne.2.1 rfl, hbody⟩
  rw [spell_append, spell_map_char, escapeChars_of_isTagChar hchars, spell_cons, hstop.text_eq]
  simp only [List.append_assoc, List.cons_append, List.tail_cons]

/-- Where the letters of a tag and its end are written, they are pieces. -/
theorem eq_map_char_append_of_spell_eq {ps : List Piece} {body rest m : List Char} (hm : '>' ∉ m)
    (hbody : ∀ c ∈ body, IsTagChar c) (h : spell ps ++ m = body ++ '>' :: rest) :
    ∃ stop after, ps = body.map .char ++ stop :: after ∧ stop.EndsTag := by
  induction ps generalizing body with
  | nil =>
    rw [spell_nil, List.nil_append] at h
    exact absurd (h ▸ List.mem_append_right _ List.mem_cons_self) hm
  | cons p ps ih =>
    rw [spell_cons, List.append_assoc] at h
    cases body with
    | nil =>
      -- the piece starts with the sign, and only two of them do
      cases p with
      | char c =>
        obtain ⟨heq, -, hgreater, -⟩ | ⟨s, heq⟩ := escapeChar_cases c
        · rw [Piece.text, heq] at h
          exact absurd (List.cons.inj h).1 hgreater
        · rw [Piece.text, heq] at h
          exact absurd (List.cons.inj h).1 (by decide)
      | accented accent letter =>
        obtain ⟨rfl, -⟩ := List.cons.inj h
        exact ⟨_, ps, rfl, .inr ⟨accent, rfl⟩⟩
      | less => exact absurd (List.cons.inj h).1 (by decide)
      | greater => exact ⟨_, ps, rfl, .inl rfl⟩
      | opening a => exact absurd (List.cons.inj h).1 (by decide)
      | closing a => exact absurd (List.cons.inj h).1 (by decide)
    | cons b body =>
      obtain ⟨hb, htail⟩ := List.forall_mem_cons.mp hbody
      cases p with
      | char c =>
        obtain ⟨heq, -⟩ | ⟨s, heq⟩ := escapeChar_cases c
        · rw [Piece.text, heq] at h
          obtain ⟨stop, after, hps, hstop⟩ := ih htail (List.cons.inj h).2
          exact ⟨stop, after, by rw [hps, (List.cons.inj h).1]; rfl, hstop⟩
        · rw [Piece.text, heq] at h
          exact absurd (List.cons.inj h).1.symm hb.ne.2.2
      | accented accent letter =>
        -- the accent stands where the tag goes on or ends
        have hrest := (List.cons.inj h).2
        cases body with
        | nil => exact absurd (List.cons.inj hrest).1 (combiningMark_ne accent).2.1
        | cons b' body =>
          have hmark : combiningMark accent = b' := (List.cons.inj hrest).1
          exact absurd (hmark ▸ htail b' List.mem_cons_self) (combiningMark_ne accent).1
      | less => exact absurd (List.cons.inj h).1.symm hb.ne.1
      | greater => exact absurd (List.cons.inj h).1.symm hb.ne.2.1
      | opening a => exact absurd (List.cons.inj h).1.symm hb.ne.1
      | closing a => exact absurd (List.cons.inj h).1.symm hb.ne.1

/-- **A tag is read after a sign** exactly where the pieces spell the rest of one. -/
theorem isSome_readTag_spell_iff {ps : List Piece} {m : List Char} (hm : '>' ∉ m) :
    (readTag (spell ps ++ m)).isSome ↔ SpellsRest ps := by
  constructor
  · intro h
    obtain ⟨r, hr⟩ := Option.isSome_iff_exists.mp h
    obtain ⟨body, heq, -, htag⟩ := Markup.readTag_eq_some_iff.mp hr
    obtain ⟨stop, after, hps, hstop⟩ :=
      eq_map_char_append_of_spell_eq hm (fun _ => isTagChar_of_tagNamed? htag) heq
    exact ⟨body, stop, after, hps, hstop, by rw [htag]; rfl⟩
  · rintro ⟨body, stop, after, rfl, hstop, htag⟩
    obtain ⟨t, ht⟩ := Option.isSome_iff_exists.mp htag
    rw [readTag_spell ht hstop]
    rfl

/-- No tag starts with an accent. -/
theorem readTag_combiningMark (accent : Char) (s : List Char) :
    readTag (combiningMark accent :: s) = none := by
  obtain ⟨hname, hgreater, -⟩ := combiningMark_ne accent
  refine Option.not_isSome_iff_eq_none.mp fun hsome => ?_
  obtain ⟨r, hr⟩ := Option.isSome_iff_exists.mp hsome
  obtain ⟨body, heq, -, htag⟩ := Markup.readTag_eq_some_iff.mp hr
  cases body with
  | nil => exact hgreater (List.cons.inj heq).1
  | cons b body =>
    have hmark : combiningMark accent = b := (List.cons.inj heq).1
    exact hname (hmark ▸ isTagChar_of_tagNamed? htag List.mem_cons_self)

/-- No entity starts with an accent. -/
theorem readEntity_combiningMark (accent : Char) (s : List Char) :
    Markup.readEntity (combiningMark accent :: s) = none := by
  have hname : ¬ IsTagChar (combiningMark accent) := (combiningMark_ne accent).1
  unfold Markup.readEntity
  split <;> first
    | rfl
    | next heq => exact absurd ((List.cons.inj heq).1 ▸ by decide) hname

/-- **A piece is read as what it is written for**, unless it begins a tag that the pieces after it
spell. -/
theorem tokens_spell_cons {p : Piece} {ps : List Piece} {m : List Char} (hm : '>' ∉ m)
    (h : p = .less → ¬ SpellsRest ps) :
    tokens (spell (p :: ps) ++ m) = p.units ++ tokens (spell ps ++ m) := by
  rw [spell_cons, List.append_assoc]
  generalize hs : spell ps ++ m = s
  cases p with
  | char c => exact Markup.tokens_escapeChar c s
  | accented accent letter =>
    obtain ⟨-, -, hless, hamp⟩ := combiningMark_ne accent
    have hletter : tokens (letter :: combiningMark accent :: s) =
        .char letter :: tokens (combiningMark accent :: s) := by
      by_cases hl : letter = '<'
      · subst hl
        exact Markup.tokens_less_of_none (readTag_combiningMark accent s)
      by_cases ha : letter = '&'
      · subst ha
        exact Markup.tokens_amp_of_none (readEntity_combiningMark accent s)
      exact Markup.tokens_cons_of_ne hl ha
    exact hletter.trans (congrArg _ (Markup.tokens_cons_of_ne hless hamp))
  | less =>
    have hnone : readTag s = none := by
      rw [← hs]
      exact Option.not_isSome_iff_eq_none.mp fun hsome =>
        h rfl ((isSome_readTag_spell_iff hm).mp hsome)
    exact Markup.tokens_less_of_none hnone
  | greater => exact Markup.tokens_cons_of_ne (by decide) (by decide)
  | opening a => exact Markup.tokens_openTag a s
  | closing a => exact Markup.tokens_closeTag a s

/-- **Pieces that spell no tag are read as what they are written for**, whatever follows without
the end of a tag. -/
theorem tokens_spell {ps : List Piece} (h : ¬ SpellsTag ps) {m : List Char} (hm : '>' ∉ m) :
    tokens (spell ps ++ m) = told ps ++ tokens m := by
  induction ps with
  | nil => rfl
  | cons p ps ih =>
    have hp : p = .less → ¬ SpellsRest ps := fun heq hrest => h ⟨[], ps, by rw [heq]; rfl, hrest⟩
    rw [tokens_spell_cons hm hp, ih fun hps => h (hps.cons p), told_cons, List.append_assoc]

/-- What follows the sign in a piece that ends a tag is read as a text. -/
theorem Piece.EndsTag.tokens_tail {p : Piece} (h : p.EndsTag) :
    ∃ marks : List Char, p.units = ('>' :: marks).map .char ∧
      ∀ s, tokens (p.text.tail ++ s) = marks.map .char ++ tokens s := by
  rcases h with rfl | ⟨accent, rfl⟩
  · exact ⟨[], rfl, fun s => rfl⟩
  · obtain ⟨-, -, hless, hamp⟩ := combiningMark_ne accent
    exact ⟨[combiningMark accent], rfl, fun s => Markup.tokens_cons_of_ne hless hamp⟩

/-- **A tag that is spelled** is read as one, whatever follows. -/
theorem tokens_spelled {body : List Char} {t : Token} (ht : tagNamed? body = some t) {stop : Piece}
    (hstop : stop.EndsTag) (after : List Piece) :
    ∃ marks : List Char, stop.units = ('>' :: marks).map .char ∧ ∀ m,
      tokens (spell (.less :: (body.map .char ++ stop :: after)) ++ m) =
        t :: (marks.map .char ++ tokens (spell after ++ m)) := by
  obtain ⟨marks, hunits, htail⟩ := hstop.tokens_tail
  refine ⟨marks, hunits, fun m => ?_⟩
  rw [spell_cons, List.append_assoc, ← htail]
  exact Markup.tokens_less_of_readTag (readTag_spell ht hstop after m)

/-- A tag that is spelled is one that no piece was written for. -/
theorem tagCount_spelled {body : List Char} (hbody : (tagNamed? body).isSome) {stop : Piece}
    (hstop : stop.EndsTag) (after : List Piece) (m : List Char) :
    tagCount (tokens (spell (.less :: (body.map .char ++ stop :: after)) ++ m)) =
        tagCount (tokens (spell after ++ m)) + 1 ∧
      tagCount (told (.less :: (body.map .char ++ stop :: after))) = tagCount (told after) := by
  obtain ⟨t, ht⟩ := Option.isSome_iff_exists.mp hbody
  obtain ⟨marks, hunits, hread⟩ := tokens_spelled ht hstop after
  have htag : tagCount [t] = 1 := by
    unfold tagNamed? at ht
    split at ht <;> obtain ⟨a, -, rfl⟩ := Option.map_eq_some_iff.mp ht <;> rfl
  constructor
  · rw [hread, ← List.singleton_append, Markup.tagCount_append, Markup.tagCount_append,
      Markup.tagCount_map_char, htag]
    omega
  · have htold : told (.less :: (body.map .char ++ stop :: after)) =
        ('<' :: body ++ '>' :: marks).map .char ++ told after := by
      rw [told_cons, told_append, told_map_char, told_cons, hunits]
      simp [Piece.units]
    rw [htold, Markup.tagCount_append, Markup.tagCount_map_char, Nat.zero_add]

/-- **Induction on pieces as they are read**: a tag that is spelled takes several of them at once,
otherwise they are read one by one. -/
theorem induction_read {motive : List Piece → Prop} (nil : motive [])
    (spelled : ∀ body stop after, (tagNamed? body).isSome → stop.EndsTag → motive after →
      motive (.less :: (body.map .char ++ stop :: after)))
    (single : ∀ p ps, (p = .less → ¬ SpellsRest ps) → motive ps → motive (p :: ps))
    (ps : List Piece) : motive ps := by
  induction hn : ps.length using Nat.strong_induction_on generalizing ps with
  | _ n ih =>
    subst hn
    cases ps with
    | nil => exact nil
    | cons p ps =>
      by_cases hrest : p = .less ∧ SpellsRest ps
      · obtain ⟨rfl, body, stop, after, rfl, hstop, htag⟩ := hrest
        refine spelled body stop after htag hstop (ih after.length ?_ after rfl)
        simp only [List.length_cons, List.length_append]
        omega
      · have hps := ih ps.length (Nat.lt_succ_self _) ps rfl
        exact single p ps (fun heq hspells => hrest ⟨heq, hspells⟩) hps

/-- **Pieces are read by themselves**, whatever follows without the end of a tag: no piece begins an
entity that is left off, and a tag that is begun is not ended by what follows. -/
theorem tokens_spell_append (ps : List Piece) {m : List Char} (hm : '>' ∉ m) :
    tokens (spell ps ++ m) = tokens (spell ps) ++ tokens m := by
  induction ps using induction_read with
  | nil => rw [spell_nil, Markup.tokens_nil, List.nil_append, List.nil_append]
  | spelled body stop after htag hstop ih =>
    obtain ⟨t, ht⟩ := Option.isSome_iff_exists.mp htag
    obtain ⟨marks, -, hread⟩ := tokens_spelled ht hstop after
    have halone := hread []
    rw [List.append_nil, List.append_nil] at halone
    rw [hread, halone, ih, List.cons_append, List.append_assoc]
  | single p ps hp ih =>
    have halone := tokens_spell_cons (m := []) List.not_mem_nil hp
    rw [List.append_nil, List.append_nil] at halone
    rw [tokens_spell_cons hm hp, halone, ih, List.append_assoc]

/-- The visible text of pieces is the same before any text without the end of a tag. -/
theorem plainChars_spell_append (ps : List Piece) {m : List Char} (hm : '>' ∉ m) :
    Markup.plainChars (spell ps ++ m) = Markup.plainChars (spell ps) ++ Markup.plainChars m := by
  rw [Markup.plainChars_eq, tokens_spell_append ps hm, List.filterMap_append, Markup.plainChars_eq,
    Markup.plainChars_eq]

/-- The tags of the pieces are read, and a tag that is spelled is read besides. -/
theorem tagCount_told {m : List Char} (hm : '>' ∉ m) (ps : List Piece) :
    tagCount (told ps) ≤ tagCount (tokens (spell ps ++ m)) ∧
      (SpellsTag ps → tagCount (told ps) < tagCount (tokens (spell ps ++ m))) := by
  induction ps using induction_read with
  | nil =>
    refine ⟨Nat.zero_le _, fun ⟨before, after, heq, _⟩ => ?_⟩
    exact absurd heq.symm (List.append_ne_nil_of_right_ne_nil _ (List.cons_ne_nil _ _))
  | spelled body stop after htag hstop ih =>
    obtain ⟨hread, htold⟩ := tagCount_spelled htag hstop after m
    rw [hread, htold]
    exact ⟨Nat.le_succ_of_le ih.1, fun _ => Nat.lt_succ_of_le ih.1⟩
  | single p ps hp ih =>
    obtain ⟨hle, hlt⟩ := ih
    rw [tokens_spell_cons hm hp, told_cons, Markup.tagCount_append, Markup.tagCount_append]
    exact ⟨Nat.add_le_add_left hle _, fun h => Nat.add_lt_add_left (hlt (h.of_cons hp)) _⟩

/-! ## Contained values -/

/-- **A field value that is contained** in its markup. -/
structure Contained (value : String) : Prop where
  /-- Text after the value is plain, and the value stays as it is. -/
  plain_after : ∀ s : String,
    Markup.formatted (Markup.runs (toMarkup value ++ Markup.escape s)) =
      Markup.formatted (Markup.runs (toMarkup value)) ++ s.toList.map fun c => ⟨c, .plain⟩
  /-- Each tag that opens is closed, the last one first. -/
  nests : Nests [] (tokens (toMarkup value).toList)
  /-- The tags that open are the font commands of the value. -/
  openings_eq : openings (tokens (toMarkup value).toList) = fonts value.toList
  /-- Without font commands nothing is formatted. -/
  plain_of_fonts_eq_nil : fonts value.toList = [] →
    ∀ r ∈ Markup.runs (toMarkup value), r.format = .plain

theorem toList_toMarkup (value : String) :
    (toMarkup value).toList = spell (pieces [] value.toList) := by
  rw [toMarkup, String.toList_ofList, spell_pieces]
  rfl

/-- Runs without an opening tag are plain. -/
theorem format_eq_plain_of_mem_runs {markup : String}
    (h : openings (tokens markup.toList) = []) {r : Markup.Run} (hr : r ∈ Markup.runs markup) :
    r.format = .plain := by
  have hne : r.text.toList ≠ [] := by
    simpa using (Markup.canonical_runs markup).text_ne_empty r hr
  obtain ⟨c, s, htext⟩ := List.exists_cons_of_ne_nil hne
  have hglyph : (⟨c, r.format⟩ : Markup.Glyph) ∈ Markup.glyphs markup.toList := by
    rw [← Markup.formatted_runs]
    refine List.mem_flatMap.mpr ⟨r, hr, List.mem_map.mpr ⟨c, ?_, rfl⟩⟩
    rw [htext]
    exact List.mem_cons_self
  exact Markup.format_eq_plain_of_openings_eq_nil h hglyph

/-- A value whose pieces spell no tag is contained. -/
theorem contained_of_not_spellsTag {value : String} (h : ¬ SpellsTag (pieces [] value.toList)) :
    Contained value := by
  have hnests : Nests [] (told (pieces [] value.toList)) := nests_told [] value.toList
  have hread : tokens (toMarkup value).toList = told (pieces [] value.toList) := by
    have htokens := tokens_spell h (m := []) List.not_mem_nil
    rwa [List.append_nil, Markup.tokens_nil, List.append_nil, ← toList_toMarkup] at htokens
  have hfonts : openings (tokens (toMarkup value).toList) = fonts value.toList := by
    rw [hread, openings_told]
  refine ⟨fun s => ?_, hread ▸ hnests, hfonts, fun hnil r hr => ?_⟩
  · -- escaped text ends no tag, so before it the pieces are read as they are alone
    have hescape : '>' ∉ Markup.escapeChars s.toList :=
      Markup.greater_not_mem_escapeChars s.toList
    have hafter : Markup.Depths.zero.after (told (pieces [] value.toList)) = Markup.Depths.zero :=
      hnests.after_eq fun _ => rfl
    rw [Markup.formatted_runs, Markup.formatted_runs, String.toList_append, Markup.escape,
      String.toList_ofList, Markup.glyphs, toList_toMarkup, tokens_spell h hescape,
      Markup.glyphsOf_append, hafter, ← hread, ← toList_toMarkup]
    exact congrArg (_ ++ ·) (Markup.glyphs_escapeChars s.toList)
  · exact format_eq_plain_of_mem_runs (hfonts.trans hnil) hr

/-- **A value without the command `\<` is contained.** -/
theorem contained_of_not_isInfix {value : String} (h : ¬ ['\\', '<'] <:+: value.toList) :
    Contained value := by
  refine contained_of_not_spellsTag fun ⟨before, after, heq, _⟩ => h ?_
  exact infix_of_less_mem_pieces (heq ▸ List.mem_append_right before List.mem_cons_self)

/-- **A value in whose text no font command stands is plain**, if it has no `\<` either. -/
theorem format_eq_plain_of_not_isInfix {value : String} (h : ¬ ['\\', '<'] <:+: value.toList)
    (hfonts : ∀ name : String, (fontAttribute? name).isSome →
      ¬ '\\' :: name.toList <:+: value.toList) :
    ∀ r ∈ Markup.runs (toMarkup value), r.format = .plain := by
  refine (contained_of_not_isInfix h).plain_of_fonts_eq_nil (List.filterMap_eq_nil_iff.mpr ?_)
  intro name hname
  by_contra hfont
  exact hfonts name (Option.isSome_iff_ne_none.mpr hfont) (infix_of_mem_commands hname)

/-- **A field value is contained** exactly if its pieces spell no tag: unless the sign `<` that a
command names begins one and the sign `>`, of a command as well, ends it. -/
theorem contained_iff (value : String) :
    Contained value ↔ ¬ SpellsTag (pieces [] value.toList) := by
  refine ⟨fun h hspells => ?_, contained_of_not_spellsTag⟩
  -- the tag that is spelled is counted besides those of the font commands
  have hlt := (tagCount_told (m := []) List.not_mem_nil (pieces [] value.toList)).2 hspells
  rw [List.append_nil, ← toList_toMarkup, h.nests.tagCount_eq, h.openings_eq,
    (nests_told [] value.toList).tagCount_eq, openings_told] at hlt
  exact absurd hlt (Nat.lt_irrefl _)

/-- The signs of a tag around a letter, as commands. -/
def signedLetter : String := "\\<i\\>"

/-- The sign `<` that a command names opens a tag: the text after it is no longer plain. -/
theorem not_contained_signedLetter : ¬ Contained signedLetter := by
  intro h
  have hplain := h.plain_after "x"
  revert hplain
  decide +kernel

end DocCite.Latex
