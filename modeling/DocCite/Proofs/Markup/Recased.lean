import DocCite.Proofs.Markup.Places

/-!
# Markup in another case

A case mapping that goes over a markup text goes over its tags and entities as well. Tags are known
in either case and entities are not, and a letter beyond ASCII may become one of a tag's name. So
the visible text is mapped just if tags and entities stand where they stood, and no capital sigma
ends a word in the one text and not in the other (`plainChars_upper_iff`, `plainChars_lower_iff`).
-/

namespace DocCite.Markup

open Text (Casing IsSign)

/-- **Tags and entities stand where they stood** in a text whose case was mapped. -/
structure KeepsSigns (recase : List Char → List Char) (m : List Char) : Prop where
  tags : ∀ before after, m = before ++ '<' :: after → isTag (recase after) = isTag after
  entities : ∀ before after, m = before ++ '&' :: after → isEntity (recase after) = isEntity after

variable {k : Casing} {before shown s t body name m rest x : List Char} {c d : Char} {tag : Token}

/-- Without the signs that begin them there are no tags and entities. -/
theorem keepsSigns_of_not_mem {recase : List Char → List Char} (hless : '<' ∉ m) (hamp : '&' ∉ m) :
    KeepsSigns recase m := by
  constructor
  · rintro before after rfl
    exact absurd (List.mem_append_right _ List.mem_cons_self) hless
  · rintro before after rfl
    exact absurd (List.mem_append_right _ List.mem_cons_self) hamp

/-! ## Names in another case -/

/-- Letters and slashes stay what they are but for their case. -/
theorem map_toLower_flatMap_alone
    (h : ∀ c ∈ s, Text.isAsciiLetter c = true ∨ c = '/') :
    (s.flatMap k.alone).map Char.toLower = s.map Char.toLower := by
  induction s with
  | nil => rfl
  | cons c s ih =>
    obtain ⟨hc, hrest⟩ := List.forall_mem_cons.mp h
    rw [List.flatMap_cons, List.map_append, ih hrest, List.map_cons]
    rcases hc with hc | rfl
    · obtain ⟨d, hd, hlower⟩ : ∃ d, k.alone c = [d] ∧ d.toLower = c.toLower :=
        k.image_of_isAsciiLetter hc
      rw [hd, List.map_singleton, hlower]
      rfl
    · rw [Casing.alone, k.image_of_isSign (by decide)]
      rfl

/-- A tag is known in either case. -/
theorem tagNamed?_congr (h : s.map Char.toLower = t.map Char.toLower) :
    tagNamed? s = tagNamed? t := by
  have hslash {c : Char} (hc : c.toLower = '/') : c = '/' := by
    by_cases hascii : c.toNat < 128
    · rw [← hc, Text.toLower_eq_self hascii (.inr (hc ▸ by decide))]
    · rwa [Text.toLower_of_le (Nat.le_of_not_lt hascii)] at hc
  have hname {s t : List Char} (h : s.map Char.toLower = t.map Char.toLower) :
      attribute? s = attribute? t := by
    unfold attribute?
    rw [h]
  match s, t with
  | [], [] => rfl
  | [], _ :: _ => cases h
  | _ :: _, [] => cases h
  | c :: s, d :: t =>
    obtain ⟨hhead, htail⟩ := List.cons.inj h
    by_cases hc : c = '/'
    · subst hc
      obtain rfl := hslash hhead.symm
      rw [tagNamed?, tagNamed?, hname htail]
    · have hd : d ≠ '/' := by
        rintro rfl
        exact hc (hslash hhead)
      rw [tagNamed?.eq_2 _ fun _ heq => hc (List.cons.inj heq).1,
        tagNamed?.eq_2 _ fun _ heq => hd (List.cons.inj heq).1, hname h]

theorem IsTagChar.isAsciiLetter (h : IsTagChar c) : Text.isAsciiLetter c = true ∨ c = '/' :=
  (Or.symm h).imp_left Text.isAsciiLetter_of_isLower_toLower

theorem lt_of_tagNamed? (h : (tagNamed? body).isSome = true) : ∀ d ∈ body, d.toNat < 128 := by
  obtain ⟨tag, htag⟩ := Option.isSome_iff_exists.mp h
  intro d hd
  rcases (isTagChar_of_tagNamed? htag hd).isAsciiLetter with hletter | rfl
  · exact Text.lt_of_isAsciiLetter hletter
  · decide

/-- **A tag stays the tag it is.** -/
theorem tagNamed?_flatMap_alone (h : tagNamed? body = some tag) :
    tagNamed? (body.flatMap k.alone) = some tag := by
  rw [← h]
  exact tagNamed?_congr <| map_toLower_flatMap_alone fun c hc =>
    (isTagChar_of_tagNamed? h hc).isAsciiLetter

theorem isTag_apply_iff (before s : List Char) :
    isTag (k.apply before s) = true ↔ ∃ body rest, s = body ++ '>' :: rest ∧ '>' ∉ body ∧
      'Σ' ∉ body ∧ (tagNamed? (body.flatMap k.alone)).isSome = true :=
  isTag_iff.trans (Casing.exists_before_sign_iff (by decide) fun _ => lt_of_tagNamed?)

theorem isEntity_apply_iff (before s : List Char) :
    isEntity (k.apply before s) = true ↔ ∃ name rest, s = name ++ ';' :: rest ∧ ';' ∉ name ∧
      'Σ' ∉ name ∧ name.flatMap k.alone ∈ entities.map Prod.fst := by
  refine isEntity_iff.trans (Casing.exists_before_sign_iff (by decide) fun name hname d hd => ?_)
  obtain ⟨e, he, rfl⟩ := List.mem_map.mp hname
  exact Text.lt_of_isAsciiLetter (isAsciiLetter_of_mem_entities e he d hd).1

/-- The text before a tag does not matter for what becomes of it. -/
theorem isTag_apply (before s : List Char) : isTag (k.apply before s) = isTag (k.apply [] s) :=
  Bool.eq_iff_iff.mpr ((isTag_apply_iff before s).trans (isTag_apply_iff [] s).symm)

theorem isEntity_apply (before s : List Char) :
    isEntity (k.apply before s) = isEntity (k.apply [] s) :=
  Bool.eq_iff_iff.mpr ((isEntity_apply_iff before s).trans (isEntity_apply_iff [] s).symm)

theorem isTag_apply_of_isTag (before : List Char) (h : isTag s = true) :
    isTag (k.apply before s) = true := by
  obtain ⟨body, rest, hs, hbody, htag⟩ := isTag_iff.mp h
  obtain ⟨tag, htag⟩ := Option.isSome_iff_exists.mp htag
  refine (isTag_apply_iff before s).mpr ⟨body, rest, hs, hbody, (sign_not_mem_tag htag).2.2.2, ?_⟩
  rw [tagNamed?_flatMap_alone htag]
  rfl

/-- **An entity that is kept** is the same entity. -/
theorem flatMap_alone_of_isEntity {e : Char} (hentity : (name, e) ∈ entities) (hname : ';' ∉ name)
    (h : isEntity (k.apply before (name ++ ';' :: rest)) = true) :
    name.flatMap k.alone = name := by
  obtain ⟨name', rest', heq, hname', -, hmem⟩ := (isEntity_apply_iff before _).mp h
  obtain rfl := Casing.eq_of_append_cons hname hname' heq
  obtain ⟨e', he', hfst⟩ := List.mem_map.mp hmem
  have hself {e : List Char × Char} (he : e ∈ entities) : e.1.map Char.toLower = e.1 :=
    (List.map_congr_left fun d hd => (isAsciiLetter_of_mem_entities e he d hd).2).trans
      (List.map_id _)
  have hletters : ∀ d ∈ name, Text.isAsciiLetter d = true ∨ d = '/' := fun d hd =>
    .inl (isAsciiLetter_of_mem_entities _ hentity d hd).1
  calc name.flatMap k.alone = (name.flatMap k.alone).map Char.toLower := by
        rw [← hfst, hself he']
    _ = name.map Char.toLower := map_toLower_flatMap_alone hletters
    _ = name := hself hentity

/-! ## Reading a text whose case was mapped -/

theorem plainChars_append_of_ne (h : ∀ d ∈ s, d ≠ '<' ∧ d ≠ '&') (m : List Char) :
    plainChars (s ++ m) = s ++ plainChars m := by
  induction s with
  | nil => rfl
  | cons d s ih =>
    obtain ⟨⟨hless, hamp⟩, hrest⟩ := List.forall_mem_cons.mp h
    rw [List.cons_append, plainChars_char hless hamp, ih hrest]
    rfl

theorem KeepsSigns.of_append {recase : List Char → List Char} (h : KeepsSigns recase (s ++ m)) :
    KeepsSigns recase m :=
  ⟨fun before after heq => h.tags (s ++ before) after (by rw [heq, List.append_assoc]),
    fun before after heq => h.entities (s ++ before) after (by rw [heq, List.append_assoc])⟩

theorem isTag_append (h : isTag s = true) (m : List Char) : isTag (s ++ m) = true := by
  obtain ⟨body, rest, rfl, hbody, htag⟩ := isTag_iff.mp h
  exact isTag_iff.mpr ⟨body, rest ++ m, by simp, hbody, htag⟩

theorem isEntity_append (h : isEntity s = true) (m : List Char) : isEntity (s ++ m) = true := by
  obtain ⟨name, rest, rfl, hname, hentity⟩ := isEntity_iff.mp h
  exact isEntity_iff.mpr ⟨name, rest ++ m, by simp, hname, hentity⟩

theorem alone_of_mem_entities {e : List Char × Char} (he : e ∈ entities) :
    k.alone e.2 = [e.2] := by
  have hall : ∀ e ∈ entities, IsSign e.2 ∨ e.2 ∈ Text.marks := by decide
  rcases hall e he with hsign | hmark
  · exact k.image_of_isSign hsign
  · exact k.image_of_mem_marks _ _ hmark

theorem isTag_eq_false_of_append (h : isTag (s ++ m) = false) : isTag s = false := by
  rw [Bool.eq_false_iff] at h ⊢
  exact fun hs => h (isTag_append hs m)

theorem isEntity_eq_false_of_append (h : isEntity (s ++ m) = false) : isEntity s = false := by
  rw [Bool.eq_false_iff] at h ⊢
  exact fun hs => h (isEntity_append hs m)

theorem flatMap_alone_between (hc : IsSign c) (hd : IsSign d) (body m : List Char) :
    (c :: (body ++ [d])).flatMap k.alone ++ m = c :: (body.flatMap k.alone ++ d :: m) := by
  rw [List.flatMap_cons, List.flatMap_append, List.flatMap_singleton, Casing.alone_of_isSign hc,
    Casing.alone_of_isSign hd]
  simp

/-- A character that begins neither a tag nor an entity is visible, in either case. -/
theorem plainChars_apply_char_iff (hless : c ≠ '<') (hamp : c ≠ '&')
    (ih : ∀ before shown, plainChars (k.apply before m) = k.apply shown (plainChars m) ↔
      k.SameSigmas plainChars before shown m) (before shown : List Char) :
    plainChars (k.apply before (c :: m)) = k.apply shown (plainChars (c :: m)) ↔
      k.SameSigmas plainChars before shown (c :: m) := by
  by_cases hc : c = 'Σ'
  · subst hc
    refine Casing.read_apply_sigma plainChars_nil (fun d x hd => plainChars_char ?_ ?_ x) (ih _ _)
    · rintro rfl
      exact absurd hd (by decide)
    · rintro rfl
      exact absurd hd (by decide)
  · have hread (m : List Char) : plainChars ([c] ++ m) = [c] ++ plainChars m :=
      plainChars_char hless hamp m
    refine Casing.read_apply_append (s := [c]) (t := [c]) (by simpa using Ne.symm hc)
      (by simpa using Ne.symm hc) plainChars_nil (hread _) (fun x _ _ => hread x) ?_ (ih _ _)
    rw [List.flatMap_singleton]
    refine plainChars_append_of_ne (fun d hd => ⟨?_, ?_⟩) _
    · rintro rfl
      exact hless (k.eq_of_mem_image hd (by decide)).symm
    · rintro rfl
      exact hamp (k.eq_of_mem_image hd (by decide)).symm

/-- **The visible text is mapped** where tags and entities stand where they stood, if and only if
each capital sigma becomes the same in it as in the markup. -/
theorem plainChars_apply_iff (h : KeepsSigns (k.apply []) m) (before shown : List Char) :
    plainChars (k.apply before m) = k.apply shown (plainChars m) ↔
      k.SameSigmas plainChars before shown m := by
  induction m using read_induction generalizing before shown with
  | nil =>
    rw [Casing.apply, plainChars_nil]
    exact iff_of_true rfl Casing.sameSigmas_nil
  | tag body tag rest htag hbody ih =>
    -- A tag is known in either case, and nothing of it is visible.
    have hsigma := (sign_not_mem_tag htag).2.2.2
    have heq (m : List Char) :
        '<' :: (body ++ '>' :: m) = ('<' :: (body ++ ['>'])) ++ m := by simp
    have hread (m : List Char) : plainChars (('<' :: (body ++ ['>'])) ++ m) = plainChars m := by
      rw [← heq, plainChars_tag htag hbody]
    rw [heq] at h ⊢
    refine Casing.read_apply_append (t := []) (by simp [hsigma]) List.not_mem_nil plainChars_nil
      (hread _)
      (fun x _ _ => hread x) ?_ (ih h.of_append _ _)
    have hbody' : '>' ∉ body.flatMap k.alone :=
      (Casing.mem_flatMap_alone_iff (by decide)).not.mpr hbody
    rw [flatMap_alone_between (by decide) (by decide)]
    exact plainChars_tag (tagNamed?_flatMap_alone htag) hbody' _
  | entity name e rest hentity hname ih =>
    obtain ⟨-, -, hsigma, -, hshown⟩ := sign_not_mem_entity hentity
    have heq (m : List Char) :
        '&' :: (name ++ ';' :: m) = ('&' :: (name ++ [';'])) ++ m := by simp
    have hread (m : List Char) :
        plainChars (('&' :: (name ++ [';'])) ++ m) = [e] ++ plainChars m := by
      rw [← heq, plainChars_entity hentity hname]
      rfl
    -- The entity is still one in the other case, so it has the same name there.
    have hkept : isEntity (k.apply [] (name ++ ';' :: rest)) = true :=
      (h.entities [] _ rfl).trans <|
        isEntity_iff.mpr ⟨name, rest, rfl, hname, List.mem_map_of_mem hentity⟩
    rw [heq] at h ⊢
    refine Casing.read_apply_append (t := [e]) (by simp [hsigma]) (by simpa using Ne.symm hshown)
      plainChars_nil (hread _) (fun x _ _ => hread x) ?_ (ih h.of_append _ _)
    rw [flatMap_alone_between (by decide) (by decide),
      flatMap_alone_of_isEntity hentity hname hkept, List.flatMap_singleton,
      alone_of_mem_entities hentity]
    exact plainChars_entity hentity hname _
  | less rest htag ih =>
    have hkept : isTag (k.apply [] rest) = false := (h.tags [] rest rfl).trans htag
    refine Casing.read_apply_append (s := ['<']) (t := ['<']) (by decide) (by decide) plainChars_nil
      (plainChars_less htag) (fun x r hrest => ?_) ?_ (ih (h.of_append (s := ['<'])) _ _)
    · exact plainChars_less (isTag_eq_false_of_append (hrest ▸ htag))
    · rw [List.flatMap_singleton, Casing.alone_of_isSign (by decide)]
      exact plainChars_less ((isTag_apply _ rest).trans hkept)
  | amp rest hentity ih =>
    have hkept : isEntity (k.apply [] rest) = false := (h.entities [] rest rfl).trans hentity
    refine Casing.read_apply_append (s := ['&']) (t := ['&']) (by decide) (by decide) plainChars_nil
      (plainChars_amp hentity) (fun x r hrest => ?_) ?_ (ih (h.of_append (s := ['&'])) _ _)
    · exact plainChars_amp (isEntity_eq_false_of_append (hrest ▸ hentity))
    · rw [List.flatMap_singleton, Casing.alone_of_isSign (by decide)]
      exact plainChars_amp ((isEntity_apply _ rest).trans hkept)
  | char c rest hless hamp ih =>
    exact plainChars_apply_char_iff hless hamp (ih (h.of_append (s := [c]))) before shown

/-! ## Where the visible text is mapped -/

/-- As many entities are read after the mapping as before. -/
theorem countAt_entities_eq (h : plainChars (k.apply [] m) = k.apply [] (plainChars m)) :
    Text.countAt '&' (fun s => isEntity (k.apply [] s)) m = Text.countAt '&' isEntity m := by
  have hafter := count_semicolon (k.apply [] m)
  have hbefore := count_semicolon m
  rw [h, Casing.count_apply (by decide), Casing.count_apply (by decide),
    Text.countAt_apply (by decide) isEntity_apply] at hafter
  omega

/-- And so are tags, if there are no entities. -/
theorem countAt_tags_eq (h : plainChars (k.apply [] m) = k.apply [] (plainChars m))
    (hentities : Text.countAt '&' isEntity m = 0) :
    Text.countAt '<' (fun s => isTag (k.apply [] s)) m = Text.countAt '<' isTag m := by
  have hnone : Text.countAt '&' isEntity (k.apply [] m) = 0 := by
    rw [Text.countAt_apply (by decide) isEntity_apply, countAt_entities_eq h, hentities]
  have hafter := count_less (k.apply [] m) hnone
  have hbefore := count_less m hentities
  rw [h, Casing.count_apply (by decide), Casing.count_apply (by decide),
    Text.countAt_apply (by decide) isTag_apply] at hafter
  omega

/-- No entity is read in uppercase. -/
theorem isEntity_upper (s : List Char) : isEntity (Casing.upper.apply [] s) = false := by
  rw [Bool.eq_false_iff]
  intro h
  obtain ⟨name, rest, -, -, -, hmem⟩ := (isEntity_apply_iff [] s).mp h
  obtain ⟨e, he, hfst⟩ := List.mem_map.mp hmem
  have hsome : ∀ e ∈ entities, e.1.any Char.isLower = true := by decide
  obtain ⟨d, hd, hlower⟩ := List.any_eq_true.mp (hsome e he)
  obtain ⟨c, -, hc⟩ := List.mem_flatMap.mp (hfst ▸ hd)
  rw [Text.isLower_of_mem_upperChar hc] at hlower
  cases hlower

/-- **Uppercase acts on the visible text** of a markup text just if it has no entity, and no tag
where none was. -/
theorem plainChars_upper_iff :
    plainChars (Text.upper m) = Text.upper (plainChars m) ↔ KeepsSigns Text.upper m := by
  have hupper : Casing.upper.apply [] = Text.upper := funext (Casing.apply_upper [])
  rw [← hupper]
  constructor
  · intro h
    -- The entities come first: a `<` may be from an entity, and only without them from no tag.
    have hentities := countAt_entities_eq h
    have hnone : Text.countAt '&' isEntity m = 0 := by
      rw [← hentities, Text.countAt_eq_zero isEntity_upper]
    refine ⟨fun before after hm => ?_, fun before after hm => ?_⟩
    · exact (Text.eq_of_countAt_eq (fun s => isTag_apply_of_isTag [])
        (countAt_tags_eq h hnone).symm hm).symm
    · refine Text.eq_of_countAt_eq (fun s hs => ?_) hentities hm
      rw [isEntity_upper] at hs
      cases hs
  · intro h
    exact (plainChars_apply_iff h [] []).mpr Casing.sameSigmas_upper

/-! ## Lowercase -/

theorem flatMap_lower_alone (h : ∀ c ∈ s, c.toNat < 128) :
    s.flatMap Casing.lower.alone = s.map Char.toLower := by
  induction s with
  | nil => rfl
  | cons c s ih =>
    obtain ⟨hc, hrest⟩ := List.forall_mem_cons.mp h
    rw [List.flatMap_cons, Casing.lower_alone_of_lt hc, ih hrest]
    rfl

/-- An entity is still there in lowercase. -/
theorem isEntity_lower_of_isEntity (h : isEntity s = true) :
    isEntity (Casing.lower.apply [] s) = true := by
  obtain ⟨name, rest, hs, hname, hmem⟩ := isEntity_iff.mp h
  obtain ⟨e, he, rfl⟩ := List.mem_map.mp hmem
  have hletters := isAsciiLetter_of_mem_entities e he
  refine (isEntity_apply_iff [] s).mpr ⟨_, rest, hs, hname, (sign_not_mem_entity he).2.2.1, ?_⟩
  rw [flatMap_lower_alone fun d hd => Text.lt_of_isAsciiLetter (hletters d hd).1,
    List.map_congr_left fun d hd => (hletters d hd).2, List.map_id']
  exact hmem

/-- No tag has a `k` in its name. -/
theorem ne_of_tagNamed? (h : tagNamed? body = some tag) : ∀ d ∈ body, d ≠ 'k' := by
  have hname {name : List Char} {a : Attribute} (hsome : attribute? name = some a) :
      'k' ∉ name.map Char.toLower := by
    unfold attribute? at hsome
    split at hsome <;> first
      | next heq => rw [heq]; decide
      | cases hsome
  rintro d hd rfl
  unfold tagNamed? at h
  split at h <;> obtain ⟨a, ha, -⟩ := Option.map_eq_some_iff.mp h
  · have hmem := (List.mem_cons.mp hd).resolve_left (by decide)
    exact hname ha (List.mem_map_of_mem hmem)
  · exact hname ha (List.mem_map_of_mem hd)

/-- **Lowercase makes no tag** and takes none away. -/
theorem isTag_lower (s : List Char) : isTag (Casing.lower.apply [] s) = isTag s := by
  refine Bool.eq_iff_iff.mpr ⟨fun h => ?_, isTag_apply_of_isTag []⟩
  obtain ⟨body, rest, hs, hbody, -, htag⟩ := (isTag_apply_iff [] s).mp h
  obtain ⟨tag, hsome⟩ := Option.isSome_iff_exists.mp htag
  have hascii : ∀ c ∈ body, c.toNat < 128 := by
    intro c hc
    by_contra hbeyond
    obtain ⟨d, hd, hk | hd128⟩ := Casing.exists_mem_lower_alone (Nat.le_of_not_lt hbeyond)
    · exact ne_of_tagNamed? hsome d (List.mem_flatMap.mpr ⟨c, hc, hd⟩) hk
    · have hlt := lt_of_tagNamed? htag d (List.mem_flatMap.mpr ⟨c, hc, hd⟩)
      omega
  have hsame : tagNamed? (body.flatMap Casing.lower.alone) = tagNamed? body := by
    refine tagNamed?_congr ?_
    rw [flatMap_lower_alone hascii, List.map_map]
    exact List.map_congr_left fun c _ => Text.toLower_toLower c
  exact isTag_iff.mpr ⟨body, rest, hs, hbody, hsame ▸ htag⟩

/-- **Lowercase acts on the visible text** of a markup text just if no entity comes up in it, and
the signs of markup end no word at a capital sigma. -/
theorem plainChars_lower_iff :
    plainChars (Text.lower m) = Text.lower (plainChars m) ↔
      KeepsSigns Text.lower m ∧ Casing.KeepsSigmas plainChars m := by
  have hlower : Casing.lower.apply [] = Text.lower := funext (Casing.apply_lower [])
  rw [← hlower, ← Casing.sameSigmas_lower_iff]
  constructor
  · intro h
    have hkeeps : KeepsSigns (Casing.lower.apply []) m :=
      ⟨fun _ after _ => isTag_lower after, fun before after hm =>
        (Text.eq_of_countAt_eq (fun s => isEntity_lower_of_isEntity)
          (countAt_entities_eq h).symm hm).symm⟩
    exact ⟨hkeeps, (plainChars_apply_iff hkeeps [] []).mp h⟩
  · rintro ⟨hkeeps, hsame⟩
    exact (plainChars_apply_iff hkeeps [] []).mpr hsame

end DocCite.Markup
