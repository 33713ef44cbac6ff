import DocCite.Proofs.Markup.Written
import DocCite.Proofs.Text.Casing

/-!
# Where tags and entities stand

A tag is read from a `<` to the next `>`, and an entity from a `&` to the next `;`. No sign of
markup stands between them, so each `<` and each `&` of a markup text is looked at, and a text is
read piece by piece (`read_induction`). What is no longer visible of a text tells how many tags and
entities it has (`count_semicolon`, `count_less`).
-/

namespace DocCite.Markup

/-! ## Entities -/

/-- What stands between `&` and `;`, and the character it is for. -/
def entities : List (List Char × Char) :=
  [("amp".toList, '&'), ("lt".toList, '<'), ("gt".toList, '>'), ("quot".toList, '"'),
    ("apos".toList, '\''), ("nbsp".toList, '\u00a0')]

variable {body name m rest : List Char} {c d : Char} {t : Token}

/-- An entity's name consists of lowercase letters. -/
theorem isAsciiLetter_of_mem_entities :
    ∀ e ∈ entities, ∀ d ∈ e.1, Text.isAsciiLetter d = true ∧ d.toLower = d := by
  have hall : ∀ e ∈ entities, e.1.all fun d => Text.isAsciiLetter d = true ∧ d.toLower = d := by
    decide
  exact fun e he => List.all_iff_forall_prop.mp (hall e he)

/-- **An entity is read** exactly where the text up to the first `;` is that of an entity. -/
theorem readEntity_eq_some_iff {r : Char × List Char} :
    readEntity m = some r ↔
      ∃ name, m = name ++ ';' :: r.2 ∧ ';' ∉ name ∧ (name, r.1) ∈ entities := by
  have hend : ∀ e ∈ entities, ';' ∉ e.1 := by decide
  constructor
  · intro h
    have hfound : ∃ name, m = name ++ ';' :: r.2 ∧ (name, r.1) ∈ entities := by
      unfold readEntity at h
      split at h <;> cases h
      · exact ⟨"amp".toList, rfl, by simp [entities]⟩
      · exact ⟨"lt".toList, rfl, by simp [entities]⟩
      · exact ⟨"gt".toList, rfl, by simp [entities]⟩
      · exact ⟨"quot".toList, rfl, by simp [entities]⟩
      · exact ⟨"apos".toList, rfl, by simp [entities]⟩
      · exact ⟨"nbsp".toList, rfl, by simp [entities]⟩
    obtain ⟨name, hm, hname⟩ := hfound
    exact ⟨name, hm, hend _ hname, hname⟩
  · obtain ⟨e, rest⟩ := r
    rintro ⟨name, rfl, -, hname⟩
    simp only [entities, List.mem_cons, List.not_mem_nil, or_false, Prod.mk.injEq] at hname
    rcases hname with
      ⟨rfl, rfl⟩ | ⟨rfl, rfl⟩ | ⟨rfl, rfl⟩ | ⟨rfl, rfl⟩ | ⟨rfl, rfl⟩ | ⟨rfl, rfl⟩ <;> rfl

/-- Whether a tag goes on here behind its `<`. -/
def isTag (m : List Char) : Bool := (readTag m).isSome

/-- Whether an entity goes on here behind its `&`. -/
def isEntity (m : List Char) : Bool := (readEntity m).isSome

theorem isTag_iff :
    isTag m = true ↔ ∃ body rest, m = body ++ '>' :: rest ∧ '>' ∉ body ∧
      (tagNamed? body).isSome = true := by
  rw [isTag, Option.isSome_iff_exists]
  constructor
  · rintro ⟨r, hr⟩
    obtain ⟨body, hm, hbody, htag⟩ := readTag_eq_some_iff.mp hr
    exact ⟨body, r.2, hm, hbody, by rw [htag]; rfl⟩
  · rintro ⟨body, rest, hm, hbody, htag⟩
    obtain ⟨t, ht⟩ := Option.isSome_iff_exists.mp htag
    exact ⟨(t, rest), readTag_eq_some_iff.mpr ⟨body, hm, hbody, ht⟩⟩

theorem isEntity_iff :
    isEntity m = true ↔ ∃ name rest, m = name ++ ';' :: rest ∧ ';' ∉ name ∧
      name ∈ entities.map Prod.fst := by
  rw [isEntity, Option.isSome_iff_exists]
  constructor
  · rintro ⟨r, hr⟩
    obtain ⟨name, hm, hname, hentity⟩ := readEntity_eq_some_iff.mp hr
    exact ⟨name, r.2, hm, hname, List.mem_map_of_mem hentity⟩
  · rintro ⟨name, rest, hm, hname, hentity⟩
    obtain ⟨⟨_, e⟩, he, rfl⟩ := List.mem_map.mp hentity
    exact ⟨(e, rest), readEntity_eq_some_iff.mpr ⟨_, hm, hname, he⟩⟩

/-! ## Reading piece by piece -/

/-- **A markup text is read piece by piece**: a tag, an entity, a `<` or a `&` that begins none, or
any other character. -/
@[elab_as_elim]
theorem read_induction {motive : List Char → Prop} (nil : motive [])
    (tag : ∀ body t rest, tagNamed? body = some t → '>' ∉ body → motive rest →
      motive ('<' :: (body ++ '>' :: rest)))
    (entity : ∀ name e rest, (name, e) ∈ entities → ';' ∉ name → motive rest →
      motive ('&' :: (name ++ ';' :: rest)))
    (less : ∀ rest, isTag rest = false → motive rest → motive ('<' :: rest))
    (amp : ∀ rest, isEntity rest = false → motive rest → motive ('&' :: rest))
    (char : ∀ c rest, c ≠ '<' → c ≠ '&' → motive rest → motive (c :: rest))
    (m : List Char) : motive m := by
  induction hn : m.length using Nat.strong_induction_on generalizing m with
  | _ n ih =>
    subst hn
    cases m with
    | nil => exact nil
    | cons c m =>
      by_cases hless : c = '<'
      · subst hless
        cases hread : readTag m with
        | none => exact less m (by rw [isTag, hread]; rfl) (ih _ (Nat.lt_succ_self _) m rfl)
        | some r =>
          obtain ⟨body, rfl, hbody, htag⟩ := readTag_eq_some_iff.mp hread
          exact tag body r.1 r.2 htag hbody (ih _ (by simp; omega) r.2 rfl)
      · by_cases hamp : c = '&'
        · subst hamp
          cases hread : readEntity m with
          | none => exact amp m (by rw [isEntity, hread]; rfl) (ih _ (Nat.lt_succ_self _) m rfl)
          | some r =>
            obtain ⟨name, rfl, hname, hentity⟩ := readEntity_eq_some_iff.mp hread
            exact entity name r.1 r.2 hentity hname (ih _ (by simp; omega) r.2 rfl)
        · exact char c m hless hamp (ih _ (Nat.lt_succ_self _) m rfl)

@[simp] theorem plainChars_nil : plainChars [] = [] := by rw [plainChars_eq, tokens_nil]; rfl

theorem plainChars_tag (htag : tagNamed? body = some t) (hbody : '>' ∉ body) (rest : List Char) :
    plainChars ('<' :: (body ++ '>' :: rest)) = plainChars rest := by
  have hread : readTag (body ++ '>' :: rest) = some (t, rest) :=
    readTag_eq_some_iff.mpr ⟨body, rfl, hbody, htag⟩
  rw [plainChars_eq, plainChars_eq, tokens_less_of_readTag hread]
  cases t with
  | char c =>
    unfold tagNamed? at htag
    split at htag <;> obtain ⟨a, -, ha⟩ := Option.map_eq_some_iff.mp htag <;> cases ha
  | opening a => rfl
  | closing a => rfl

theorem plainChars_entity (hentity : (name, c) ∈ entities) (hname : ';' ∉ name)
    (rest : List Char) : plainChars ('&' :: (name ++ ';' :: rest)) = c :: plainChars rest := by
  have hread : readEntity (name ++ ';' :: rest) = some (c, rest) :=
    readEntity_eq_some_iff.mpr ⟨name, rfl, hname, hentity⟩
  rw [plainChars_eq, plainChars_eq, tokens_amp_of_readEntity hread]
  rfl

theorem plainChars_less (h : isTag rest = false) :
    plainChars ('<' :: rest) = '<' :: plainChars rest := by
  rw [plainChars_eq, plainChars_eq, tokens_less_of_none (by simpa [isTag] using h)]
  rfl

theorem plainChars_amp (h : isEntity rest = false) :
    plainChars ('&' :: rest) = '&' :: plainChars rest := by
  rw [plainChars_eq, plainChars_eq, tokens_amp_of_none (by simpa [isEntity] using h)]
  rfl

theorem plainChars_char (hless : c ≠ '<') (hamp : c ≠ '&') (rest : List Char) :
    plainChars (c :: rest) = c :: plainChars rest := by
  rw [plainChars_eq, plainChars_eq, tokens_cons_of_ne hless hamp]
  rfl

/-! ## Counting signs -/

theorem sign_not_mem_tag (htag : tagNamed? body = some t) :
    '<' ∉ body ∧ '&' ∉ body ∧ ';' ∉ body ∧ 'Σ' ∉ body := by
  refine ⟨?_, ?_, ?_, ?_⟩ <;>
    exact fun hmem => absurd (isTagChar_of_tagNamed? htag hmem) (by decide)

theorem sign_not_mem_entity {e : List Char × Char} (he : e ∈ entities) :
    '<' ∉ e.1 ∧ '&' ∉ e.1 ∧ 'Σ' ∉ e.1 ∧ e.2 ≠ ';' ∧ e.2 ≠ 'Σ' := by
  have hall : ∀ e ∈ entities, '<' ∉ e.1 ∧ '&' ∉ e.1 ∧ 'Σ' ∉ e.1 ∧ e.2 ≠ ';' ∧ e.2 ≠ 'Σ' := by
    decide
  exact hall e he

/-- **Each entity takes a `;` away.** -/
theorem count_semicolon (m : List Char) :
    (plainChars m).count ';' + Text.countAt '&' isEntity m = m.count ';' := by
  induction m using read_induction with
  | nil => rw [plainChars_nil]; rfl
  | tag body t rest htag hbody ih =>
    obtain ⟨-, hamp, hsemi, -⟩ := sign_not_mem_tag htag
    rw [plainChars_tag htag hbody, Text.countAt_cons_of_ne (by decide),
      Text.countAt_append_of_not_mem hamp, Text.countAt_cons_of_ne (by decide), ih,
      List.count_cons_of_ne (by decide), List.count_append, List.count_eq_zero_of_not_mem hsemi,
      List.count_cons_of_ne (by decide), Nat.zero_add]
  | entity name e rest hentity hname ih =>
    obtain ⟨-, hamp, -, hsemi, -⟩ := sign_not_mem_entity hentity
    have hread : isEntity (name ++ ';' :: rest) = true :=
      isEntity_iff.mpr ⟨name, rest, rfl, hname, List.mem_map_of_mem hentity⟩
    rw [plainChars_entity hentity hname, Text.countAt, if_pos ⟨rfl, hread⟩,
      Text.countAt_append_of_not_mem hamp, Text.countAt_cons_of_ne (by decide),
      List.count_cons_of_ne hsemi, List.count_cons_of_ne (by decide), List.count_append,
      List.count_eq_zero_of_not_mem hname, List.count_cons_self]
    omega
  | less rest htag ih =>
    rw [plainChars_less htag, Text.countAt_cons_of_ne (by decide),
      List.count_cons_of_ne (by decide), List.count_cons_of_ne (by decide), ih]
  | amp rest hentity ih =>
    rw [plainChars_amp hentity, Text.countAt, if_neg (by simp [hentity]), Nat.zero_add,
      List.count_cons_of_ne (by decide), List.count_cons_of_ne (by decide), ih]
  | char c rest hless hamp ih =>
    rw [plainChars_char hless hamp, Text.countAt_cons_of_ne hamp, List.count_cons, List.count_cons,
      ← ih]
    omega

/-- **Each tag takes a `<` away**, and without entities none is brought back. -/
theorem count_less (m : List Char) (h : Text.countAt '&' isEntity m = 0) :
    (plainChars m).count '<' + Text.countAt '<' isTag m = m.count '<' := by
  induction m using read_induction with
  | nil => rw [plainChars_nil]; rfl
  | tag body t rest htag hbody ih =>
    obtain ⟨hless, hamp, -⟩ := sign_not_mem_tag htag
    have hread : isTag (body ++ '>' :: rest) = true :=
      isTag_iff.mpr ⟨body, rest, rfl, hbody, by rw [htag]; rfl⟩
    rw [Text.countAt_cons_of_ne (by decide), Text.countAt_append_of_not_mem hamp,
      Text.countAt_cons_of_ne (by decide)] at h
    rw [plainChars_tag htag hbody, Text.countAt, if_pos ⟨rfl, hread⟩,
      Text.countAt_append_of_not_mem hless, Text.countAt_cons_of_ne (by decide),
      List.count_cons_self, List.count_append, List.count_eq_zero_of_not_mem hless,
      List.count_cons_of_ne (by decide)]
    have hrest := ih h
    omega
  | entity name e rest hentity hname ih =>
    have hread : isEntity (name ++ ';' :: rest) = true :=
      isEntity_iff.mpr ⟨name, rest, rfl, hname, List.mem_map_of_mem hentity⟩
    rw [Text.countAt, if_pos ⟨rfl, hread⟩] at h
    omega
  | less rest htag ih =>
    rw [Text.countAt_cons_of_ne (by decide)] at h
    rw [plainChars_less htag, Text.countAt, if_neg (by simp [htag]), List.count_cons_self,
      List.count_cons_self, ← ih h]
    omega
  | amp rest hentity ih =>
    rw [Text.countAt, if_neg (by simp [hentity]), Nat.zero_add] at h
    rw [plainChars_amp hentity, Text.countAt_cons_of_ne (by decide),
      List.count_cons_of_ne (by decide), List.count_cons_of_ne (by decide), ih h]
  | char c rest hless hamp ih =>
    rw [Text.countAt_cons_of_ne hamp] at h
    rw [plainChars_char hless hamp, Text.countAt_cons_of_ne hless, List.count_cons_of_ne hless,
      List.count_cons_of_ne hless, ih h]

end DocCite.Markup
