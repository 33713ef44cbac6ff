import DocCite.Latex
import DocCite.Markup.Runs
import Mathlib.Data.List.TakeWhile

/-!
# Reading what was written as markup

Markup is written in three ways: text is escaped, and tags open and close an attribute. Each of them
reads back as what it was written for, whatever markup follows (`tokens_escapeChars`,
`tokens_openTag`, `tokens_closeTag`). Formats are followed by the depths that units leave behind
(`Depths.after`), and these count the tags of each attribute (`after_map_opening`).
-/

namespace DocCite.Markup

/-! ## Units -/

@[simp] theorem tokens_nil : tokens [] = [] := by rw [tokens]

theorem tokens_cons_of_ne {c : Char} {m : List Char} (hless : c ≠ '<') (hamp : c ≠ '&') :
    tokens (c :: m) = .char c :: tokens m := by
  rw [tokens, if_neg hless, if_neg hamp]

/-- A tag is read where one stands. -/
theorem tokens_less_of_readTag {m : List Char} {r : Token × List Char} (h : readTag m = some r) :
    tokens ('<' :: m) = r.1 :: tokens r.2 := by
  rw [tokens, if_pos rfl]
  split
  · next r' hr' =>
    rw [h, Option.some.injEq] at hr'
    rw [hr']
  · next hnone =>
    rw [h] at hnone
    cases hnone

theorem tokens_less_of_none {m : List Char} (h : readTag m = none) :
    tokens ('<' :: m) = .char '<' :: tokens m := by
  rw [tokens, if_pos rfl]
  split
  · next r hr =>
    rw [h] at hr
    cases hr
  · rfl

theorem tokens_amp_of_readEntity {m : List Char} {r : Char × List Char}
    (h : readEntity m = some r) : tokens ('&' :: m) = .char r.1 :: tokens r.2 := by
  rw [tokens, if_neg (by decide), if_pos rfl]
  split
  · next r' hr' =>
    rw [h, Option.some.injEq] at hr'
    rw [hr']
  · next hnone =>
    rw [h] at hnone
    cases hnone

theorem tokens_amp_of_none {m : List Char} (h : readEntity m = none) :
    tokens ('&' :: m) = .char '&' :: tokens m := by
  rw [tokens, if_neg (by decide), if_pos rfl]
  split
  · next r hr =>
    rw [h] at hr
    cases hr
  · rfl

/-- A character that is no sign of markup stands for itself. -/
theorem escapeChar_of_ne {c : Char} (hamp : c ≠ '&') (hless : c ≠ '<') (hgreater : c ≠ '>') :
    escapeChar c = [c] := by
  rw [escapeChar, if_neg hamp, if_neg hless, if_neg hgreater]

/-- **An escaped character is read as itself.** -/
theorem tokens_escapeChar (c : Char) (m : List Char) :
    tokens (escapeChar c ++ m) = .char c :: tokens m := by
  have hentity {c : Char} {s : List Char} (h : readEntity (s ++ m) = some (c, m)) :
      tokens ('&' :: (s ++ m)) = .char c :: tokens m := tokens_amp_of_readEntity h
  by_cases hamp : c = '&'
  · subst hamp
    exact hentity (s := ['a', 'm', 'p', ';']) rfl
  by_cases hless : c = '<'
  · subst hless
    exact hentity (s := ['l', 't', ';']) rfl
  by_cases hgreater : c = '>'
  · subst hgreater
    exact hentity (s := ['g', 't', ';']) rfl
  rw [escapeChar_of_ne hamp hless hgreater]
  exact tokens_cons_of_ne hless hamp

theorem escapeChars_cons (c : Char) (s : List Char) :
    escapeChars (c :: s) = escapeChar c ++ escapeChars s := List.flatMap_cons

theorem escapeChars_append (s t : List Char) :
    escapeChars (s ++ t) = escapeChars s ++ escapeChars t := List.flatMap_append

theorem escape_append (s t : String) : escape (s ++ t) = escape s ++ escape t := by
  rw [escape, String.toList_append, escapeChars_append, String.ofList_append]
  rfl

/-- Texts are escaped one by one. -/
theorem intercalate_escape (separator : String) (texts : List String) :
    (escape separator).intercalate (texts.map escape) = escape (separator.intercalate texts) := by
  induction texts with
  | nil => rfl
  | cons text texts ih =>
    cases texts with
    | nil => simp only [List.map_cons, List.map_nil, String.intercalate_singleton]
    | cons next texts =>
      simp only [List.map_cons, String.intercalate_cons_cons] at ih ⊢
      rw [ih, escape_append, escape_append]

/-- Text without signs of markup stands for itself. -/
theorem escapeChars_eq_self {s : List Char} (h : ∀ c ∈ s, c ≠ '&' ∧ c ≠ '<' ∧ c ≠ '>') :
    escapeChars s = s := by
  induction s with
  | nil => rfl
  | cons c s ih =>
    obtain ⟨⟨hamp, hless, hgreater⟩, hrest⟩ := List.forall_mem_cons.mp h
    rw [escapeChars_cons, ih hrest, escapeChar_of_ne hamp hless hgreater]
    rfl

/-- **Escaped text is read as itself**, whatever follows. -/
theorem tokens_escapeChars (s m : List Char) :
    tokens (escapeChars s ++ m) = s.map Token.char ++ tokens m := by
  induction s with
  | nil => rfl
  | cons c s ih =>
    rw [escapeChars_cons, List.append_assoc, tokens_escapeChar, ih]
    rfl

/-- Escaped text has no tag's end. -/
theorem greater_not_mem_escapeChars (s : List Char) : '>' ∉ escapeChars s := by
  intro hmem
  obtain ⟨c, -, hc⟩ := List.mem_flatMap.mp hmem
  unfold escapeChar at hc
  split at hc
  · exact absurd hc (by decide)
  · split at hc
    · exact absurd hc (by decide)
    · split at hc
      · exact absurd hc (by decide)
      · next hne => exact hne (List.mem_singleton.mp hc).symm

/-! ## Tags -/

/-- A name is read up to the end of its tag. -/
theorem readTagName_append {name : List Char} (h : '>' ∉ name) (m : List Char) :
    readTagName (name ++ '>' :: m) = (attribute? name).map fun a => (a, m) := by
  have hall : ∀ c ∈ name, decide (c ≠ '>') = true := fun c hc =>
    decide_eq_true fun heq => h (heq ▸ hc)
  have hdrop : ('>' :: m).dropWhile (fun c => decide (c ≠ '>')) = '>' :: m :=
    List.dropWhile_cons_of_neg (by decide)
  have htake : ('>' :: m).takeWhile (fun c => decide (c ≠ '>')) = [] :=
    List.takeWhile_cons_of_neg (by decide)
  rw [readTagName, List.dropWhile_append_of_pos hall, List.takeWhile_append_of_pos hall, hdrop,
    htake, List.append_nil]

/-- The tag that stands between `<` and `>`. -/
def tagNamed? : List Char → Option Token
  | '/' :: name => (attribute? name).map .closing
  | name => (attribute? name).map .opening

/-- A tag is read up to its end. -/
theorem readTag_append {body : List Char} (h : '>' ∉ body) (m : List Char) :
    readTag (body ++ '>' :: m) = (tagNamed? body).map fun t => (t, m) := by
  by_cases hslash : ∃ name, body = '/' :: name
  · obtain ⟨name, rfl⟩ := hslash
    have hname : '>' ∉ name := fun hmem => h (List.mem_cons_of_mem _ hmem)
    rw [List.cons_append, readTag, readTagName_append hname, tagNamed?, Option.map_map,
      Option.map_map]
    rfl
  · have hread : ∀ s, body ++ '>' :: m ≠ '/' :: s := by
      intro s heq
      cases body with
      | nil => exact absurd (List.cons.inj heq).1 (by decide)
      | cons c name => exact hslash ⟨name, by rw [(List.cons.inj heq).1]⟩
    rw [readTag.eq_2 _ hread, readTagName_append h,
      tagNamed?.eq_2 _ fun name heq => hslash ⟨name, heq⟩, Option.map_map, Option.map_map]
    rfl

/-- Without an end there is no tag. -/
theorem readTag_eq_none {m : List Char} (h : '>' ∉ m) : readTag m = none := by
  have hname {s : List Char} (hs : '>' ∉ s) : readTagName s = none := by
    have hall : s.dropWhile (fun c => decide (c ≠ '>')) = [] :=
      List.dropWhile_eq_nil_iff.mpr fun c hc => decide_eq_true fun heq => hs (heq ▸ hc)
    rw [readTagName, hall]
  unfold readTag
  split
  · rw [hname fun hmem => h (List.mem_cons_of_mem _ hmem)]
    rfl
  · rw [hname h]
    rfl

/-- **A tag is read** exactly where the text up to the first `>` is that of a tag. -/
theorem readTag_eq_some_iff {m : List Char} {r : Token × List Char} :
    readTag m = some r ↔
      ∃ body, m = body ++ '>' :: r.2 ∧ '>' ∉ body ∧ tagNamed? body = some r.1 := by
  constructor
  · intro h
    have hend : '>' ∈ m := Decidable.byContradiction fun hend => by
      rw [readTag_eq_none hend] at h
      cases h
    obtain ⟨body, rest, rfl, hbody⟩ := List.eq_append_cons_of_mem hend
    rw [readTag_append hbody, Option.map_eq_some_iff] at h
    obtain ⟨t, ht, rfl⟩ := h
    exact ⟨body, rfl, hbody, ht⟩
  · rintro ⟨body, rfl, hbody, htag⟩
    rw [readTag_append hbody, htag]
    rfl

/-- What a tag consists of between its signs. -/
def IsTagChar (c : Char) : Prop := c = '/' ∨ c.toLower.isLower

instance : DecidablePred IsTagChar := fun _ => inferInstanceAs (Decidable (_ ∨ _))

/-- No sign of markup is part of a tag. -/
theorem IsTagChar.ne {c : Char} (h : IsTagChar c) : c ≠ '<' ∧ c ≠ '>' ∧ c ≠ '&' := by
  refine ⟨?_, ?_, ?_⟩ <;> rintro rfl <;> exact absurd h (by decide)

/-- A tag is made of letters, and of a `/` if it closes. -/
theorem isTagChar_of_tagNamed? {body : List Char} {t : Token} (h : tagNamed? body = some t)
    {c : Char} (hc : c ∈ body) : IsTagChar c := by
  have hname {name : List Char} {a : Attribute} (hsome : attribute? name = some a)
      (hmem : c ∈ name) : c.toLower.isLower := by
    have hall : (name.map Char.toLower).all Char.isLower := by
      unfold attribute? at hsome
      split at hsome <;> first
        | next heq => rw [heq]; decide
        | cases hsome
    exact List.all_eq_true.mp hall _ (List.mem_map_of_mem hmem)
  unfold tagNamed? at h
  split at h
  · next name =>
    obtain ⟨a, ha, -⟩ := Option.map_eq_some_iff.mp h
    exact (List.mem_cons.mp hc).imp_right (hname ha)
  · obtain ⟨a, ha, -⟩ := Option.map_eq_some_iff.mp h
    exact .inr (hname ha hc)

/-- The tags that are written have a name that is known. -/
theorem attribute?_tagName (a : Attribute) : attribute? (tagName a).toList = some a := by
  cases a <;> decide

theorem greater_not_mem_tagName (a : Attribute) : '>' ∉ (tagName a).toList := by
  cases a <;> decide

theorem tokens_openTag (a : Attribute) (m : List Char) :
    tokens (Latex.openTag a ++ m) = .opening a :: tokens m := by
  have htag : tagNamed? (tagName a).toList = some (.opening a) := by cases a <;> decide
  have hread : readTag ((tagName a).toList ++ '>' :: m) = some (.opening a, m) :=
    readTag_eq_some_iff.mpr ⟨_, rfl, greater_not_mem_tagName a, htag⟩
  rw [Latex.openTag, List.append_assoc, List.append_assoc]
  exact tokens_less_of_readTag hread

theorem tokens_closeTag (a : Attribute) (m : List Char) :
    tokens (Latex.closeTag a ++ m) = .closing a :: tokens m := by
  have hend : '>' ∉ '/' :: (tagName a).toList := by cases a <;> decide
  have htag : tagNamed? ('/' :: (tagName a).toList) = some (.closing a) := by
    rw [tagNamed?, attribute?_tagName]
    rfl
  have hread : readTag ('/' :: ((tagName a).toList ++ '>' :: m)) = some (.closing a, m) :=
    readTag_eq_some_iff.mpr ⟨_, rfl, hend, htag⟩
  rw [Latex.closeTag, List.append_assoc, List.append_assoc]
  exact tokens_less_of_readTag hread

/-! ## Formats -/

/-- How many tags are open after some units. -/
def Depths.after : Depths → List Token → Depths
  | d, [] => d
  | d, .char _ :: rest => after d rest
  | d, .opening a :: rest => after (d.push a) rest
  | d, .closing a :: rest => after (d.pop a) rest

namespace Depths

theorem after_map_char (d : Depths) (s : List Char) : d.after (s.map Token.char) = d := by
  induction s with
  | nil => rfl
  | cons c s ih => exact ih

/-- Opening tags are counted. -/
theorem after_map_opening (d : Depths) (attributes : List Attribute) (b : Attribute) :
    d.after (attributes.map Token.opening) b = d b + attributes.count b := by
  induction attributes generalizing d with
  | nil => rfl
  | cons a attributes ih =>
    rw [List.map_cons, after, ih, push, List.count_cons]
    by_cases hab : b = a
    · simp only [hab, if_true, beq_self_eq_true]
      omega
    · simp only [hab, Ne.symm hab, if_false, beq_iff_eq]
      omega

/-- Closing tags are counted off. -/
theorem after_map_closing (d : Depths) (attributes : List Attribute) (b : Attribute) :
    d.after (attributes.map Token.closing) b = d b - attributes.count b := by
  induction attributes generalizing d with
  | nil => rfl
  | cons a attributes ih =>
    rw [List.map_cons, after, ih, pop, List.count_cons]
    by_cases hab : b = a
    · simp only [hab, if_true, beq_self_eq_true]
      omega
    · simp only [hab, Ne.symm hab, if_false, beq_iff_eq]
      omega

@[simp] theorem format_zero : zero.format = TextFormat.plain := rfl

end Depths

theorem glyphsOf_append (d : Depths) (ts us : List Token) :
    glyphsOf d (ts ++ us) = glyphsOf d ts ++ glyphsOf (d.after ts) us := by
  induction ts generalizing d with
  | nil => rfl
  | cons t ts ih =>
    cases t with
    | char c => exact congrArg (List.cons _) (ih d)
    | opening a => exact ih _
    | closing a => exact ih _

/-- Characters without tags have the format that is open. -/
theorem glyphsOf_map_char (d : Depths) (s : List Char) :
    glyphsOf d (s.map Token.char) = s.map fun c => ⟨c, d.format⟩ := by
  induction s with
  | nil => rfl
  | cons c s ih => exact congrArg (List.cons _) ih

/-- Tags show nothing. -/
theorem glyphsOf_eq_nil {ts : List Token} (h : ∀ c, Token.char c ∉ ts) (d : Depths) :
    glyphsOf d ts = [] := by
  induction ts generalizing d with
  | nil => rfl
  | cons t ts ih =>
    have hrest (c : Char) : Token.char c ∉ ts := fun hmem => h c (List.mem_cons_of_mem _ hmem)
    cases t with
    | char c => exact absurd List.mem_cons_self (h c)
    | opening a => exact ih hrest _
    | closing a => exact ih hrest _

/-- The visible character that a unit is. -/
def Token.char? : Token → Option Char
  | .char c => some c
  | _ => none

/-- Which characters are visible does not depend on the tags that are open. -/
theorem map_char_glyphsOf (d : Depths) (ts : List Token) :
    (glyphsOf d ts).map Glyph.char = ts.filterMap Token.char? := by
  induction ts generalizing d with
  | nil => rfl
  | cons t ts ih =>
    cases t with
    | char c => exact congrArg (List.cons c) (ih d)
    | opening a => exact ih _
    | closing a => exact ih _

theorem plainChars_eq (m : List Char) : plainChars m = (tokens m).filterMap Token.char? :=
  map_char_glyphsOf Depths.zero (tokens m)

end DocCite.Markup
