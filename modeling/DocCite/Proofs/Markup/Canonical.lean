import DocCite.Proofs.Markup.Written
import Mathlib.Data.List.Chain

/-!
# Canonical runs

Every way to split formatted text into runs shows the same characters in the same formats, and one
of them is canonical: no run is empty, and neighbours differ in format. Reading markup gives it,
and so canonical runs that are written as markup read back as they are (`runs_readBack`), whatever
their texts look like and whichever attributes they combine.
-/

namespace DocCite.Markup

/-- **Canonical runs**: no run is empty, and neighbours differ in format. -/
structure Canonical (rs : List Run) : Prop where
  text_ne_empty : ∀ r ∈ rs, r.text ≠ ""
  isChain_format_ne : rs.IsChain fun r next => r.format ≠ next.format

instance (rs : List Run) : Decidable (Canonical rs) :=
  decidable_of_iff ((∀ r ∈ rs, r.text ≠ "") ∧ rs.IsChain fun r next => r.format ≠ next.format)
    ⟨fun h => ⟨h.1, h.2⟩, fun h => ⟨h.text_ne_empty, h.isChain_format_ne⟩⟩

/-- The characters of runs, each in the format of its run. -/
def formatted (rs : List Run) : List Glyph :=
  rs.flatMap fun r => r.text.toList.map fun c => ⟨c, r.format⟩

/-- Runs as markup: the text of each is escaped and put into the tags of its format. -/
def render (rs : List Run) : String :=
  String.join (rs.map fun r => wrap (escape r.text) r.format)

/-! ## Stretches of one format -/

/-- A stretch of a format and what it stands before. -/
theorem stretches_map_append {s : List Char} {format : TextFormat} {gs : List Glyph}
    (hne : s ≠ []) (h : ∀ next ∈ (stretches gs).head?, next.2 ≠ format) :
    stretches (s.map (fun c => ⟨c, format⟩) ++ gs) = (s, format) :: stretches gs := by
  induction s with
  | nil => exact absurd rfl hne
  | cons c s ih =>
    rw [List.map_cons, List.cons_append, stretches]
    by_cases hlast : s = []
    · subst hlast
      rw [List.map_nil, List.nil_append]
      split
      · next hnil => rw [hnil]
      · next text other more hcons =>
        have hother : other ≠ format := h _ (by rw [hcons]; rfl)
        rw [hcons, if_neg hother]
    · rw [ih hlast]
      exact if_pos rfl

/-- No stretch is empty. -/
theorem ne_nil_of_mem_stretches {gs : List Glyph} {p : List Char × TextFormat}
    (h : p ∈ stretches gs) : p.1 ≠ [] := by
  induction gs generalizing p with
  | nil => exact absurd h List.not_mem_nil
  | cons g gs ih =>
    rw [stretches] at h
    split at h
    · rw [List.mem_singleton.mp h]
      exact List.cons_ne_nil _ _
    · next text format more hcons =>
      have hmore : ∀ q ∈ more, q.1 ≠ [] := fun q hq =>
        ih (hcons ▸ List.mem_cons_of_mem _ hq)
      split at h
      · rcases List.mem_cons.mp h with rfl | hmem
        · exact List.cons_ne_nil _ _
        · exact hmore p hmem
      · rcases List.mem_cons.mp h with rfl | hmem
        · exact List.cons_ne_nil _ _
        · exact ih (hcons ▸ hmem)

/-- Stretches end where the format changes. -/
theorem isChain_stretches (gs : List Glyph) :
    (stretches gs).IsChain fun p next => p.2 ≠ next.2 := by
  induction gs with
  | nil => exact .nil
  | cons g gs ih =>
    rw [stretches]
    split
    · exact .singleton _
    · next text format more hcons =>
      rw [hcons] at ih
      split
      · next heq =>
        cases more with
        | nil => exact .singleton _
        | cons q more =>
          rw [List.isChain_cons_cons] at ih ⊢
          exact ⟨heq ▸ ih.1, ih.2⟩
      · next hne => exact List.isChain_cons_cons.mpr ⟨fun heq => hne heq.symm, ih⟩

/-- **Reading gives canonical runs.** -/
theorem canonical_runs (markup : String) : Canonical (runs markup) where
  text_ne_empty r hr := by
    obtain ⟨⟨s, format⟩, hmem, rfl⟩ := List.mem_map.mp hr
    have hne : s ≠ [] := ne_nil_of_mem_stretches hmem
    simpa using hne
  isChain_format_ne := by
    rw [runs, List.isChain_map]
    exact isChain_stretches _

/-- The stretches of what runs show are the runs, if these are canonical. -/
theorem stretches_formatted {rs : List Run} (h : Canonical rs) :
    stretches (formatted rs) = rs.map fun r => (r.text.toList, r.format) := by
  induction rs with
  | nil => rfl
  | cons r rs ih =>
    obtain ⟨htext, hrest⟩ := List.forall_mem_cons.mp h.text_ne_empty
    have hih := ih ⟨hrest, h.isChain_format_ne.tail⟩
    rw [formatted, List.flatMap_cons, ← formatted, stretches_map_append, hih, List.map_cons]
    · simpa using htext
    · rw [hih]
      intro next hnext
      cases rs with
      | nil => cases hnext
      | cons r' rs =>
        cases hnext
        exact (List.isChain_cons_cons.mp h.isChain_format_ne).1.symm

/-- The runs of a markup text show its characters in their formats. -/
theorem formatted_runs (markup : String) : formatted (runs markup) = glyphs markup.toList := by
  have hstretches (gs : List Glyph) :
      (stretches gs).flatMap (fun p => p.1.map fun c => (⟨c, p.2⟩ : Glyph)) = gs := by
    induction gs with
    | nil => rfl
    | cons g gs ih =>
      rw [stretches]
      split
      · next hnil =>
        rw [hnil] at ih
        rw [← ih]
        rfl
      · next text format more hcons =>
        rw [hcons] at ih
        split
        · next heq =>
          rw [← ih, heq]
          rfl
        · rw [← ih]
          rfl
  rw [formatted, runs, List.flatMap_map]
  simp only [String.toList_ofList]
  exact hstretches _

/-- **Canonical runs are read where their characters are**, in the formats that they have. -/
theorem runs_eq_of_glyphs_eq {rs : List Run} {markup : String} (h : Canonical rs)
    (hglyphs : glyphs markup.toList = formatted rs) : runs markup = rs := by
  rw [runs, hglyphs, stretches_formatted h, List.map_map]
  refine (List.map_congr_left fun r _ => ?_).trans (List.map_id rs)
  exact congrArg (Run.mk · r.format) String.ofList_toList

/-! ## Tags around a text -/

/-- Tags stand around a text as they were put there, one after another. -/
theorem toList_foldl_tags (attributes : List Attribute) (inner : String) :
    (attributes.foldl
        (fun text a => "<" ++ tagName a ++ ">" ++ text ++ "</" ++ tagName a ++ ">") inner).toList =
      attributes.reverse.flatMap Latex.openTag ++
        (inner.toList ++ attributes.flatMap Latex.closeTag) := by
  induction attributes generalizing inner with
  | nil => simp
  | cons a attributes ih =>
    rw [List.foldl_cons, ih]
    simp [Latex.openTag, Latex.closeTag]

theorem tokens_flatMap_openTag (attributes : List Attribute) (m : List Char) :
    tokens (attributes.flatMap Latex.openTag ++ m) =
      attributes.map Token.opening ++ tokens m := by
  induction attributes with
  | nil => rfl
  | cons a attributes ih =>
    rw [List.flatMap_cons, List.append_assoc, tokens_openTag, ih]
    rfl

theorem tokens_flatMap_closeTag (attributes : List Attribute) (m : List Char) :
    tokens (attributes.flatMap Latex.closeTag ++ m) =
      attributes.map Token.closing ++ tokens m := by
  induction attributes with
  | nil => rfl
  | cons a attributes ih =>
    rw [List.flatMap_cons, List.append_assoc, tokens_closeTag, ih]
    rfl

/-- One tag of each attribute of a format is open. -/
def Depths.within (format : TextFormat) : Depths := fun a => if format.has a then 1 else 0

namespace Depths

@[simp] theorem format_within (format : TextFormat) : (within format).format = format := by
  rw [Depths.format, ← TextFormat.ofTest_has format]
  congr 1
  funext a
  rw [within, TextFormat.ofTest_has]
  cases format.has a <;> rfl

/-- The tags around a text are those of the format, each of them once. -/
theorem count_filter_nesting (format : TextFormat) (a : Attribute) :
    (nesting.filter format.has).count a = within format a := by
  have hnesting : nesting.count a = 1 := by cases a <;> rfl
  rw [within]
  cases h : format.has a with
  | true => rw [List.count_filter h, hnesting, if_pos rfl]
  | false =>
    rw [if_neg (by decide), List.count_eq_zero]
    exact fun hmem => by simp [h] at hmem

theorem after_opened (format : TextFormat) :
    zero.after ((nesting.filter format.has).reverse.map Token.opening) = within format := by
  funext a
  rw [after_map_opening, List.count_reverse, count_filter_nesting, zero, Nat.zero_add]

theorem after_closed (format : TextFormat) :
    (within format).after ((nesting.filter format.has).map Token.closing) = zero := by
  funext a
  rw [after_map_closing, count_filter_nesting, zero, Nat.sub_self]

end Depths

/-- **Text in the tags of a format** is read in that format, and leaves no tag open. -/
theorem glyphs_wrap_append (text : String) (format : TextFormat) (m : List Char) :
    glyphs ((wrap (escape text) format).toList ++ m) =
      text.toList.map (fun c => ⟨c, format⟩) ++ glyphs m := by
  have htokens : tokens ((wrap (escape text) format).toList ++ m) =
      (nesting.filter format.has).reverse.map Token.opening ++
        (text.toList.map Token.char ++
          ((nesting.filter format.has).map Token.closing ++ tokens m)) := by
    rw [wrap, toList_foldl_tags, escape, String.toList_ofList, List.append_assoc,
      List.append_assoc, tokens_flatMap_openTag, tokens_escapeChars, tokens_flatMap_closeTag]
  have hopened (attributes : List Attribute) (d : Depths) :
      glyphsOf d (attributes.map Token.opening) = [] := glyphsOf_eq_nil (by simp) d
  have hclosed (attributes : List Attribute) (d : Depths) :
      glyphsOf d (attributes.map Token.closing) = [] := glyphsOf_eq_nil (by simp) d
  rw [glyphs, htokens, glyphsOf_append, hopened, Depths.after_opened, glyphsOf_append,
    glyphsOf_map_char, Depths.after_map_char, Depths.format_within, glyphsOf_append, hclosed,
    Depths.after_closed, List.nil_append, List.nil_append]
  rfl

@[simp] theorem glyphs_nil : glyphs [] = [] := by
  rw [glyphs, tokens_nil]
  rfl

/-- Runs that are written show what they showed. -/
theorem glyphs_render (rs : List Run) : glyphs (render rs).toList = formatted rs := by
  rw [render, String.toList_join, List.flatMap_map]
  induction rs with
  | nil =>
    rw [List.flatMap_nil, glyphs_nil]
    rfl
  | cons r rs ih =>
    rw [List.flatMap_cons, glyphs_wrap_append, ih]
    rfl

/-- Escaped text stays as it is before any markup. -/
theorem glyphs_escapeChars_append (s m : List Char) :
    glyphs (escapeChars s ++ m) = s.map (fun c => ⟨c, TextFormat.plain⟩) ++ glyphs m := by
  rw [glyphs, tokens_escapeChars, glyphsOf_append, glyphsOf_map_char, Depths.after_map_char]
  rfl

/-- Escaped text alone is plain. -/
theorem glyphs_escapeChars (s : List Char) :
    glyphs (escapeChars s) = s.map fun c => ⟨c, TextFormat.plain⟩ := by
  simpa using glyphs_escapeChars_append s []

/-- Escaped text is read as it was. -/
theorem plain_escape (s : String) : plain (escape s) = s := by
  rw [plain, plainChars, escape, String.toList_ofList, glyphs_escapeChars, List.map_map]
  exact (congrArg String.ofList (List.map_id _)).trans String.ofList_toList

/-- **Runs and markup are two forms of one thing**: reading gives canonical runs, canonical runs
that are written read back as they are, and text that is escaped reads back as itself before any
markup. -/
theorem runs_readBack :
    (∀ markup, Canonical (runs markup)) ∧
      (∀ rs, Canonical rs → runs (render rs) = rs) ∧
      ∀ text markup, plain (escape text ++ markup) = text ++ plain markup := by
  refine ⟨canonical_runs, fun rs h => runs_eq_of_glyphs_eq h (glyphs_render rs), ?_⟩
  intro text markup
  have hchars : plainChars (escapeChars text.toList ++ markup.toList) =
      text.toList ++ plainChars markup.toList := by
    rw [plainChars, glyphs_escapeChars_append, List.map_append, List.map_map]
    exact congrArg (· ++ _) (List.map_id _)
  rw [← String.toList_inj, String.toList_append, plain, plain, String.toList_ofList,
    String.toList_ofList, String.toList_append, escape, String.toList_ofList, hchars]

/-- A tag's text, nested formats and an entity's text. -/
def sampleRuns : List Run :=
  [⟨"<b>", .ofList [.bold, .superscript]⟩, ⟨"&lt;", .ofList [.bold]⟩, ⟨"a > b", .plain⟩]

theorem runs_readBack_sampleRuns :
    Canonical sampleRuns ∧ runs (render sampleRuns) = sampleRuns := by
  have hcanonical : Canonical sampleRuns := by decide
  exact ⟨hcanonical, runs_readBack.2.1 sampleRuns hcanonical⟩

end DocCite.Markup
