import DocCite.Marker.AuthorYear
import DocCite.Proofs.Lists
import DocCite.Proofs.Stretches

/-!
# Citations that share a piece

A marker of author and year shows neighbours in one piece if they carry letters and show the same
authors and year. The pieces are made from the citations one by one, each with an eye on the last
piece only; what comes out has one piece for each maximal stretch of citations that share
(`pieces_divide`), so no citation is left out and no letter stands with other authors.
-/

namespace DocCite.Marker

variable (style : Style) (databases : List Database) (inParenthesis uncut : Bool)

/-- The authors that a citation shows. -/
def shownAuthors (c : Citation) : String :=
  authorList style (Author.parseList (c.resolution.firstField style.authorFields databases))
    (shownLimit style uncut c)
    (if inParenthesis then style.authorLastSeparator else style.authorLastSeparatorInText)

/-- The year that a citation shows. -/
def shownYear (c : Citation) : String :=
  Latex.toMarkup (c.resolution.firstField style.yearFields databases)

/-- The piece of a citation that stands by itself. -/
def ownPiece (c : Citation) : Piece :=
  Piece.of style databases inParenthesis (shownLimit style uncut c) c

/-- A citation that shows authors and a year, with a letter. -/
structure Lettered (authors year : String) (c : Citation) : Prop where
  isResolved : c.resolution.isResolved
  isSome_letter : c.letter.isSome
  shownAuthors_eq : shownAuthors style databases inParenthesis uncut c = authors
  shownYear_eq : shownYear style databases c = year

/-- **Two citations share a piece**: both carry letters, and they show the same authors and year. -/
def SharePiece (a b : Citation) : Prop :=
  ∃ authors year, Lettered style databases inParenthesis uncut authors year a ∧
    Lettered style databases inParenthesis uncut authors year b

/-- **How a stretch of citations is shown.** -/
inductive ShownBy : List Citation → Piece → Prop
  /-- A citation that is not resolved stands by itself. -/
  | unresolved (c : Citation) (h : c.resolution.isResolved = false) :
    ShownBy [c] (.unresolved ("Unresolved(" ++ Markup.escape c.key ++ ")"))
  /-- A citation without a letter stands by itself. -/
  | unlettered (c : Citation) (h : c.resolution.isResolved) (hletter : c.letter = none) :
    ShownBy [c] (.source (shownAuthors style databases inParenthesis uncut c)
      (shownYear style databases c) [])
  /-- Citations with letters stand together, each with its letter. -/
  | lettered {block : List Citation} {authors year : String} {letters : List String}
    (hne : block ≠ [])
    (h : ∀ c ∈ block, Lettered style databases inParenthesis uncut authors year c)
    (hletters : block.map Citation.letter = letters.map some) :
    ShownBy block (.source authors year (letters.map Markup.escape))

variable {style databases inParenthesis uncut} {authors year : String} {c : Citation}
  {block : List Citation} {shown : List Piece} {p : Piece}

/-! ## The piece of one citation -/

theorem ownPiece_of_unresolved (h : c.resolution.isResolved = false) :
    ownPiece style databases inParenthesis uncut c =
      .unresolved ("Unresolved(" ++ Markup.escape c.key ++ ")") :=
  if_neg (ne_true_of_eq_false h)

theorem ownPiece_of_resolved (h : c.resolution.isResolved) :
    ownPiece style databases inParenthesis uncut c =
      .source (shownAuthors style databases inParenthesis uncut c) (shownYear style databases c)
        (c.letter.toList.map Markup.escape) :=
  if_pos h

theorem Lettered.ownPiece_eq (h : Lettered style databases inParenthesis uncut authors year c)
    {letter : String} (hletter : c.letter = some letter) :
    ownPiece style databases inParenthesis uncut c =
      .source authors year [Markup.escape letter] := by
  rw [ownPiece_of_resolved h.isResolved, h.shownAuthors_eq, h.shownYear_eq, hletter]
  rfl

/-- What is shared carries over from neighbour to neighbour. -/
theorem Lettered.of_sharePiece {d : Citation}
    (hc : Lettered style databases inParenthesis uncut authors year c)
    (h : SharePiece style databases inParenthesis uncut c d) :
    Lettered style databases inParenthesis uncut authors year d := by
  obtain ⟨authors', year', hc', hd⟩ := h
  have hauthors : authors' = authors := hc'.shownAuthors_eq.symm.trans hc.shownAuthors_eq
  have hyear : year' = year := hc'.shownYear_eq.symm.trans hc.shownYear_eq
  exact hauthors ▸ hyear ▸ hd

/-- All of a stretch of citations that share show what the first one shows. -/
theorem Lettered.of_isChain (hc : Lettered style databases inParenthesis uncut authors year c)
    (h : (c :: block).IsChain (SharePiece style databases inParenthesis uncut)) :
    ∀ d ∈ c :: block, Lettered style databases inParenthesis uncut authors year d := by
  induction block generalizing c with
  | nil => exact List.forall_mem_singleton.mpr hc
  | cons d block ih =>
    obtain ⟨hshare, hrest⟩ := List.isChain_cons_cons.mp h
    exact List.forall_mem_cons.mpr ⟨hc, ih (hc.of_sharePiece hshare) hrest⟩

/-- **Every stretch of citations that share is shown by some piece.** -/
theorem exists_shownBy (hne : block ≠ [])
    (h : block.IsChain (SharePiece style databases inParenthesis uncut)) :
    ∃ p, ShownBy style databases inParenthesis uncut block p := by
  obtain ⟨c, block, rfl⟩ := List.exists_cons_of_ne_nil hne
  by_cases hc : c.resolution.isResolved ∧ c.letter.isSome
  · have hall := Lettered.of_isChain ⟨hc.1, hc.2, rfl, rfl⟩ h
    have hletters : (c :: block).map Citation.letter =
        ((c :: block).filterMap Citation.letter).map some := by
      rw [List.map_filterMap_some_eq_filter_map_isSome, List.filter_eq_self.mpr]
      exact List.forall_mem_map.mpr fun d hd => (hall d hd).isSome_letter
    exact ⟨_, .lettered hne hall hletters⟩
  · -- the first citation shares with none, so it is the only one
    have halone : block = [] := by
      cases block with
      | nil => rfl
      | cons d block =>
        obtain ⟨_, _, hlettered, _⟩ := (List.isChain_cons_cons.mp h).1
        exact absurd ⟨hlettered.isResolved, hlettered.isSome_letter⟩ hc
    subst halone
    cases hresolved : c.resolution.isResolved with
    | false => exact ⟨_, .unresolved c hresolved⟩
    | true =>
      have hletter : c.letter = none :=
        Option.not_isSome_iff_eq_none.mp fun hletter => hc ⟨hresolved, hletter⟩
      exact ⟨_, .unlettered c hresolved hletter⟩

/-! ## Adding citations to pieces -/

/-- Behind the pieces that are shown, a citation starts a piece of its own. -/
def StartsPiece (style : Style) (databases : List Database) (inParenthesis uncut : Bool)
    (shown : List Piece) (c : Citation) : Prop :=
  addPiece shown (ownPiece style databases inParenthesis uncut c) =
    shown ++ [ownPiece style databases inParenthesis uncut c]

/-- A piece that is not from a source never joins. -/
theorem addPiece_unresolved (shown : List Piece) (text : String) :
    addPiece shown (.unresolved text) = shown ++ [.unresolved text] := by
  unfold addPiece
  split
  · next h => cases h
  · rfl

/-- A piece without a letter never joins. -/
theorem addPiece_unlettered (shown : List Piece) (authors year : String) :
    addPiece shown (.source authors year []) = shown ++ [.source authors year []] := by
  unfold addPiece
  split
  · next h => cases h
  · rfl

/-- A letter joins a last piece that has letters and shows the same. -/
theorem addPiece_same (shown : List Piece) (authors year first : String) (letters : List String)
    (letter : String) :
    addPiece (shown ++ [.source authors year (first :: letters)]) (.source authors year [letter]) =
      shown ++ [.source authors year (first :: letters ++ [letter])] := by
  simp only [addPiece, List.getLast?_concat, and_self, if_true, List.dropLast_concat]

/-- A citation that does not share with the last one shown starts a piece of its own. -/
theorem startsPiece_of_not_sharePiece {last : Citation}
    (hblock : ShownBy style databases inParenthesis uncut block p) (hlast : last ∈ block.getLast?)
    (h : ¬ SharePiece style databases inParenthesis uncut last c) :
    StartsPiece style databases inParenthesis uncut (shown ++ [p]) c := by
  unfold StartsPiece
  cases hresolved : c.resolution.isResolved with
  | false => rw [ownPiece_of_unresolved hresolved, addPiece_unresolved]
  | true =>
    rw [ownPiece_of_resolved hresolved]
    cases hletter : c.letter with
    | none => exact addPiece_unlettered _ _ _
    | some letter =>
      simp only [addPiece, List.getLast?_concat]
      cases hblock with
      | unresolved d _ => rfl
      | unlettered d _ _ => rfl
      | @lettered _ authors year letters hne hall hletters =>
        have hdiffer : ¬ (authors = shownAuthors style databases inParenthesis uncut c ∧
            year = shownYear style databases c) := by
          rintro ⟨rfl, rfl⟩
          exact h ⟨_, _, hall last (List.mem_of_mem_getLast? hlast),
            hresolved, by rw [hletter]; rfl, rfl, rfl⟩
        cases letters with
        | nil => rfl
        | cons first letters => exact if_neg hdiffer

/-- **Citations with letters join the last piece**, each with its letter. -/
theorem foldl_addPiece_lettered {letters : List String}
    (h : ∀ c ∈ block, Lettered style databases inParenthesis uncut authors year c)
    (hletters : block.map Citation.letter = letters.map some) (first : String)
    (before : List String) :
    (block.map (ownPiece style databases inParenthesis uncut)).foldl addPiece
        (shown ++ [.source authors year (first :: before)]) =
      shown ++ [.source authors year (first :: before ++ letters.map Markup.escape)] := by
  induction block generalizing letters before with
  | nil =>
    rw [List.map_nil, eq_comm, List.map_eq_nil_iff] at hletters
    rw [hletters, List.map_nil, List.map_nil, List.append_nil]
    exact List.foldl_nil
  | cons c block ih =>
    obtain ⟨hc, hrest⟩ := List.forall_mem_cons.mp h
    obtain ⟨letter, letters, rfl, hletter, hmore⟩ := List.map_eq_cons_iff.mp hletters.symm
    rw [List.map_cons, List.foldl_cons, hc.ownPiece_eq hletter.symm, addPiece_same,
      List.cons_append, ih hrest hmore.symm]
    simp only [List.map_cons, List.cons_append, List.append_assoc, List.nil_append]

/-- **A stretch of citations adds one piece**, if the first of them starts one. -/
theorem foldl_addPiece_block (hblock : ShownBy style databases inParenthesis uncut block p)
    (hfirst : ∀ c ∈ block.head?, StartsPiece style databases inParenthesis uncut shown c) :
    (block.map (ownPiece style databases inParenthesis uncut)).foldl addPiece shown =
      shown ++ [p] := by
  cases hblock with
  | unresolved c h => rw [← ownPiece_of_unresolved h]; exact hfirst c rfl
  | unlettered c h hletter =>
    have hown : ownPiece style databases inParenthesis uncut c =
        .source (shownAuthors style databases inParenthesis uncut c) (shownYear style databases c)
          [] := by
      rw [ownPiece_of_resolved h, hletter]
      rfl
    rw [← hown]
    exact hfirst c rfl
  | @lettered _ authors year letters hne hall hletters =>
    obtain ⟨c, block, rfl⟩ := List.exists_cons_of_ne_nil hne
    obtain ⟨hc, hrest⟩ := List.forall_mem_cons.mp hall
    obtain ⟨letter, letters, rfl, hletter, hmore⟩ := List.map_eq_cons_iff.mp hletters.symm
    rw [List.map_cons, List.foldl_cons, hfirst c rfl, hc.ownPiece_eq hletter.symm,
      foldl_addPiece_lettered hrest hmore.symm]
    rfl

/-- **Stretch after stretch**: if the first citation starts a piece, the pieces of the stretches are
added one by one. -/
theorem foldl_addPiece_stretches {citations : List Citation} {blocks : List (List Citation)}
    {added : List Piece}
    (hblocks : MaximalStretches (SharePiece style databases inParenthesis uncut) citations blocks)
    (hadded : List.Forall₂ (ShownBy style databases inParenthesis uncut) blocks added)
    (hfirst : ∀ c ∈ citations.head?, StartsPiece style databases inParenthesis uncut shown c) :
    (citations.map (ownPiece style databases inParenthesis uncut)).foldl addPiece shown =
      shown ++ added := by
  induction hadded generalizing citations shown with
  | nil =>
    rw [← hblocks.flatten_eq, List.append_nil]
    rfl
  | @cons block p blocks added hp _ ih =>
    obtain ⟨rfl, hne, _, hmaximal, hrest⟩ := hblocks.of_cons
    have hhead : ∀ c ∈ block.head?, c ∈ (block ++ blocks.flatten).head? := by
      intro c hc
      rw [List.head?_append, Option.mem_def.mp hc]
      rfl
    rw [List.map_append, List.foldl_append,
      foldl_addPiece_block hp fun c hc => hfirst c (hhead c hc), ih hrest, List.append_assoc]
    · rfl
    · intro c hc
      have hlast := List.getLast?_eq_some_getLast hne
      exact startsPiece_of_not_sharePiece hp hlast (hmaximal _ hlast c hc)

/-- **The pieces divide the citations**: they are one for each maximal stretch of citations that
share, as it is shown. -/
theorem pieces_divide (citations : List Citation) :
    (∃ blocks, MaximalStretches (SharePiece style databases inParenthesis uncut) citations blocks ∧
      List.Forall₂ (ShownBy style databases inParenthesis uncut) blocks shown) ↔
    pieces style databases inParenthesis uncut citations = shown := by
  have hpieces {blocks : List (List Citation)} {shown : List Piece}
      (hblocks : MaximalStretches (SharePiece style databases inParenthesis uncut) citations blocks)
      (hshown : List.Forall₂ (ShownBy style databases inParenthesis uncut) blocks shown) :
      pieces style databases inParenthesis uncut citations = shown := by
    have hfold : (citations.map (ownPiece style databases inParenthesis uncut)).foldl addPiece [] =
        [] ++ shown := foldl_addPiece_stretches hblocks hshown fun c _ => rfl
    rw [List.foldl_map] at hfold
    exact hfold
  constructor
  · rintro ⟨blocks, hblocks, hshown⟩
    exact hpieces hblocks hshown
  · rintro rfl
    obtain ⟨blocks, hblocks⟩ :=
      MaximalStretches.exists_of (SharePiece style databases inParenthesis uncut) citations
    have hall : ∀ block ∈ blocks, ∃ p, ShownBy style databases inParenthesis uncut block p := by
      intro block hblock
      exact exists_shownBy (hblocks.ne_nil block hblock) (hblocks.isChain block hblock)
    obtain ⟨shown, hshown⟩ := exists_forall₂ hall
    exact ⟨blocks, hblocks, by rw [hpieces hblocks hshown]; exact hshown⟩

end DocCite.Marker
