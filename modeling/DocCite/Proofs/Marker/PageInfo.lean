import DocCite.Marker.Finish
import DocCite.Marker.Numeric
import DocCite.Proofs.Latex.Contained
import DocCite.Proofs.Marker.Ranges
import DocCite.Proofs.Text.Pieces

/-!
# Page info stands before the closing bracket

Page info is put into the markup of a marker, where its closing bracket is found as the end of the
text; what a reader sees is told by the units that are read. All markup of a marker is written in
pieces (`IsSpelled`): escaped text and converted field values. Pieces neither begin an entity that
escaped text could go on with nor a tag that it could end, so behind them escaped text is read as it
is (`IsSpelled.plain_append_escape`), and page info changes nothing but the text before the bracket
(`plain_insertPageInfo`).
-/

namespace DocCite

namespace Latex

/-- A markup text that is written in pieces. -/
def IsSpelled (m : String) : Prop := ∃ ps, m.toList = spell ps

namespace IsSpelled

variable {m n : String}

theorem empty : IsSpelled "" := ⟨[], rfl⟩

theorem escape (s : String) : IsSpelled (Markup.escape s) :=
  ⟨s.toList.map .char, by rw [spell_map_char, Markup.escape, String.toList_ofList]⟩

theorem toMarkup (value : String) : IsSpelled (toMarkup value) :=
  ⟨pieces [] value.toList, toList_toMarkup value⟩

theorem append (hm : IsSpelled m) (hn : IsSpelled n) : IsSpelled (m ++ n) := by
  obtain ⟨ps, hps⟩ := hm
  obtain ⟨qs, hqs⟩ := hn
  exact ⟨ps ++ qs, by rw [String.toList_append, hps, hqs, spell_append]⟩

theorem intercalate (hn : IsSpelled n) {texts : List String} (h : ∀ t ∈ texts, IsSpelled t) :
    IsSpelled (n.intercalate texts) := by
  induction texts with
  | nil => exact empty
  | cons text texts ih =>
    obtain ⟨htext, hrest⟩ := List.forall_mem_cons.mp h
    cases texts with
    | nil =>
      rw [String.intercalate_singleton]
      exact htext
    | cons next texts =>
      rw [String.intercalate_cons_cons]
      exact (htext.append hn).append (ih hrest)

/-- **Escaped text behind pieces** is read as it is, and so are the pieces. -/
theorem plain_append_escape (hm : IsSpelled m) (s : String) :
    Markup.plain (m ++ Markup.escape s) = Markup.plain m ++ s := by
  obtain ⟨ps, hps⟩ := hm
  have hgreater : '>' ∉ (Markup.escape s).toList := by
    rw [Markup.escape, String.toList_ofList]
    exact Markup.greater_not_mem_escapeChars s.toList
  rw [Markup.plain, String.toList_append, hps, plainChars_spell_append ps hgreater, ← hps,
    String.ofList_append]
  exact congrArg (Markup.plain m ++ ·) (Markup.plain_escape s)

end IsSpelled

end Latex

namespace Marker

open Latex (IsSpelled)

variable {style : Style} {databases : List Database}

/-! ## Markers in pieces -/

theorem isSpelled_unresolved (key : String) : IsSpelled (unresolved key) := by
  have heq : unresolved key = Markup.escape (NumericItem.unresolved key).shown :=
    (NumericItem.unresolved key).text_eq
  exact heq ▸ .escape _

/-- **Names of authors** are converted values, and what stands between them is escaped. -/
theorem isSpelled_authorList (style : Style) (authors : List Author) (limit : Int)
    (lastSeparator : String) : IsSpelled (authorList style authors limit lastSeparator) := by
  have hnames : ∀ name ∈ authors.map fun a => Latex.toMarkup a.family, IsSpelled name := by
    intro name hname
    obtain ⟨a, -, rfl⟩ := List.mem_map.mp hname
    exact .toMarkup _
  unfold authorList
  generalize authors.map (fun a => Latex.toMarkup a.family) = names at hnames
  cases names with
  | nil => exact .empty
  | cons first rest =>
    obtain ⟨hfirst, hrest⟩ := List.forall_mem_cons.mp hnames
    dsimp only
    split
    · exact hfirst.append (.escape _)
    · split
      · exact hfirst
      · next last hlast =>
        have hinit : ∀ name ∈ (first :: rest).dropLast, IsSpelled name :=
          fun name hname => hnames name (List.dropLast_subset _ hname)
        refine ((((IsSpelled.escape _).intercalate hinit).append ?_).append (.escape _)).append
          (hrest last (List.mem_of_getLast? hlast))
        split
        · exact .escape _
        · exact .empty

/-- A piece of a marker of which all texts are written in pieces of markup. -/
def Piece.IsSpelled : Piece → Prop
  | .unresolved text => Latex.IsSpelled text
  | .source authors year letters =>
    Latex.IsSpelled authors ∧ Latex.IsSpelled year ∧ ∀ letter ∈ letters, Latex.IsSpelled letter

theorem Piece.isSpelled_of (style : Style) (databases : List Database) (inParenthesis : Bool)
    (limit : Int) (c : Citation) : (Piece.of style databases inParenthesis limit c).IsSpelled := by
  unfold Piece.of
  split
  · refine ⟨isSpelled_authorList _ _ _ _, .toMarkup _, fun letter hletter => ?_⟩
    obtain ⟨s, -, rfl⟩ := List.mem_map.mp hletter
    exact .escape s
  · exact isSpelled_unresolved c.key

/-- A letter that joins the last piece is a text of that piece then. -/
theorem isSpelled_addPiece {shown : List Piece} {p : Piece} (hshown : ∀ q ∈ shown, q.IsSpelled)
    (hp : p.IsSpelled) : ∀ q ∈ addPiece shown p, q.IsSpelled := by
  have hapart : ∀ q ∈ shown ++ [p], q.IsSpelled := by
    intro q hq
    rcases List.mem_append.mp hq with hq | hq
    · exact hshown q hq
    · exact List.mem_singleton.mp hq ▸ hp
  unfold addPiece
  split
  · next authors year first letters authors' year' letter hlast =>
    split
    · intro q hq
      rcases List.mem_append.mp hq with hq | hq
      · exact hshown q (List.dropLast_subset _ hq)
      · obtain ⟨hauthors, hyear, hletters⟩ := hshown _ (List.mem_of_getLast? hlast)
        rw [List.mem_singleton.mp hq]
        refine ⟨hauthors, hyear, fun l hl => ?_⟩
        rcases List.mem_append.mp hl with hl | hl
        · exact hletters l hl
        · exact hp.2.2 l hl
    · exact hapart
  · exact hapart

theorem isSpelled_pieces (style : Style) (databases : List Database) (inParenthesis uncut : Bool)
    (citations : List Citation) :
    ∀ p ∈ pieces style databases inParenthesis uncut citations, p.IsSpelled := by
  unfold pieces
  -- one citation after another, from any pieces that are shown before
  suffices h : ∀ shown : List Piece, (∀ p ∈ shown, p.IsSpelled) →
      ∀ p ∈ citations.foldl (fun shown c => addPiece shown
        (Piece.of style databases inParenthesis (shownLimit style uncut c) c)) shown,
        p.IsSpelled from h [] fun p hp => absurd hp List.not_mem_nil
  induction citations with
  | nil => exact fun shown hshown => hshown
  | cons c citations ih =>
    intro shown hshown
    exact ih _ (isSpelled_addPiece hshown (Piece.isSpelled_of _ _ _ _ c))

theorem Piece.isSpelled_parenthetical (style : Style) {p : Piece} (h : p.IsSpelled) :
    Latex.IsSpelled (p.parenthetical style) := by
  cases p with
  | unresolved text => exact h
  | source authors year letters =>
    obtain ⟨hauthors, hyear, hletters⟩ := h
    have hshown : Latex.IsSpelled (yearText style year letters) :=
      hyear.append ((IsSpelled.escape _).intercalate hletters)
    simp only [parenthetical, joinNonEmpty]
    split
    · exact hshown
    · split
      · exact hauthors
      · exact (hauthors.append (.escape _)).append hshown

/-- **The markers in brackets**: of numbers, of keys, and of authors and years. -/
inductive IsBracketed (style : Style) : String → Prop
  | numeric (items : List NumericItem) : IsBracketed style (numeric style items false)
  | citationKeys (keys : List String) : IsBracketed style (citationKeys style keys)
  | authorYear (databases : List Database) (citations : List Citation) :
    IsBracketed style (authorYear style databases citations true)

/-- A marker in brackets is written in pieces up to its closing bracket. -/
theorem IsBracketed.exists_isSpelled {marker : String} (h : IsBracketed style marker) :
    ∃ head, IsSpelled head ∧ marker = head ++ Markup.escape style.bracketAfter := by
  cases h with
  | numeric items =>
    refine ⟨_, (IsSpelled.escape _).append ((IsSpelled.escape _).intercalate fun text htext => ?_),
      rfl⟩
    obtain ⟨part, -, rfl⟩ := List.mem_map.mp htext
    exact part.text_eq style ▸ .escape _
  | citationKeys keys =>
    refine ⟨_, (IsSpelled.escape _).append ((IsSpelled.escape _).intercalate fun text htext => ?_),
      rfl⟩
    obtain ⟨key, -, rfl⟩ := List.mem_map.mp htext
    exact .escape key
  | authorYear databases citations =>
    refine ⟨_, (IsSpelled.escape _).append ((IsSpelled.escape _).intercalate fun text htext => ?_),
      rfl⟩
    obtain ⟨p, hp, rfl⟩ := List.mem_map.mp htext
    exact Piece.isSpelled_parenthetical style (isSpelled_pieces _ _ _ _ _ p hp)

/-! ## Page info -/

/-- The end of a text is found where it stands. -/
theorem before?_append (head ending : List Char) : before? ending (head ++ ending) = some head := by
  rw [before?, List.reverse_append, Text.after?_append, Option.map_some, List.reverse_reverse]

/-- Page info that is not blank goes before a closing bracket. -/
theorem insertPageInfo_append {pageInfo : String} (h : isBlankText pageInfo = false)
    (style : Style) (head : String) :
    insertPageInfo style (head ++ Markup.escape style.bracketAfter) (some pageInfo) =
      head ++
        Markup.escape (style.pageInfoSeparator ++ trimmed pageInfo ++ style.bracketAfter) := by
  have htrimmed : (some pageInfo).bind trimmed? = some (trimmed pageInfo) := by
    simp [trimmed?, h]
  rw [insertPageInfo, htrimmed]
  simp only [String.toList_append, before?_append, String.ofList_toList, Markup.escape_append,
    String.append_assoc]

/-- **Page info stands before the closing bracket**, and nothing else that is read is changed. -/
theorem plain_insertPageInfo {marker pageInfo : String} (hmarker : IsBracketed style marker)
    (hpage : isBlankText pageInfo = false) :
    ∃ shown, Markup.plain marker = shown ++ style.bracketAfter ∧
      Markup.plain (insertPageInfo style marker (some pageInfo)) =
        shown ++ (style.pageInfoSeparator ++ trimmed pageInfo) ++ style.bracketAfter := by
  obtain ⟨head, hhead, rfl⟩ := hmarker.exists_isSpelled
  refine ⟨Markup.plain head, hhead.plain_append_escape _, ?_⟩
  rw [insertPageInfo_append hpage, hhead.plain_append_escape]
  simp only [String.append_assoc]

/-- Brackets that look like tags, and a separator that looks like the end of an entity. -/
def taglike : Style :=
  { citationOptions :=
      [("BracketBefore", .text "<i>"), ("BracketAfter", .text "</i>"),
       ("PageInfoSeparator", .text "amp;")] }

theorem plain_insertPageInfo_taglike :
    ∃ shown,
      Markup.plain (authorYear taglike [] [{ key := "a&" }, { key := "<b" }] true) =
        shown ++ "</i>" ∧
      Markup.plain (insertPageInfo taglike
        (authorYear taglike [] [{ key := "a&" }, { key := "<b" }] true) (some " >p. 4 ")) =
          shown ++ "amp;>p. 4" ++ "</i>" :=
  plain_insertPageInfo (.authorYear [] _) (by decide)

end Marker

end DocCite
