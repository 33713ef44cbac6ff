import DocCite.Proofs.Document.Exchanging
import DocCite.Proofs.Document.Refreshing

/-!
# Arrangements while markers are written

Writing a marker empties the mark of its group down to placeholders, or creates it anew, and fills
it. Of the arrangement of the document nothing changes but the text in that mark
(`rearranges_writeMarker`).
-/

namespace DocCite.DocumentM

open Piece

variable {α : Type} {L : Arrangement} {flow : Flow} {A B : List Piece} {id : String}

/-- Pieces after a mark in which text was replaced. -/
theorem rearranges_replaceIn {s u x v : List Char} (new : String) {p q : Nat}
    (hpieces : L.pieces flow = A ++ mark id s :: B) (hs : s = u ++ x ++ v)
    (hp : p = width A + u.length) (hq : q = width A + u.length + x.length)
    (hopen : new.toList = [] ∨ u ≠ [] ∧ v ≠ []) :
    Rearranges L (replace (.new flow p q) new) fun written L' =>
      written = .new flow p (p + new.toList.length) ∧
        L' = L.set flow (A ++ mark id (u ++ new.toList ++ v) :: B) := by
  subst hs
  have hle : p ≤ q := by omega
  refine (rearranges_replace_inside (r := .new flow p q) new hpieces ?_ ?_ hopen).weaken ?_
  · rw [TextRange.start_new, Nat.min_eq_left hle, hp]
  · rw [TextRange.stop_new, Nat.max_eq_right hle, hq]
  · rintro _ _ ⟨rfl, rfl⟩
    refine ⟨?_, rfl⟩
    rw [Document.typedRange, TextRange.start_new, Nat.min_eq_left hle, String.length_toList]
    rfl

/-! ## Emptying a mark -/

/-- **A mark with at least two characters is emptied** down to placeholders. -/
theorem rearranges_emptyMark {s : List Char} (hpieces : L.pieces flow = A ++ mark id s :: B)
    (hlength : 2 ≤ s.length) :
    Rearranges L (emptyMark id (.new flow (width A) (width A + s.length))) fun cursor L' =>
      cursor = some (.collapsed flow (width A + 1)) ∧
        L' = L.set flow (A ++ mark id placeholders.toList :: B) := by
  obtain ⟨first, middle, last, rfl⟩ : ∃ first middle last, s = first :: (middle ++ [last]) := by
    match s, hlength with
    | first :: second :: rest, _ =>
      refine ⟨first, (second :: rest).dropLast, (second :: rest).getLast (by simp), ?_⟩
      rw [List.dropLast_append_getLast]
  have hplaceholders : placeholders.toList = [placeholder, placeholder] := String.toList_ofList
  unfold emptyMark
  simp only [TextRange.flow_new, TextRange.start_new, TextRange.stop_new, List.length_cons,
    List.length_append, List.length_nil]
  refine (rearranges_replaceIn (u := [first]) (x := middle) (v := [last]) _ hpieces ?_ ?_ ?_
    (Or.inr ⟨by simp, by simp⟩)).bind ?_
  · simp
  · simp
  · simp; omega
  rintro - _ ⟨-, rfl⟩
  refine (rearranges_replaceIn (u := []) (x := [first, 'x'])
    (v := [placeholder, 'y', placeholder, 'z', last]) "" Arrangement.pieces_set ?_ ?_ ?_
    (Or.inl rfl)).bind ?_
  · simp
  · simp
  · simp
  rintro - _ ⟨-, rfl⟩
  refine (rearranges_replaceIn (u := [placeholder, 'y', placeholder]) (x := ['z', last]) (v := [])
    "" Arrangement.pieces_set ?_ ?_ ?_ (Or.inl rfl)).bind ?_
  · simp
  · simp
  · simp
  rintro - _ ⟨-, rfl⟩
  refine (rearranges_replaceIn (u := [placeholder]) (x := ['y']) (v := [placeholder]) ""
    Arrangement.pieces_set ?_ ?_ ?_ (Or.inl rfl)).bind ?_
  · simp
  · simp
  · simp
  rintro - _ ⟨-, rfl⟩
  refine (rearranges_groupRange Arrangement.pieces_set).bind ?_
  rintro _ _ ⟨rfl, rfl⟩
  refine (rearranges_text_mark Arrangement.pieces_set).bind ?_
  rintro _ _ ⟨rfl, rfl⟩
  rw [if_pos (by rfl)]
  exact .pure ⟨by simp, by simp [hplaceholders]⟩

/-- **A mark is prepared** to be written into: it is emptied, or created anew. -/
theorem rearranges_prepareMark {s : List Char} (hname : MarkedText.isCitation id = true)
    (hpieces : L.pieces flow = A ++ mark id s :: B) (hopen : EndsOpen A) :
    Rearranges L (prepareMark id) fun cursor L' =>
      cursor = (if s.length < 2 then none else some (.collapsed flow (width A + 1))) ∧
        L' = L.set flow (A ++ mark id placeholders.toList :: B) := by
  unfold prepareMark
  refine (rearranges_groupRange hpieces).bind ?_
  rintro _ _ ⟨rfl, rfl⟩
  have hwidth : (TextRange.new flow (width A) (width A + s.length)).length = s.length := by
    simp [TextRange.length]
  by_cases hshort : s.length < 2
  · rw [if_pos (by rw [hwidth]; exact hshort)]
    refine (rearranges_replaceIn (u := []) (x := s) (v := []) "" hpieces ?_ ?_ ?_
      (Or.inl rfl)).bind ?_
    · simp
    · simp
    · simp
    rintro - _ ⟨-, rfl⟩
    refine (rearranges_removeMark Arrangement.pieces_set).bind ?_
    rintro - _ rfl
    refine (rearranges_placeMark (A := A) (B := B) hname ?_ ?_ hopen false).bind ?_
    · simp [TextRange.startPoint]
    · simp [TextRange.startPoint]
    rintro - _ ⟨-, rfl, -⟩
    exact .pure ⟨by rw [if_pos hshort], by simp [TextRange.startPoint]⟩
  · rw [if_neg (by rw [hwidth]; exact hshort), if_neg hshort]
    exact rearranges_emptyMark hpieces (by omega)

/-- The cursor for writing into a mark is between its placeholders. -/
theorem rearranges_fillCursor {s : List Char} (hname : MarkedText.isCitation id = true)
    (hpieces : L.pieces flow = A ++ mark id s :: B) (hopen : EndsOpen A) :
    Rearranges L (fillCursor id) fun cursor L' =>
      cursor = .collapsed flow (width A + 1) ∧
        L' = L.set flow (A ++ mark id placeholders.toList :: B) := by
  have hopened : ¬ placeholders.toList.length < 2 := by decide
  refine (rearranges_prepareMark hname hpieces hopen).bind ?_
  rintro _ _ ⟨rfl, rfl⟩
  by_cases hshort : s.length < 2
  · -- the mark is created anew, and emptied in the second try
    rw [if_pos hshort]
    refine (rearranges_prepareMark hname Arrangement.pieces_set hopen).bind ?_
    rintro _ _ ⟨rfl, rfl⟩
    rw [if_neg hopened]
    exact .pure ⟨rfl, by simp⟩
  · rw [if_neg hshort]
    exact .pure ⟨rfl, rfl⟩

/-! ## Filling a mark -/

theorem keeps_applyFormat_described (r : TextRange) (format : TextFormat) :
    Keeps (described L) (applyFormat r format) :=
  (rearranges_modifyCells r (f := Cell.addFormat format) fun _ => rfl).keeps

/-- Markup is written between the ends of a mark. -/
theorem rearranges_writeMarkup {u v : List Char} (hpieces : L.pieces flow = A ++ mark id (u ++ v) :: B)
    (hu : u ≠ []) (hv : v ≠ []) (markup : String) :
    Rearranges L (writeMarkup (.collapsed flow (width A + u.length)) markup) fun _ L' =>
      ∃ s, L' = L.set flow (A ++ mark id (u ++ s ++ v) :: B) := by
  unfold writeMarkup
  simp only
  refine (rearranges_replace_inside (r := .collapsed flow (width A + u.length)) _
    (show Arrangement.pieces _ flow = A ++ mark id (u ++ [] ++ v) :: B by simpa using hpieces)
    rfl rfl (Or.inr ⟨hu, hv⟩)).bind ?_
  rintro written _ ⟨-, rfl⟩
  refine (Rearranges.of_keeps ?_).weaken fun _ _ h => ⟨_, h⟩
  split
  · exact .pure _
  · exact (rearranges_modifyCells written (f := Cell.clearFormat) fun _ => rfl).keeps.bind fun _ =>
      (keeps_formatRuns keeps_applyFormat_described _ _ _).bind fun _ => .pure _

/-- Placeholders around what was written are deleted. -/
theorem rearranges_cleanFillCursor {s : List Char} (hpieces : L.pieces flow = A ++ mark id s :: B)
    (removeIfEmpty : Bool) :
    Rearranges L (cleanFillCursor id removeIfEmpty) fun _ L' =>
      ∃ s', L' = L.set flow (A ++ mark id s' :: B) := by
  unfold cleanFillCursor
  have hstart {s : List Char} (hs : s ≠ []) (c : Prop) [Decidable c] :
      Rearranges (L.set flow (A ++ mark id s :: B))
        (if c then do
          let _ ← replace (.new flow (width A) (width A + 1)) ""
        else return)
        fun _ L' => ∃ s', L' = L.set flow (A ++ mark id s' :: B) := by
    obtain ⟨first, rest, rfl⟩ := List.exists_cons_of_ne_nil hs
    split
    · refine (rearranges_replaceIn (u := []) (x := [first]) (v := rest) ""
        Arrangement.pieces_set ?_ ?_ ?_ (Or.inl rfl)).bind ?_
      · simp
      · simp
      · simp
      rintro - _ ⟨-, rfl⟩
      exact .pure ⟨_, Arrangement.set_set⟩
    · exact .pure ⟨_, rfl⟩
  refine (rearranges_groupRange hpieces).bind ?_
  rintro _ _ ⟨rfl, rfl⟩
  refine (rearranges_text_mark hpieces).bind ?_
  rintro _ _ ⟨rfl, rfl⟩
  simp only [String.toList_ofList, TextRange.flow_new, TextRange.start_new, TextRange.stop_new,
    Nat.min_eq_left (Nat.le_add_right _ _), Nat.max_eq_right (Nat.le_add_right _ _)]
  split
  · exact .throw _
  · next hends =>
    have hlength : 2 ≤ s.length := by
      simp only [not_or] at hends
      omega
    have hs : s = s.dropLast ++ [s.getLast (by rintro rfl; simp at hlength)] :=
      (List.dropLast_append_getLast _).symm
    split
    · refine (rearranges_replaceIn (u := s.dropLast) (v := []) "" hpieces (by simpa using hs) ?_ ?_
        (Or.inl rfl)).bind ?_
      · simp; omega
      · simp; omega
      rintro - _ ⟨-, rfl⟩
      refine hstart ?_ _
      rw [String.toList_empty, List.append_nil, List.append_nil]
      exact List.ne_nil_of_length_pos (by rw [List.length_dropLast]; omega)
    · have hkept := hstart (s := s) (by rintro rfl; simp at hlength)
      rw [← hpieces, Arrangement.set_pieces] at hkept
      exact hkept _

/-- **A marker is written** into its mark, and nothing changes around it. -/
theorem rearranges_writeMarker {s : List Char} (hname : MarkedText.isCitation id = true)
    (hpieces : L.pieces flow = A ++ mark id s :: B) (hopen : EndsOpen A) (kind : CitationKind)
    (marker : String) (style : Style) :
    Rearranges L (writeMarker id kind marker style) fun _ L' =>
      ∃ s', L' = L.set flow (A ++ mark id s' :: B) := by
  unfold writeMarker
  refine (rearranges_fillCursor hname hpieces hopen).bind ?_
  rintro _ _ ⟨rfl, rfl⟩
  refine (rearranges_writeMarkup (show Arrangement.pieces _ flow =
      A ++ mark id ([placeholder] ++ [placeholder]) :: B by simp [placeholders])
    (by simp) (by simp) marker).bind ?_
  rintro written _ ⟨inside, rfl⟩
  rw [Arrangement.set_set]
  have hclean : Rearranges (L.set flow (A ++ mark id ([placeholder] ++ inside ++ [placeholder]) :: B))
      (cleanFillCursor id (kind = .invisible))
      fun _ L' => ∃ s', L' = L.set flow (A ++ mark id s' :: B) := by
    refine (rearranges_cleanFillCursor Arrangement.pieces_set _).weaken ?_
    rintro - _ ⟨s', rfl⟩
    exact ⟨s', Arrangement.set_set⟩
  generalize L.set flow (A ++ mark id ([placeholder] ++ inside ++ [placeholder]) :: B) = M at hclean
  have hitalic : Rearranges M
      (do
        if style.italicEtAl then italicize written style.etAlString
        cleanFillCursor id (kind = .invisible))
      fun _ L' => ∃ s', L' = L.set flow (A ++ mark id s' :: B) := by
    simp only
    split
    · refine (Rearranges.of_keeps (keeps_italicize keeps_applyFormat_described _ _)).bind ?_
      rintro - _ rfl
      exact hclean
    · exact hclean
  simp only
  split
  · split
    · refine (rearranges_setCharacterStyle _ _).bind ?_
      rintro - _ rfl
      exact hitalic
    · exact hitalic
  · exact hclean

end DocCite.DocumentM

/-! ## Refreshing a document without a bibliography -/

namespace DocCite

open Passage

/-- An outline with other texts in the marks of its citations. -/
def Outline.redraw (inside : Passage → List Char) (o : Outline) : Outline where
  lead := o.lead
  passages := o.passages.map fun p => { p with inside := inside p }

/-- Another text in one mark is other texts in the marks that have its name. -/
theorem Outline.put_redraw {O : Flow → Outline} (hO : Distinct O) {inside : Passage → List Char}
    {flow : Flow} {before behind : List Passage} {p : Passage}
    (hpassages : (O flow).passages = before ++ p :: behind) (hnodup : (before ++ p :: behind).Nodup)
    (s : List Char) :
    put (fun flow => (O flow).redraw inside) flow
        (before.map (fun q => { q with inside := inside q }) ++ [{ p with inside := s }] ++
          behind.map fun q => { q with inside := inside q }) =
      fun flow => (O flow).redraw fun q => if q.group.id = p.group.id then s else inside q := by
  have hp : p ∈ (O flow).passages := by
    rw [hpassages]
    simp
  have hothers {part : List Passage} (hpart : ∀ q ∈ part, q.group.id ≠ p.group.id) :
      (part.map fun q => { q with inside := inside q }) = part.map fun q =>
        { q with inside := if q.group.id = p.group.id then s else inside q } := by
    refine List.map_congr_left fun q hq => ?_
    rw [if_neg (hpart q hq)]
  funext flow'
  by_cases hflow : flow' = flow
  · subst hflow
    obtain ⟨-, hrest, hapart⟩ := List.nodup_append.mp hnodup
    have hbefore : ∀ q ∈ before, q.group.id ≠ p.group.id := by
      intro q hq hid
      have hq' : q ∈ (O flow').passages := hpassages ▸ List.mem_append_left _ hq
      exact hapart q hq p List.mem_cons_self (hO flow' flow' q hq' p hp hid).2
    have hbehind : ∀ q ∈ behind, q.group.id ≠ p.group.id := by
      intro q hq hid
      have hq' : q ∈ (O flow').passages :=
        hpassages ▸ List.mem_append_right _ (List.mem_cons_of_mem _ hq)
      exact (List.nodup_cons.mp hrest).1 ((hO flow' flow' q hq' p hp hid).2 ▸ hq)
    rw [put, Function.update_self, redraw, redraw, hpassages, List.map_append, List.map_cons,
      hothers hbefore, hothers hbehind]
    simp
  · rw [put_of_ne hflow, redraw, redraw]
    congr 1
    exact hothers fun q hq hid => hflow (hO flow' flow q hq p hp hid).1

namespace DocumentM

variable {L : Arrangement} {O : Flow → Outline}

/-- Writing the marker of a group changes the text of its citation. -/
theorem rearranges_writeMarker_redraw {inside : Passage → List Char} (hO : Outline.Distinct O)
    (h : L.Follows fun flow => (O flow).redraw inside) {flow : Flow} {p : Passage}
    (hp : p ∈ (O flow).passages) (kind : CitationKind) (marker : String) (style : Style) :
    Rearranges L (writeMarker p.group.id kind marker style) fun _ L' =>
      ∃ inside', L'.Follows fun flow => (O flow).redraw inside' := by
  refine .of_described fun d hL => ?_
  obtain ⟨before, behind, hpassages⟩ := List.append_of_mem hp
  let redrawn (q : Passage) : Passage := { q with inside := inside q }
  have hredrawn : ((O flow).redraw inside).passages =
      before.map redrawn ++ [redrawn p] ++ behind.map redrawn := by
    simp [Outline.redraw, hpassages, redrawn]
  have hmem : redrawn p ∈ ((O flow).redraw inside).passages := by
    rw [hredrawn]
    simp
  have hgroup : L.group? p.group.id = some p.group := h.group_eq flow (redrawn p) hmem
  have hnodup : (before ++ p :: behind).Nodup := by
    rw [← hpassages]
    exact (h.nodup_passages hL flow).of_map
  obtain ⟨A, hA, hopen, hpieces⟩ := h.exists_around hredrawn (List.cons_ne_nil _ _)
  have hmark : L.pieces flow = A ++ .mark p.group.id (inside p) ::
      (p.after.map .letter ++ allPieces (behind.map redrawn)) := by
    rw [hpieces]
    simp [redrawn]
  refine (rearranges_writeMarker (Arrangement.id_of_group? hgroup).2 hmark hopen kind marker
    style).weaken ?_
  rintro - _ ⟨s, rfl⟩
  refine ⟨fun q => if q.group.id = p.group.id then s else inside q, ?_⟩
  rw [← Outline.put_redraw hO hpassages hnodup s]
  refine h.put hL hredrawn ?_ (fun _ _ => rfl) ?_ ?_ ?_
  · simp [hA, Outline.pieces, Outline.redraw, redrawn]
  · intro q hq flow' p' hp' hid
    rw [List.mem_singleton.mp hq] at hid
    obtain ⟨hflow, heq⟩ := h.distinct hL flow' flow p' hp' (redrawn p) hmem hid.symm
    exact ⟨hflow, List.mem_singleton.mpr heq⟩
  · exact List.forall_mem_singleton.mpr hgroup
  · have hspaced := h.spaced flow
    rw [hredrawn] at hspaced
    have hone (q : Passage) : Spaced ([] ++ [q]) := List.isChain_singleton q
    have hthis : Spaced (before.map redrawn ++ ([] ++ [redrawn p]) ++ behind.map redrawn) :=
      hspaced
    exact hthis.exchange (hone _) rfl

/-- Writing the markers of groups changes the texts of citations. -/
theorem rearranges_writeMarkers {inside : Passage → List Char} (hO : Outline.Distinct O)
    (h : L.Follows fun flow => (O flow).redraw inside) {gs : CitationGroups}
    (hgs : ∀ g ∈ gs.groups, ∃ flow, ∃ p ∈ (O flow).passages, p.group.id = g.id)
    (produced : CitationMarkers) (style : Style) :
    Rearranges L (writeMarkers gs produced style) fun _ L' =>
      ∃ inside', L'.Follows fun flow => (O flow).redraw inside' := by
  unfold writeMarkers
  refine (Rearranges.of_keeps keeps_hasBibliography).bind ?_
  rintro checked L rfl
  refine Rearranges.forM (I := fun L => ∃ inside, L.Follows fun flow => (O flow).redraw inside)
    (fun g hg L hL => ?_) ⟨inside, h⟩
  obtain ⟨inside, hL⟩ := hL
  obtain ⟨flow, p, hp, hid⟩ := hgs g hg
  refine Rearranges.bind (hid ▸ rearranges_writeMarker_redraw hO hL hp g.kind _ style) ?_
  rintro - L' hL'
  refine (Rearranges.of_keeps ?_).weaken fun _ _ hsame => hsame ▸ hL'
  split
  · refine keeps_hasBibliography.bind fun there => ?_
    cases there with
    | false => exact .throw trivial
    | true => exact .pure _
  · exact .pure _

/-- The contract that there is no bibliography. -/
def withoutBibliography : Contract where
  Holds d := d.bookmarks.get? MarkName.bibliographyBookmark = none
  Fails _ _ := True
  holds_of_step h hd := h.bookmarks ▸ hd
  fails_of_same _ _ := trivial
  fails_of_internal _ _ := trivial

/-- Without a bibliography none is planned to be written, if only one that is there is to be. -/
theorem triple_planRefresh_ifPresent (databases : List Database) (style : Style)
    (preferences : Preferences) :
    Triple withoutBibliography.Holds (planRefresh databases style preferences .ifPresent)
      (fun plan _ => plan.rebuilds = false) fun _ _ => True := by
  have hload : Keeps withoutBibliography loadGroups := keeps_loadGroups
  refine Triple.bind hload fun loaded => ?_
  have hranges : Keeps withoutBibliography (groupRanges loaded) := keeps_groupRanges loaded
  refine Triple.bind hranges fun ranges => ?_
  have hoverlaps : Keeps withoutBibliography (checkOverlaps ranges preferences) :=
    keeps_checkOverlaps ranges preferences fun _ _ _ => trivial
  refine Triple.bind hoverlaps fun _ => ?_
  have horder : Keeps withoutBibliography (readingOrder ranges) :=
    keeps_readingOrder ranges fun _ _ _ => trivial
  refine Triple.bind horder fun ids => ?_
  have himpose : Keeps withoutBibliography (imposeOrder loaded ids) := keeps_imposeOrder loaded ids
  refine Triple.bind himpose fun ordered => ?_
  have hrebuilds : Triple withoutBibliography.Holds (writesBibliography .ifPresent)
      (fun rebuilds _ => rebuilds = false) fun _ _ => True := by
    have hlook : Triple withoutBibliography.Holds
        (bookmarkRange? MarkName.bibliographyBookmark) (fun r _ => r = none) fun _ _ => True := by
      unfold bookmarkRange? see look
      exact Triple.call (fun _ _ _ hd => hd) (fun _ hd => hd) fun _ _ _ => trivial
    refine Triple.bind hlook fun r => Triple.pure fun d hr => ?_
    rw [hr]
    rfl
  refine Triple.bind hrebuilds fun rebuilds => ?_
  intro d hrebuilds
  subst hrebuilds
  exact (Triple.bind (P := fun _ => True) Triple.trivial fun _ => Triple.pure fun _ _ => rfl) d
    trivial

/-- **A refresh of a document without a bibliography** changes its outlines in the texts of the
citations only. -/
theorem exists_follows_of_refresh {d d' : Document} (hL : L.Describes d) (hO : L.Follows O)
    {databases : List Database} {style : Style} {preferences : Preferences}
    {unresolved : List String}
    (hrun : (refresh databases style preferences .ifPresent).run d = (.ok unresolved, d')) :
    ∃ (L' : Arrangement) (inside : Passage → List Char), L'.Describes d' ∧
      L'.Follows fun flow => (O flow).redraw inside := by
  obtain ⟨plan, d₁, hplan, hrun⟩ := run_bind_eq_ok_iff.mp hrun
  obtain ⟨u, d₂, hwrite, hpure⟩ := run_bind_eq_ok_iff.mp hrun
  cases hpure
  have hd := hL.wellFormed
  obtain ⟨before, ordered, -, hbefore, -, hlabels, hproduce, -, -⟩ :=
    exists_ordered_of_planRefresh hd hplan
  have hsame := ((triple_planRefresh d databases style preferences .ifPresent).of_ok
    (SameDocument.refl d) hplan).2
  have hrebuilds := (triple_planRefresh_ifPresent databases style preferences).of_ok
    hL.noBibliography hplan
  have hgroups : AreGroupsOf d plan.groups.groups := by
    refine areGroupsOf_of_labels hd hbefore ?_
    rw [show plan.groups = (ordered.produce databases style).1 from congrArg Prod.fst hproduce,
      CitationGroups.labels_produce, hlabels]
  have hthere : ∀ g ∈ plan.groups.groups, ∃ flow, ∃ p ∈ (O flow).passages, p.group.id = g.id := by
    intro g hg
    obtain ⟨hmark, hcitation⟩ := hgroups.marks g hg
    obtain ⟨m, hm, hname⟩ := List.mem_map.mp hmark
    have hin : (g.id, m.2) ∈ L.marksIn m.2.flow := (hL.mem_marksIn g.id m.2).mpr
      ⟨hcitation, (Keyed.get?_eq_some_iff hd.marks_nodup).mpr (hname ▸ hm)⟩
    refine ⟨m.2.flow, hO.mem_names_iff.mp ?_⟩
    rw [← Piece.map_fst_marksFrom m.2.flow 0]
    exact List.mem_map_of_mem (f := Prod.fst) hin
  have hredraw : L.Follows fun flow => (O flow).redraw Passage.inside := by
    simpa [Outline.redraw] using hO
  have hwrites : Rearranges L (writeRefresh plan databases style preferences)
      fun _ L' => ∃ inside, L'.Follows fun flow => (O flow).redraw inside := by
    refine Rearranges.withLockedScreen ?_
    rw [hrebuilds]
    refine (rearranges_writeMarkers (hO.distinct hL) hredraw hthere plan.produced style).bind ?_
    exact fun _ _ h => .pure h
  obtain ⟨L', ⟨inside, hL'⟩, hd'⟩ := hwrites.of_ok (hL.of_same hsame) hwrite
  exact ⟨L', inside, hd', hL'⟩

end DocumentM

end DocCite
