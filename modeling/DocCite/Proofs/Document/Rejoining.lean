import DocCite.Proofs.Document.Splitting

/-!
# Joining what was separated

The space between the parts of a citation is what joining looks for. So where nothing was to be
joined before, the runs that it finds among the parts are those of each citation
(`SplitTo.runs_eq`), and joining puts together what separating took apart (`merge_split`).
-/

namespace DocCite

namespace Passage

variable {p q : Passage} {kind : CitationKind} {pageInfo : Option String} {after : List Letter}
  {keys : List String} {parts : List Passage}

/-- **One passage is as good as another one**: it cites the same, and has the same text behind it. -/
structure Matches (p q : Passage) : Prop where
  kind : q.group.kind = p.group.kind
  keys : q.group.keys = p.group.keys
  pageInfo : q.group.pageInfo = p.group.pageInfo
  after : q.after = p.after

/-- Parts in brackets join. -/
theorem ArePartsOf.isChain_joins (h : ArePartsOf .parenthetical pageInfo after keys parts) :
    parts.IsChain fun q q' => q.joins q' = true := by
  have hkind := h.kind
  have hbetween : ∀ q ∈ parts.dropLast, q.after = Piece.plain [' '] := fun q hq =>
    (h.between q hq).2
  clear h
  induction parts with
  | nil => exact List.IsChain.nil
  | cons q parts ih =>
    cases parts with
    | nil => exact List.isChain_singleton _
    | cons q' parts =>
      rw [List.dropLast_cons_of_ne_nil (List.cons_ne_nil _ _)] at hbetween
      obtain ⟨hspace, hrest⟩ := List.forall_mem_cons.mp hbetween
      obtain ⟨hfirst, hothers⟩ := List.forall_mem_cons.mp hkind
      refine List.isChain_cons_cons.mpr ⟨joins_iff.mpr ⟨⟨hfirst, hothers q' List.mem_cons_self⟩, ?_⟩,
        ih hothers hrest⟩
      have hblank : Text.isBlank ' ' = true := by decide
      rw [gap, hspace, Piece.map_char_plain]
      exact ⟨List.cons_ne_nil _ _, by simp, by simpa using hblank⟩

/-- What a citation of several keys is separated into joins if it is in brackets. -/
theorem IsSplitOf.isChain_joins_of_kind (h : IsSplitOf p parts)
    (hkind : 1 < p.group.keys.length → p.group.kind = .parenthetical) :
    parts.IsChain fun q q' => q.joins q' = true := by
  have hparts := h.toArePartsOf
  by_cases hlong : 1 < p.group.keys.length
  · rw [hkind hlong] at hparts
    exact hparts.isChain_joins
  · rw [← hparts.length_eq] at hlong
    rcases parts with _ | ⟨q, _ | ⟨q', parts⟩⟩
    · exact List.IsChain.nil
    · exact List.isChain_singleton q
    · exact absurd (by simp) hlong

/-- Only the last part has page info. -/
theorem ArePartsOf.pageInfos_eq (h : ArePartsOf kind pageInfo after keys parts) :
    pageInfos parts = pageInfo.toList := by
  have hbetween : ∀ q ∈ parts.dropLast, q.group.pageInfo = none := fun q hq => (h.between q hq).1
  obtain ⟨last, hlast, hinfo, -⟩ := h.last
  obtain ⟨init, rfl⟩ := List.getLast?_eq_some_iff.mp hlast
  rw [List.dropLast_concat] at hbetween
  rw [pageInfos, List.filterMap_append, List.filterMap_eq_nil_iff.mpr hbetween, List.nil_append,
    List.filterMap_cons, hinfo]
  cases pageInfo <;> rfl

/-- **Joining the parts of a citation gives it back.** -/
theorem IsSplitOf.matches_of_isJoinOf (h : IsSplitOf p parts) (hjoin : IsJoinOf parts q)
    (hkind : 1 < p.group.keys.length → p.group.kind = .parenthetical) : Matches p q := by
  have hafter : q.after = p.after := hjoin.afterRun_eq.symm.trans h.afterRun_eq
  by_cases hone : parts.length = 1
  · have hsame := h.alone (h.length_eq.symm.trans hone)
    rw [hjoin.alone hone] at hsame
    have hgroup : q.group = p.group := List.singleton_inj.mp hsame
    exact ⟨by rw [hgroup], by rw [hgroup], by rw [hgroup], hafter⟩
  · have hlong : 1 < p.group.keys.length := by
      have hpos := List.length_pos_iff.mpr h.ne_nil
      rw [← h.length_eq]
      omega
    refine ⟨(hjoin.kind hone).trans (hkind hlong).symm, ?_, ?_, hafter⟩
    · have hkeys := h.keys
      rw [hjoin.keys, List.flatMap_def, hkeys, ← List.flatMap_def, List.flatMap_singleton']
    · rw [hjoin.pageInfo hone, h.pageInfos_eq]
      cases p.group.pageInfo with
      | none => rfl
      | some info => simp

end Passage

namespace Outline

open Passage

variable {O O₁ O₂ : Flow → Outline}

/-- **What is to be joined among parts are the parts of each citation**, if nothing was to be joined
before. -/
theorem SplitTo.runs_eq (h : SplitTo O O₁) {flow : Flow}
    (hkind : ∀ p ∈ (O flow).passages, 1 < p.group.keys.length → p.group.kind = .parenthetical)
    (hapart : (O flow).passages.IsChain fun p q => p.joins q = false) :
    List.Forall₂ IsSplitOf (O flow).passages (runs (O₁ flow).passages) := by
  obtain ⟨parts, hparts, hflatten⟩ := h.passages flow
  have hruns : runs (O₁ flow).passages = parts := by
    rw [runs, List.splitBy_eq_iff]
    refine ⟨hflatten, fun hnil => ?_, fun part hpart => ?_, ?_⟩
    · obtain ⟨p, -, hsplit⟩ := (exists_of_forall₂_of_mem hparts).2 [] hnil
      exact hsplit.ne_nil rfl
    · obtain ⟨p, hp, hsplit⟩ := (exists_of_forall₂_of_mem hparts).2 part hpart
      exact hsplit.isChain_joins_of_kind (hkind p hp)
    · clear hkind hflatten
      generalize (O flow).passages = ps at hparts hapart
      induction hparts with
      | nil => exact List.IsChain.nil
      | cons hsplit hrest ih =>
        cases hrest with
        | nil => exact List.isChain_singleton _
        | cons hsplit' hrest' =>
          obtain ⟨hfalse, hapart⟩ := List.isChain_cons_cons.mp hapart
          refine List.isChain_cons_cons.mpr ⟨⟨hsplit.ne_nil, hsplit'.ne_nil, ?_⟩, ih hapart⟩
          rw [← hfalse]
          exact joins_congr (hsplit.kind _ (List.getLast_mem hsplit.ne_nil))
            hsplit.after_getLast (hsplit'.kind _ (List.head_mem hsplit'.ne_nil))
  exact hruns ▸ hparts

/-- **Outlines match** in what they cite and in the text around. -/
structure Match (O O' : Flow → Outline) : Prop where
  lead : ∀ flow, (O' flow).lead = (O flow).lead
  passages : ∀ flow, List.Forall₂ Matches (O flow).passages (O' flow).passages

/-- **Joining puts together what separating took apart.** -/
theorem SplitTo.match_of_joinedTo (h : SplitTo O O₁) (hjoined : JoinedTo O₁ O₂)
    (hkind : ∀ flow, ∀ p ∈ (O flow).passages,
      1 < p.group.keys.length → p.group.kind = .parenthetical)
    (hapart : ∀ flow, (O flow).passages.IsChain fun p q => p.joins q = false) :
    Match O O₂ where
  lead flow := (hjoined.lead flow).trans (h.lead flow)
  passages flow := by
    have hruns := h.runs_eq (hkind flow) (hapart flow)
    refine forall₂_comp (fun p run q hsplit hjoin => ?_)
      ((List.forall₂_and_left _ _).mpr ⟨hkind flow, hruns⟩) (hjoined.passages flow)
    exact hsplit.2.matches_of_isJoinOf hjoin hsplit.1

/-- What matching passages tell, if a passage tells only what it cites. -/
theorem Match.tells_eq {γ : Type} (h : Match O O₁) {g : CitationGroup → Flow → List γ}
    (hg : ∀ p q flow, Matches p q → g q.group flow = g p.group flow) (flow : Flow)
    (m : Nat → List γ) : tells g flow m (O₁ flow).passages = tells g flow m (O flow).passages :=
  (flatMap_eq_of_forall₂ (fun p q hpq => by rw [hg p q flow hpq, hpq.after]) (h.passages flow)).symm

/-- **Matching outlines tell the same of each citation**: what it cites, and in which flow. -/
theorem Match.alike (h : Match O O₁) :
    Alike (fun g flow => [(g.kind, g.keys, g.pageInfo, flow)]) O O₁ where
  lead := h.lead .body
  tells := h.tells_eq fun p q flow hpq => by rw [hpq.kind, hpq.keys, hpq.pageInfo]
  anchored := by
    rw [anchored_eq_tells, anchored_eq_tells, h.lead, h.tells_eq fun _ _ _ _ => rfl]

end Outline

/-! ## The document -/

/-- What a citation cites, and in which flow. -/
def CitationGroup.cited (c : CitationGroup × TextRange) :
    CitationKind × List String × Option String × Flow :=
  (c.1.kind, c.1.keys, c.1.pageInfo, c.2.flow)

/-- **One document reads like another one**; both have the citations that are read there. -/
structure Document.ReadsLike (d : Document) (before : List (CitationGroup × TextRange))
    (d' : Document) (after : List (CitationGroup × TextRange)) : Prop where
  /-- The same is cited in the body, and in each footnote without an anchor. -/
  cited_readAt : ∀ place, (d'.readAt place after).map CitationGroup.cited =
    (d.readAt place before).map CitationGroup.cited
  /-- The same is cited in all, if at most one footnote without an anchor cites anything. -/
  cited_read : d.AtMostOneLoose →
    after.map CitationGroup.cited = before.map CitationGroup.cited
  outlines : Outline.Match d.outline d'.outline

namespace DocumentM

open Arrangement Outline Passage

variable {d d' d'' : Document}

/-- **Joining undoes separating**, where only citations in brackets have several keys, and none of
them was to be joined before. -/
theorem merge_split {preferences preferences' : Preferences} {databases databases' : List Database}
    {style style' : Style} {unresolved unresolved' : List String}
    {before : List (CitationGroup × TextRange)} (hd : d.Sound) (hsep : d.Separated)
    (hnone : d.bookmarks.get? MarkName.bibliographyBookmark = none)
    (hbefore : (citationsRead.run d.atRest).1 = .ok before)
    (hkind : ∀ c ∈ before, 1 < c.1.keys.length → c.1.kind = .parenthetical)
    (hapart : before.IsChain fun a b => ((joins a b).run d.atRest).1 = .ok false)
    (hsplit : (split preferences databases style).run d = (.ok unresolved, d'))
    (hmerge : (merge preferences' databases' style').run d' = (.ok unresolved', d'')) :
    ∃ after, (citationsRead.run d''.atRest).1 = .ok after ∧ d.ReadsLike before d'' after := by
  have hL := d.describes_arrangement hd.toWellFormed hsep hnone
  have h := d.follows_arrangement hd.toWellFormed hsep hnone
  have hanchored : (anchored d.outline).Nodup := h.anchored_eq hL ▸ hd.anchors_nodup
  have hshow := showAnchors_outline hd hL h
  obtain ⟨loose, hloose, hread⟩ := run_citationsRead_atRest hL h hanchored
  obtain rfl : before = located d d.outline loose := by
    rw [hbefore] at hread
    exact Except.ok.inj hread
  obtain ⟨L₁, hL₁, h₁, hseparated⟩ := exists_splitTo_of_split hL h hsplit
  have hanchored₁ : (anchored d'.outline).Nodup := hseparated.alike.anchored ▸ hanchored
  have hshow₁ := hseparated.showAnchors hshow
  obtain ⟨L₂, hL₂, h₂, hjoined⟩ := exists_joinedTo_of_merge hL₁ h₁ hanchored₁ hshow₁ hmerge
  have hpassages : ∀ flow, ∀ p ∈ (d.outline flow).passages,
      1 < p.group.keys.length → p.group.kind = .parenthetical := by
    intro flow p hp
    have hflow := (h.rangeOf_mem hL hp).2
    exact hkind _ ((h.mem_located_iff hL hloose).mpr
      ⟨p, show p ∈ (d.outline (d.rangeOf p.group.id).flow).passages from hflow.symm ▸ hp, rfl⟩)
  have hreading : (reading d.outline loose).IsChain fun x y => joinsInReading x y = false := by
    have htells := isChain_tells_joins hL.atRest h hloose
    rw [located, List.isChain_map] at hapart
    refine List.isChain_iff_forall_rel_of_append_cons_cons.mpr fun x y before behind heq => ?_
    have htell := (List.isChain_iff_forall_rel_of_append_cons_cons.mp htells heq).run_eq rfl
    have hfalse := List.isChain_iff_forall_rel_of_append_cons_cons.mp hapart heq
    exact Except.ok.inj (htell.symm.trans hfalse)
  have hmatch := hseparated.match_of_joinedTo hjoined hpassages
    (hloose.isChain_of_reading hshow hreading)
  have hanchored₂ : (anchored d''.outline).Nodup := hmatch.alike.anchored ▸ hanchored
  obtain ⟨loose₂, hloose₂, hread₂⟩ := run_citationsRead_atRest hL₂ h₂ hanchored₂
  refine ⟨_, hread₂, fun place => ?_, fun hone => ?_, hmatch⟩
  · have htold := flatMap_readAt_eq hL h hloose hL₂ h₂ hloose₂ hmatch.alike place
    rw [← List.map_eq_flatMap, ← List.map_eq_flatMap] at htold
    exact htold
  · have htold := flatMap_located_eq hL h hloose hL₂ h₂ hloose₂ hmatch.alike hone
    rw [← List.map_eq_flatMap, ← List.map_eq_flatMap] at htold
    exact htold

/-! The citation of two keys comes back with its page. -/

/-- What joining does to the separated citations of the sample. -/
def twoKeysMerge : Except DocumentError (List String) × Document :=
  (merge {} [] Style.numbered).run twoKeysSplit.2

theorem twoKeysMerge_eq : twoKeysMerge = (.ok ["a", "b"], twoKeysMerge.2) := by
  refine eq_ok_of_toOption ?_
  simp only [twoKeysMerge, twoKeysSplit, split, splitAll, merge, joinAll, loadApart, refresh,
    planRefresh, checkOverlaps, TextRange.findOverlaps,
    TextRange.mergeSort_startsBefore, readingOrder, orderByScreen, PlacedItem.inTextOrder,
    PlacedItem.mergeSort_key, sortByScreen_eq]
  decide +kernel

/-- Its citation, where it is read. -/
def twoKeysRead : List (CitationGroup × TextRange) :=
  [(.new "JR_cite_1_a,b" .parenthetical ["a", "b"] (some "p. 4"), .inBody 6 9)]

theorem merge_split_twoKeys :
    ∃ d' d'', (split {} [] Style.numbered).run twoKeysDocument = (.ok ["a", "b"], d') ∧
      (merge {} [] Style.numbered).run d' = (.ok ["a", "b"], d'') ∧
      twoKeysDocument.Sound ∧ twoKeysDocument.Separated ∧
      twoKeysDocument.bookmarks.get? MarkName.bibliographyBookmark = none ∧
      (citationsRead.run twoKeysDocument.atRest).1 = .ok twoKeysRead ∧
      (∀ c ∈ twoKeysRead, 1 < c.1.keys.length → c.1.kind = .parenthetical) ∧
      (twoKeysRead.IsChain fun a b => ((joins a b).run twoKeysDocument.atRest).1 = .ok false) ∧
      ∃ after, (citationsRead.run d''.atRest).1 = .ok after ∧
        twoKeysDocument.ReadsLike twoKeysRead d'' after := by
  have hsep : twoKeysDocument.Separated := by decide +kernel
  have hread : (citationsRead.run twoKeysDocument.atRest).1 = .ok twoKeysRead := by
    simp only [citationsRead, readingOrder, orderByScreen, PlacedItem.inTextOrder,
      PlacedItem.mergeSort_key, sortByScreen_eq]
    decide +kernel
  have hkind : ∀ c ∈ twoKeysRead, 1 < c.1.keys.length → c.1.kind = .parenthetical := by decide
  have hapart : twoKeysRead.IsChain fun a b =>
      ((joins a b).run twoKeysDocument.atRest).1 = .ok false := List.isChain_singleton _
  exact ⟨twoKeysSplit.2, twoKeysMerge.2, twoKeysSplit_eq, twoKeysMerge_eq, sound_twoKeysDocument,
    hsep, rfl, hread, hkind, hapart, merge_split sound_twoKeysDocument hsep rfl hread hkind hapart
      twoKeysSplit_eq twoKeysMerge_eq⟩

/-- The citations of two loose footnotes, where they are read. -/
def looseTwoKeysRead : List (CitationGroup × TextRange) :=
  [(.new "JR_cite_1_a,b" .parenthetical ["a", "b"] none, .new (.footnote 1) 0 3),
    (.new "JR_cite_1_c" .parenthetical ["c"] none, .new (.footnote 2) 0 3)]

/-- **Separating and joining can change the order in which loose footnotes are read**: the mark of
the citation that comes back is a new one. -/
theorem not_cited_read_merge_split :
    looseTwoKeys.Sound ∧ looseTwoKeys.Separated ∧
      looseTwoKeys.bookmarks.get? MarkName.bibliographyBookmark = none ∧
      (citationsRead.run looseTwoKeys.atRest).1 = .ok looseTwoKeysRead ∧
      (∀ c ∈ looseTwoKeysRead, 1 < c.1.keys.length → c.1.kind = .parenthetical) ∧
      (looseTwoKeysRead.IsChain fun a b => ((joins a b).run looseTwoKeys.atRest).1 = .ok false) ∧
      ∃ d' d'', (split {} [] Style.numbered).run looseTwoKeys = (.ok ["c", "a", "b"], d') ∧
        (merge {} [] Style.numbered).run d' = (.ok ["c", "a", "b"], d'') ∧
        readOff? (fun c => [CitationGroup.cited c]) looseTwoKeys =
          some [(.parenthetical, ["a", "b"], none, .footnote 1),
            (.parenthetical, ["c"], none, .footnote 2)] ∧
        readOff? (fun c => [CitationGroup.cited c]) d'' =
          some [(.parenthetical, ["c"], none, .footnote 2),
            (.parenthetical, ["a", "b"], none, .footnote 1)] := by
  have hapart : looseTwoKeysRead.IsChain fun a b =>
      ((joins a b).run looseTwoKeys.atRest).1 = .ok false :=
    List.isChain_pair.mpr (by decide +kernel)
  refine ⟨Document.sound_ofPlain (by decide +kernel), by decide +kernel, rfl, ?_, by decide, hapart,
    ((split {} [] Style.numbered).run looseTwoKeys).2,
    ((merge {} [] Style.numbered).run ((split {} [] Style.numbered).run looseTwoKeys).2).2,
    eq_ok_of_toOption ?_, eq_ok_of_toOption ?_, ?_, ?_⟩
  -- the sorts on the way are exchanged for ones that the kernel computes
  all_goals
    simp only [readOff?, citationsRead, split, splitAll, merge, joinAll, loadApart, refresh,
      planRefresh, checkOverlaps, TextRange.findOverlaps,
      TextRange.mergeSort_startsBefore, readingOrder, orderByScreen, PlacedItem.inTextOrder,
      PlacedItem.mergeSort_key, sortByScreen_eq]
    decide +kernel

end DocumentM

end DocCite
