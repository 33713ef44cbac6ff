import DocCite.Proofs.Document.Evaluating
import DocCite.Proofs.Document.Joining

/-!
# What joining the citations of a document does

In a sound document with separate citations and no bibliography, joining loses nothing and leaves
nothing to be joined (`merge_joins`): the same keys are read at every place, citations that are not
in brackets stay as they are, every run has become one citation, and the text around stays. The
keys are read in the same order in all, too, unless citations are in several footnotes without an
anchor, the order of which is that of their marks (`not_keys_read_merge`).
-/

namespace DocCite

/-- **One document is another one with its citations joined**; both have the citations that are read
there. -/
structure Document.IsMerge (d : Document) (before : List (CitationGroup × TextRange)) (d' : Document)
    (after : List (CitationGroup × TextRange)) : Prop where
  /-- The same keys are read in the body, and in each footnote without an anchor. -/
  keys_readAt : ∀ place, (d'.readAt place after).flatMap (fun c => c.1.keys) =
    (d.readAt place before).flatMap fun c => c.1.keys
  /-- The same keys are read in all, if at most one footnote without an anchor has any. -/
  keys_read : d.AtMostOneLoose →
    after.flatMap (fun c => c.1.keys) = before.flatMap fun c => c.1.keys
  kept : ∀ c ∈ before, c.1.kind ≠ .parenthetical →
    ∃ c' ∈ after, c'.1 = c.1 ∧ c'.2.flow = c.2.flow
  joined : Outline.JoinedTo d.outline d'.outline
  /-- No two citations that are read after each other would be joined. -/
  apart : after.IsChain fun a b => ((DocumentM.joins a b).run d'.atRest).1 = .ok false

namespace DocumentM

open Arrangement Outline Passage

variable {d d' : Document}

/-- The outlines of a sound document show what is anchored in it. -/
theorem showAnchors_outline (hd : d.Sound) {L : Arrangement} (hL : L.Describes d)
    (h : L.Follows d.outline) (flow : Flow) : ShowAnchors (d.outline flow).passages := by
  intro p hp l hl
  refine hd.anchors_char flow l ?_
  rw [h.letters_eq hL]
  exact List.mem_append_right _ (List.mem_flatMap.mpr ⟨p, hp, List.mem_append_right _ hl⟩)

/-- **Joining the citations of a document loses nothing, and leaves nothing to be joined.** -/
theorem merge_joins {preferences : Preferences} {databases : List Database} {style : Style}
    {unresolved : List String} (hd : d.Sound) (hsep : d.Separated)
    (hnone : d.bookmarks.get? MarkName.bibliographyBookmark = none)
    (hrun : (merge preferences databases style).run d = (.ok unresolved, d')) :
    ∃ before after, (citationsRead.run d.atRest).1 = .ok before ∧
      (citationsRead.run d'.atRest).1 = .ok after ∧ d.IsMerge before d' after ∧
      ∀ preferences' joined d'', (joinAll preferences').run d' = (.ok joined, d'') →
        joined = false := by
  have hL := d.describes_arrangement hd.toWellFormed hsep hnone
  have h := d.follows_arrangement hd.toWellFormed hsep hnone
  have hanchored : (anchored d.outline).Nodup := h.anchored_eq hL ▸ hd.anchors_nodup
  have hshow := showAnchors_outline hd hL h
  obtain ⟨L', hL', h', hmerged⟩ := exists_joinedTo_of_merge hL h hanchored hshow hrun
  have halike := hmerged.alike hshow
  have hanchored' : (anchored d'.outline).Nodup := halike.anchored ▸ hanchored
  obtain ⟨loose, hloose, hread⟩ := run_citationsRead_atRest hL h hanchored
  obtain ⟨loose', hloose', hread'⟩ := run_citationsRead_atRest hL' h' hanchored'
  refine ⟨_, _, hread, hread', ⟨flatMap_readAt_eq hL h hloose hL' h' hloose' halike,
    flatMap_located_eq hL h hloose hL' h' hloose' halike, ?_, hmerged, ?_⟩, ?_⟩
  · intro c hc hkind
    obtain ⟨p, hp, rfl⟩ := (h.mem_located_iff hL hloose).mp hc
    rw [← flatten_runs (d.outline _).passages] at hp
    obtain ⟨run, hmem, hp⟩ := List.mem_flatten.mp hp
    obtain ⟨q, hq, hjoin⟩ := (exists_of_forall₂_of_mem (hmerged.passages _)).1 run hmem
    have hflow := (h'.rangeOf_mem hL' hq).2
    refine ⟨(q.group, d'.rangeOf q.group.id), (h'.mem_located_iff hL' hloose').mpr
      ⟨q, hflow.symm ▸ hq, rfl⟩, ?_, hflow⟩
    exact hjoin.group_eq (List.isChain_of_mem_splitBy hmem) hp hkind
  · have htells := isChain_tells_joins hL'.atRest h' hloose'
    have happart := hloose'.isChain_weave (R := fun _ p q => p.joins q = false) hmerged.isChain
    rw [List.isChain_map]
    refine List.isChain_iff_forall_rel_of_append_cons_cons.mpr fun x y before behind heq => ?_
    have htell := List.isChain_iff_forall_rel_of_append_cons_cons.mp htells heq
    have hfalse : joinsInReading x y = false := by
      rw [joinsInReading]
      by_cases hflow : x.1 = y.1
      · rw [List.isChain_iff_forall_rel_of_append_cons_cons.mp happart heq hflow, Bool.and_false]
      · rw [decide_eq_false hflow, Bool.false_and]
    rw [hfalse] at htell
    exact htell.run_eq rfl
  · intro preferences' joined d'' hagain
    rw [Bool.eq_false_iff]
    intro htrue
    obtain ⟨flow, run, hrun, hlong⟩ := (exists_joinedTo_of_joinAll hL' h' hanchored'
      (hmerged.showAnchors hshow) hagain).2 htrue
    exact absurd (length_le_one_of_mem_splitBy (hmerged.isChain flow) hrun) (Nat.not_le.mpr hlong)

/-! Two citations with a space between are joined. -/

/-- A text with two citations. -/
def pairDocument : Document :=
  .ofPlain "As in (A) (B), oaks grow." []
    [("JR_cite_1_a", .inBody 6 9), ("JR_cite_1_b", .inBody 10 13)]

/-- What joining does to it. -/
def pairMerge : Except DocumentError (List String) × Document :=
  (merge {} [] Style.numbered).run pairDocument

theorem pairMerge_eq : pairMerge = (.ok ["a", "b"], pairMerge.2) := by
  refine eq_ok_of_toOption ?_
  simp only [pairMerge, merge, joinAll, loadApart, refresh, planRefresh, checkOverlaps,
    TextRange.findOverlaps, TextRange.mergeSort_startsBefore, readingOrder,
    orderByScreen, PlacedItem.inTextOrder, PlacedItem.mergeSort_key, sortByScreen_eq]
  decide +kernel

theorem merge_joins_pair :
    ∃ d', (merge {} [] Style.numbered).run pairDocument = (.ok ["a", "b"], d') ∧
      pairDocument.Sound ∧ pairDocument.Separated ∧
      pairDocument.bookmarks.get? MarkName.bibliographyBookmark = none ∧
      ∃ before after, (citationsRead.run pairDocument.atRest).1 = .ok before ∧
        (citationsRead.run d'.atRest).1 = .ok after ∧ pairDocument.IsMerge before d' after ∧
        ∀ preferences' joined d'', (joinAll preferences').run d' = (.ok joined, d'') →
          joined = false := by
  have hsound : pairDocument.Sound := Document.sound_ofPlain (by decide +kernel)
  have hsep : pairDocument.Separated := by decide +kernel
  exact ⟨pairMerge.2, pairMerge_eq, hsound, hsep, rfl, merge_joins hsound hsep rfl pairMerge_eq⟩

/-! Footnotes without an anchor are read in the order of their marks, and the mark of joined
citations is a new one. -/

/-- Two footnotes without an anchor: one with two citations, one with a third. -/
def looseNotes : Document :=
  .ofPlain "Oaks grow." ["(A) (B).", "(C)."]
    [("JR_cite_1_a", .new (.footnote 1) 0 3), ("JR_cite_1_b", .new (.footnote 1) 4 7),
      ("JR_cite_1_c", .new (.footnote 2) 0 3)]

/-- What the citations of a document tell as they are read; none if they cannot be read. -/
def readOff? {α : Type} (tell : CitationGroup × TextRange → List α) (d : Document) :
    Option (List α) :=
  (citationsRead.run d.atRest).1.toOption.map fun cs => cs.flatMap tell

/-- **Joining can change the order in which the keys of loose footnotes are read.** -/
theorem not_keys_read_merge :
    looseNotes.Sound ∧ looseNotes.Separated ∧
      looseNotes.bookmarks.get? MarkName.bibliographyBookmark = none ∧
      ∃ d', (merge {} [] Style.numbered).run looseNotes = (.ok ["c", "a", "b"], d') ∧
        readOff? (fun c => c.1.keys) looseNotes = some ["a", "b", "c"] ∧
        readOff? (fun c => c.1.keys) d' = some ["c", "a", "b"] := by
  refine ⟨Document.sound_ofPlain (by decide +kernel), by decide +kernel, rfl,
    ((merge {} [] Style.numbered).run looseNotes).2, eq_ok_of_toOption ?_, ?_, ?_⟩
  all_goals
    simp only [readOff?, citationsRead, merge, joinAll, loadApart, refresh, planRefresh,
      checkOverlaps, TextRange.findOverlaps,
      TextRange.mergeSort_startsBefore, readingOrder, orderByScreen, PlacedItem.inTextOrder,
      PlacedItem.mergeSort_key, sortByScreen_eq]
    decide +kernel

end DocumentM

end DocCite
