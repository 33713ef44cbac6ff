import DocCite.Proofs.Document.Merging
import DocCite.Proofs.Document.Separating

/-!
# What separating the citations of a document does

In a sound document with separate citations and no bibliography, separating loses nothing
(`split_separates`): every citation has one key then, the same keys are read at every place, with
the same kinds, and around the citations one space has come between the parts of each. As with
joining, the order in all is certain if at most one footnote without an anchor has citations.
-/

namespace DocCite

/-- The keys of a group, each with the kind of the group. -/
def CitationGroup.keysOfKind (g : CitationGroup) : List (String × CitationKind) :=
  g.keys.map fun key => (key, g.kind)

/-- **One document is another one with its citations separated**; both have the citations that are
read there. -/
structure Document.IsSplit (d : Document) (before : List (CitationGroup × TextRange)) (d' : Document)
    (after : List (CitationGroup × TextRange)) : Prop where
  /-- The same keys are read in the body, and in each footnote without an anchor. -/
  keys_readAt : ∀ place, (d'.readAt place after).flatMap (fun c => c.1.keysOfKind) =
    (d.readAt place before).flatMap fun c => c.1.keysOfKind
  /-- The same keys are read in all, if at most one footnote without an anchor has any. -/
  keys_read : d.AtMostOneLoose →
    after.flatMap (fun c => c.1.keysOfKind) = before.flatMap fun c => c.1.keysOfKind
  one_key : ∀ c ∈ after, c.1.keys.length = 1
  kept : ∀ c ∈ before, c.1.keys.length = 1 → ∃ c' ∈ after, c'.1 = c.1 ∧ c'.2.flow = c.2.flow
  separated : Outline.SplitTo d.outline d'.outline

namespace DocumentM

open Arrangement Outline Passage

variable {d d' : Document}

/-- **Separating the citations of a document loses nothing**, and leaves one key to each. -/
theorem split_separates {preferences : Preferences} {databases : List Database} {style : Style}
    {unresolved : List String} (hd : d.Sound) (hsep : d.Separated)
    (hnone : d.bookmarks.get? MarkName.bibliographyBookmark = none)
    (hrun : (split preferences databases style).run d = (.ok unresolved, d')) :
    ∃ before after, (citationsRead.run d.atRest).1 = .ok before ∧
      (citationsRead.run d'.atRest).1 = .ok after ∧ d.IsSplit before d' after := by
  have hL := d.describes_arrangement hd.toWellFormed hsep hnone
  have h := d.follows_arrangement hd.toWellFormed hsep hnone
  have hanchored : (anchored d.outline).Nodup := h.anchored_eq hL ▸ hd.anchors_nodup
  obtain ⟨L', hL', h', hsplit⟩ := exists_splitTo_of_split hL h hrun
  have hanchored' : (anchored d'.outline).Nodup := hsplit.alike.anchored ▸ hanchored
  obtain ⟨loose, hloose, hread⟩ := run_citationsRead_atRest hL h hanchored
  obtain ⟨loose', hloose', hread'⟩ := run_citationsRead_atRest hL' h' hanchored'
  refine ⟨_, _, hread, hread', flatMap_readAt_eq hL h hloose hL' h' hloose' hsplit.alike,
    flatMap_located_eq hL h hloose hL' h' hloose' hsplit.alike, ?_, ?_, hsplit⟩
  · intro c hc
    obtain ⟨q, hq, rfl⟩ := (h'.mem_located_iff hL' hloose').mp hc
    obtain ⟨p, -, parts, hparts, hmem⟩ := hsplit.exists_of_mem hq
    exact hparts.length_keys hmem
  · intro c hc hone
    obtain ⟨p, hp, rfl⟩ := (h.mem_located_iff hL hloose).mp hc
    obtain ⟨q, hq, hgroup⟩ := hsplit.exists_of_one_key hp hone
    have hflow := (h'.rangeOf_mem hL' hq).2
    exact ⟨(q.group, d'.rangeOf q.group.id), (h'.mem_located_iff hL' hloose').mpr
      ⟨q, hflow.symm ▸ hq, rfl⟩, hgroup, hflow⟩

/-! A citation of two keys is separated. -/

/-- A text with a citation of two keys, on some page. -/
def twoKeysDocument : Document :=
  { Document.ofPlain "As in (A), oaks grow." [] [("JR_cite_1_a,b", .inBody 6 9)] with
    properties := [("JR_cite_1_a,b", "p. 4")] }

/-- What separating does to it. -/
def twoKeysSplit : Except DocumentError (List String) × Document :=
  (split {} [] Style.numbered).run twoKeysDocument

theorem twoKeysSplit_eq : twoKeysSplit = (.ok ["a", "b"], twoKeysSplit.2) := by
  refine eq_ok_of_toOption ?_
  simp only [twoKeysSplit, split, splitAll, loadApart, refresh, planRefresh, checkOverlaps,
    TextRange.findOverlaps, TextRange.mergeSort_startsBefore, readingOrder,
    orderByScreen, PlacedItem.inTextOrder, PlacedItem.mergeSort_key, sortByScreen_eq]
  decide +kernel

theorem sound_twoKeysDocument : twoKeysDocument.Sound := by
  refine Document.sound_of_text (by decide +kernel) (by decide +kernel) fun cells hcells => ?_
  cases hcells

theorem split_separates_twoKeys :
    ∃ d', (split {} [] Style.numbered).run twoKeysDocument = (.ok ["a", "b"], d') ∧
      twoKeysDocument.Sound ∧ twoKeysDocument.Separated ∧
      twoKeysDocument.bookmarks.get? MarkName.bibliographyBookmark = none ∧
      ∃ before after, (citationsRead.run twoKeysDocument.atRest).1 = .ok before ∧
        (citationsRead.run d'.atRest).1 = .ok after ∧ twoKeysDocument.IsSplit before d' after := by
  have hsep : twoKeysDocument.Separated := by decide +kernel
  exact ⟨twoKeysSplit.2, twoKeysSplit_eq, sound_twoKeysDocument, hsep, rfl,
    split_separates sound_twoKeysDocument hsep rfl twoKeysSplit_eq⟩

/-- Two footnotes without an anchor: one with a citation of two keys, one with a third key. -/
def looseTwoKeys : Document :=
  .ofPlain "Oaks grow." ["(A).", "(C)."]
    [("JR_cite_1_a,b", .new (.footnote 1) 0 3), ("JR_cite_1_c", .new (.footnote 2) 0 3)]

/-- **Separating can change the order in which the keys of loose footnotes are read**: the marks of
the parts are new ones. -/
theorem not_keys_read_split :
    looseTwoKeys.Sound ∧ looseTwoKeys.Separated ∧
      looseTwoKeys.bookmarks.get? MarkName.bibliographyBookmark = none ∧
      ∃ d', (split {} [] Style.numbered).run looseTwoKeys = (.ok ["c", "a", "b"], d') ∧
        readOff? (fun c => c.1.keysOfKind) looseTwoKeys =
          some [("a", .parenthetical), ("b", .parenthetical), ("c", .parenthetical)] ∧
        readOff? (fun c => c.1.keysOfKind) d' =
          some [("c", .parenthetical), ("a", .parenthetical), ("b", .parenthetical)] := by
  refine ⟨Document.sound_ofPlain (by decide +kernel), by decide +kernel, rfl,
    ((split {} [] Style.numbered).run looseTwoKeys).2, eq_ok_of_toOption ?_, ?_, ?_⟩
  all_goals
    simp only [readOff?, citationsRead, split, splitAll, loadApart, refresh, planRefresh,
      checkOverlaps, TextRange.findOverlaps,
      TextRange.mergeSort_startsBefore, readingOrder, orderByScreen, PlacedItem.inTextOrder,
      PlacedItem.mergeSort_key, sortByScreen_eq]
    decide +kernel

end DocumentM

end DocCite
