import DocCite.Proofs.Citation.Reordered

/-!
# The order of the bibliography

A style says whether a bibliography lists its keys by position, as they are first cited, or in an
order of entries. Markers of numbers are produced as the style says. Markers of keys and of author
and year sort the bibliography whatever it says: then the keys are listed by position only where
they have been cited in the order of entries already (`followsStyle_produce_iff`).
-/

namespace DocCite.CitationGroups

variable {gs : CitationGroups} {databases : List Database} {style : Style}

/-- **Keys listed as the style says**: by position, as they first appear in the document, or each
of them once in the order of entries. -/
def FollowsStyle (databases : List Database) (style : Style) (gs : CitationGroups)
    (keys : List String) : Prop :=
  if style.isSortByPosition then keys = gs.firstAppearances
  else keys.Perm gs.firstAppearances ∧
    keys.Pairwise (Precedes (.ofBibliography style) databases)

instance (gs : CitationGroups) (keys : List String) :
    Decidable (FollowsStyle databases style gs keys) :=
  inferInstanceAs (Decidable (ite _ _ _))

/-- Sorting leaves the keys alone just when they are sorted. -/
theorem sortKeys_eq_self_iff {o : EntryOrder} {keys : List String} (hnodup : keys.Nodup) :
    sortKeys o databases keys = keys ↔ keys.Pairwise (Precedes o databases) :=
  ⟨fun h => h ▸ pairwise_sortKeys o databases hnodup, fun h =>
    eq_of_pairwise_precedes (pairwise_sortKeys o databases hnodup) h (List.mergeSort_perm _ _)⟩

/-! ## What is read once markers are produced -/

/-- Numbers change nothing about what is read. -/
theorem firstAppearances_forNumbers (gs : CitationGroups) (databases : List Database)
    (style : Style) : (gs.forNumbers databases style).firstAppearances = gs.firstAppearances := by
  have hnumbered (cited : List CitedKey) :
      (gs.numberAs cited).firstAppearances = gs.firstAppearances :=
    firstAppearances_distributeNumbers
  rw [forNumbers, firstAppearances_markFirst]
  split
  · exact hnumbered _
  · exact hnumbered _

/-- Without numbers, citations are read as they are sorted. -/
theorem firstAppearances_prepare_of_sorted (gs : CitationGroups) (databases : List Database)
    (h : style.citationKeyMarkers = true ∨ style.isNumeric = false) :
    (gs.prepare databases style).firstAppearances =
      ((gs.resolve databases).sortByStyle databases style).firstAppearances := by
  simp only [prepare]
  split_ifs with hkeys hnumeric
  · rfl
  · exact absurd hnumeric (by simp [h.resolve_left hkeys])
  · rw [forAuthorYear, firstAppearances_markFirst, firstAppearances_distributeLetters]
    rfl

/-- The keys of groups that have been made ready are those that were cited. -/
theorem firstAppearances_prepare_perm (gs : CitationGroups) (databases : List Database)
    (style : Style) :
    (gs.prepare databases style).firstAppearances.Perm gs.firstAppearances := by
  by_cases h : style.citationKeyMarkers = true ∨ style.isNumeric = false
  · rw [firstAppearances_prepare_of_sorted gs databases h]
    exact (firstAppearances_sortGroups_perm _ _).trans
      (firstAppearances_resolve gs databases ▸ .refl _)
  · rw [not_or, Bool.not_eq_true, Bool.not_eq_false] at h
    simp only [prepare, h.1, h.2, if_true, Bool.false_eq_true, if_false]
    rw [firstAppearances_forNumbers, firstAppearances_resolve]

/-! ## The listed keys -/

/-- **Numbers by position list the keys as they are first read.** -/
theorem map_key_bibliography_of_position (gs : CitationGroups) (databases : List Database)
    (hkeys : style.citationKeyMarkers = false) (hnumeric : style.isNumeric = true)
    (hposition : style.isSortByPosition = true) :
    (gs.produce databases style).2.bibliography.map CitedKey.key =
      (gs.produce databases style).1.firstAppearances := by
  have hready : gs.prepare databases style =
      (gs.resolve databases).forNumbers databases style := by
    simp [prepare, hkeys, hnumeric]
  have hlisted : ((gs.resolve databases).forNumbers databases style).bibliography =
      some (numberFrom 1 (gs.resolve databases).citedKeys) := by
    rw [forNumbers, if_pos hposition]
    rfl
  simp only [produce, hready, hlisted, Option.getD_some, firstAppearances_forNumbers]
  rw [map_numberFrom (fun _ _ => rfl), citedKeys_lookedUp (isLookedUp_resolve gs databases),
    List.map_map]
  exact List.map_id _

/-- All other bibliographies list the keys in the order of entries. -/
theorem map_key_bibliography_eq_sortKeys (gs : CitationGroups) (databases : List Database)
    (h : style.citationKeyMarkers = true ∨ style.isNumeric = false ∨
      style.isSortByPosition = false) :
    (gs.produce databases style).2.bibliography.map CitedKey.key =
      sortKeys (.ofBibliography style) databases (gs.produce databases style).1.firstAppearances :=
  (map_key_bibliography_of_sorted gs databases h).trans
    (sortKeys_eq_of_perm _ _ (firstAppearances_prepare_perm gs databases style).symm
      nodup_firstAppearances)

/-- **When a bibliography follows the style**: always where it is sorted or where markers show
numbers; where markers show something else, a bibliography by position follows it only if the
citations stand in the order of entries. -/
theorem followsStyle_produce_iff (gs : CitationGroups) (databases : List Database)
    (style : Style) :
    FollowsStyle databases style (gs.produce databases style).1
        ((gs.produce databases style).2.bibliography.map CitedKey.key) ↔
      (style.isSortByPosition = true →
        (style.citationKeyMarkers = false ∧ style.isNumeric = true) ∨
          (gs.produce databases style).1.firstAppearances.Pairwise
            (Precedes (.ofBibliography style) databases)) := by
  cases hposition : style.isSortByPosition with
  | false =>
    rw [map_key_bibliography_eq_sortKeys gs databases (.inr (.inr hposition)), FollowsStyle,
      hposition]
    refine iff_of_true ⟨List.mergeSort_perm _ _, ?_⟩ nofun
    exact pairwise_sortKeys _ _ nodup_firstAppearances
  | true =>
    rw [FollowsStyle, hposition, if_pos rfl, imp_iff_right (rfl : true = true)]
    by_cases hnumbers : style.citationKeyMarkers = false ∧ style.isNumeric = true
    · have hlisted := map_key_bibliography_of_position gs databases hnumbers.1 hnumbers.2 hposition
      exact iff_of_true hlisted (.inl hnumbers)
    · have hsorted : style.citationKeyMarkers = true ∨ style.isNumeric = false ∨
          style.isSortByPosition = false := by
        simp only [not_and_or, Bool.not_eq_false, Bool.not_eq_true] at hnumbers
        exact hnumbers.imp_right .inl
      rw [map_key_bibliography_eq_sortKeys gs databases hsorted,
        sortKeys_eq_self_iff nodup_firstAppearances, or_iff_right hnumbers]

/-- A style of author and year with a bibliography by position. -/
def positionStyle : Style :=
  { Style.blank with
    properties := Style.blank.properties.put "IsSortByPosition" (.bool true) }

/-- Two sources, cited against the order of entries. -/
def crossedGroups : CitationGroups :=
  .ofList [.new "first" .parenthetical ["oak"] none, .new "second" .parenthetical ["ash"] none]

theorem not_followsStyle_crossedGroups :
    positionStyle.isSortByPosition = true ∧
      ¬ FollowsStyle [sampleSources] positionStyle
        (crossedGroups.produce [sampleSources] positionStyle).1
        ((crossedGroups.produce [sampleSources] positionStyle).2.bibliography.map
          CitedKey.key) := by
  have hposition : positionStyle.isSortByPosition = true := by decide
  have hnumeric : positionStyle.isNumeric = false := by decide
  refine ⟨hposition, fun h => ?_⟩
  rw [map_key_bibliography_eq_sortKeys crossedGroups [sampleSources] (.inr (.inl hnumeric)),
    FollowsStyle, if_pos hposition, sortKeys_eq_self_iff nodup_firstAppearances, produce,
    firstAppearances_prepare_of_sorted crossedGroups [sampleSources] (.inr hnumeric)] at h
  exact absurd h (by decide +kernel)

end DocCite.CitationGroups
