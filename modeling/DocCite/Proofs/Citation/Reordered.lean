import DocCite.Proofs.Citation.Numbers

/-!
# Citations in another order of the document

Markers are produced twice from the same groups, put into two orders. The citations are then read
in two orders, and the keys first appear in two orders; but a bibliography that is sorted lists them
in one. What is proved here: its keys are the same (`map_key_bibliography`), and where markers show
keys or numbers, so are the numbers and the markers of all groups (`produce_imposeOrder_eq`).
-/

namespace DocCite

namespace CitationGroups

variable {gs gs' : CitationGroups} {databases : List Database} {style : Style}

/-- **Groups that differ in the order of the document only.** -/
structure Reordered (gs gs' : CitationGroups) : Prop where
  groups_eq : gs.groups.map CitationGroup.unplaced = gs'.groups.map CitationGroup.unplaced
  slots_perm : gs.slots.Perm gs'.slots

/-! ## What both orders have in common -/

theorem map_unplaced_imposeOrder {ids : List String} (h : gs.imposeOrder ids = .ok gs') :
    gs'.groups.map CitationGroup.unplaced = gs.groups.map CitationGroup.unplaced := by
  obtain ⟨slots, -, rfl⟩ := exists_slots_of_imposeOrder h
  refine List.ext_getElem? fun i => ?_
  simp only [List.getElem?_map, List.getElem?_mapIdx, Option.map_map]
  rfl

/-- Two orders that groups are put into. -/
theorem Reordered.of_imposeOrder {placed placed' : CitationGroups} {ids ids' : List String}
    (h : gs.imposeOrder ids = .ok placed) (h' : gs.imposeOrder ids' = .ok placed') :
    Reordered placed placed' where
  groups_eq := (map_unplaced_imposeOrder h).trans (map_unplaced_imposeOrder h').symm
  slots_perm := by
    obtain ⟨slots, hperm, rfl⟩ := exists_slots_of_imposeOrder h
    obtain ⟨slots', hperm', rfl⟩ := exists_slots_of_imposeOrder h'
    exact hperm.trans hperm'.symm

namespace Reordered

variable (h : Reordered gs gs')

include h

theorem getElem? (i : Nat) :
    gs.groups[i]?.map CitationGroup.unplaced = gs'.groups[i]?.map CitationGroup.unplaced := by
  rw [← List.getElem?_map, h.groups_eq, List.getElem?_map]

theorem citation? (p : CitationPath) : gs.citation? p = gs'.citation? p := by
  have hcitations (gs : CitationGroups) : gs.citation? p =
      (gs.groups[p.group]?.map CitationGroup.unplaced).bind fun g => g.citations[p.citation]? := by
    rw [CitationGroups.citation?, Option.bind_map]
    rfl
  rw [hcitations gs, hcitations gs', h.getElem?]

/-- The same paths are gone along. -/
theorem paths_perm : gs.paths.Perm gs'.paths := by
  have hpaths (gs : CitationGroups) : gs.paths = gs.slots.flatMap fun i =>
      (gs.groups[i]?.map CitationGroup.unplaced).elim [] fun g =>
        g.localOrder.map fun j => ⟨i, j⟩ := by
    refine List.flatMap_congr fun i _ => ?_
    cases gs.groups[i]? <;> rfl
  rw [hpaths gs, hpaths gs']
  simp only [h.getElem?]
  exact h.slots_perm.flatMap_right _

/-- The same citations are read. -/
theorem reading_perm : gs.reading.Perm gs'.reading := by
  simp only [reading, h.citation?]
  exact h.paths_perm.filterMap _

/-- The same keys appear. -/
theorem firstAppearances_perm : gs.firstAppearances.Perm gs'.firstAppearances := by
  refine (List.perm_ext_iff_of_nodup nodup_firstAppearances nodup_firstAppearances).mpr
    fun key => ?_
  simp only [mem_firstAppearances, h.reading_perm.mem_iff]

theorem mapCitations {f f' : CitationPath → Citation → Citation} (hf : ∀ p c, f p c = f' p c) :
    Reordered (gs.mapCitations f) (gs'.mapCitations f') where
  groups_eq := by
    refine List.ext_getElem? fun i => ?_
    have hgroup := congrArg (Option.map fun g : CitationGroup =>
      { g with citations := g.citations.mapIdx fun j c => f' ⟨i, j⟩ c }) (h.getElem? i)
    simp only [CitationGroups.mapCitations, List.getElem?_map, List.getElem?_mapIdx, Option.map_map,
      hf] at hgroup ⊢
    exact hgroup
  slots_perm := by
    rw [slots_mapCitations, slots_mapCitations]
    exact h.slots_perm

theorem resolve (databases : List Database) :
    Reordered (gs.resolve databases) (gs'.resolve databases) :=
  h.mapCitations fun _ _ => rfl

theorem sortGroups (compare : Citation → Citation → Ordering) :
    Reordered (gs.sortGroups compare) (gs'.sortGroups compare) where
  groups_eq := by
    have hsort (gs : CitationGroups) : (gs.sortGroups compare).groups.map CitationGroup.unplaced =
        (gs.groups.map CitationGroup.unplaced).map (CitationGroup.sortBy compare) := by
      rw [CitationGroups.sortGroups, List.map_map, List.map_map]
      rfl
    rw [hsort, hsort, h.groups_eq]
  slots_perm := by
    have hslots (gs : CitationGroups) : (gs.sortGroups compare).slots = gs.slots := by
      simp [slots, CitationGroups.sortGroups]
    rw [hslots, hslots]
    exact h.slots_perm

/-- Markers that do not show the place of a group are the same. -/
theorem render (style : Style) {marker : CitationGroup → String}
    (hmarker : ∀ g, marker g.unplaced = marker g) :
    gs.render style marker = gs'.render style marker := by
  have hrender (gs : CitationGroups) : gs.render style marker =
      (gs.groups.map CitationGroup.unplaced).map fun g =>
        (g.id, if g.kind = .invisible then "" else Marker.finish style (marker g) g.pageInfo) := by
    rw [CitationGroups.render, List.map_map]
    refine List.map_congr_left fun g _ => ?_
    simp only [Function.comp_apply, hmarker]
    rfl
  rw [hrender gs, hrender gs', h.groups_eq]

end Reordered

/-! ## The sorted bibliography -/

/-- Keys in an order of entries, by what is found for them. -/
def sortKeys (o : EntryOrder) (databases : List Database) (keys : List String) : List String :=
  keys.mergeSort fun a b => o.compareResolved databases (a, Resolution.lookup a databases)
    (b, Resolution.lookup b databases) != .gt

/-- Cited keys are sorted as their keys are. -/
theorem sortCited_map (o : EntryOrder) {f : String → CitedKey} (hkey : ∀ key, (f key).key = key)
    (hfound : ∀ key, (f key).resolution = Resolution.lookup key databases) (keys : List String) :
    sortCited (o.compareCited databases) (keys.map f) = (sortKeys o databases keys).map f := by
  rw [sortCited, sortKeys]
  refine (List.map_mergeSort fun a _ b _ => ?_).symm
  simp only [EntryOrder.compareCited, hkey, hfound]

/-- The first of two keys is listed before the second. -/
def Precedes (o : EntryOrder) (databases : List Database) (a b : String) : Prop :=
  o.compareResolved databases (a, Resolution.lookup a databases)
    (b, Resolution.lookup b databases) = .lt

instance (o : EntryOrder) (databases : List Database) : DecidableRel (Precedes o databases) :=
  fun _ _ => inferInstanceAs (Decidable (_ = _))

theorem pairwise_sortKeys (o : EntryOrder) (databases : List Database) {keys : List String}
    (hnodup : keys.Nodup) : (sortKeys o databases keys).Pairwise (Precedes o databases) := by
  let entry (key : String) : CitedKey :=
    { key, resolution := .lookup key databases, occurrences := [] }
  have hkeys : (keys.map entry).map CitedKey.key = keys := by
    rw [List.map_map]
    exact List.map_id _
  have hcited : (sortCited (o.compareCited databases) (keys.map entry)).Pairwise fun a b =>
      o.compareCited databases a b = .lt := pairwise_sortCited (hkeys.symm ▸ hnodup)
  rw [sortCited_map o (fun _ => rfl) fun _ => rfl, List.pairwise_map] at hcited
  exact hcited

/-- Keys have one order only. -/
theorem eq_of_pairwise_precedes {o : EntryOrder} {keys keys' : List String}
    (h : keys.Pairwise (Precedes o databases)) (h' : keys'.Pairwise (Precedes o databases))
    (hperm : keys.Perm keys') : keys = keys' := by
  refine List.Perm.eq_of_pairwise (fun a b _ _ hab hba => ?_) h h' hperm
  rw [Precedes, EntryOrder.compareResolved_eq] at hab hba
  exact absurd hba (Std.OrientedCmp.not_lt_of_lt hab)

/-- **Sorting keys forgets the order they were in.** -/
theorem sortKeys_eq_of_perm (o : EntryOrder) (databases : List Database) {keys keys' : List String}
    (h : keys.Perm keys') (hnodup : keys.Nodup) :
    sortKeys o databases keys = sortKeys o databases keys' :=
  eq_of_pairwise_precedes (pairwise_sortKeys o databases hnodup)
    (pairwise_sortKeys o databases (h.nodup_iff.mp hnodup))
    ((List.mergeSort_perm _ _).trans (h.trans (List.mergeSort_perm _ _).symm))

/-- The keys of looked-up groups in the order of the bibliography, each with the paths where it is
read. -/
theorem sortCited_citedKeys (o : EntryOrder) (hfound : gs.IsLookedUp databases) :
    sortCited (o.compareCited databases) gs.citedKeys =
      (sortKeys o databases gs.firstAppearances).map
        (citedIn (fun key => Resolution.lookup key databases) gs.reading) := by
  rw [citedKeys_lookedUp hfound]
  exact sortCited_map o (fun _ => rfl) (fun _ => rfl) _

theorem Reordered.sortKeys_eq (h : Reordered gs gs') (o : EntryOrder) (databases : List Database) :
    sortKeys o databases gs.firstAppearances = sortKeys o databases gs'.firstAppearances :=
  sortKeys_eq_of_perm o databases h.firstAppearances_perm nodup_firstAppearances

/-! ## Numbers -/

/-- Entries of one key with one number, cited at the same places. -/
structure CitedAlike (a b : CitedKey) : Prop where
  key_eq : a.key = b.key
  number_eq : a.number = b.number
  occurrences_perm : a.occurrences.Perm b.occurrences

/-- Keys in one order are numbered alike, in whatever order they are read. -/
theorem forall₂_numberFrom {found : String → Resolution}
    {r r' : List (CitationPath × Citation)} (h : r.Perm r') (n : Nat) (keys : List String) :
    List.Forall₂ CitedAlike (numberFrom n (keys.map (citedIn found r)))
      (numberFrom n (keys.map (citedIn found r'))) := by
  induction keys generalizing n with
  | nil => exact .nil
  | cons key keys ih =>
    have hoccurrences : (citedIn found r key).occurrences.Perm (citedIn found r' key).occurrences :=
      (h.filter _).map _
    rw [List.map_cons, List.map_cons, numberFrom, numberFrom]
    -- whether a key has a number depends on what is found for it
    cases hresolved : (found key).isResolved with
    | true =>
      rw [if_pos (by exact hresolved), if_pos (by exact hresolved)]
      exact .cons ⟨rfl, rfl, hoccurrences⟩ (ih (n + 1))
    | false =>
      rw [if_neg (by simp [citedIn, hresolved]), if_neg (by simp [citedIn, hresolved])]
      exact .cons ⟨rfl, rfl, hoccurrences⟩ (ih n)

/-- A citation has the same number in bibliographies with entries alike. -/
theorem number_citedAt? {bibliography bibliography' : List CitedKey}
    (h : List.Forall₂ CitedAlike bibliography bibliography') (p : CitationPath) :
    (citedAt? { gs with bibliography := some bibliography } p).map CitedKey.number =
      (citedAt? { gs' with bibliography := some bibliography' } p).map CitedKey.number := by
  simp only [citedAt?, Option.getD_some]
  induction h with
  | nil => rfl
  | @cons a b l l' hab _ ih =>
    have hcited : a.occurrences.contains p = b.occurrences.contains p := by
      rw [Bool.eq_iff_iff, List.contains_iff_mem, List.contains_iff_mem,
        hab.occurrences_perm.mem_iff]
    rw [List.find?_cons, List.find?_cons, hcited]
    cases b.occurrences.contains p with
    | true => exact congrArg some hab.number_eq
    | false => exact ih

namespace Reordered

variable (h : Reordered gs gs')

include h

theorem distributeNumbers
    (hnumber : ∀ p, (gs.citedAt? p).map CitedKey.number = (gs'.citedAt? p).map CitedKey.number) :
    Reordered gs.distributeNumbers gs'.distributeNumbers := by
  refine h.mapCitations fun p c => ?_
  have hp := hnumber p
  cases hcited : gs.citedAt? p with
  | none =>
    rw [hcited] at hp
    rw [Option.map_eq_none_iff.mp hp.symm]
  | some ck =>
    rw [hcited] at hp
    obtain ⟨ck', hcited', hsame⟩ := Option.map_eq_some_iff.mp hp.symm
    simp only [hcited', hsame]

/-- **Sorted bibliographies are numbered alike**, and so are the citations. -/
theorem numberBy (o : EntryOrder) (hfound : gs.IsLookedUp databases)
    (hfound' : gs'.IsLookedUp databases) :
    List.Forall₂ CitedAlike (numberFrom 1 (sortCited (o.compareCited databases) gs.citedKeys))
        (numberFrom 1 (sortCited (o.compareCited databases) gs'.citedKeys)) ∧
      Reordered (gs.numberBy (o.compareCited databases))
        (gs'.numberBy (o.compareCited databases)) := by
  have halike : List.Forall₂ CitedAlike
      (numberFrom 1 (sortCited (o.compareCited databases) gs.citedKeys))
      (numberFrom 1 (sortCited (o.compareCited databases) gs'.citedKeys)) := by
    rw [sortCited_citedKeys o hfound, sortCited_citedKeys o hfound', h.sortKeys_eq]
    exact forall₂_numberFrom h.reading_perm 1 _
  exact ⟨halike, distributeNumbers ⟨h.groups_eq, h.slots_perm⟩ (number_citedAt? halike)⟩

end Reordered

/-- Which citation is the first of its key is not shown by numbers. -/
theorem render_markFirst (gs : CitationGroups) (style : Style) :
    gs.markFirst.render style (numberMarker style) = gs.render style (numberMarker style) := by
  have hitems (g : CitationGroup) (f : Nat → Citation → Citation)
      (hf : ∀ j c, numericItem (f j c) = numericItem c) :
      numberMarker style { g with citations := g.citations.mapIdx f } = numberMarker style g := by
    have hpresented : (CitationGroup.presented { g with citations := g.citations.mapIdx f }).map
        numericItem = g.presented.map numericItem := by
      simp only [CitationGroup.presented, List.map_filterMap, List.getElem?_mapIdx, Option.map_map]
      refine List.filterMap_congr fun j _ => ?_
      cases g.citations[j]? with
      | none => rfl
      | some c => exact congrArg some (hf j c)
    rw [numberMarker, hpresented, numberMarker]
  refine List.ext_getElem? fun i => ?_
  simp only [render, markFirst, mapCitations, List.getElem?_map, List.getElem?_mapIdx,
    Option.map_map]
  cases gs.groups[i]? with
  | none => rfl
  | some g =>
    refine congrArg (fun marker => some (g.id,
      if g.kind = .invisible then "" else Marker.finish style marker g.pageInfo)) ?_
    exact hitems g _ fun _ _ => rfl

/-! ## Two productions -/

/-- Sorting groups changes the order in which keys first appear, and not the keys. -/
theorem firstAppearances_sortGroups_perm (gs : CitationGroups)
    (compare : Citation → Citation → Ordering) :
    (gs.sortGroups compare).firstAppearances.Perm gs.firstAppearances := by
  have hslots : (gs.sortGroups compare).slots = gs.slots := by
    simp [slots, sortGroups]
  have hpaths : (gs.sortGroups compare).paths.Perm gs.paths := by
    rw [paths, paths, hslots]
    refine List.Perm.flatMap_left _ fun i _ => ?_
    simp only [sortGroups, List.getElem?_map]
    cases gs.groups[i]? with
    | none => exact List.Perm.refl _
    | some g => exact (List.mergeSort_perm _ _).map _
  have hreading : (gs.sortGroups compare).reading.Perm gs.reading := by
    simp only [reading, citation?_sortGroups]
    exact hpaths.filterMap _
  refine (List.perm_ext_iff_of_nodup nodup_firstAppearances nodup_firstAppearances).mpr
    fun key => ?_
  simp only [mem_firstAppearances, hreading.mem_iff]

/-- Keys are listed in the order of entries, unless they are numbered by position. -/
theorem map_key_bibliography_of_sorted (gs : CitationGroups) (databases : List Database)
    (h : style.citationKeyMarkers = true ∨ style.isNumeric = false ∨
      style.isSortByPosition = false) :
    (gs.produce databases style).2.bibliography.map CitedKey.key =
      sortKeys (.ofBibliography style) databases gs.firstAppearances := by
  let o := EntryOrder.ofBibliography style
  have hfirst := firstAppearances_resolve gs databases
  have hsorted : sortKeys o databases
      ((gs.resolve databases).sortByStyle databases style).firstAppearances =
        sortKeys o databases gs.firstAppearances :=
    sortKeys_eq_of_perm o databases (hfirst ▸ firstAppearances_sortGroups_perm _ _)
      nodup_firstAppearances
  have hmap {f : String → CitedKey} (hf : ∀ key, (f key).key = key) (keys : List String) :
      (keys.map f).map CitedKey.key = keys := by
    rw [List.map_map, show CitedKey.key ∘ f = id from funext hf, List.map_id]
  simp only [produce, prepare]
  split_ifs with hkeys hnumeric
  · rw [forKeys, Option.getD_some, bibliographyOrder,
      sortCited_citedKeys o (isLookedUp_sortByStyle gs databases style), hmap fun _ => rfl, hsorted]
  · have hposition : style.isSortByPosition = false :=
      (h.resolve_left hkeys).resolve_left (by simp [hnumeric])
    rw [forNumbers, if_neg (by simp [hposition])]
    change (numberFrom 1 (sortCited (o.compareCited databases)
      (gs.resolve databases).citedKeys)).map CitedKey.key = _
    rw [map_numberFrom (fun _ _ => rfl),
      sortCited_citedKeys o (isLookedUp_resolve gs databases), hmap fun _ => rfl, hfirst]
  · change (sortCited (o.compareCited databases) (assignLetters databases style
      ((gs.resolve databases).sortByStyle databases style).citedKeys)).map CitedKey.key = _
    rw [assignLetters_citedKeys style (isLookedUp_sortByStyle gs databases style),
      sortCited_map o (fun _ => rfl) fun _ => rfl, hmap fun _ => rfl, hsorted]

/-- **A bibliography that is sorted lists its keys in the order of entries**, whatever kind of
markers is produced. -/
theorem map_key_bibliography (gs : CitationGroups) (databases : List Database)
    (hposition : style.isSortByPosition = false) :
    (gs.produce databases style).2.bibliography.map CitedKey.key =
      sortKeys (.ofBibliography style) databases gs.firstAppearances :=
  map_key_bibliography_of_sorted gs databases (.inr (.inr hposition))

namespace Reordered

variable (h : Reordered gs gs')

include h

/-- Markers of keys are the same, and no key has a number. -/
theorem produce_of_keys (databases : List Database) (hkeys : style.citationKeyMarkers = true) :
    (gs.produce databases style).2.bibliography.map (fun ck => (ck.key, ck.number)) =
        (gs'.produce databases style).2.bibliography.map (fun ck => (ck.key, ck.number)) ∧
      (gs.produce databases style).2.markers = (gs'.produce databases style).2.markers := by
  let o := EntryOrder.ofBibliography style
  have hsorted : Reordered ((gs.resolve databases).sortByStyle databases style)
      ((gs'.resolve databases).sortByStyle databases style) := (h.resolve databases).sortGroups _
  have hready (gs : CitationGroups) : gs.prepare databases style =
      (gs.resolve databases).forKeys databases style := by simp [prepare, hkeys]
  have hmarker : markerOf databases style = keyMarker style := by
    funext g
    simp [markerOf, hkeys]
  have hnumbers (gs : CitationGroups) :
      (gs.produce databases style).2.bibliography.map (fun ck => (ck.key, ck.number)) =
        (sortKeys o databases
          ((gs.resolve databases).sortByStyle databases style).firstAppearances).map
            fun key => (key, none) := by
    simp only [produce, hready, forKeys, Option.getD_some, bibliographyOrder]
    rw [sortCited_citedKeys o (isLookedUp_sortByStyle gs databases style), List.map_map]
    rfl
  constructor
  · rw [hnumbers gs, hnumbers gs', hsorted.sortKeys_eq]
  · simp only [produce, hready, hmarker]
    exact render ⟨hsorted.groups_eq, hsorted.slots_perm⟩ style fun _ => rfl

/-- Numbers in the order of the bibliography are the same, and so are markers of numbers. -/
theorem produce_of_numbers (databases : List Database) (hkeys : style.citationKeyMarkers = false)
    (hnumeric : style.isNumeric = true) (hposition : style.isSortByPosition = false) :
    (gs.produce databases style).2.bibliography.map (fun ck => (ck.key, ck.number)) =
        (gs'.produce databases style).2.bibliography.map (fun ck => (ck.key, ck.number)) ∧
      (gs.produce databases style).2.markers = (gs'.produce databases style).2.markers := by
  obtain ⟨halike, hnumbered⟩ := (h.resolve databases).numberBy (.ofBibliography style)
    (isLookedUp_resolve gs databases) (isLookedUp_resolve gs' databases)
  have hready (gs : CitationGroups) : gs.prepare databases style =
      ((gs.resolve databases).numberBy (bibliographyOrder databases style)).markFirst := by
    simp [prepare, forNumbers, hkeys, hnumeric, hposition]
  have hmarker : markerOf databases style = numberMarker style := by
    funext g
    simp [markerOf, hkeys, hnumeric]
  simp only [produce, hready, hmarker, render_markFirst]
  constructor
  · rw [← List.forall₂_eq_eq_eq, List.forall₂_map_left_iff, List.forall₂_map_right_iff]
    exact halike.imp fun a b hab => Prod.ext hab.key_eq hab.number_eq
  · exact hnumbered.render style fun _ => rfl

end Reordered

/-- **A sorted bibliography does not depend on the order of the document.** Groups put into two
orders get bibliographies with the same keys in the same order; where markers show keys or numbers,
every key has the same number and every group the same marker. -/
theorem produce_imposeOrder_eq {placed placed' : CitationGroups} {ids ids' : List String}
    (h : gs.imposeOrder ids = .ok placed) (h' : gs.imposeOrder ids' = .ok placed')
    (databases : List Database) (hposition : style.isSortByPosition = false) :
    (placed.produce databases style).2.bibliography.map CitedKey.key =
        (placed'.produce databases style).2.bibliography.map CitedKey.key ∧
      (style.citationKeyMarkers = true ∨ style.isNumeric = true →
        (placed.produce databases style).2.bibliography.map (fun ck => (ck.key, ck.number)) =
            (placed'.produce databases style).2.bibliography.map (fun ck => (ck.key, ck.number)) ∧
          (placed.produce databases style).2.markers =
            (placed'.produce databases style).2.markers) := by
  have hreordered : Reordered placed placed' := .of_imposeOrder h h'
  refine ⟨?_, fun hkind => ?_⟩
  · rw [map_key_bibliography placed databases hposition,
      map_key_bibliography placed' databases hposition, hreordered.sortKeys_eq]
  · cases hkeys : style.citationKeyMarkers with
    | true => exact hreordered.produce_of_keys databases hkeys
    | false =>
      have hnumeric : style.isNumeric = true := hkind.resolve_left (by simp [hkeys])
      exact hreordered.produce_of_numbers databases hkeys hnumeric hposition

/-- A style of numbers that follow the order of entries. -/
def sortedNumericStyle : Style :=
  { Style.blank with
    properties := Style.blank.properties.put "IsNumberEntries" (.bool true) }

theorem produce_imposeOrder_eq_sample :
    sampleGroups.imposeOrder ["first", "second"] = .ok (sampleGroups.placedAt [0, 1]) ∧
      sampleGroups.imposeOrder ["second", "first"] = .ok (sampleGroups.placedAt [1, 0]) ∧
      sortedNumericStyle.isSortByPosition = false ∧ sortedNumericStyle.isNumeric = true ∧
      ((sampleGroups.placedAt [0, 1]).produce [sampleSources] sortedNumericStyle).2.markers =
        ((sampleGroups.placedAt [1, 0]).produce [sampleSources] sortedNumericStyle).2.markers := by
  have hfirst : sampleGroups.imposeOrder ["first", "second"] =
      .ok (sampleGroups.placedAt [0, 1]) := by decide +kernel
  have hsecond : sampleGroups.imposeOrder ["second", "first"] =
      .ok (sampleGroups.placedAt [1, 0]) := by decide +kernel
  have hposition : sortedNumericStyle.isSortByPosition = false := by decide
  have hnumeric : sortedNumericStyle.isNumeric = true := by decide
  obtain ⟨-, hsame⟩ := produce_imposeOrder_eq hfirst hsecond [sampleSources] hposition
  exact ⟨hfirst, hsecond, hposition, hnumeric, (hsame (Or.inr hnumeric)).2⟩

end CitationGroups

end DocCite
