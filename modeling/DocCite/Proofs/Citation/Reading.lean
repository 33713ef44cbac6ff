import DocCite.Proofs.Citation.Ordering

/-!
# Reading the citations of a document

The citations of a document are read group after group in its order, and within a group as they
are presented. What is proved here: in groups that are well ordered every citation is read exactly
once (`mem_reading_iff`), and the cited keys are the keys in the order in which they are first
read, each with the paths where it is read (`citedKeys_eq`).
-/

namespace DocCite

namespace CitationGroups

/-- **Orders list everything once**: the order of the document every group, and the order of
presentation of a group every citation of it. -/
structure WellOrdered (gs : CitationGroups) : Prop where
  slots_perm : gs.slots.Perm (List.range gs.groups.length)
  localOrder_perm : ∀ g ∈ gs.groups, g.localOrder.Perm (List.range g.citations.length)

/-! ## Groups are well ordered

Building groups and putting them into an order are the only ways to set either order. -/

/-- New groups that each list every citation once are well ordered. -/
theorem wellOrdered_ofList {groups : List CitationGroup}
    (h : ∀ g ∈ groups, g.localOrder.Perm (List.range g.citations.length)) :
    (ofList groups).WellOrdered where
  slots_perm := List.Perm.refl _
  localOrder_perm g hg := by
    obtain ⟨p, hp, rfl⟩ := List.mem_map.mp hg
    rcases Keyed.mem_putAll hp with hnil | hmem
    · simp at hnil
    · obtain ⟨g', hg', rfl⟩ := List.mem_map.mp hmem
      exact h g' hg'

/-- Groups of different names are stored as they are given. -/
theorem groups_ofList {groups : List CitationGroup} (h : (groups.map CitationGroup.id).Nodup) :
    (ofList groups).groups = groups := by
  have hkeys : ((([] : Keyed String CitationGroup) ++ groups.map fun g => (g.id, g)).map
      Prod.fst).Nodup := by
    rwa [List.nil_append, List.map_map]
  rw [ofList, Keyed.putAll_eq_append hkeys, List.nil_append, List.map_map]
  exact List.map_id _

/-- Groups have different names, whatever they are made from. -/
theorem nodup_ids_ofList (groups : List CitationGroup) : (ofList groups).ids.Nodup := by
  have hnodup := Keyed.nodup_map_fst_putAll (m := []) List.nodup_nil
    (groups.map fun g => (g.id, g))
  have hids : (ofList groups).ids =
      (Keyed.putAll [] (groups.map fun g => (g.id, g))).map Prod.fst := by
    rw [ids, ofList, List.map_map]
    refine List.map_congr_left fun p hp => ?_
    rcases Keyed.mem_putAll hp with hnil | hmem
    · cases hnil
    · obtain ⟨g, -, rfl⟩ := List.mem_map.mp hmem
      rfl
  rwa [hids]

/-- **An order that is accepted lists every group once.** -/
theorem WellOrdered.imposeOrder {gs gs' : CitationGroups} (h : gs.WellOrdered)
    {ids : List String} (hgs : gs.imposeOrder ids = .ok gs') : gs'.WellOrdered := by
  obtain ⟨slots, hperm, rfl⟩ := exists_slots_of_imposeOrder hgs
  refine ⟨by simpa [CitationGroups.slots] using hperm, fun g hg => ?_⟩
  obtain ⟨i, hi, rfl⟩ := List.mem_mapIdx.mp hg
  exact h.localOrder_perm gs.groups[i] (List.getElem_mem hi)

/-- The citations with their paths, in the order in which they are read. -/
def reading (gs : CitationGroups) : List (CitationPath × Citation) :=
  gs.paths.filterMap fun p => (gs.citation? p).map fun c => (p, c)

/-- The cited keys in the order in which they are first read. -/
def firstAppearances (gs : CitationGroups) : List String :=
  (gs.reading.map fun r => r.2.key).eraseDups

variable {gs : CitationGroups}

theorem nodup_firstAppearances : gs.firstAppearances.Nodup := nodup_eraseDups _

theorem mem_firstAppearances {key : String} :
    key ∈ gs.firstAppearances ↔ ∃ r ∈ gs.reading, r.2.key = key := by
  rw [firstAppearances, List.mem_eraseDups, List.mem_map]

/-! ## Every citation is read once -/

/-- A citation stands at a path when its group and its place in the group are there. -/
theorem citation?_eq_some_iff {p : CitationPath} {c : Citation} :
    gs.citation? p = some c ↔ ∃ g, gs.groups[p.group]? = some g ∧ g.citations[p.citation]? = some c := by
  simp only [citation?, Option.bind_eq_some_iff]

theorem mem_paths_iff (h : gs.WellOrdered) {p : CitationPath} :
    p ∈ gs.paths ↔ ∃ c, gs.citation? p = some c := by
  simp only [paths, List.mem_flatMap, citation?_eq_some_iff]
  constructor
  · rintro ⟨i, -, hp⟩
    split at hp
    · next g hg =>
      obtain ⟨j, hj, rfl⟩ := List.mem_map.mp hp
      have hlt : j < g.citations.length :=
        List.mem_range.mp ((h.localOrder_perm g (List.mem_of_getElem? hg)).mem_iff.mp hj)
      exact ⟨g.citations[j], g, hg, List.getElem?_eq_getElem hlt⟩
    · simp at hp
  · rintro ⟨c, g, hg, hc⟩
    refine ⟨p.group, h.slots_perm.mem_iff.mpr (List.mem_range.mpr ?_), ?_⟩
    · exact (List.getElem?_eq_some_iff.mp hg).1
    · rw [hg]
      refine List.mem_map.mpr ⟨p.citation, ?_, rfl⟩
      have hlt := (List.getElem?_eq_some_iff.mp hc).1
      exact (h.localOrder_perm g (List.mem_of_getElem? hg)).mem_iff.mpr (List.mem_range.mpr hlt)

/-- **Every citation is read, at its own path.** -/
theorem mem_reading_iff (h : gs.WellOrdered) {p : CitationPath} {c : Citation} :
    (p, c) ∈ gs.reading ↔ gs.citation? p = some c := by
  simp only [reading, List.mem_filterMap, Option.map_eq_some_iff, Prod.mk.injEq]
  constructor
  · rintro ⟨q, -, c', hc', rfl, rfl⟩
    exact hc'
  · intro hc
    exact ⟨p, (mem_paths_iff h).mpr ⟨c, hc⟩, c, hc, rfl, rfl⟩

theorem citation?_of_mem_reading {r : CitationPath × Citation} (h : r ∈ gs.reading) :
    gs.citation? r.1 = some r.2 := by
  obtain ⟨p, -, hp⟩ := List.mem_filterMap.mp h
  obtain ⟨c, hc, rfl⟩ := Option.map_eq_some_iff.mp hp
  exact hc

/-! ## The cited keys -/

/-- A key with the paths at which it is read. -/
def citedIn (found : String → Resolution) (r : List (CitationPath × Citation)) (key : String) :
    CitedKey :=
  { key := key, resolution := found key
    occurrences := (r.filter fun x => x.2.key = key).map Prod.fst }

theorem citedIn_concat_of_ne {found : String → Resolution} {r : List (CitationPath × Citation)}
    {x : CitationPath × Citation} {key : String} (h : x.2.key ≠ key) :
    citedIn found (r ++ [x]) key = citedIn found r key := by
  simp [citedIn, List.filter_append, h]

/-- Adding one more citation to the cited keys of what was read before it. -/
theorem addOccurrence_map_citedIn {found : String → Resolution}
    {r : List (CitationPath × Citation)} {p : CitationPath} {c : Citation}
    (hc : c.resolution = found c.key) {keys : List String} (hnodup : keys.Nodup)
    (hnew : c.key ∉ keys → ∀ x ∈ r, x.2.key ≠ c.key) :
    addOccurrence (keys.map (citedIn found r)) p c =
      (if c.key ∈ keys then keys else keys ++ [c.key]).map (citedIn found (r ++ [(p, c)])) := by
  induction keys with
  | nil =>
    have hnone : r.filter (fun x => x.2.key = c.key) = [] :=
      List.filter_eq_nil_iff.mpr fun x hx => by simpa using hnew (by simp) x hx
    simp [addOccurrence, citedIn, List.filter_append, hnone, hc]
  | cons k keys ih =>
    obtain ⟨hk, hrest⟩ := List.nodup_cons.mp hnodup
    simp only [List.map_cons, addOccurrence]
    by_cases heq : k = c.key
    · subst heq
      have hsame : keys.map (citedIn found (r ++ [(p, c)])) = keys.map (citedIn found r) :=
        List.map_congr_left fun k' hk' => citedIn_concat_of_ne fun h => hk (h ▸ hk')
      simp only [citedIn, if_true, List.mem_cons, true_or, List.map_cons, List.filter_append]
      simpa [citedIn, List.filter_append] using hsame.symm
    · have hkey : (citedIn found r k).key = k := rfl
      have hother : citedIn found (r ++ [(p, c)]) k = citedIn found r k :=
        citedIn_concat_of_ne (Ne.symm heq)
      rw [hkey, if_neg heq, ih hrest fun h => hnew (by simp [h, Ne.symm heq])]
      by_cases hmem : c.key ∈ keys
      · simp [hmem, hother]
      · simp [hmem, Ne.symm heq, hother]

/-- What is read, folded into cited keys. -/
theorem foldl_addOccurrence {found : String → Resolution} {r : List (CitationPath × Citation)}
    (h : ∀ x ∈ r, x.2.resolution = found x.2.key) :
    r.foldl (fun cited x => addOccurrence cited x.1 x.2) [] =
      (r.map fun x => x.2.key).eraseDups.map (citedIn found r) := by
  induction r using List.reverseRecOn with
  | nil => rfl
  | append_singleton r x ih =>
    rw [List.foldl_concat, ih fun y hy => h y (List.mem_append_left _ hy), List.map_append,
      List.map_singleton, eraseDups_concat,
      addOccurrence_map_citedIn (h x (by simp)) (nodup_eraseDups _)]
    · simp only [List.mem_eraseDups]
    · intro hx y hy heq
      exact hx (List.mem_eraseDups.mpr (List.mem_map.mpr ⟨y, hy, heq⟩))

/-- **The cited keys are the keys in the order of their first appearances**, each with the paths
of its citations, when keys determine what was found for them. -/
theorem citedKeys_eq (found : String → Resolution)
    (h : ∀ x ∈ gs.reading, x.2.resolution = found x.2.key) :
    gs.citedKeys = gs.firstAppearances.map (citedIn found gs.reading) := by
  rw [firstAppearances, ← foldl_addOccurrence h, citedKeys, reading, List.foldl_filterMap]
  congr 1
  funext cited p
  cases gs.citation? p <;> rfl

end CitationGroups

end DocCite
