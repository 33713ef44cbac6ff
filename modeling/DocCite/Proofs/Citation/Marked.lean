import DocCite.Citation.Markers
import DocCite.Proofs.Citation.Reading
import Mathlib.Tactic.SplitIfs

/-!
# What producing markers leaves alone

Groups keep their names, their kinds and their page info while they are put into an order, looked
up, sorted, numbered and lettered; what changes is how their citations are presented. So every
group has one marker, under its own name (`map_fst_markers_produce`).
-/

namespace DocCite

/-- What a group says of its mark: the name, the kind and the page info. -/
def CitationGroup.label (g : CitationGroup) : String × CitationKind × Option String :=
  (g.id, g.kind, g.pageInfo)

namespace CitationGroups

/-- The labels of the groups as they are stored. -/
def labels (gs : CitationGroups) : List (String × CitationKind × Option String) :=
  gs.groups.map CitationGroup.label

variable {gs gs' : CitationGroups}

/-- Groups changed one by one, by their places, keep what none of the changes touches. -/
theorem map_mapIdx_of_eq {β : Type} {groups : List CitationGroup} {kept : CitationGroup → β}
    {f : Nat → CitationGroup → CitationGroup} (h : ∀ i g, kept (f i g) = kept g) :
    (groups.mapIdx f).map kept = groups.map kept := by
  refine List.ext_getElem? fun i => ?_
  simp only [List.getElem?_map, List.getElem?_mapIdx, Option.map_map]
  cases groups[i]? with
  | none => rfl
  | some g => exact congrArg some (h i g)

theorem labels_mapCitations (f : CitationPath → Citation → Citation) :
    (gs.mapCitations f).labels = gs.labels :=
  map_mapIdx_of_eq fun _ _ => rfl

theorem labels_sortGroups (compare : Citation → Citation → Ordering) :
    (gs.sortGroups compare).labels = gs.labels := by
  simp only [labels, sortGroups, List.map_map]
  rfl

theorem labels_imposeOrder {ids : List String} (h : gs.imposeOrder ids = .ok gs') :
    gs'.labels = gs.labels := by
  obtain ⟨slots, -, rfl⟩ := exists_slots_of_imposeOrder h
  exact map_mapIdx_of_eq fun _ _ => rfl

theorem labels_prepare (databases : List Database) (style : Style) :
    (gs.prepare databases style).labels = gs.labels := by
  have hforKeys (gs : CitationGroups) : (gs.forKeys databases style).labels = gs.labels :=
    labels_sortGroups _
  have hforNumbers (gs : CitationGroups) : (gs.forNumbers databases style).labels = gs.labels := by
    rw [forNumbers, markFirst, labels_mapCitations]
    split
    · exact labels_mapCitations _
    · exact labels_mapCitations _
  have hforAuthorYear (gs : CitationGroups) :
      (gs.forAuthorYear databases style).labels = gs.labels := by
    rw [forAuthorYear, markFirst, labels_mapCitations, distributeLetters, labels_mapCitations]
    exact labels_sortGroups _
  have hresolve : (gs.resolve databases).labels = gs.labels := labels_mapCitations _
  simp only [prepare]
  split_ifs
  · rw [hforKeys, hresolve]
  · rw [hforNumbers, hresolve]
  · rw [hforAuthorYear, hresolve]

theorem labels_produce (databases : List Database) (style : Style) :
    (gs.produce databases style).1.labels = gs.labels := labels_prepare databases style

/-- The names are part of the labels. -/
theorem ids_eq_map_labels (gs : CitationGroups) : gs.ids = gs.labels.map Prod.fst := by
  simp only [ids, labels, List.map_map]
  rfl

/-- **Every group has one marker, under its own name.** -/
theorem map_fst_markers_produce (databases : List Database) (style : Style) :
    (gs.produce databases style).2.markers.map Prod.fst = gs.ids := by
  rw [ids_eq_map_labels, ← labels_prepare databases style, ← ids_eq_map_labels]
  simp only [produce, render, List.map_map]
  rfl

end CitationGroups

end DocCite
