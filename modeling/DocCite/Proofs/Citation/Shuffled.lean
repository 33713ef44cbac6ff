import DocCite.Citation.Bibliography
import DocCite.Proofs.Citation.Letters
import DocCite.Proofs.Citation.Marked
import DocCite.Proofs.Keyed
import Mathlib.Logic.Equiv.Basic

/-!
# Groups that are stored in another order

Groups are stored as their marks are listed, and marks can change places in that list while the
document stays the same. What is produced does not depend on it: where the same groups stand in the
same order of the document (`Shuffled`), markers, bibliography and unresolved keys are the same
(`Shuffled.produce`).
-/

namespace DocCite

/-- A path after groups were stored elsewhere. -/
def CitationPath.shuffled (σ : Equiv.Perm Nat) (p : CitationPath) : CitationPath :=
  ⟨σ p.group, p.citation⟩

/-- A cited key after groups were stored elsewhere. -/
def CitedKey.shuffled (σ : Equiv.Perm Nat) (ck : CitedKey) : CitedKey :=
  { ck with occurrences := ck.occurrences.map (CitationPath.shuffled σ) }

theorem CitationPath.injective_shuffled (σ : Equiv.Perm Nat) :
    Function.Injective (CitationPath.shuffled σ) := by
  rintro ⟨i, j⟩ ⟨i', j'⟩ heq
  simp only [CitationPath.shuffled, CitationPath.mk.injEq, EmbeddingLike.apply_eq_iff_eq] at heq
  rw [heq.1, heq.2]

namespace CitationGroups

variable {σ : Equiv.Perm Nat} {gs gs' : CitationGroups} {databases : List Database} {style : Style}

/-- **The same groups, stored elsewhere**: each has gone to another place, and the order of the
document is the same. -/
structure Shuffled (σ : Equiv.Perm Nat) (gs gs' : CitationGroups) : Prop where
  groups_eq : ∀ i, gs'.groups[σ i]? = gs.groups[i]?
  slots_eq : gs'.slots = gs.slots.map σ
  bibliography_eq : gs'.bibliography = gs.bibliography.map (List.map (CitedKey.shuffled σ))

/-! ## Cited keys

What cited keys are compared, numbered and told apart by is not where groups are stored. -/

theorem sortCited_shuffled (o : EntryOrder) (cited : List CitedKey) :
    sortCited (o.compareCited databases) (cited.map (CitedKey.shuffled σ)) =
      (sortCited (o.compareCited databases) cited).map (CitedKey.shuffled σ) :=
  (List.map_mergeSort (f := CitedKey.shuffled σ) fun _ _ _ _ => rfl).symm

theorem numberFrom_shuffled (n : Nat) (cited : List CitedKey) :
    numberFrom n (cited.map (CitedKey.shuffled σ)) =
      (numberFrom n cited).map (CitedKey.shuffled σ) := by
  induction cited generalizing n with
  | nil => rfl
  | cons ck cited ih =>
    rw [List.map_cons, numberFrom, numberFrom]
    cases hresolved : ck.resolution.isResolved with
    | true =>
      rw [if_pos (by exact hresolved), if_pos rfl, ih]
      rfl
    | false =>
      rw [if_neg (by simp [CitedKey.shuffled, hresolved]), if_neg (by simp), ih]
      rfl

theorem assignFrom_shuffled (all before : List (Option String)) (cited : List CitedKey) :
    assignFrom all databases style before (cited.map (CitedKey.shuffled σ)) =
      (assignFrom all databases style before cited).map (CitedKey.shuffled σ) := by
  induction cited generalizing before with
  | nil => rfl
  | cons ck cited ih =>
    rw [List.map_cons, assignFrom, assignFrom, List.map_cons, ← ih]
    rfl

theorem assignLetters_shuffled (databases : List Database) (style : Style)
    (cited : List CitedKey) :
    assignLetters databases style (cited.map (CitedKey.shuffled σ)) =
      (assignLetters databases style cited).map (CitedKey.shuffled σ) := by
  rw [assignLetters, assignFrom_shuffled, List.map_map]
  rfl

theorem addOccurrence_shuffled (cited : List CitedKey) (p : CitationPath) (c : Citation) :
    addOccurrence (cited.map (CitedKey.shuffled σ)) (p.shuffled σ) c =
      (addOccurrence cited p c).map (CitedKey.shuffled σ) := by
  induction cited with
  | nil => rfl
  | cons ck cited ih =>
    rw [List.map_cons, addOccurrence, addOccurrence]
    by_cases hkey : ck.key = c.key
    · rw [if_pos (by exact hkey), if_pos hkey]
      simp [CitedKey.shuffled]
    · rw [if_neg (by exact hkey), if_neg hkey, ih]
      rfl

/-! ## Stages -/

namespace Shuffled

section Reading

variable (h : Shuffled σ gs gs')
include h

theorem citation? (p : CitationPath) : gs'.citation? (p.shuffled σ) = gs.citation? p := by
  rw [CitationGroups.citation?, CitationPath.shuffled, h.groups_eq]
  rfl

theorem paths : gs'.paths = gs.paths.map (CitationPath.shuffled σ) := by
  rw [CitationGroups.paths, CitationGroups.paths, h.slots_eq, List.flatMap_map, List.map_flatMap]
  refine List.flatMap_congr fun i _ => ?_
  rw [h.groups_eq]
  cases gs.groups[i]? with
  | none => rfl
  | some g =>
    simp only [List.map_map]
    rfl

theorem citedKeys : gs'.citedKeys = gs.citedKeys.map (CitedKey.shuffled σ) := by
  rw [CitationGroups.citedKeys, CitationGroups.citedKeys, h.paths, List.foldl_map]
  refine Eq.trans (b := List.foldl _ ([].map (CitedKey.shuffled σ)) gs.paths) rfl ?_
  refine List.foldl_hom (List.map (CitedKey.shuffled σ)) fun cited p => ?_
  rw [h.citation?]
  cases gs.citation? p with
  | none => rfl
  | some c => simp only [addOccurrence_shuffled]

/-- The keys that are not found are the same. -/
theorem unresolvedKeys : gs'.unresolvedKeys = gs.unresolvedKeys := by
  rw [CitationGroups.unresolvedKeys, CitationGroups.unresolvedKeys, h.citedKeys, List.filter_map,
    List.map_map]
  rfl

theorem citedAt? (p : CitationPath) :
    gs'.citedAt? (p.shuffled σ) = (gs.citedAt? p).map (CitedKey.shuffled σ) := by
  have hfind (bibliography : List CitedKey) :
      (bibliography.map (CitedKey.shuffled σ)).find?
          (fun ck => ck.occurrences.contains (p.shuffled σ)) =
        (bibliography.find? fun ck => ck.occurrences.contains p).map (CitedKey.shuffled σ) := by
    rw [List.find?_map]
    congr 2
    funext ck
    rw [Function.comp_apply, Bool.eq_iff_iff, List.contains_iff_mem, List.contains_iff_mem]
    exact List.mem_map_of_injective (CitationPath.injective_shuffled σ)
  rw [CitationGroups.citedAt?, CitationGroups.citedAt?, h.bibliography_eq]
  cases gs.bibliography with
  | none => rfl
  | some bibliography => exact hfind bibliography

theorem mem_groups_iff {g : CitationGroup} : g ∈ gs'.groups ↔ g ∈ gs.groups := by
  rw [List.mem_iff_getElem?, List.mem_iff_getElem?, σ.surjective.exists]
  simp only [h.groups_eq]

end Reading

section Changing

variable (h : Shuffled σ gs gs')
include h

theorem mapCitations {f f' : CitationPath → Citation → Citation}
    (hf : ∀ p c, f' (p.shuffled σ) c = f p c) :
    Shuffled σ (gs.mapCitations f) (gs'.mapCitations f') where
  groups_eq i := by
    have hpath (j : Nat) (c : Citation) : f' ⟨σ i, j⟩ c = f ⟨i, j⟩ c := hf ⟨i, j⟩ c
    simp only [CitationGroups.mapCitations, List.getElem?_mapIdx, h.groups_eq, hpath]
  slots_eq := by rw [slots_mapCitations, slots_mapCitations, h.slots_eq]
  bibliography_eq := h.bibliography_eq

theorem resolve (databases : List Database) :
    Shuffled σ (gs.resolve databases) (gs'.resolve databases) :=
  h.mapCitations fun _ _ => rfl

theorem sortGroups (compare : Citation → Citation → Ordering) :
    Shuffled σ (gs.sortGroups compare) (gs'.sortGroups compare) where
  groups_eq i := by
    simp only [CitationGroups.sortGroups, List.getElem?_map, h.groups_eq]
  slots_eq := by
    have hslots (gs : CitationGroups) : (gs.sortGroups compare).slots = gs.slots := by
      simp [slots, CitationGroups.sortGroups]
    rw [hslots, hslots, h.slots_eq]
  bibliography_eq := h.bibliography_eq

/-- A bibliography of the same keys is taken. -/
theorem withBibliography (cited : List CitedKey) :
    Shuffled σ { gs with bibliography := some cited }
      { gs' with bibliography := some (cited.map (CitedKey.shuffled σ)) } where
  groups_eq := h.groups_eq
  slots_eq := h.slots_eq
  bibliography_eq := rfl

theorem distributeNumbers : Shuffled σ gs.distributeNumbers gs'.distributeNumbers := by
  refine h.mapCitations fun p c => ?_
  rw [h.citedAt?]
  cases gs.citedAt? p <;> rfl

theorem distributeLetters : Shuffled σ gs.distributeLetters gs'.distributeLetters := by
  refine h.mapCitations fun p c => ?_
  rw [h.citedAt?]
  cases gs.citedAt? p <;> rfl

theorem markFirst : Shuffled σ gs.markFirst gs'.markFirst := by
  refine h.mapCitations fun p c => ?_
  have hfirst : gs'.paths.find? (fun q => (gs'.citation? q).map Citation.key = some c.key) =
      (gs.paths.find? fun q => (gs.citation? q).map Citation.key = some c.key).map
        (CitationPath.shuffled σ) := by
    rw [h.paths, List.find?_map]
    congr 2
    funext q
    rw [Function.comp_apply, h.citation?]
  have hsame (q : Option CitationPath) :
      (q.map (CitationPath.shuffled σ) == some (p.shuffled σ)) = (q == some p) := by
    cases q with
    | none => rfl
    | some q =>
      rw [Bool.eq_iff_iff, beq_iff_eq, beq_iff_eq, Option.map_some, Option.some.injEq,
        Option.some.injEq, (CitationPath.injective_shuffled σ).eq_iff]
  rw [hfirst, hsame]

theorem numberAs (cited : List CitedKey) :
    Shuffled σ (gs.numberAs cited) (gs'.numberAs (cited.map (CitedKey.shuffled σ))) := by
  rw [CitationGroups.numberAs, CitationGroups.numberAs, numberFrom_shuffled]
  exact (h.withBibliography _).distributeNumbers

/-! ## The three kinds of markers -/

theorem forKeys (databases : List Database) (style : Style) :
    Shuffled σ (gs.forKeys databases style) (gs'.forKeys databases style) := by
  have hsorted : Shuffled σ (gs.sortByStyle databases style) (gs'.sortByStyle databases style) :=
    h.sortGroups _
  have hready := hsorted.withBibliography
    (sortCited (bibliographyOrder databases style) (gs.sortByStyle databases style).citedKeys)
  rwa [bibliographyOrder, ← sortCited_shuffled, ← hsorted.citedKeys] at hready

theorem forNumbers (databases : List Database) (style : Style) :
    Shuffled σ (gs.forNumbers databases style) (gs'.forNumbers databases style) := by
  rw [CitationGroups.forNumbers, CitationGroups.forNumbers]
  refine Shuffled.markFirst ?_
  split_ifs
  · rw [numberByAppearance, numberByAppearance, h.citedKeys]
    exact h.numberAs _
  · rw [numberBy, numberBy, h.citedKeys, bibliographyOrder, sortCited_shuffled]
    exact h.numberAs _

theorem forAuthorYear (databases : List Database) (style : Style) :
    Shuffled σ (gs.forAuthorYear databases style) (gs'.forAuthorYear databases style) := by
  have hsorted : Shuffled σ (gs.sortByStyle databases style) (gs'.sortByStyle databases style) :=
    h.sortGroups _
  have hlisted := hsorted.withBibliography (sortCited (bibliographyOrder databases style)
    (assignLetters databases style (gs.sortByStyle databases style).citedKeys))
  rw [bibliographyOrder, ← sortCited_shuffled, ← assignLetters_shuffled, ← hsorted.citedKeys]
    at hlisted
  exact hlisted.distributeLetters.markFirst

theorem prepare (databases : List Database) (style : Style) :
    Shuffled σ (gs.prepare databases style) (gs'.prepare databases style) := by
  have hfound := h.resolve databases
  simp only [CitationGroups.prepare]
  split_ifs
  · exact hfound.forKeys databases style
  · exact hfound.forNumbers databases style
  · exact hfound.forAuthorYear databases style

end Changing

/-! ## What is produced -/

section Produced

variable (h : Shuffled σ gs gs')
include h

/-- **What is produced is the same**: the marker of every group, the paragraphs of the bibliography
and the keys that are not found. -/
theorem produce (hids : gs.ids.Nodup) (hids' : gs'.ids.Nodup) (databases : List Database)
    (style : Style) :
    (∀ id, Keyed.get? (gs'.produce databases style).2.markers id =
        Keyed.get? (gs.produce databases style).2.markers id) ∧
      Bibliography.ofCited (gs'.produce databases style).1
          (gs'.produce databases style).2.bibliography databases style =
        Bibliography.ofCited (gs.produce databases style).1
          (gs.produce databases style).2.bibliography databases style ∧
      (gs'.produce databases style).2.unresolved = (gs.produce databases style).2.unresolved := by
  have hready := h.prepare databases style
  refine ⟨fun id => Option.ext fun marker => ?_, ?_, hready.unresolvedKeys⟩
  · rw [Keyed.get?_eq_some_iff (map_fst_markers_produce databases style ▸ hids'),
      Keyed.get?_eq_some_iff (map_fst_markers_produce databases style ▸ hids)]
    simp only [CitationGroups.produce, render, List.mem_map, hready.mem_groups_iff]
  · have hlisted : (gs'.produce databases style).2.bibliography =
        (gs.produce databases style).2.bibliography.map (CitedKey.shuffled σ) := by
      simp only [CitationGroups.produce, hready.bibliography_eq]
      cases (gs.prepare databases style).bibliography <;> rfl
    have hciting (ck : CitedKey) :
        Bibliography.citedIn (gs'.prepare databases style) (ck.shuffled σ) =
          Bibliography.citedIn (gs.prepare databases style) ck := by
      simp only [Bibliography.citedIn, CitedKey.shuffled, List.filterMap_map, Function.comp_def,
        CitationPath.shuffled, hready.groups_eq]
    rw [hlisted, Bibliography.ofCited, Bibliography.ofCited, List.map_map]
    simp only [Bibliography.mk.injEq, true_and]
    refine List.map_congr_left fun ck _ => ?_
    rw [Function.comp_apply, BibliographyEntry.mk.injEq]
    exact ⟨rfl, rfl, rfl, hciting ck⟩

end Produced

end Shuffled

/-! ## Orders of the document -/

/-- The place of a group of one list in another one with the same groups. -/
def placeIn (groups groups' : List CitationGroup) (i : Nat) : Nat :=
  match groups[i]? with
  | some g => groups'.findIdx fun g' => g'.id = g.id
  | none => i

section Stored

variable {groups groups' : List CitationGroup}

/-- Where names are different, a group is found by its name. -/
theorem getElem?_findIdx_id (hnodup : (groups.map CitationGroup.id).Nodup) {g : CitationGroup}
    (hg : g ∈ groups) : groups[groups.findIdx fun g' => g'.id = g.id]? = some g := by
  have hlt : (groups.findIdx fun g' => g'.id = g.id) < groups.length :=
    List.findIdx_lt_length_of_exists ⟨g, hg, by simp⟩
  have hid := List.findIdx_getElem (w := hlt)
  rw [List.getElem?_eq_getElem hlt, Option.some.injEq]
  exact List.inj_on_of_nodup_map hnodup (List.getElem_mem hlt) hg (of_decide_eq_true hid)

theorem getElem?_placeIn (hperm : groups'.Perm groups)
    (hnodup : (groups.map CitationGroup.id).Nodup) (i : Nat) :
    groups'[placeIn groups groups' i]? = groups[i]? := by
  have hnodup' : (groups'.map CitationGroup.id).Nodup := (hperm.map _).nodup_iff.mpr hnodup
  unfold placeIn
  split
  · next g hg =>
    rw [hg, getElem?_findIdx_id hnodup' (hperm.mem_iff.mpr (List.mem_of_getElem? hg))]
  · next hg =>
    rw [hg, List.getElem?_eq_none_iff, hperm.length_eq]
    exact List.getElem?_eq_none_iff.mp hg

theorem placeIn_placeIn (hperm : groups'.Perm groups)
    (hnodup : (groups.map CitationGroup.id).Nodup) (i : Nat) :
    placeIn groups' groups (placeIn groups groups' i) = i := by
  have hthere := getElem?_placeIn hperm hnodup i
  cases hg : groups[i]? with
  | none =>
    have hstays : placeIn groups groups' i = i := by rw [placeIn, hg]
    rw [hstays, hg] at hthere
    rw [hstays, placeIn, hthere]
  | some g =>
    rw [hg] at hthere
    have hback := getElem?_findIdx_id hnodup (List.mem_of_getElem? hg)
    rw [placeIn, hthere]
    have hlt := (List.getElem?_eq_some_iff.mp hback).1
    exact (hnodup.of_map _).getElem_inj_iff.mp (Option.some.inj
      ((List.getElem?_eq_getElem hlt).symm.trans (hback.trans
        (hg.symm.trans (List.getElem?_eq_getElem (List.getElem?_eq_some_iff.mp hg).1)))))

/-- Where groups of one list are in another one. -/
def places (hperm : groups'.Perm groups) (hnodup : (groups.map CitationGroup.id).Nodup) :
    Equiv.Perm Nat where
  toFun := placeIn groups groups'
  invFun := placeIn groups' groups
  left_inv := placeIn_placeIn hperm hnodup
  right_inv := placeIn_placeIn hperm.symm ((hperm.map _).nodup_iff.mpr hnodup)

end Stored

/-- Groups that are stored elsewhere are put into the same order of the document. -/
theorem exists_shuffled_of_imposeOrder {ordered : CitationGroups} {ids : List String}
    (hperm : gs'.groups.Perm gs.groups) (hnodup : gs.ids.Nodup) (hnone : gs.bibliography = none)
    (hnone' : gs'.bibliography = none) (h : gs.imposeOrder ids = .ok ordered) :
    ∃ ordered' σ, gs'.imposeOrder ids = .ok ordered' ∧ Shuffled σ ordered ordered' := by
  let σ := places hperm hnodup
  have hgroups (i : Nat) : gs'.groups[σ i]? = gs.groups[i]? := getElem?_placeIn hperm hnodup i
  have hnodup' : gs'.ids.Nodup := (hperm.map _).nodup_iff.mpr hnodup
  have hslot {id : String} {i : Nat} (hi : gs.slotOf id = .ok i) : gs'.slotOf id = .ok (σ i) := by
    unfold slotOf at hi
    split at hi
    · next j hj =>
      cases hi
      obtain ⟨hlt, hidx⟩ := List.findIdx?_eq_some_iff_findIdx_eq.mp hj
      have hid : gs.groups[i].id = id := by
        have hfound := List.findIdx_getElem (w := hidx.symm ▸ hlt)
        simp only [hidx] at hfound
        exact of_decide_eq_true hfound
      have hthere : σ i = gs'.groups.findIdx fun g => g.id = id := by
        change placeIn gs.groups gs'.groups i = _
        simp only [placeIn, List.getElem?_eq_getElem hlt, hid]
      have hlt' : σ i < gs'.groups.length := by
        rw [hthere]
        exact List.findIdx_lt_length_of_exists
          ⟨gs.groups[i], hperm.mem_iff.mpr (List.getElem_mem hlt), decide_eq_true hid⟩
      rw [slotOf, List.findIdx?_eq_some_iff_findIdx_eq.mpr ⟨hlt', hthere.symm⟩]
    · cases hi
  obtain ⟨slots, hslots, rfl⟩ := imposeOrder_eq_ok_iff.mp h
  obtain ⟨hlength, hall, hdups⟩ := slotsFor_eq_ok_iff.mp hslots
  have hslots' : gs'.slotsFor ids = .ok (slots.map σ) := by
    refine slotsFor_eq_ok_iff.mpr ⟨hlength.trans hperm.length_eq.symm, ?_, hdups.map σ.injective⟩
    exact List.forall₂_map_right_iff.mpr (hall.imp fun _ _ => hslot)
  refine ⟨_, σ, imposeOrder_eq_ok_iff.mpr ⟨_, hslots', rfl⟩, ?_, rfl, ?_⟩
  · intro i
    have hplace : (slots.map σ).findIdx? (· = σ i) = slots.findIdx? (· = i) := by
      rw [List.findIdx?_map]
      refine congrArg (List.findIdx? · slots) (funext fun j => ?_)
      simp
    rw [getElem?_placedAt, getElem?_placedAt, hgroups, hplace]
  · simp only [placedAt, hnone, hnone']
    rfl

end CitationGroups

end DocCite
