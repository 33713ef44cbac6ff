import DocCite.Proofs.Citation.Accounting

/-!
# An order is set as a whole or not at all

Where an order of the document is accepted, the groups come in it as they are named and each knows
its place; where it is refused, the groups are what they were, with the order that they had before
(`setOrder_permutes`).
-/

namespace DocCite.CitationGroups

variable {gs : CitationGroups} {ids : List String} {slots : List ℕ}

/-- **Groups are put into an order**: they come in it as they are named, each knows its place there,
and nothing else has changed. -/
structure PutInOrder (ids : List String) (before after : CitationGroups) : Prop where
  /-- The groups in the order of the document are those that the names stand for, in turn. -/
  inOrder_eq : after.inOrder.map some = ids.map after.get?
  position_eq : ∀ g ∈ after.groups, ∃ i, g.position = some i ∧ ids[i]? = some g.id
  unplaced_eq : after.groups.map CitationGroup.unplaced = before.groups.map CitationGroup.unplaced
  bibliography_eq : after.bibliography = before.bibliography

theorem ids_placedAt (gs : CitationGroups) (slots : List ℕ) : (gs.placedAt slots).ids = gs.ids := by
  refine List.ext_getElem? fun i => ?_
  rw [CitationGroups.ids, CitationGroups.ids, List.getElem?_map, List.getElem?_map,
    getElem?_placedAt, Option.map_map]
  rfl

/-- Names stand in the same slots when places are noted. -/
theorem slotOf_placedAt (gs : CitationGroups) (slots : List ℕ) (id : String) :
    (gs.placedAt slots).slotOf id = gs.slotOf id := by
  have hfind (gs : CitationGroups) :
      gs.groups.findIdx? (fun g => g.id = id) = gs.ids.findIdx? (· = id) := by
    rw [CitationGroups.ids, List.findIdx?_map]
    rfl
  rw [slotOf, slotOf, hfind, hfind, ids_placedAt]

/-- The groups in slots that are found are those that the names stand for. -/
theorem filterMap_placedAt {slots' : List ℕ}
    (h : List.Forall₂ (fun id slot => gs.slotOf id = .ok slot) ids slots') :
    (slots'.filterMap fun slot => (gs.placedAt slots).groups[slot]?).map some =
      ids.map (gs.placedAt slots).get? := by
  induction h with
  | nil => rfl
  | cons hid _ ih =>
    obtain ⟨g, hg, -, hget⟩ := getElem?_of_slotOf ((slotOf_placedAt gs slots _).trans hid)
    rw [List.filterMap_cons_some hg, List.map_cons, List.map_cons, ih, hget]

/-- The place of a slot among the slots is that of its group's name among the names. -/
theorem exists_place {slot : ℕ} {g : CitationGroup} (h : gs.slotsFor ids = .ok slots)
    (hg : gs.groups[slot]? = some g) :
    ∃ i, slots.findIdx? (· = slot) = some i ∧ ids[i]? = some g.id := by
  obtain ⟨-, hall, -⟩ := slotsFor_eq_ok_iff.mp h
  have hlt := (List.getElem?_eq_some_iff.mp hg).1
  obtain ⟨i, hi⟩ := exists_findIdx?_eq (slots_perm_of_slotsFor h) hlt
  obtain ⟨hslots, hat, -⟩ := List.findIdx?_eq_some_iff_getElem.mp hi
  have hids : i < ids.length := hall.length_eq ▸ hslots
  obtain ⟨g', hg', hname, -⟩ := getElem?_of_slotOf (hall.get hids hslots)
  rw [List.get_eq_getElem, of_decide_eq_true hat, hg] at hg'
  refine ⟨i, hi, ?_⟩
  rw [List.getElem?_eq_getElem hids, Option.some.inj hg']
  exact congrArg some hname.symm

/-- Groups that have their places in slots that are found are put into order. -/
theorem putInOrder_placedAt (h : gs.slotsFor ids = .ok slots) :
    PutInOrder ids gs (gs.placedAt slots) where
  inOrder_eq := filterMap_placedAt (slotsFor_eq_ok_iff.mp h).2.1
  position_eq g' hg' := by
    obtain ⟨slot, hslot⟩ := List.mem_iff_getElem?.mp hg'
    rw [getElem?_placedAt] at hslot
    obtain ⟨g, hg, rfl⟩ := Option.map_eq_some_iff.mp hslot
    obtain ⟨i, hi, hname⟩ := exists_place h hg
    exact ⟨i, hi, hname⟩
  unplaced_eq := by
    refine List.ext_getElem? fun i => ?_
    rw [List.getElem?_map, List.getElem?_map, getElem?_placedAt, Option.map_map]
    rfl
  bibliography_eq := rfl

/-- **An order is set as a whole or not at all**: as a whole if it lists the names of all groups in
some order, whatever order they were in before. Groups are stored under their names, so no two have
the same one (`nodup_ids_runAll`). -/
theorem setOrder_permutes (hids : gs.ids.Nodup) (ids : List String) :
    (((setOrder ids).run gs).1 = .ok () ↔ ids.Perm gs.ids) ∧
      (((setOrder ids).run gs).1 = .ok () → PutInOrder ids gs ((setOrder ids).run gs).2) ∧
      (((setOrder ids).run gs).1 ≠ .ok () → ((setOrder ids).run gs).2 = gs) := by
  rw [run_setOrder, ← exists_slotsFor_iff hids]
  cases hslots : gs.slotsFor ids with
  | ok slots =>
    exact ⟨⟨fun _ => ⟨slots, rfl⟩, fun _ => rfl⟩, fun _ => putInOrder_placedAt hslots,
      fun h => absurd rfl h⟩
  | error e =>
    refine ⟨⟨fun h => ?_, fun ⟨_, h⟩ => ?_⟩, fun h => ?_, fun _ => rfl⟩ <;> cases h

/-- Groups that were put into an order, sorted and numbered. -/
def numberedGroups : CitationGroups := GroupsCall.runAll (ofList sharingGroups) sharingCalls

/-- Their order can be turned round, and an order that names one group twice leaves them as they
are. -/
theorem setOrder_permutes_numberedGroups :
    numberedGroups.ids.Nodup ∧
      ((setOrder ["first", "second"]).run numberedGroups).1 = .ok () ∧
      PutInOrder ["first", "second"] numberedGroups
        ((setOrder ["first", "second"]).run numberedGroups).2 ∧
      ((setOrder ["first", "first"]).run numberedGroups).2 = numberedGroups := by
  have hids : numberedGroups.ids.Nodup := nodup_ids_runAll sharingGroups sharingCalls
  have hperm : ["first", "second"].Perm numberedGroups.ids := by
    rw [numberedGroups, ids_runAll]
    decide
  have hrepeated : ¬ ["first", "first"].Perm numberedGroups.ids := by
    rw [numberedGroups, ids_runAll]
    decide
  obtain ⟨hiff, hplaced, -⟩ := setOrder_permutes hids ["first", "second"]
  obtain ⟨hiff', -, hleft⟩ := setOrder_permutes hids ["first", "first"]
  have hok := hiff.mpr hperm
  exact ⟨hids, hok, hplaced hok, hleft fun h => hrepeated (hiff'.mp h)⟩

end DocCite.CitationGroups
