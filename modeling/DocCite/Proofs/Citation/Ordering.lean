import DocCite.Citation.Groups
import DocCite.Proofs.Keyed
import DocCite.Proofs.Lists
import Mathlib.Data.List.Nodup
import Mathlib.Data.List.Perm.Basic
import Mathlib.Data.List.Range

/-!
# Setting the order of the document

An order is set in two stages: first the slots of all named groups are found, then the groups are
told their places one by one. The first stage succeeds where the names list every group once
(`exists_slotsFor_iff`). Only it can fail, and it writes nothing (`run_setOrder`).
-/

namespace DocCite

/-! ## Lists of different elements -/

/-- Each element of `eraseDups` stands there once. -/
theorem nodup_eraseDups {α : Type} [BEq α] [LawfulBEq α] : ∀ l : List α, l.eraseDups.Nodup
  | [] => List.nodup_nil
  | a :: l => by
    rw [List.eraseDups_cons, List.nodup_cons]
    refine ⟨fun hmem => ?_, nodup_eraseDups (l.filter fun b => !b == a)⟩
    have hfilter := List.mem_eraseDups.mp hmem
    simp at hfilter
termination_by l => l.length
decreasing_by exact Nat.lt_succ_of_le (List.length_filter_le _ _)

theorem eraseDups_sublist {α : Type} [BEq α] : ∀ l : List α, l.eraseDups.Sublist l
  | [] => List.Sublist.refl _
  | a :: l => by
    rw [List.eraseDups_cons]
    exact ((eraseDups_sublist (l.filter fun b => !b == a)).trans List.filter_sublist).cons_cons a
termination_by l => l.length
decreasing_by exact Nat.lt_succ_of_le (List.length_filter_le _ _)

/-- A list of different elements has no others left when duplicates are erased. -/
theorem length_eraseDups_eq_iff {α : Type} [DecidableEq α] {l : List α} :
    l.eraseDups.length = l.length ↔ l.Nodup := by
  constructor
  · intro h
    rw [← (eraseDups_sublist l).eq_of_length h]
    exact nodup_eraseDups l
  · intro h
    exact ((List.perm_ext_iff_of_nodup (nodup_eraseDups l) h).mpr fun _ =>
      List.mem_eraseDups).length_eq

/-- A group without its place in the order of the document. -/
def CitationGroup.unplaced (g : CitationGroup) : CitationGroup := { g with position := none }

namespace CitationGroups

variable {gs gs' : CitationGroups} {ids : List String} {slots : List ℕ}

/-! ## Finding the slots -/

/-- The slot that is found for a name holds the group that the name stands for. -/
theorem getElem?_of_slotOf {id : String} {slot : ℕ} (h : gs.slotOf id = .ok slot) :
    ∃ g, gs.groups[slot]? = some g ∧ g.id = id ∧ gs.get? id = some g := by
  unfold slotOf at h
  split at h
  · next i hi =>
    cases h
    obtain ⟨hlt, hid, hbefore⟩ := List.findIdx?_eq_some_iff_getElem.mp hi
    refine ⟨gs.groups[slot], List.getElem?_eq_getElem hlt, of_decide_eq_true hid, ?_⟩
    refine List.find?_eq_some_iff_getElem.mpr ⟨hid, slot, hlt, rfl, fun j hj => ?_⟩
    simpa using hbefore j hj
  · cases h

theorem slotOf_lt {id : String} {slot : ℕ} (h : gs.slotOf id = .ok slot) :
    slot < gs.groups.length := by
  obtain ⟨g, hg, -⟩ := getElem?_of_slotOf h
  exact (List.getElem?_eq_some_iff.mp hg).1

/-- A slot is found for the name of each group. -/
theorem exists_slotOf {id : String} (h : id ∈ gs.ids) : ∃ slot, gs.slotOf id = .ok slot := by
  obtain ⟨g, hg, rfl⟩ := List.mem_map.mp h
  have hfound : (gs.groups.findIdx? fun g' => g'.id = g.id).isSome := by
    rw [List.findIdx?_isSome, List.any_eq_true]
    exact ⟨g, hg, by simp⟩
  obtain ⟨slot, hslot⟩ := Option.isSome_iff_exists.mp hfound
  exact ⟨slot, by rw [slotOf, hslot]⟩

/-- **Names that list every group once**: there are as many as groups, each is the name of a group,
and no two are names of the same one. -/
theorem slotsFor_eq_ok_iff :
    gs.slotsFor ids = .ok slots ↔ ids.length = gs.groups.length ∧
      List.Forall₂ (fun id slot => gs.slotOf id = .ok slot) ids slots ∧ slots.Nodup := by
  unfold slotsFor
  simp only [bind, Except.bind, pure, Except.pure, throw, throwThe, MonadExceptOf.throw]
  constructor
  · intro h
    split at h
    · cases h
    next hlength =>
    split at h
    · cases h
    next found hfound =>
    split at h
    · cases h
    next hdups =>
    cases h
    exact ⟨Decidable.not_not.mp hlength, forall₂_of_mapM_eq_ok hfound,
      length_eraseDups_eq_iff.mp (Decidable.not_not.mp hdups)⟩
  · rintro ⟨hlength, hall, hnodup⟩
    rw [if_neg (not_not_intro hlength), mapM_eq_ok_of_forall₂ hall]
    simp only [if_neg (not_not_intro (length_eraseDups_eq_iff.mpr hnodup))]

/-- Slots that are found list every group once. -/
theorem slots_perm_of_slotsFor (h : gs.slotsFor ids = .ok slots) :
    slots.Perm (List.range gs.groups.length) := by
  obtain ⟨hlength, hall, hnodup⟩ := slotsFor_eq_ok_iff.mp h
  refine (List.subperm_of_subset hnodup fun slot hslot => ?_).perm_of_length_le ?_
  · obtain ⟨id, -, hid⟩ := (exists_of_forall₂_of_mem hall).2 slot hslot
    exact List.mem_range.mpr (slotOf_lt hid)
  · rw [List.length_range, ← hall.length_eq, hlength]

/-- **The slots are found** just when the names are those of the groups, in some order. -/
theorem exists_slotsFor_iff (hids : gs.ids.Nodup) :
    (∃ slots, gs.slotsFor ids = .ok slots) ↔ ids.Perm gs.ids := by
  constructor
  · rintro ⟨slots, hslots⟩
    obtain ⟨-, hall, -⟩ := slotsFor_eq_ok_iff.mp hslots
    have hnames : ids.map some = slots.map fun slot => (gs.groups[slot]?).map CitationGroup.id := by
      refine map_eq_map_of_forall₂ hall fun id slot hid => ?_
      obtain ⟨g, hg, hname, -⟩ := getElem?_of_slotOf hid
      rw [hg, Option.map_some, hname]
    have hstored : ((List.range gs.groups.length).map fun slot =>
        (gs.groups[slot]?).map CitationGroup.id) = gs.ids.map some := by
      refine List.ext_getElem (by simp [CitationGroups.ids]) fun i hi hi' => ?_
      have hlt : i < gs.groups.length := by simpa using hi
      simp [CitationGroups.ids, hlt]
    have hperm := (slots_perm_of_slotsFor hslots).map fun slot =>
      (gs.groups[slot]?).map CitationGroup.id
    rw [← hnames, hstored] at hperm
    exact (List.map_perm_map_iff fun _ _ => Option.some.inj).mp hperm
  · intro hperm
    have hfound : ∀ id ∈ ids, ∃ slot, gs.slotOf id = .ok slot := fun id hid =>
      exists_slotOf (hperm.mem_iff.mp hid)
    choose! slot hslot using hfound
    refine ⟨ids.map slot, slotsFor_eq_ok_iff.mpr ⟨?_, ?_, ?_⟩⟩
    · rw [hperm.length_eq, CitationGroups.ids, List.length_map]
    · exact List.forall₂_map_right_iff.mpr (List.forall₂_same.mpr hslot)
    · -- different names have different slots, since a slot holds one group
      refine (hperm.nodup_iff.mpr hids).map_on fun id hid id' hid' heq => ?_
      obtain ⟨g, hg, hname, -⟩ := getElem?_of_slotOf (hslot id hid)
      obtain ⟨g', hg', hname', -⟩ := getElem?_of_slotOf (hslot id' hid')
      rw [heq, hg'] at hg
      rw [← hname, ← hname', Option.some.inj hg]

/-- A slot has a place among slots that list every group. -/
theorem exists_findIdx?_eq {n slot : ℕ} (h : slots.Perm (List.range n)) (hslot : slot < n) :
    ∃ i, slots.findIdx? (· = slot) = some i := by
  rw [← Option.isSome_iff_exists, List.findIdx?_isSome, List.any_eq_true]
  exact ⟨slot, h.mem_iff.mpr (List.mem_range.mpr hslot), by simp⟩

/-! ## Noting the places -/

/-- Groups with the places that they have in an order of the document. -/
def placedAt (gs : CitationGroups) (slots : List Nat) : CitationGroups :=
  { gs with
    groups := gs.groups.mapIdx fun slot g => { g with position := slots.findIdx? (· = slot) }
    globalOrder := some slots }

theorem getElem?_placedAt (gs : CitationGroups) (slots : List ℕ) (slot : ℕ) :
    (gs.placedAt slots).groups[slot]? =
      (gs.groups[slot]?).map fun g => { g with position := slots.findIdx? (· = slot) } := by
  simp [placedAt, List.getElem?_mapIdx]

/-- Noting places changes nothing but groups. -/
theorem foldl_place_eq (l : List (ℕ × ℕ)) (gs : CitationGroups) :
    l.foldl (fun gs p => gs.place p.1 p.2) gs =
      { gs with groups := (l.foldl (fun gs p => gs.place p.1 p.2) gs).groups } := by
  induction l generalizing gs with
  | nil => rfl
  | cons p l ih =>
    rw [List.foldl_cons, ih]
    rfl

/-- Groups whose slots are listed have their places there, counted on from a number; the others
keep the ones that they had. -/
theorem groups_foldl_place (h : slots.Nodup) (gs : CitationGroups) (first : ℕ) :
    ((slots.zipIdx first).foldl (fun gs p => gs.place p.1 p.2) gs).groups =
      gs.groups.mapIdx fun slot g =>
        { g with
          position := ((slots.findIdx? (· = slot)).map (first + ·)).or g.position } := by
  induction slots generalizing gs first with
  | nil => exact (List.mapIdx_eq_iff.mpr fun i => by simp).symm
  | cons slot slots ih =>
    obtain ⟨hnew, hrest⟩ := List.nodup_cons.mp h
    rw [List.zipIdx_cons, List.foldl_cons, ih hrest]
    refine List.ext_getElem? fun i => ?_
    rw [List.getElem?_mapIdx, List.getElem?_mapIdx, List.findIdx?_cons, place,
      List.getElem?_modify]
    by_cases hi : slot = i
    · -- the slot does not come again, so its first place is not written over
      have hnone : slots.findIdx? (· = i) = none := by
        rw [List.findIdx?_eq_none_iff]
        intro other hother
        simpa using fun heq : other = i => hnew (hi ▸ heq ▸ hother)
      simp [hi, hnone, Function.comp_def]
    · simp [hi, Function.comp_def, Nat.add_assoc, Nat.add_comm 1]

/-- Where all groups are listed, none keeps an earlier place. -/
theorem foldl_place (h : slots.Perm (List.range gs.groups.length)) :
    { slots.zipIdx.foldl (fun gs p => gs.place p.1 p.2) gs with globalOrder := some slots } =
      gs.placedAt slots := by
  have hplaced : (slots.zipIdx.foldl (fun gs p => gs.place p.1 p.2) gs).groups =
      (gs.placedAt slots).groups := by
    rw [groups_foldl_place (h.nodup_iff.mpr List.nodup_range)]
    refine List.mapIdx_eq_mapIdx_iff.mpr fun i hi => ?_
    obtain ⟨j, hj⟩ := exists_findIdx?_eq h hi
    simp [hj]
  rw [foldl_place_eq, hplaced]
  rfl

/-- Writing does not fail: places are noted one after another, and the order in the end. -/
theorem run_writes (l : List (ℕ × ℕ)) (order : List ℕ) (gs : CitationGroups) :
    (do
      l.forM fun (slot, position) =>
        modifyThe CitationGroups fun gs => gs.place slot position
      modifyThe CitationGroups fun gs => { gs with globalOrder := some order } :
        ExceptT GroupsError (StateM CitationGroups) Unit).run gs =
      (.ok (), { l.foldl (fun gs p => gs.place p.1 p.2) gs with globalOrder := some order }) := by
  induction l generalizing gs with
  | nil => rfl
  | cons p l ih => exact ih (gs.place p.1 p.2)

/-- **Setting an order** writes all places if the slots are found, and nothing otherwise. -/
theorem run_setOrder (gs : CitationGroups) (ids : List String) :
    (setOrder ids).run gs =
      match gs.slotsFor ids with
      | .ok slots => (.ok (), gs.placedAt slots)
      | .error e => (.error e, gs) := by
  have hread : (setOrder ids).run gs =
      (liftExcept (gs.slotsFor ids) >>= fun slots => do
        slots.zipIdx.forM fun (slot, position) =>
          modifyThe CitationGroups fun gs => gs.place slot position
        modifyThe CitationGroups fun gs => { gs with globalOrder := some slots } :
          ExceptT GroupsError (StateM CitationGroups) Unit).run gs := rfl
  rw [hread]
  cases hslots : gs.slotsFor ids with
  | error e => rfl
  | ok slots =>
    simp only [← foldl_place (slots_perm_of_slotsFor hslots)]
    exact run_writes slots.zipIdx slots gs

theorem imposeOrder_eq_ok_iff :
    gs.imposeOrder ids = .ok gs' ↔
      ∃ slots, gs.slotsFor ids = .ok slots ∧ gs' = gs.placedAt slots := by
  rw [imposeOrder, run_setOrder]
  cases gs.slotsFor ids with
  | error e => simp
  | ok slots => simp [eq_comm]

/-- An accepted order sets the places of the groups, each of them once. -/
theorem exists_slots_of_imposeOrder (h : gs.imposeOrder ids = .ok gs') :
    ∃ slots : List ℕ, slots.Perm (List.range gs.groups.length) ∧
      gs' = { gs with
        groups := gs.groups.mapIdx fun slot g =>
          { g with position := slots.findIdx? (· = slot) }
        globalOrder := some slots } := by
  obtain ⟨slots, hslots, rfl⟩ := imposeOrder_eq_ok_iff.mp h
  exact ⟨slots, slots_perm_of_slotsFor hslots, rfl⟩

end CitationGroups

end DocCite
