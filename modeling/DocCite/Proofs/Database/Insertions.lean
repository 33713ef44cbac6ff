import DocCite.Proofs.Database.Lookup
import DocCite.Proofs.Lists
import Mathlib.Data.List.Induction

/-!
# Entries stored one after another

A database tells what was stored in it: under each key, whose case does not count, it has the entry
that was stored last, and its entries are in the order in which their keys were stored first
(`HoldsLast`). One more entry keeps that so (`HoldsLast.insert`), and what it takes out is what the
call gives back (`Stores`).
-/

namespace DocCite

namespace Keyed

variable {α β : Type} [DecidableEq α]

/-- The value of a key that is there is replaced in its place. -/
theorem map_snd_put_of_mem [DecidableEq β] {m : Keyed α β} (hnodup : (m.map Prod.snd).Nodup)
    {k : α} {old : β} (v : β) (h : m.get? k = some old) :
    (m.put k v).map Prod.snd = (m.map Prod.snd).map fun x => if x = old then v else x := by
  induction m with
  | nil => cases h
  | cons p rest ih =>
    rw [List.map_cons, List.nodup_cons] at hnodup
    rw [get?] at h
    rw [put]
    by_cases hk : p.1 = k
    · rw [if_pos hk, Option.some.injEq] at h
      subst h
      have hothers : (rest.map Prod.snd).map (fun x => if x = p.2 then v else x) =
          rest.map Prod.snd := by
        refine (List.map_congr_left fun x hx => if_neg ?_).trans (List.map_id _)
        rintro rfl
        exact hnodup.1 hx
      simp only [if_pos hk, List.map_cons, if_true, hothers]
    · rw [if_neg hk] at h
      have hne : p.2 ≠ old := fun heq =>
        hnodup.1 (heq ▸ List.mem_map_of_mem (f := Prod.snd) (mem_of_get?_eq_some h))
      simp only [if_neg hk, List.map_cons, if_neg hne, ih hnodup.2 h]

end Keyed

namespace Database

variable {db : Database} {stored : List Entry} {e : Entry} {slot : String}

/-! ## What was stored -/

/-- The last of some entries with a key that is given in lowercase. -/
def lastStored? (stored : List Entry) (slot : String) : Option Entry :=
  (stored.filter fun e => e.slot? = some slot).getLast?

theorem lastStored?_concat (stored : List Entry) (e : Entry) (slot : String) :
    lastStored? (stored ++ [e]) slot =
      if e.slot? = some slot then some e else lastStored? stored slot := by
  rw [lastStored?, List.filter_append]
  by_cases h : e.slot? = some slot
  · rw [if_pos h, List.filter_cons_of_pos (by simpa using h), List.filter_nil]
    exact List.getLast?_concat
  · rw [if_neg h, List.filter_cons_of_neg (by simpa using h), List.filter_nil, List.append_nil]
    rfl

/-- The keys of some entries, in lowercase and in the order in which each came first. -/
def storedSlots (stored : List Entry) : List String := (stored.filterMap Entry.slot?).eraseDups

theorem storedSlots_concat (stored : List Entry) (e : Entry) :
    storedSlots (stored ++ [e]) =
      match e.slot? with
      | none => storedSlots stored
      | some slot =>
        if slot ∈ storedSlots stored then storedSlots stored else storedSlots stored ++ [slot] := by
  rw [storedSlots, List.filterMap_append]
  cases h : e.slot? with
  | none => simp [storedSlots, h]
  | some slot =>
    rw [List.filterMap_cons_some h, List.filterMap_nil, eraseDups_concat]
    simp only [storedSlots, List.mem_eraseDups]

/-! ## What a database holds -/

/-- **A database with what was stored**: under each key the last entry with it, each key once and
the first of them first. -/
structure HoldsLast (db : Database) (stored : List Entry) : Prop where
  lookup_eq : ∀ key, db.lookup key = lastStored? stored (lowercase key)
  entries_eq : db.entries.map some = (storedSlots stored).map (lastStored? stored)

/-- The same of the keys as they are kept. -/
structure KeepsLast (db : Database) (stored : List Entry) : Prop where
  slots_eq : db.slots.map Prod.fst = storedSlots stored
  get?_eq : ∀ slot, db.slots.get? slot = lastStored? stored slot

theorem keepsLast_empty (mode : DatabaseMode) : KeepsLast { mode := mode } [] :=
  ⟨rfl, fun _ => rfl⟩

/-- Storing an entry without a key changes nothing. -/
theorem insert_of_citationKey_eq_none (db : Database) (h : e.citationKey = none) :
    db.insert e = db := by
  rw [Database.insert, h]

theorem slots_insert_of_slot? (db : Database) (h : e.slot? = some slot) :
    (db.insert e).slots = db.slots.put slot e := by
  obtain ⟨key, hkey, rfl⟩ := Option.map_eq_some_iff.mp h
  rw [Database.insert, hkey]

/-- **One more entry** takes the place of the last one with its key or comes at the end. -/
theorem KeepsLast.insert (h : db.KeepsLast stored) (e : Entry) :
    (db.insert e).KeepsLast (stored ++ [e]) := by
  cases hslot : e.slot? with
  | none =>
    have hkey : e.citationKey = none := Option.map_eq_none_iff.mp hslot
    rw [insert_of_citationKey_eq_none db hkey]
    constructor
    case slots_eq => rw [storedSlots_concat, hslot, h.slots_eq]
    case get?_eq =>
      intro slot
      rw [lastStored?_concat, hslot, if_neg (Option.some_ne_none slot).symm, h.get?_eq]
  | some slot =>
    constructor
    case slots_eq =>
      rw [slots_insert_of_slot? db hslot, Keyed.map_fst_put, h.slots_eq, storedSlots_concat, hslot]
      simp only [List.contains_iff_mem]
    case get?_eq =>
      intro slot'
      rw [slots_insert_of_slot? db hslot, Keyed.get?_put, lastStored?_concat, hslot, h.get?_eq]
      simp only [Option.some.injEq]

/-- What is kept in the end is what was stored. -/
theorem keepsLast_ofEntries (mode : DatabaseMode) (stored : List Entry) :
    (ofEntries mode stored).KeepsLast stored := by
  -- on the number of calls, the last one apart
  induction stored using List.reverseRecOn with
  | nil => exact keepsLast_empty mode
  | append_singleton stored e ih =>
    rw [ofEntries, List.foldl_append]
    exact ih.insert e

theorem KeepsLast.holdsLast (h : db.KeepsLast stored) (hkeyed : db.WellKeyed) :
    db.HoldsLast stored where
  lookup_eq key := h.get?_eq (lowercase key)
  entries_eq := by
    have hfound (p : String × Entry) (hp : p ∈ db.slots) : some p.2 = lastStored? stored p.1 := by
      rw [← h.get?_eq, (Keyed.get?_eq_some_iff hkeyed.keys_nodup).mpr hp]
    rw [← h.slots_eq, entries, List.map_map, List.map_map]
    exact List.map_congr_left hfound

/-! ## What a call gives back -/

/-- **A call that stores an entry and gives back another one**: that one is taken out, in whose
place the new one is. If it gives back none, the new one is at the end, or has no key and is
nowhere. -/
structure Stores (db : Database) (e : Entry) (before : Option Entry) : Prop where
  replacedBy_eq : db.replacedBy e = before
  entries_of_some : ∀ old, before = some old →
    (db.insert e).entries = db.entries.map fun x => if x = old then e else x
  entries_of_none : before = none → e.citationKey ≠ none →
    (db.insert e).entries = db.entries ++ [e]
  unchanged : e.citationKey = none → before = none ∧ db.insert e = db

theorem replacedBy_eq_bind (db : Database) (e : Entry) :
    db.replacedBy e = e.slot?.bind db.slots.get? := by
  rw [replacedBy, Entry.slot?, Option.bind_map]
  rfl

theorem WellKeyed.stores (h : db.WellKeyed) (e : Entry) : db.Stores e (db.replacedBy e) where
  replacedBy_eq := rfl
  entries_of_some old hold := by
    rw [replacedBy_eq_bind] at hold
    obtain ⟨slot, hslot, hfound⟩ := Option.bind_eq_some_iff.mp hold
    rw [entries, slots_insert_of_slot? db hslot]
    exact Keyed.map_snd_put_of_mem h.nodup_entries e hfound
  entries_of_none hnone hkey := by
    obtain ⟨key, hkey⟩ := Option.ne_none_iff_exists'.mp hkey
    rw [replacedBy, hkey, Option.bind_some] at hnone
    exact entries_insert_of_new hkey hnone
  unchanged hkey := by
    refine ⟨?_, insert_of_citationKey_eq_none db hkey⟩
    rw [replacedBy, hkey, Option.bind_none]

/-- **A database is a map of keys in the order of their first insertion**: whatever was stored, it
holds the last entry of each key, whose case does not count, and one more call gives back the entry
that it replaces, the last one with its key. -/
theorem ofEntries_holdsLast (mode : DatabaseMode) (stored : List Entry) :
    (ofEntries mode stored).HoldsLast stored ∧
      ∀ e, (ofEntries mode stored).Stores e (e.slot?.bind (lastStored? stored)) := by
  have hkeyed : (ofEntries mode stored).WellKeyed := wellKeyed_ofEntries mode stored
  have hkeeps : (ofEntries mode stored).KeepsLast stored := keepsLast_ofEntries mode stored
  refine ⟨hkeeps.holdsLast hkeyed, fun e => ?_⟩
  have hbefore : e.slot?.bind (lastStored? stored) = (ofEntries mode stored).replacedBy e := by
    rw [replacedBy_eq_bind, funext hkeeps.get?_eq]
  exact hbefore ▸ hkeyed.stores e

/-- The second spelling of a key takes the place of the first one. -/
example : (ofEntries .bibtex [.new "Oak" "book", .new "ash" "book", .new "" "misc",
      .new "OAK" "article"]).entries = [.new "OAK" "article", .new "ash" "book"] := by
  rfl

end Database

end DocCite
