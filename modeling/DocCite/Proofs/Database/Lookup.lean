import DocCite.Database.Basic
import DocCite.Proofs.Keyed

/-!
# Entries found by their keys

A database keeps every entry under the lowercase of its own citation key, and every key once
(`WellKeyed`), for storing entries is the only way to fill one. A look-up therefore finds the entry
with the key (`lookup_eq_some_iff`), and entries are told apart by their keys.
-/

namespace DocCite

/-- The key that an entry is stored under. -/
def Entry.slot? (e : Entry) : Option String := e.citationKey.map lowercase

namespace Database

variable {db : Database} {e e' : Entry} {key : String}

/-- **Entries under their own keys**, and every key once. -/
structure WellKeyed (db : Database) : Prop where
  keys_nodup : (db.slots.map Prod.fst).Nodup
  slot_eq : ∀ p ∈ db.slots, p.2.slot? = some p.1

/-! ## Storing entries -/

theorem wellKeyed_empty (mode : DatabaseMode) : WellKeyed { mode := mode } :=
  ⟨List.nodup_nil, fun _ h => absurd h List.not_mem_nil⟩

theorem WellKeyed.insert (h : db.WellKeyed) (e : Entry) : (db.insert e).WellKeyed := by
  unfold Database.insert
  cases hkey : e.citationKey with
  | none => exact h
  | some key =>
    constructor
    case keys_nodup => exact Keyed.nodup_map_fst_put h.keys_nodup _ _
    case slot_eq =>
      intro p hp
      rcases Keyed.mem_put hp with hold | rfl
      · exact h.slot_eq p hold
      · rw [Entry.slot?, hkey, Option.map_some]

/-- **Databases that are filled entry by entry are well keyed.** -/
theorem wellKeyed_ofEntries (mode : DatabaseMode) (entries : List Entry) :
    (ofEntries mode entries).WellKeyed := by
  have hfill (db : Database) (h : db.WellKeyed) : (entries.foldl Database.insert db).WellKeyed := by
    induction entries generalizing db with
    | nil => exact h
    | cons e entries ih => exact ih (db.insert e) (h.insert e)
  exact hfill _ (wellKeyed_empty mode)

/-- An entry with a new key goes to the end. -/
theorem entries_insert_of_new (hkey : e.citationKey = some key) (hnew : db.lookup key = none) :
    (db.insert e).entries = db.entries ++ [e] := by
  have hslots : (db.insert e).slots = db.slots ++ [(lowercase key, e)] := by
    rw [← Keyed.put_of_get?_eq_none e hnew, Database.insert, hkey]
  rw [entries, hslots, List.map_append]
  rfl

/-! ## Looking entries up -/

/-- Every entry of a database has a key. -/
theorem WellKeyed.exists_citationKey (h : db.WellKeyed) (he : e ∈ db.entries) :
    ∃ key, e.citationKey = some key := by
  obtain ⟨p, hp, rfl⟩ := List.mem_map.mp he
  obtain ⟨key, hkey, -⟩ := Option.map_eq_some_iff.mp (h.slot_eq p hp)
  exact ⟨key, hkey⟩

/-- **A look-up finds the entry with the key.** -/
theorem WellKeyed.lookup_eq_some_iff (h : db.WellKeyed) :
    db.lookup key = some e ↔ e ∈ db.entries ∧ e.slot? = some (lowercase key) := by
  rw [lookup, Keyed.get?_eq_some_iff h.keys_nodup]
  constructor
  · intro hmem
    exact ⟨List.mem_map_of_mem (f := Prod.snd) hmem, h.slot_eq _ hmem⟩
  · rintro ⟨hmem, hslot⟩
    obtain ⟨p, hp, rfl⟩ := List.mem_map.mp hmem
    have hsame : p.1 = lowercase key := Option.some.inj ((h.slot_eq p hp).symm.trans hslot)
    exact hsame ▸ hp

/-- No two entries are stored under one key. -/
theorem WellKeyed.nodup_slots (h : db.WellKeyed) : (db.entries.map Entry.slot?).Nodup := by
  have hmap : db.entries.map Entry.slot? = (db.slots.map Prod.fst).map some := by
    rw [entries, List.map_map, List.map_map]
    exact List.map_congr_left fun p hp => h.slot_eq p hp
  exact hmap ▸ h.keys_nodup.map fun _ _ => Option.some.inj

theorem WellKeyed.nodup_entries (h : db.WellKeyed) : db.entries.Nodup :=
  List.Nodup.of_map _ h.nodup_slots

/-! ## Parts of a database -/

/-- The entry that another one inherits from. -/
def parent? (db : Database) (e : Entry) : Option Entry := e.crossref.bind db.lookup

theorem mem_entries_of_parent? (h : db.WellKeyed) (hparent : db.parent? e = some e') :
    e' ∈ db.entries := by
  obtain ⟨key, -, hfound⟩ := Option.bind_eq_some_iff.mp hparent
  exact (h.lookup_eq_some_iff.mp hfound).1

/-- **A database with some entries of another one.** -/
structure PartOf (db part : Database) : Prop where
  wellKeyed : part.WellKeyed
  mem_of_mem : ∀ e ∈ part.entries, e ∈ db.entries

variable {part : Database}

/-- What is found in a part is found in the whole, and the other way round if it is there. -/
theorem PartOf.lookup_eq_some_iff (h : PartOf db part) (hdb : db.WellKeyed) :
    part.lookup key = some e ↔ db.lookup key = some e ∧ e ∈ part.entries := by
  rw [h.wellKeyed.lookup_eq_some_iff, hdb.lookup_eq_some_iff]
  constructor
  · rintro ⟨hmem, hslot⟩
    exact ⟨⟨h.mem_of_mem e hmem, hslot⟩, hmem⟩
  · rintro ⟨⟨-, hslot⟩, hmem⟩
    exact ⟨hmem, hslot⟩

/-- A part contains the key of an entry just when the entry is there. -/
theorem PartOf.contains_iff (h : PartOf db part) (hdb : db.WellKeyed) (he : e ∈ db.entries)
    (hkey : e.citationKey = some key) : part.contains key = true ↔ e ∈ part.entries := by
  have hfound : db.lookup key = some e :=
    hdb.lookup_eq_some_iff.mpr ⟨he, congrArg (Option.map lowercase) hkey⟩
  rw [contains, Option.isSome_iff_exists]
  constructor
  · rintro ⟨e', he'⟩
    obtain ⟨hfound', hmem⟩ := (h.lookup_eq_some_iff hdb).mp he'
    rwa [Option.some.inj (hfound.symm.trans hfound')]
  · intro hmem
    exact ⟨e, (h.lookup_eq_some_iff hdb).mpr ⟨hfound, hmem⟩⟩

/-- **Fields are inherited in a part as in the whole** where the entry that they come from is
there. -/
theorem PartOf.resolvedField_eq (h : PartOf db part) (hdb : db.WellKeyed)
    (hparent : ∀ parent, db.parent? e = some parent → parent ∈ part.entries) (name : String) :
    e.resolvedField name part = e.resolvedField name db := by
  have hsame : e.crossref.bind part.lookup = db.parent? e := by
    refine Option.ext fun parent => ?_
    rw [parent?, Option.bind_eq_some_iff, Option.bind_eq_some_iff]
    refine exists_congr fun name => and_congr_right fun hname => ?_
    rw [h.lookup_eq_some_iff hdb, and_iff_left_of_imp]
    exact fun hfound => hparent parent (by rw [parent?, hname]; exact hfound)
  rw [Entry.resolvedField, Entry.resolvedField, hsame, parent?]

end Database

end DocCite
