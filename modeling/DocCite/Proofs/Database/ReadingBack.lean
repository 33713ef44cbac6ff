import DocCite.Proofs.Database.Exported
import DocCite.Proofs.Database.TakingOver
import Mathlib

/-!
# Exported databases read back

Values are decoded when a BibTeX file is read, but written as they are when it is exported: an
escaped sign loses its backslash, and what is left of it need not read as it stands. So a database
that was read from a file comes back, once it is exported and read again, just when a file can hold
it as it is (`Database.readsBack_iff`): its values stand for themselves, its entries have fields,
none of its keys is listed among the further keys of an entry before it, and the older dialect does
not spell the mark of the newer one. A price in a title is enough to fail
(`Database.not_readsBack_priceSources`).
-/

namespace DocCite

namespace Bibtex

/-- A value that reads as it stands. -/
def Stands (field value : String) : Prop :=
  (fieldContent field value.toList).map (fun c => String.ofList (Text.trim c.plain)) = some value

instance (field value : String) : Decidable (Stands field value) :=
  inferInstanceAs (Decidable (_ = _))

/-! ## Records of exported entries -/

theorem valueIn_literal (names : List Assignment) (field : String) (n : Nat) (s : List Char) :
    valueIn names field n [.literal s] = fieldContent field s := by
  have hnil : valueIn names field n [] = some [] := by
    unfold valueIn
    rfl
  unfold valueIn
  simp only [hnil]
  cases fieldContent field s with
  | none => rfl
  | some c => exact congrArg some (List.append_nil c)

/-- The fields of an exported entry, each with what is stored for its value. -/
def contents? (fields : List (String × String)) : Option Fields :=
  fields.mapM fun f => (fieldContent f.1 f.2.toList).map fun c => (f.1, c)

theorem fieldsOf_assigned {fields : List (String × String)}
    (hlower : ∀ f ∈ fields, asciiLowercase f.1 = f.1) (hnodup : (fields.map Prod.fst).Nodup) :
    fieldsOf [] (fields.map assigned) = contents? fields := by
  have hread (done : Fields) (hdone : (done.map Prod.fst ++ fields.map Prod.fst).Nodup) :
      (fields.map assigned).foldlM
          (fun (done : Fields) f => (valueIn [] (asciiLowercase f.1) 0 f.2).bind fun value =>
            some (Keyed.put done (asciiLowercase f.1) value)) done =
        (contents? fields).map (done ++ ·) := by
    induction fields generalizing done with
    | nil => exact congrArg some (List.append_nil done).symm
    | cons f fs ih =>
      rw [List.forall_mem_cons] at hlower
      rw [List.map_cons, List.foldlM_cons, contents?, List.mapM_cons, assigned, valueIn_literal,
        hlower.1]
      cases fieldContent f.1 f.2.toList with
      | none => rfl
      | some c =>
        have hnew : Keyed.get? done f.1 = none := Keyed.get?_eq_none_iff.mpr fun hmem =>
          (List.nodup_append.mp hdone).2.2 f.1 hmem f.1 List.mem_cons_self rfl
        have hnext : Keyed.put done f.1 c = done ++ [(f.1, c)] := Keyed.put_of_get?_eq_none c hnew
        simp only [Option.bind_eq_bind, Option.bind_some, Option.map_some, hnext]
        rw [ih hlower.2 (List.nodup_cons.mp hnodup).2 (done ++ [(f.1, c)])]
        · rw [contents?]
          cases fs.mapM fun f => (fieldContent f.1 f.2.toList).map fun c => (f.1, c) with
          | none => rfl
          | some rest => exact congrArg some (List.append_assoc done [(f.1, c)] rest)
        · rwa [List.map_append, List.append_assoc]
  exact (hread [] hnodup).trans Option.map_id_apply

/-! ## Libraries -/

/-- Records in their order and by all their keys. -/
def Library.of (records : List Record) : Library where
  records := records
  byKey := records.foldl (fun known r => known.putAll (r.keys.map fun key => (key, r))) []

theorem Library.get?_byKey_concat (records : List Record) (r : Record) (key : String) :
    (Library.of (records ++ [r])).byKey.get? key =
      if key ∈ r.keys then some r else (Library.of records).byKey.get? key := by
  rw [of, List.foldl_append, List.foldl_cons, List.foldl_nil]
  split
  · next hmem =>
    refine Keyed.get?_putAll_of_mem (p := (key, r)) (fun q hq hkey => ?_) (List.mem_map_of_mem hmem)
    obtain ⟨key', -, rfl⟩ := List.mem_map.mp hq
    exact Prod.ext hkey rfl
  · next hnot =>
    refine Keyed.get?_putAll_of_not_mem fun hmem => hnot ?_
    obtain ⟨q, hq, hkey⟩ := List.mem_map.mp hmem
    obtain ⟨key', hkey', rfl⟩ := List.mem_map.mp hq
    exact hkey ▸ hkey'

theorem Library.mem_of_get?_byKey {records : List Record} {key : String} {r : Record}
    (h : (Library.of records).byKey.get? key = some r) : r ∈ records := by
  induction records using List.reverseRecOn with
  | nil => cases h
  | append_singleton records last ih =>
    rw [get?_byKey_concat] at h
    split at h
    · cases h
      exact List.mem_append_right _ List.mem_cons_self
    · exact List.mem_append_left _ (ih h)

theorem Library.get?_byKey_eq_none_iff {records : List Record} {key : String} :
    (Library.of records).byKey.get? key = none ↔ ∀ r ∈ records, key ∉ r.keys := by
  induction records using List.reverseRecOn with
  | nil => exact ⟨fun _ r hr => absurd hr List.not_mem_nil, fun _ => rfl⟩
  | append_singleton records last ih =>
    rw [get?_byKey_concat, List.forall_mem_append, List.forall_mem_singleton, ← ih]
    split
    · next hmem => simp [hmem]
    · next hnot => simp [hnot]

/-- **Records that are added one after another** make a library unless one of them has a key that
one before it has. -/
theorem Library.foldlM_add?_iff {records : List Record} {library : Library} :
    records.foldlM Library.add? {} = some library ↔
      records.Pairwise (fun q r => r.key ∉ q.keys) ∧ library = .of records := by
  induction records using List.reverseRecOn generalizing library with
  | nil =>
    rw [List.foldlM_nil, Option.pure_def, Option.some.injEq, eq_comm,
      and_iff_right List.Pairwise.nil]
    rfl
  | append_singleton records r ih =>
    have hadd : (Library.of records).add? r = some library ↔
        (∀ q ∈ records, r.key ∉ q.keys) ∧ library = .of (records ++ [r]) := by
      rw [← get?_byKey_eq_none_iff, add?]
      split
      · next hsome => simp [Option.isSome_iff_ne_none.mp hsome]
      · next hnone =>
        rw [and_iff_right (Option.not_isSome_iff_eq_none.mp hnone), Option.some.injEq, eq_comm]
        refine Eq.congr_right ?_
        rw [of, of, List.foldl_append]
        rfl
    rw [List.foldlM_append, List.pairwise_append]
    simp only [List.foldlM_cons, List.foldlM_nil, List.forall_mem_singleton, bind_pure,
      Option.bind_eq_bind, Option.bind_eq_some_iff, ih]
    constructor
    · rintro ⟨before, ⟨hpairwise, rfl⟩, hlast⟩
      obtain ⟨hapart, rfl⟩ := hadd.mp hlast
      exact ⟨⟨hpairwise, List.pairwise_singleton _ _, hapart⟩, rfl⟩
    · rintro ⟨⟨hpairwise, -, hapart⟩, rfl⟩
      exact ⟨_, ⟨hpairwise, rfl⟩, hadd.mpr ⟨hapart, rfl⟩⟩

end Bibtex

/-! ## Exported entries -/

namespace Entry

/-- The record that an exported entry is read as, if its values can be read. -/
def record? (e : Entry) : Option Bibtex.Record :=
  (Bibtex.contents? e.fields).map fun fields =>
    { type := e.type, key := e.key.getD "", fields := fields }

/-- The further keys that an exported entry lists. -/
def furtherKeys (e : Entry) : List String :=
  (e.record?.map fun r => r.keysIn "ids").getD []

/-- **Entries of the same content**: the order of the fields does not count. -/
structure SameContent (e e' : Entry) : Prop where
  key_eq : e.key = e'.key
  type_eq : e.type = e'.type
  fields_perm : e.fields.Perm e'.fields

variable {e e' e'' : Entry}

theorem SameContent.symm (h : e.SameContent e') : e'.SameContent e :=
  ⟨h.key_eq.symm, h.type_eq.symm, h.fields_perm.symm⟩

theorem SameContent.trans (h : e.SameContent e') (h' : e'.SameContent e'') : e.SameContent e'' :=
  ⟨h.key_eq.trans h'.key_eq, h.type_eq.trans h'.type_eq, h.fields_perm.trans h'.fields_perm⟩

end Entry

namespace Bibtex

/-- **The entries of an exported database are read** as their records, which make a library and are
filled up there. -/
theorem entries?_items {mode : DatabaseMode} {es : List Entry} (hspelled : ∀ e ∈ es, e.Spelled) :
    entries? (Database.dialectItems mode ++ es.map Entry.item) =
      (es.mapM Entry.record?).bind fun records =>
        (records.foldlM Library.add? {}).bind fun library =>
          library.records.mapM fun r =>
            (r.fillIn? library.byKey library.records.length).map Record.toEntry := by
  have hrecord (e : Entry) (he : e ∈ es) :
      (fieldsOf [] (e.fields.map assigned)).map (fun values =>
          { type := entryType e.type, key := e.key.getD "", fields := values }) = e.record? := by
    have htype := (hspelled e he).type
    simp only [isEntryType, Bool.and_eq_true, decide_eq_true_eq] at htype
    rw [fieldsOf_assigned (fun f hf => ?_) (hspelled e he).nodup, htype.1.1]
    · rfl
    · rw [← (hspelled e he).lowercase_eq f hf, asciiLowercase_lowercase]
  rw [entries?, ← Option.bind_assoc]
  generalize hnames : List.flatMap _ _ = names
  obtain rfl : names = [] := by
    rw [← hnames, List.flatMap_eq_nil_iff]
    intro i hi
    split
    · next strings =>
      -- an export has no items of this kind
      rcases List.mem_append.mp hi with hdialect | hentry
      · cases mode with
        | bibtex => cases hdialect
        | biblatex => cases List.mem_singleton.mp hdialect
      · obtain ⟨e, -, he⟩ := List.mem_map.mp hentry
        cases he
    · rfl
  refine congrArg (Option.bind · _) ?_
  rw [List.foldlM_append]
  cases mode
  all_goals
    simp only [Database.dialectItems, List.foldlM_nil, List.foldlM_cons, Option.pure_def,
      Option.bind_eq_bind, Option.bind_some, List.foldlM_map]
    refine foldlM_eq_bind_mapM (fun library e he => ?_) _
    rw [← hrecord e he, Option.map_eq_bind, Option.bind_assoc]
    rfl

/-! ## Entries of records -/

theorem Fields.SameReading.perm {fields fields' : Fields} (h : fields.SameReading fields')
    (hnodup : (fields.map Prod.fst).Nodup) (hnodup' : (fields'.map Prod.fst).Nodup) :
    (fields.map fun f => (f.1, f.2.reading)).Perm (fields'.map fun f => (f.1, f.2.reading)) := by
  refine Keyed.perm_of_get?_eq ?_ ?_ fun n => ?_
  · rwa [List.map_map]
  · rwa [List.map_map]
  · rw [Keyed.get?_map, Keyed.get?_map]
    exact h n

/-- The fields of the entry of a record, up to their order. -/
theorem Record.perm_fields_toEntry {r : Record} (hlower : ∀ f ∈ r.fields, lowercase f.1 = f.1)
    (hnodup : (r.fields.map Prod.fst).Nodup) :
    r.toEntry.fields.Perm (r.fields.map fun f => (f.1, String.ofList (Text.trim f.2.plain))) := by
  have hperm : r.entryFields.Perm
      (r.fields.map fun f => (f.1, String.ofList (Text.trim f.2.plain))) := by
    have hsame : (r.fields.map fun f => (f.1, String.ofList (Text.trim f.2.plain))) =
        r.fields.map fun f => (lowercase f.1, String.ofList (Text.trim f.2.plain)) :=
      List.map_congr_left fun f hf => by rw [hlower f hf]
    rw [hsame]
    exact (List.mergeSort_perm _ _).map _
  have hnames : (r.entryFields.map Prod.fst).Nodup := by
    rw [(hperm.map Prod.fst).nodup_iff, List.map_map]
    exact hnodup
  rw [toEntry_eq]
  exact (Keyed.putAll_eq_append (m := []) hnames).symm ▸ hperm

/-- Fields that are in the order of their names already stay in it. -/
theorem mapM_fillIn?_of_sorted {records : List Record} {known : Keyed String Record} {n : Nat}
    {es : List Entry}
    (hsorted : ∀ r ∈ records, ∀ filled ∈ r.fillIn? known n,
      filled.fields.Pairwise fun a b => !decide (b.1 < a.1))
    (hfilled : (records.mapM fun r => (r.fillIn? known n).map fun filled =>
      (Entry.new filled.key filled.type).setFields
        (filled.fields.map fun f => (f.1, String.ofList (Text.trim f.2.plain)))) = some es) :
    (records.mapM fun r => (r.fillIn? known n).map Record.toEntry) = some es := by
  rw [mapM_eq_some_iff] at hfilled ⊢
  refine ((List.forall₂_and_left _ _).mpr ⟨hsorted, hfilled⟩).imp fun r e h => ?_
  rw [← h.2]
  refine Option.map_congr fun filled hmem => ?_
  rw [Record.toEntry, List.mergeSort_of_pairwise (h.1 filled hmem)]

/-- Records that read the same have entries of the same content. -/
theorem Record.sameContent_toEntry {r : Record} {fields : Fields}
    (h : fields.SameReading r.fields) (hlower : ∀ f ∈ r.fields, lowercase f.1 = f.1)
    (hnodup : (r.fields.map Prod.fst).Nodup) (hnodup' : (fields.map Prod.fst).Nodup) :
    r.toEntry.SameContent { r with fields := fields }.toEntry := by
  have hperm := h.perm hnodup' hnodup
  have hlower' : ∀ f ∈ fields, lowercase f.1 = f.1 := by
    intro f hf
    obtain ⟨f', hf', heq⟩ := List.mem_map.mp (hperm.subset (List.mem_map_of_mem hf))
    rw [← congrArg Prod.fst heq]
    exact hlower f' hf'
  refine ⟨by rw [toEntry_eq, toEntry_eq], by rw [toEntry_eq, toEntry_eq], ?_⟩
  refine (perm_fields_toEntry hlower hnodup).trans (List.Perm.trans ?_
    (perm_fields_toEntry (r := { r with fields := fields }) hlower' hnodup').symm)
  have hmap := hperm.symm.map fun p : String × List Char × List Char =>
    (p.1, String.ofList (Text.trim p.2.1))
  rwa [List.map_map, List.map_map] at hmap

end Bibtex

namespace Entry

variable {e : Entry} {r : Bibtex.Record}

/-- The record of an entry has its names, each with what is stored for the value. -/
theorem forall₂_of_record? (h : e.record? = some r) :
    List.Forall₂ (fun f g => g.1 = f.1 ∧ Bibtex.fieldContent f.1 f.2.toList = some g.2)
      e.fields r.fields := by
  obtain ⟨fields, hfields, rfl⟩ := Option.map_eq_some_iff.mp h
  refine (mapM_eq_some_iff.mp hfields).imp fun f g hg => ?_
  obtain ⟨c, hc, rfl⟩ := Option.map_eq_some_iff.mp hg
  exact ⟨rfl, hc⟩

theorem map_fst_of_record? (h : e.record? = some r) :
    r.fields.map Prod.fst = e.fields.map Prod.fst :=
  (map_eq_map_of_forall₂ (forall₂_of_record? h) fun _ _ hfg => hfg.1.symm).symm

/-- The record of an entry is spelled as the entry is. -/
theorem Spelled.record (hspelled : e.Spelled) (h : e.record? = some r) :
    r.Spelled ∧ (∀ g ∈ r.fields, lowercase g.1 = g.1) ∧ Keyed.get? r.fields "xdata" = none := by
  have hname (g : String × Bibtex.Content) (hg : g ∈ r.fields) : ∃ f ∈ e.fields, g.1 = f.1 := by
    obtain ⟨f, hf, hfg⟩ := (exists_of_forall₂_of_mem (forall₂_of_record? h)).2 g hg
    exact ⟨f, hf, hfg.1⟩
  have hlower (g : String × Bibtex.Content) (hg : g ∈ r.fields) : lowercase g.1 = g.1 := by
    obtain ⟨f, hf, heq⟩ := hname g hg
    exact heq ▸ hspelled.lowercase_eq f hf
  obtain ⟨key, hkey, hchars⟩ := hspelled.key
  refine ⟨⟨?_, ?_, fun g hg => ?_, ?_⟩, hlower, ?_⟩
  · obtain ⟨fields, -, rfl⟩ := Option.map_eq_some_iff.mp h
    rwa [hkey, Option.getD_some]
  · obtain ⟨fields, -, rfl⟩ := Option.map_eq_some_iff.mp h
    exact hspelled.type
  · obtain ⟨f, hf, heq⟩ := hname g hg
    rw [Bibtex.isFieldName, heq, hspelled.isName f hf, Bool.true_and, decide_eq_true_eq,
      ← hspelled.lowercase_eq f hf, asciiLowercase_lowercase]
  · exact map_fst_of_record? h ▸ hspelled.nodup
  · refine Keyed.get?_eq_none_iff.mpr fun hmem => ?_
    obtain ⟨g, hg, hxdata⟩ := List.mem_map.mp hmem
    obtain ⟨f, hf, heq⟩ := hname g hg
    exact hspelled.ne_xdata f hf (heq.symm.trans hxdata)

/-- **An entry is that of its record** if its values read as they stand. -/
theorem sameContent_toEntry_iff (hspelled : e.Spelled) (h : e.record? = some r) :
    e.SameContent r.toEntry ↔ ∀ f ∈ e.fields, Bibtex.Stands f.1 f.2 := by
  have hfields := forall₂_of_record? h
  obtain ⟨⟨-, -, -, hnodup⟩, hlower, -⟩ := hspelled.record h
  have hperm := Bibtex.Record.perm_fields_toEntry hlower hnodup
  constructor
  · intro hsame f hf
    obtain ⟨g, hg, hname, hcontent⟩ := (exists_of_forall₂_of_mem hfields).1 f hf
    obtain ⟨g', hg', rfl⟩ :=
      List.mem_map.mp ((hsame.fields_perm.trans hperm).subset hf)
    -- the only field of that name is the one that was read for it
    obtain rfl : g = g' := List.inj_on_of_nodup_map hnodup hg hg' hname
    rw [Bibtex.Stands, hcontent]
    rfl
  · intro hstands
    have hwritten : e.fields =
        r.fields.map fun g => (g.1, String.ofList (Text.trim g.2.plain)) := by
      have hboth := (List.forall₂_and_left _ _).mpr ⟨hstands, hfields⟩
      rw [← List.map_id e.fields]
      refine map_eq_map_of_forall₂ hboth fun f g hfg => ?_
      obtain ⟨hf, hname, hcontent⟩ := hfg
      rw [Bibtex.Stands, hcontent, Option.map_some, Option.some.injEq] at hf
      exact Prod.ext hname.symm hf.symm
    obtain ⟨key, hkey, -⟩ := hspelled.key
    obtain ⟨fields, -, rfl⟩ := Option.map_eq_some_iff.mp h
    refine ⟨?_, ?_, hwritten ▸ hperm.symm⟩
    · rw [Bibtex.Record.toEntry_eq, hkey, Option.getD_some]
    · rw [Bibtex.Record.toEntry_eq, Bibtex.lowercase_of_isPlainWord
        (Bibtex.isPlainWord_of_isEntryType hspelled.type)]

/-- Values that read as they stand can be read. -/
theorem exists_record? (h : ∀ f ∈ e.fields, Bibtex.Stands f.1 f.2) : ∃ r, e.record? = some r := by
  obtain ⟨fields, hfields, -⟩ := exists_mapM_eq_some (R := fun _ _ => True)
    (f := fun f : String × String => (Bibtex.fieldContent f.1 f.2.toList).map fun c => (f.1, c))
    fun f hf => by
      obtain ⟨c, hc, -⟩ := Option.map_eq_some_iff.mp (h f hf)
      exact ⟨(f.1, c), by rw [hc, Option.map_some], trivial⟩
  exact ⟨_, by rw [record?, Bibtex.contents?, hfields, Option.map_some]⟩

/-- Entries come back as they were if their values read as they stand. -/
theorem forall₂_sameContent_iff {es es' : List Entry} {records : List Bibtex.Record}
    (hrecords : List.Forall₂ (fun e r => e.Spelled ∧ e.record? = some r) es records)
    (hsame : List.Forall₂ (fun r e => r.toEntry.SameContent e) records es') :
    List.Forall₂ SameContent es es' ↔ ∀ e ∈ es, ∀ f ∈ e.fields, Bibtex.Stands f.1 f.2 := by
  induction hrecords generalizing es' with
  | nil =>
    cases hsame
    simp
  | cons her _ ih =>
    cases hsame with
    | cons hre hrest =>
      rw [List.forall₂_cons, List.forall_mem_cons, ih hrest, ← sameContent_toEntry_iff her.1 her.2]
      exact and_congr_left fun _ => ⟨fun h => h.trans hre.symm, fun h => h.trans hre⟩

end Entry

namespace Database

variable {d d' : Database}

/-- Entries of different keys are all kept, in their order. -/
theorem entries_foldl_insert {es : List Entry} (hkeyed : d.WellKeyed)
    (hkeys : ∀ e ∈ es, ∃ key, e.citationKey = some key)
    (hnodup : ((d.entries ++ es).map Entry.slot?).Nodup) :
    (es.foldl insert d).entries = d.entries ++ es ∧ (es.foldl insert d).mode = d.mode := by
  induction es generalizing d with
  | nil => exact ⟨(List.append_nil _).symm, rfl⟩
  | cons e es ih =>
    rw [List.forall_mem_cons] at hkeys
    obtain ⟨⟨key, hkey⟩, hrest⟩ := hkeys
    have hnew : d.lookup key = none := by
      cases hfound : d.lookup key with
      | none => rfl
      | some e' =>
        obtain ⟨hmem, hslot⟩ := hkeyed.lookup_eq_some_iff.mp hfound
        rw [List.map_append, List.nodup_append] at hnodup
        refine absurd ?_ (hnodup.2.2 _ (List.mem_map_of_mem hmem) e.slot? List.mem_cons_self)
        rw [hslot, Entry.slot?, hkey, Option.map_some]
    have hentries : (d.insert e).entries = d.entries ++ [e] := entries_insert_of_new hkey hnew
    have hmode : (d.insert e).mode = d.mode := by rw [insert, hkey]
    obtain ⟨hes, hes'⟩ := ih (hkeyed.insert e) hrest (by
      rwa [hentries, List.append_assoc])
    rw [hentries, List.append_assoc] at hes
    exact ⟨hes, hes'.trans hmode⟩

/-! ## Reading back -/

/-- The records that the entries of an exported database are read as. -/
def records? (d : Database) : Option (List Bibtex.Record) := d.entries.mapM Entry.record?

/-- **Databases of the same content**: the same dialect, and the same entries in the same order. -/
structure SameContent (d d' : Database) : Prop where
  mode_eq : d.mode = d'.mode
  entries : List.Forall₂ Entry.SameContent d.entries d'.entries

/-- **An exported database reads back**: reading it succeeds and gives the same content. -/
def ReadsBack (d : Database) : Prop :=
  ∃ d', ofBibtex? d.toBibtex = some d' ∧ d.SameContent d'

/-- **The entries have what they take over** from one another, as far as they can be read. -/
def Settled (d : Database) : Prop :=
  ∀ records, d.records? = some records →
    ∀ r ∈ records, r.Settled (Bibtex.Library.of records).byKey

instance (d : Database) : Decidable d.Settled :=
  inferInstanceAs (Decidable (∀ records ∈ d.records?,
    ∀ r ∈ records, r.Settled (Bibtex.Library.of records).byKey))

/-- Nothing is taken over where no entry refers to another. -/
theorem settled_of_crossref_not_mem (hspelled : ∀ e ∈ d.entries, e.Spelled)
    (h : ∀ e ∈ d.entries, "crossref" ∉ e.fields.map Prod.fst) : d.Settled := by
  intro records hrecords r hr key hkey
  obtain ⟨e, he, her⟩ := (exists_of_forall₂_of_mem (mapM_eq_some_iff.mp hrecords)).2 r hr
  have hcrossref : Keyed.get? r.fields "crossref" = none :=
    Keyed.get?_eq_none_iff.mpr (Entry.map_fst_of_record? her ▸ h e he)
  rw [Bibtex.Record.references, Bibtex.Record.keysIn, hcrossref,
    ((hspelled e he).record her).2.2] at hkey
  cases hkey

/-- **A database that a file can hold as it is**. -/
structure Plain (d : Database) : Prop where
  /-- No entry is without fields. -/
  fields_ne_nil : ∀ e ∈ d.entries, e.fields ≠ []
  /-- Values read as they stand. -/
  stands : ∀ e ∈ d.entries, ∀ f ∈ e.fields, Bibtex.Stands f.1 f.2
  /-- No entry has a key that one before it lists as a further key. -/
  keys_apart : d.entries.Pairwise fun e e' => e'.key.getD "" ∉ e.furtherKeys
  /-- The mark of the newer dialect is not spelled in the older one. -/
  unmarked : d.mode = .bibtex → ∀ e ∈ d.entries, entrySpellsMark e = false

theorem plain_iff : d.Plain ↔
    (∀ e ∈ d.entries, e.fields ≠ []) ∧
      (∀ e ∈ d.entries, ∀ f ∈ e.fields, Bibtex.Stands f.1 f.2) ∧
      (d.entries.Pairwise fun e e' => e'.key.getD "" ∉ e.furtherKeys) ∧
      (d.mode = .bibtex → ∀ e ∈ d.entries, entrySpellsMark e = false) :=
  ⟨fun h => ⟨h.fields_ne_nil, h.stands, h.keys_apart, h.unmarked⟩,
    fun ⟨hfields, hstands, hapart, hmark⟩ => ⟨hfields, hstands, hapart, hmark⟩⟩

instance (d : Database) : Decidable d.Plain := decidable_of_iff' _ plain_iff

/-- The keys of entries, which are never empty. -/
theorem WellKeyed.slot?_eq (h : d.WellKeyed) {e : Entry} (he : e ∈ d.entries) :
    e.slot? = some (lowercase (e.key.getD "")) := by
  obtain ⟨key, hkey⟩ := h.exists_citationKey he
  rw [Entry.slot?, hkey, Option.map_some, (Option.filter_eq_some_iff.mp hkey).1, Option.getD_some]

theorem WellKeyed.nodup_keys (h : d.WellKeyed) :
    (d.entries.map fun e => e.key.getD "").Nodup := by
  have hslots : d.entries.map Entry.slot? =
      (d.entries.map fun e => e.key.getD "").map fun key => some (lowercase key) := by
    rw [List.map_map]
    exact List.map_congr_left fun e he => h.slot?_eq he
  exact List.Nodup.of_map _ (hslots ▸ h.nodup_slots)

/-- Entries are apart by their keys just when their records are. -/
theorem keys_apart_iff (hkeyed : d.WellKeyed) {records : List Bibtex.Record}
    (hrecords : d.records? = some records) :
    (d.entries.Pairwise fun e e' => e'.key.getD "" ∉ e.furtherKeys) ↔
      records.Pairwise fun q r => r.key ∉ q.keys := by
  have hkeys : (d.entries.map fun e => (e.key.getD "", e.furtherKeys)) =
      records.map fun r => (r.key, r.keysIn "ids") := by
    refine map_eq_map_of_forall₂ (mapM_eq_some_iff.mp hrecords) fun e r hr => ?_
    rw [Entry.furtherKeys, hr, Option.map_some, Option.getD_some]
    obtain ⟨fields, -, rfl⟩ := Option.map_eq_some_iff.mp hr
    rfl
  have hdistinct : (records.map Bibtex.Record.key).Nodup := by
    have hfst := congrArg (List.map Prod.fst) hkeys
    rw [List.map_map, List.map_map] at hfst
    exact hfst ▸ hkeyed.nodup_keys
  have hfurther : (d.entries.Pairwise fun e e' => e'.key.getD "" ∉ e.furtherKeys) ↔
      records.Pairwise fun q r => r.key ∉ q.keysIn "ids" := by
    have hboth := List.pairwise_map (l := d.entries) (f := fun e => (e.key.getD "", e.furtherKeys))
      (R := fun p p' => p'.1 ∉ p.2)
    rw [hkeys, List.pairwise_map] at hboth
    exact hboth.symm
  rw [hfurther]
  constructor
  · intro hids
    refine (List.Pairwise.and (List.pairwise_map.mp hdistinct) hids).imp fun h => ?_
    exact List.mem_cons.not.mpr (not_or.mpr ⟨Ne.symm h.1, h.2⟩)
  · exact fun h => h.imp fun hnot hmem => hnot (List.mem_cons_of_mem _ hmem)

/-- **A file that has the items of entries** is read as the entries of their records, which are
filled up. -/
theorem ofBibtex?_of_parse? {source : String} {mode : DatabaseMode} {es filled : List Entry}
    {records : List Bibtex.Record}
    (hitems : Bibtex.parse? source = some (dialectItems mode ++ es.map Entry.item))
    (hspelled : ∀ e ∈ es, e.Spelled) (hrecords : es.mapM Entry.record? = some records)
    (hapart : records.Pairwise fun q r => r.key ∉ q.keys)
    (hfilled : (records.mapM fun r =>
      (r.fillIn? (Bibtex.Library.of records).byKey records.length).map Bibtex.Record.toEntry) =
        some filled) :
    ofBibtex? source =
      some (ofEntries (if spellsMark source.toList then .biblatex else .bibtex) filled) := by
  have hentries : Bibtex.entries? (dialectItems mode ++ es.map Entry.item) = some filled := by
    rw [Bibtex.entries?_items hspelled, hrecords, Option.bind_some,
      Bibtex.Library.foldlM_add?_iff.mpr ⟨hapart, rfl⟩, Option.bind_some]
    exact hfilled
  rw [ofBibtex?, hitems]
  simp only [Option.bind_eq_bind, Option.bind_some, hentries]
  rfl

/-- Settled records stay as they read when they are filled up. -/
theorem Settled.exists_mapM_fillIn? (hsettled : d.Settled) (hspelled : ∀ e ∈ d.entries, e.Spelled)
    {records : List Bibtex.Record} (hrecords : d.records? = some records) :
    ∃ es, (records.mapM fun r =>
        (r.fillIn? (Bibtex.Library.of records).byKey records.length).map Bibtex.Record.toEntry) =
          some es ∧
      List.Forall₂ (fun r e => r.toEntry.SameContent e) records es := by
  have hrecord (r : Bibtex.Record) (hr : r ∈ records) : r.Spelled ∧
      (∀ g ∈ r.fields, lowercase g.1 = g.1) ∧ Keyed.get? r.fields "xdata" = none := by
    obtain ⟨e, he, her⟩ := (exists_of_forall₂_of_mem (mapM_eq_some_iff.mp hrecords)).2 r hr
    exact (hspelled e he).record her
  refine exists_mapM_eq_some fun r hr => ?_
  obtain ⟨hr', hlower, hxdata⟩ := hrecord r hr
  obtain ⟨n, hn⟩ := Nat.exists_eq_add_one.mpr (List.length_pos_of_mem hr)
  obtain ⟨fields, hfill, hreads⟩ := Bibtex.fillIn?_of_settled
    (fun key parent hparent =>
      have hmem := Bibtex.Library.mem_of_get?_byKey hparent
      ⟨hsettled records hrecords parent hmem, (hrecord parent hmem).2.2⟩)
    (n + 1) (hsettled records hrecords r hr) hxdata
  refine ⟨_, by rw [hn, hfill, Option.map_some], ?_⟩
  exact Bibtex.Record.sameContent_toEntry hreads hlower hr'.fields.nodup
    (hr'.fillIn hfill).1.fields.nodup

/-- The keys of records are those of the entries. -/
theorem map_key_of_records? (hspelled : ∀ e ∈ d.entries, e.Spelled) {records : List Bibtex.Record}
    (hrecords : d.records? = some records) :
    d.entries.map Entry.key = records.map fun r => some r.key := by
  refine map_eq_map_of_forall₂
    ((List.forall₂_and_left _ _).mpr ⟨hspelled, mapM_eq_some_iff.mp hrecords⟩) fun e r her => ?_
  obtain ⟨key, hkey, -⟩ := her.1.key
  obtain ⟨fields, -, rfl⟩ := Option.map_eq_some_iff.mp her.2
  rw [hkey, Option.getD_some]

/-- Entries with the keys of a database are all kept in a new one. -/
theorem WellKeyed.entries_ofEntries (hkeyed : d.WellKeyed) (mode : DatabaseMode) {es : List Entry}
    (hkeys : es.map Entry.key = d.entries.map Entry.key) :
    (ofEntries mode es).entries = es ∧ (ofEntries mode es).mode = mode := by
  refine entries_foldl_insert (wellKeyed_empty mode) (fun e he => ?_) ?_
  · obtain ⟨e', he', heq⟩ := List.mem_map.mp (hkeys ▸ List.mem_map_of_mem (f := Entry.key) he)
    obtain ⟨key, hkey⟩ := hkeyed.exists_citationKey he'
    exact ⟨key, by rw [Entry.citationKey, ← heq]; exact hkey⟩
  · have hslots (l : List Entry) : l.map Entry.slot? =
        (l.map Entry.key).map fun key => (key.filter (· ≠ "")).map lowercase := by
      rw [List.map_map]
      rfl
    have hnodup := hkeyed.nodup_slots
    rwa [hslots, ← hkeys, ← hslots] at hnodup

/-- **Reading an exported database** comes to the entries of its records, if these are settled. -/
theorem exists_ofBibtex?_toBibtex (hkeyed : d.WellKeyed) (hspelled : ∀ e ∈ d.entries, e.Spelled)
    (henclosed : d.Enclosed) (hsettled : d.Settled) (hfields : ∀ e ∈ d.entries, e.fields ≠ [])
    {records : List Bibtex.Record} (hrecords : d.records? = some records)
    (hapart : records.Pairwise fun q r => r.key ∉ q.keys) :
    ∃ d', ofBibtex? d.toBibtex = some d' ∧
      d'.mode = (if spellsMark d.toBibtex.toList then .biblatex else .bibtex) ∧
      List.Forall₂ (fun r e => r.toEntry.SameContent e) records d'.entries := by
  obtain ⟨es, hes, hsame⟩ := hsettled.exists_mapM_fillIn? hspelled hrecords
  have hread := ofBibtex?_of_parse?
    ((parse?_toBibtex_iff hkeyed hspelled henclosed).mpr ⟨hfields, rfl⟩) hspelled hrecords hapart
    hes
  have hkeys : records.map (fun r => some r.key) = es.map Entry.key :=
    map_eq_map_of_forall₂ hsame fun r e hre => hre.key_eq ▸ by rw [Bibtex.Record.toEntry_eq]
  obtain ⟨hkept, hmode⟩ := hkeyed.entries_ofEntries
    (if spellsMark d.toBibtex.toList then .biblatex else .bibtex)
    ((map_key_of_records? hspelled hrecords).trans hkeys).symm
  exact ⟨_, hread, hmode, by rw [hkept]; exact hsame⟩

/-- Whatever is read of an exported database, its entries have fields, its values can be read, and
the keys of its entries are apart. -/
theorem of_ofBibtex?_toBibtex (hkeyed : d.WellKeyed) (hspelled : ∀ e ∈ d.entries, e.Spelled)
    (henclosed : d.Enclosed) (h : ofBibtex? d.toBibtex = some d') :
    (∀ e ∈ d.entries, e.fields ≠ []) ∧ ∃ records, d.records? = some records ∧
      records.Pairwise fun q r => r.key ∉ q.keys := by
  obtain ⟨items, hitems, h⟩ := Option.bind_eq_some_iff.mp h
  obtain ⟨es, hes, -⟩ := Option.bind_eq_some_iff.mp h
  obtain ⟨hfields, rfl⟩ := (parse?_toBibtex_iff hkeyed hspelled henclosed).mp hitems
  rw [Bibtex.entries?_items hspelled] at hes
  obtain ⟨records, hrecords, hes⟩ := Option.bind_eq_some_iff.mp hes
  obtain ⟨library, hlibrary, -⟩ := Option.bind_eq_some_iff.mp hes
  exact ⟨hfields, records, hrecords, (Bibtex.Library.foldlM_add?_iff.mp hlibrary).1⟩

/-- The dialect comes back if no entry of a database in the older one spells the mark. -/
theorem mode_eq_iff (hspelled : ∀ e ∈ d.entries, e.Spelled) :
    (d.mode = if spellsMark d.toBibtex.toList then .biblatex else .bibtex) ↔
      (d.mode = .bibtex → ∀ e ∈ d.entries, entrySpellsMark e = false) := by
  rw [spellsMark_toBibtex hspelled]
  cases d.mode with
  | biblatex => simp
  | bibtex => simp

/-- **When exported databases read back.** A database that was read from a file, whose values
braces enclose and whose entries have what they take over, reads back after it was exported just
when a file can hold it as it is. -/
theorem readsBack_iff {source : String} (hread : ofBibtex? source = some d)
    (henclosed : d.Enclosed) (hsettled : d.Settled) : d.ReadsBack ↔ d.Plain := by
  obtain ⟨hkeyed, hspelled⟩ := spelled_of_ofBibtex? hread
  have hforall {records : List Bibtex.Record} (hrecords : d.records? = some records) :
      List.Forall₂ (fun e r => e.Spelled ∧ e.record? = some r) d.entries records :=
    (List.forall₂_and_left _ _).mpr ⟨hspelled, mapM_eq_some_iff.mp hrecords⟩
  constructor
  · rintro ⟨d', hd', hsame⟩
    obtain ⟨hfields, records, hrecords, hapart⟩ :=
      of_ofBibtex?_toBibtex hkeyed hspelled henclosed hd'
    obtain ⟨d'', hd'', hmode, hentries⟩ := exists_ofBibtex?_toBibtex hkeyed hspelled henclosed
      hsettled hfields hrecords hapart
    obtain rfl : d' = d'' := Option.some.inj (hd'.symm.trans hd'')
    constructor
    case fields_ne_nil => exact hfields
    case stands =>
      exact (Entry.forall₂_sameContent_iff (hforall hrecords) hentries).mp hsame.entries
    case keys_apart => exact (keys_apart_iff hkeyed hrecords).mpr hapart
    case unmarked => exact (mode_eq_iff hspelled).mp (hsame.mode_eq.trans hmode)
  · intro hplain
    obtain ⟨records, hrecords, -⟩ := exists_mapM_eq_some (R := fun _ _ => True) fun e he => by
      obtain ⟨r, hr⟩ := Entry.exists_record? (hplain.stands e he)
      exact ⟨r, hr, trivial⟩
    obtain ⟨d', hd', hmode, hentries⟩ := exists_ofBibtex?_toBibtex hkeyed hspelled henclosed
      hsettled hplain.fields_ne_nil hrecords
      ((keys_apart_iff hkeyed hrecords).mp hplain.keys_apart)
    refine ⟨d', hd', ((mode_eq_iff hspelled).mpr hplain.unmarked).trans hmode.symm, ?_⟩
    exact (Entry.forall₂_sameContent_iff (hforall hrecords) hentries).mpr hplain.stands

/-! ## A chapter of a book, and a price -/

/-- A chapter and its book as they stand in a file. -/
def chapterItems : List Entry :=
  [{ key := some "roe", type := "inbook",
     fields := [("author", "Roe"), ("booktitle", "{Oak} Trees"), ("crossref", "ed")] },
   { key := some "ed", type := "book",
     fields := [("title", "{Oak} Trees"), ("year", "2019")] }]

def chapterSource : String :=
  "@inbook\x7broe, author = \"Roe\", booktitle = \x7b\x7bOak\x7d Trees\x7d, " ++
    "crossref = \x7bed\x7d\x7d\n" ++
    "@book\x7bed, title = \x7b\x7bOak\x7d Trees\x7d, year = 2019\x7d\n"

/-- A book whose title is a price, as it stands in a file. -/
def priceItems : List Entry :=
  [{ key := some "a", type := "book", fields := [("title", "\\$5")] }]

def priceSource : String := "@book\x7ba, title = \x7b\\$5\x7d\x7d\n"

theorem spelled_of_samples : ∀ e ∈ chapterItems ++ priceItems, e.Spelled := by
  have hkey : ∀ e ∈ chapterItems ++ priceItems,
      ∃ key ∈ e.key, key.toList.all Bibtex.isKeyChar = true := by decide
  have htype : ∀ e ∈ chapterItems ++ priceItems, Bibtex.isEntryType e.type = true := by
    decide
  have hfields : ∀ e ∈ chapterItems ++ priceItems, (e.fields.map Prod.fst).Nodup ∧
      ∀ f ∈ e.fields, Bibtex.isName f.1.toList = true ∧ lowercase f.1 = f.1 ∧ f.1 ≠ "xdata" := by
    decide
  intro e he
  constructor
  case key =>
    obtain ⟨key, hsome, hchars⟩ := hkey e he
    exact ⟨key, hsome, List.all_eq_true.mp hchars⟩
  case type => exact htype e he
  case isName => exact fun f hf => ((hfields e he).2 f hf).1
  case lowercase_eq => exact fun f hf => ((hfields e he).2 f hf).2.1
  case ne_xdata => exact fun f hf => ((hfields e he).2 f hf).2.2
  case nodup => exact (hfields e he).1

/-- A value of which every letter stands for itself. -/
def letters (s : String) : Bibtex.Content := s.toList.map fun c => .text [c]

def chapterRecords : List Bibtex.Record :=
  [{ type := "inbook", key := "roe",
     fields := [("author", letters "Roe"), ("booktitle", letters "Oak Trees"),
       ("crossref", letters "ed")] },
   { type := "book", key := "ed",
     fields := [("title", letters "Oak Trees"), ("year", letters "2019")] }]

def priceRecords : List Bibtex.Record :=
  [{ type := "book", key := "a", fields := [("title", letters "$5")] }]

/-- The chapter and its book as they are read: the chapter takes the date over. -/
def chapterSources : Database :=
  .ofEntries .bibtex
    [{ key := some "roe", type := "inbook",
       fields := [("author", "Roe"), ("booktitle", "Oak Trees"), ("crossref", "ed"),
         ("date", "2019")] },
     { key := some "ed", type := "book",
       fields := [("title", "Oak Trees"), ("year", "2019")] }]

/-- The book as it is read: its title has a bare dollar sign. -/
def priceSources : Database :=
  .ofEntries .bibtex [{ key := some "a", type := "book", fields := [("title", "$5")] }]

theorem ofBibtex?_chapterSource : ofBibtex? chapterSource = some chapterSources := by
  have hitems : Bibtex.parse? chapterSource =
      some (dialectItems .bibtex ++ chapterItems.map Entry.item) := by cbv
  have hrecords : chapterItems.mapM Entry.record? = some chapterRecords := by cbv
  have hmark : spellsMark chapterSource.toList = false := by decide +kernel
  have hfilled : (chapterRecords.mapM fun r =>
      (r.fillIn? (Bibtex.Library.of chapterRecords).byKey 2).map Bibtex.Record.toEntry) =
        some chapterSources.entries :=
    Bibtex.mapM_fillIn?_of_sorted (by decide +kernel) (by decide +kernel)
  rw [ofBibtex?_of_parse? hitems (fun e he => spelled_of_samples e (List.mem_append_left _ he))
    hrecords (by decide +kernel) hfilled, hmark]
  rfl

theorem ofBibtex?_priceSource : ofBibtex? priceSource = some priceSources := by
  have hitems : Bibtex.parse? priceSource =
      some (dialectItems .bibtex ++ priceItems.map Entry.item) := by cbv
  have hrecords : priceItems.mapM Entry.record? = some priceRecords := by cbv
  have hmark : spellsMark priceSource.toList = false := by decide
  have hfilled : (priceRecords.mapM fun r =>
      (r.fillIn? (Bibtex.Library.of priceRecords).byKey 1).map Bibtex.Record.toEntry) =
        some priceSources.entries :=
    Bibtex.mapM_fillIn?_of_sorted (by decide) (by decide)
  rw [ofBibtex?_of_parse? hitems (fun e he => spelled_of_samples e (List.mem_append_right _ he))
    hrecords (by decide) hfilled, hmark]
  rfl

/-- The chapter and its book read back. -/
theorem readsBack_chapterSources : ofBibtex? chapterSource = some chapterSources ∧
    chapterSources.Enclosed ∧ chapterSources.Settled ∧ chapterSources.ReadsBack := by
  have henclosed : chapterSources.Enclosed := by decide +kernel
  have hsettled : chapterSources.Settled := by decide +kernel
  exact ⟨ofBibtex?_chapterSource, henclosed, hsettled,
    (readsBack_iff ofBibtex?_chapterSource henclosed hsettled).mpr (by decide +kernel)⟩

/-- The price does not read back: its dollar sign would start a formula. -/
theorem not_readsBack_priceSources : ofBibtex? priceSource = some priceSources ∧
    ¬ priceSources.ReadsBack := by
  refine ⟨ofBibtex?_priceSource, ?_⟩
  rintro ⟨d', hd', -⟩
  obtain ⟨hkeyed, hspelled⟩ := spelled_of_ofBibtex? ofBibtex?_priceSource
  obtain ⟨-, records, hrecords, -⟩ :=
    of_ofBibtex?_toBibtex hkeyed hspelled (by decide +kernel) hd'
  have hnone : priceSources.records?.isSome = false := by decide +kernel
  rw [hrecords] at hnone
  cases hnone

end Database

end DocCite
