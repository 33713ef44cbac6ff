import DocCite.Database.Bibtex
import DocCite.Proofs.Database.Lookup
import DocCite.Proofs.Lists
import DocCite.Proofs.Text.Lowercase

/-!
# Names that files can spell

What a database that was read from a BibTeX file calls its entries, their types and their fields is
spelled as a file can spell it (`spelled_of_ofBibtex?`), whatever the entries took over from one
another. Names of fields are in lowercase and stay what they are when they are read again.
-/

namespace DocCite

namespace Bibtex

/-! ## Names as they are read -/

/-- Whether a text is a name. -/
def isName (s : List Char) : Bool := s.head?.any startsName && s.all isNameChar

/-- Whether a text is the name of a field: case does not count in such names. -/
def isFieldName (n : String) : Bool := isName n.toList && decide (asciiLowercase n = n)

theorem isNameChar_of_startsName {c : Char} (h : startsName c = true) : isNameChar c = true :=
  (Bool.and_eq_true_iff.mp h).1

theorem isName_of_name {s rest : List Char} {n : String} (h : name s = some (n, rest)) :
    isName n.toList = true := by
  unfold name at h
  split at h
  · cases h
  · next c more =>
    split at h
    · next hstart =>
      cases h
      rw [isName, String.toList_ofList, List.all_takeWhile, Bool.and_true,
        List.takeWhile_cons_of_pos (isNameChar_of_startsName hstart)]
      exact hstart
    · cases h

theorem isName_of_assignments {n : Nat} {s rest : List Char} {fields : List Assignment}
    (h : assignments n s = some (fields, rest)) : ∀ f ∈ fields, isName f.1.toList = true := by
  induction n generalizing s rest fields with
  | zero => cases h
  | succ n ih =>
    rw [assignments] at h
    split at h
    · cases h
      exact fun f hf => absurd hf List.not_mem_nil
    · simp only [Option.bind_eq_bind, Option.bind_eq_some_iff, Prod.exists] at h
      obtain ⟨field, afterField, hname, afterEquals, -, value, afterValue, -, h⟩ := h
      split at h
      · simp only [Option.bind_eq_some_iff, Prod.exists] at h
        obtain ⟨more, after, hmore, h⟩ := h
        cases h
        exact List.forall_mem_cons.mpr ⟨isName_of_name hname, ih hmore⟩
      · cases h
        exact List.forall_mem_singleton.mpr (isName_of_name hname)
      · cases h

/-- An item whose key and names are spelled as they are read. -/
def Item.Spelled (i : Item) : Prop :=
  ∀ type key fields, i = .record type key fields →
    (∀ c ∈ key.toList, isKeyChar c = true) ∧ ∀ f ∈ fields, isName f.1.toList = true

theorem spelled_of_item {n : Nat} {s rest : List Char} {i : Item} (h : item n s = some (i, rest)) :
    i.Spelled := by
  simp only [item, Option.bind_eq_bind, Option.bind_eq_some_iff, Prod.exists] at h
  obtain ⟨word, afterWord, -, body, -, h⟩ := h
  intro type key fields hi
  subst hi
  split at h
  · simp only [Option.bind_eq_some_iff, Prod.exists] at h
    obtain ⟨names, after, -, h⟩ := h
    cases h
  split at h
  · simp only [Option.bind_eq_some_iff, Prod.exists] at h
    obtain ⟨quote, -, text, afterQuote, -, after, -, h⟩ := h
    cases h
  split at h
  · simp only [Option.bind_eq_some_iff] at h
    obtain ⟨after, -, h⟩ := h
    cases h
  · simp only [Option.bind_eq_some_iff, Prod.exists] at h
    obtain ⟨afterComma, -, fields, after, hfields, h⟩ := h
    cases h
    refine ⟨fun c hc => ?_, isName_of_assignments hfields⟩
    rw [String.toList_ofList] at hc
    exact List.all_eq_true.mp List.all_takeWhile c hc

theorem spelled_of_items {n : Nat} {s : List Char} {found : List Item}
    (h : items n s = some found) : ∀ i ∈ found, i.Spelled := by
  induction n generalizing s found with
  | zero => cases h
  | succ n ih =>
    rw [items] at h
    split at h
    · cases h
      exact fun i hi => absurd hi List.not_mem_nil
    · simp only [Option.bind_eq_bind, Option.bind_eq_some_iff, Prod.exists] at h
      obtain ⟨first, after, hfirst, more, hmore, h⟩ := h
      cases h
      exact List.forall_mem_cons.mpr ⟨spelled_of_item hfirst, ih hmore⟩
    · exact ih h

/-! ## Lowering the case of names -/

theorem isNameChar_of_isNewLetter {c : Char} (h : Text.IsNewLetter c) : isNameChar c = true := by
  rcases h with rfl | rfl | ⟨hle, hblank⟩
  · decide
  · decide
  · have hspecial : ∀ d ∈ ['@', '{', '}', '"', '#', '\'', '(', ')', ',', '=', '%', '\\', '~'],
        d.toNat < 160 := by simp
    rw [isNameChar, hblank, isControl]
    simp only [Bool.not_false, Bool.and_true, Bool.and_eq_true, Bool.not_eq_true',
      Bool.or_eq_false_iff, decide_eq_false_iff_not, Bool.and_eq_false_iff]
    refine ⟨?_, by omega, by omega⟩
    rw [← Bool.not_eq_true, List.contains_iff_mem]
    intro hmem
    have := hspecial c hmem
    omega

theorem startsName_of_isNewLetter {c : Char} (h : Text.IsNewLetter c) : startsName c = true := by
  rw [startsName, isNameChar_of_isNewLetter h, Bool.true_and, Bool.not_eq_true', ← Bool.not_eq_true,
    List.contains_iff_mem]
  intro hmem
  have hspecial : ∀ d ∈ [':', '<', '-', '>'], ¬ Text.IsNewLetter d := by simp [Text.IsNewLetter]
  exact hspecial c hmem h

theorem isNameChar_toLower :
    ∀ n < 128, isNameChar (Char.ofNat n) = true → isNameChar (Char.ofNat n).toLower = true := by
  decide

theorem startsName_toLower :
    ∀ n < 128, startsName (Char.ofNat n) = true → startsName (Char.ofNat n).toLower = true := by
  decide

theorem isName_cons_iff {c : Char} {s : List Char} :
    isName (c :: s) = true ↔ startsName c = true ∧ ∀ d ∈ s, isNameChar d = true := by
  rw [isName, Bool.and_eq_true, List.all_eq_true, List.forall_mem_cons]
  refine and_congr_right fun hstart => and_iff_right (isNameChar_of_startsName ?_)
  exact hstart

theorem isName_map_toLower {s : List Char} (h : isName s = true) :
    isName (s.map Char.toLower) = true := by
  cases s with
  | nil => cases h
  | cons c s =>
    rw [isName_cons_iff] at h
    rw [List.map_cons, isName_cons_iff]
    refine ⟨Text.toLower_keeps (P := (startsName · = true)) startsName_toLower h.1, fun d hd => ?_⟩
    obtain ⟨d', hd', rfl⟩ := List.mem_map.mp hd
    exact Text.toLower_keeps (P := (isNameChar · = true)) isNameChar_toLower (h.2 d' hd')

theorem isName_lower {s : List Char} (h : isName s = true) : isName (Text.lower s) = true := by
  have hchar {c d : Char} (hc : isNameChar c = true) (hd : Text.Lowers c d) : isNameChar d = true :=
    hd.keeps (P := (isNameChar · = true)) isNameChar_toLower (fun _ => isNameChar_of_isNewLetter) hc
  cases s with
  | nil => cases h
  | cons c s =>
    have hall : ∀ d ∈ c :: s, isNameChar d = true :=
      List.all_eq_true.mp (Bool.and_eq_true_iff.mp h).2
    obtain ⟨d, more, heq, hfirst⟩ := Text.exists_lowerAfter_cons [] c s
    rw [Text.lower, heq, List.cons_append, isName_cons_iff]
    refine ⟨?_, fun d' hd' => ?_⟩
    · exact (hfirst d List.mem_cons_self).keeps (P := (startsName · = true)) startsName_toLower
        (fun _ => startsName_of_isNewLetter) (isName_cons_iff.mp h).1
    · have hmem : d' ∈ Text.lowerAfter [] (c :: s) := heq ▸ List.mem_cons_of_mem d hd'
      obtain ⟨c', hc', hlowers⟩ := Text.exists_lowers_of_mem hmem
      exact hchar (hall c' hc') hlowers

/-! ## Plain words -/

/-- Whether a text is a word of ASCII letters in lowercase. -/
def isPlainWord (s : List Char) : Bool :=
  !s.isEmpty && s.all fun c => Nat.ble 97 c.toNat && Nat.ble c.toNat 122

theorem isPlainWord_iff {s : List Char} :
    isPlainWord s = true ↔ s ≠ [] ∧ ∀ c ∈ s, 97 ≤ c.toNat ∧ c.toNat ≤ 122 := by
  simp only [isPlainWord, Bool.and_eq_true, Bool.not_eq_true', List.isEmpty_eq_false_iff,
    List.all_eq_true, Nat.ble_eq]

/-- Letters that start a name and stay what they are. -/
theorem startsName_of_letter {c : Char} (h : 97 ≤ c.toNat ∧ c.toNat ≤ 122) :
    startsName c = true ∧ Text.IsLowered c := by
  have hall : ∀ n < 123, 97 ≤ n →
      startsName (Char.ofNat n) = true ∧ Text.IsLowered (Char.ofNat n) :=
    by decide
  simpa only [Char.ofNat_toNat] using hall c.toNat (by omega) h.1

theorem isName_of_isPlainWord {s : List Char} (h : isPlainWord s = true) : isName s = true := by
  obtain ⟨hne, hletters⟩ := isPlainWord_iff.mp h
  cases s with
  | nil => exact absurd rfl hne
  | cons c s =>
    rw [List.forall_mem_cons] at hletters
    exact isName_cons_iff.mpr ⟨(startsName_of_letter hletters.1).1, fun d hd =>
      isNameChar_of_startsName (startsName_of_letter (hletters.2 d hd)).1⟩

theorem lowercase_of_isPlainWord {t : String} (h : isPlainWord t.toList = true) :
    lowercase t = t := by
  have hlower : Text.lower t.toList = t.toList := Text.lowerAfter_eq_self fun c hc =>
    (startsName_of_letter ((isPlainWord_iff.mp h).2 c hc)).2
  rw [lowercase, hlower, String.ofList_toList]

/-! ## Fields -/

theorem isFieldName_of_isPlainWord {n : String} (h : isPlainWord n.toList = true) :
    isFieldName n = true := by
  rw [isFieldName, isName_of_isPlainWord h, Bool.true_and, decide_eq_true_eq,
    ← lowercase_of_isPlainWord h, asciiLowercase_lowercase]

theorem isFieldName_asciiLowercase {n : String} (h : isName n.toList = true) :
    isFieldName (asciiLowercase n) = true := by
  rw [isFieldName, asciiLowercase_asciiLowercase, Bool.and_eq_true, decide_eq_true_eq]
  refine ⟨?_, rfl⟩
  rw [asciiLowercase, String.toList_ofList]
  exact isName_map_toLower h

/-- Fields under different names that a file can spell. -/
structure Fields.Spelled (fields : Fields) : Prop where
  names : ∀ f ∈ fields, isFieldName f.1 = true
  nodup : (fields.map Prod.fst).Nodup

namespace Fields.Spelled

variable {fields : Fields} {n : String}

theorem put (h : Spelled fields) (hn : isFieldName n = true) (value : Content) :
    Spelled (Keyed.put fields n value) where
  names f hf := by
    rcases Keyed.mem_put hf with hmem | rfl
    · exact h.names f hmem
    · exact hn
  nodup := Keyed.nodup_map_fst_put h.nodup n value

theorem erase (h : Spelled fields) (n : String) : Spelled (Keyed.erase fields n) where
  names f hf := h.names f (List.mem_of_mem_filter hf)
  nodup := h.nodup.sublist (List.filter_sublist.map Prod.fst)

theorem setDate (h : Spelled fields) (date : Content) : Spelled (setDate fields date) :=
  (((h.put (isFieldName_of_isPlainWord (by decide)) date).erase "year").erase "month").erase "day"

end Fields.Spelled

theorem isFieldName_of_mem_fieldsOfType (type : String) :
    ∀ n ∈ commonFields ++ typeFields type, isFieldName n = true := by
  suffices h : ∀ n ∈ commonFields ++ typeFields type, isPlainWord n.toList = true from
    fun n hn => isFieldName_of_isPlainWord (h n hn)
  refine List.forall_mem_append.mpr ⟨by decide +kernel, ?_⟩
  unfold typeFields
  split <;> decide +kernel

/-- Whatever is taken over, the names of the fields are ones that a file can spell. -/
theorem Fields.Spelled.inherit {fields parent filled : Fields} {type parentType : String}
    (h : Spelled fields) (hfilled : inherit? type parentType fields parent = some filled) :
    Spelled filled := by
  simp only [inherit?] at hfilled
  generalize hfold : List.foldl _ fields _ = added at hfilled
  have hadded : Spelled added := by
    rw [← hfold]
    refine List.foldlRecOn _ _ h fun fields hfields n hn => ?_
    split
    · exact hfields
    split
    · exact hfields.put (isFieldName_of_mem_fieldsOfType type n hn) _
    · exact hfields
  split at hfilled
  · obtain ⟨date, -, hdate⟩ := Option.bind_eq_some_iff.mp hfilled
    split at hdate
    · cases hdate
      exact hadded.setDate _
    · cases hdate
      exact hadded
  · cases hfilled
    exact hadded

theorem Fields.Spelled.of_fieldsOf {names fields : List Assignment} {values : Fields}
    (hnames : ∀ f ∈ fields, isName f.1.toList = true) (h : fieldsOf names fields = some values) :
    Spelled values := by
  refine of_foldlM_eq_some (fun done f done' hf hdone hstep => ?_) h ⟨by simp, List.nodup_nil⟩
  obtain ⟨value, -, hvalue⟩ := Option.bind_eq_some_iff.mp hstep
  cases hvalue
  exact Fields.Spelled.put hdone (isFieldName_asciiLowercase (hnames f hf)) value

/-! ## Records -/

/-- Whether a word is the type of an entry. -/
def isEntryType (t : String) : Bool :=
  decide (entryType t = t) && isPlainWord t.toList &&
    !(["string", "preamble", "comment"].contains t)

theorem isPlainWord_of_isEntryType {t : String} (h : isEntryType t = true) :
    isPlainWord t.toList = true := by
  simp only [isEntryType, Bool.and_eq_true] at h
  exact h.1.2

theorem isEntryType_entryType (word : String) : isEntryType (entryType word) = true := by
  unfold entryType
  split
  · decide +kernel
  split
  · decide +kernel
  split
  · next hconference honline h =>
    clear hconference honline
    rw [List.contains_iff_mem] at h
    revert word
    decide +kernel
  · decide +kernel

/-- A record whose key, type and names of fields a file can spell. -/
structure Record.Spelled (r : Record) : Prop where
  key : ∀ c ∈ r.key.toList, isKeyChar c = true
  type : isEntryType r.type = true
  fields : r.fields.Spelled

/-- A record stays spelled when it takes fields over, and what `xdata` says is used up. -/
theorem Record.Spelled.fillIn {r filled : Record} {known : Keyed String Record} {n : Nat}
    (h : r.Spelled) (hfilled : r.fillIn? known (n + 1) = some filled) :
    filled.Spelled ∧ "xdata" ∉ filled.fields.map Prod.fst := by
  rw [fillIn?] at hfilled
  obtain ⟨fields, hfields, heq⟩ := Option.bind_eq_some_iff.mp hfilled
  cases heq
  have hspelled : Fields.Spelled fields := by
    refine of_foldlM_eq_some (fun done key done' hkey hdone hstep => ?_) hfields h.fields
    split at hstep
    · cases hstep
      exact hdone
    · obtain ⟨parent, -, hparent⟩ := Option.bind_eq_some_iff.mp hstep
      exact Fields.Spelled.inherit hdone hparent
  refine ⟨⟨h.key, h.type, hspelled.erase "xdata"⟩, ?_⟩
  rw [← Keyed.get?_eq_none_iff]
  exact Keyed.get?_erase_self fields "xdata"

end Bibtex

/-! ## Entries -/

/-- **An entry that a file can spell**: its key, its type, and the names of its fields, which stay
what they are when they are read. -/
structure Entry.Spelled (e : Entry) : Prop where
  key : ∃ key, e.key = some key ∧ ∀ c ∈ key.toList, Bibtex.isKeyChar c = true
  type : Bibtex.isEntryType e.type = true
  isName : ∀ f ∈ e.fields, Bibtex.isName f.1.toList = true
  lowercase_eq : ∀ f ∈ e.fields, lowercase f.1 = f.1
  ne_xdata : ∀ f ∈ e.fields, f.1 ≠ "xdata"
  nodup : (e.fields.map Prod.fst).Nodup

/-- Fields that are set one after another are put under their lowercase names. -/
theorem Entry.setFields_eq (e : Entry) (fields : List (String × String)) :
    e.setFields fields =
      { e with fields := e.fields.putAll (fields.map fun f => (lowercase f.1, f.2)) } := by
  unfold setFields
  induction fields generalizing e with
  | nil => rfl
  | cons f fields ih => exact ih (e.setField f.1 f.2)

namespace Bibtex

/-- The fields of the entry of a record, in the order of their names. -/
def Record.entryFields (r : Record) : List (String × String) :=
  (r.fields.mergeSort fun a b => !(b.1 < a.1)).map fun f =>
    (lowercase f.1, String.ofList (Text.trim f.2.plain))

theorem Record.toEntry_eq (r : Record) :
    r.toEntry = { key := some r.key, type := lowercase r.type,
                  fields := Keyed.putAll [] r.entryFields } := by
  unfold toEntry entryFields
  rw [Entry.setFields_eq, List.map_map]
  rfl

theorem Record.exists_of_mem_entryFields {r : Record} {f : String × String}
    (h : f ∈ r.entryFields) : ∃ f' ∈ r.fields, f.1 = lowercase f'.1 := by
  obtain ⟨f', hf', rfl⟩ := List.mem_map.mp h
  exact ⟨f', List.mem_mergeSort.mp hf', rfl⟩

theorem Record.Spelled.toEntry {r : Record} (h : r.Spelled)
    (hxdata : "xdata" ∉ r.fields.map Prod.fst) : r.toEntry.Spelled := by
  rw [Record.toEntry_eq]
  have hword := isPlainWord_of_isEntryType h.type
  have hfield (f : String × String) (hf : f ∈ Keyed.putAll [] r.entryFields) :
      ∃ f' ∈ r.fields, f.1 = lowercase f'.1 := by
    rcases Keyed.mem_putAll hf with hnil | hmem
    · exact absurd hnil List.not_mem_nil
    · exact Record.exists_of_mem_entryFields hmem
  constructor
  case key => exact ⟨r.key, rfl, h.key⟩
  case type => exact (lowercase_of_isPlainWord hword).symm ▸ h.type
  case isName =>
    intro f hf
    obtain ⟨f', hf', heq⟩ := hfield f hf
    have hname := (Bool.and_eq_true_iff.mp (h.fields.names f' hf')).1
    rw [heq, lowercase, String.toList_ofList]
    exact isName_lower hname
  case lowercase_eq =>
    intro f hf
    obtain ⟨f', -, heq⟩ := hfield f hf
    rw [heq, lowercase_lowercase]
  case ne_xdata =>
    intro f hf hx
    obtain ⟨f', hf', heq⟩ := hfield f hf
    have hascii := of_decide_eq_true (Bool.and_eq_true_iff.mp (h.fields.names f' hf')).2
    have hlower : Text.lower f'.1.toList = "xdata".toList := by
      rw [← hx, heq, lowercase, String.toList_ofList]
    -- no other name in lowercase ASCII letters becomes this one
    have hsame : Text.lower f'.1.toList = f'.1.toList :=
      Text.lower_eq_self (toLower_eq_of_asciiLowercase hascii) (by
        rw [hlower]
        simp [Text.IsNewLetter])
    have hname : f'.1 = "xdata" := String.toList_inj.mp (hsame.symm.trans hlower)
    exact hxdata (hname ▸ List.mem_map_of_mem hf')
  case nodup => exact Keyed.nodup_map_fst_putAll (m := []) List.nodup_nil _

end Bibtex

namespace Database

theorem mem_of_mem_ofEntries {mode : DatabaseMode} {es : List Entry} {e : Entry}
    (h : e ∈ (ofEntries mode es).entries) : e ∈ es := by
  refine List.foldlRecOn (motive := fun db : Database => e ∈ db.entries → e ∈ es) es _
    (fun hnil => absurd hnil List.not_mem_nil) (fun db hdb e' he' hmem => ?_) h
  unfold insert at hmem
  split at hmem
  · obtain ⟨p, hp, heq⟩ := List.mem_map.mp hmem
    rcases Keyed.mem_put hp with hold | rfl
    · exact hdb (heq ▸ List.mem_map_of_mem hold)
    · exact heq ▸ he'
  · exact hdb hmem

/-- **What was read can be spelled.** -/
theorem spelled_of_ofBibtex? {source : String} {d : Database} (h : ofBibtex? source = some d) :
    d.WellKeyed ∧ ∀ e ∈ d.entries, e.Spelled := by
  obtain ⟨items, hitems, h⟩ := Option.bind_eq_some_iff.mp h
  obtain ⟨entries, hentries, h⟩ := Option.bind_eq_some_iff.mp h
  cases h
  refine ⟨wellKeyed_ofEntries _ _, fun e he => ?_⟩
  obtain ⟨library, hlibrary, hentries⟩ := Option.bind_eq_some_iff.mp hentries
  have hrecords : ∀ r ∈ library.records, r.Spelled := by
    refine of_foldlM_eq_some (P := fun library => ∀ r ∈ library.records, r.Spelled)
      (fun done i done' hi hdone hstep => ?_) hlibrary (by simp)
    split at hstep
    · next type key fields =>
      obtain ⟨values, hvalues, hadd⟩ := Option.bind_eq_some_iff.mp hstep
      have hspelled := Bibtex.spelled_of_items hitems _ hi type key fields rfl
      unfold Bibtex.Library.add? at hadd
      split at hadd
      · cases hadd
      · cases hadd
        refine List.forall_mem_append.mpr ⟨hdone, List.forall_mem_singleton.mpr ?_⟩
        exact ⟨hspelled.1, Bibtex.isEntryType_entryType type,
          Bibtex.Fields.Spelled.of_fieldsOf hspelled.2 hvalues⟩
    · cases hstep
      exact hdone
  obtain ⟨r, hr, hentry⟩ :=
    (exists_of_forall₂_of_mem (mapM_eq_some_iff.mp hentries)).2 e (mem_of_mem_ofEntries he)
  obtain ⟨filled, hfilled, rfl⟩ := Option.map_eq_some_iff.mp hentry
  obtain ⟨n, hn⟩ := Nat.exists_eq_add_one.mpr (List.length_pos_of_mem hr)
  rw [hn] at hfilled
  obtain ⟨hspelled, hxdata⟩ := (hrecords r hr).fillIn hfilled
  exact hspelled.toEntry hxdata

end Database

end DocCite
