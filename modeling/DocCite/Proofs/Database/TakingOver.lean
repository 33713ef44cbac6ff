import DocCite.Proofs.Database.Spelled

/-!
# What entries take over from one another

Fields count by how they read (`Fields.SameReading`), not by the stretches that their values are
kept in: what is taken over depends on nothing else (`inherit?_congr`). A record that has all that
the records it refers to hand down is settled, and taking over changes nothing about settled
records, however long the chains are that they form (`fillIn?_of_settled`).
-/

namespace DocCite.Bibtex

/-- How a value reads, without its formulas and with them. -/
def Content.reading (c : Content) : List Char × List Char := (c.plain, c.written)

namespace Fields

/-- Fields of the same names that read the same. -/
def SameReading (fields fields' : Fields) : Prop :=
  ∀ n, (Keyed.get? fields n).map Content.reading = (Keyed.get? fields' n).map Content.reading

variable {fields fields' fields'' : Fields} {c c' : Content}

namespace SameReading

theorem refl (fields : Fields) : SameReading fields fields := fun _ => rfl

theorem symm (h : SameReading fields fields') : SameReading fields' fields := fun n => (h n).symm

theorem trans (h : SameReading fields fields') (h' : SameReading fields' fields'') :
    SameReading fields fields'' :=
  fun n => (h n).trans (h' n)

theorem put (h : SameReading fields fields') (n : String) (hc : c.reading = c'.reading) :
    SameReading (Keyed.put fields n c) (Keyed.put fields' n c') := by
  intro m
  rw [Keyed.get?_put, Keyed.get?_put]
  split
  · exact congrArg some hc
  · exact h m

theorem erase (h : SameReading fields fields') (n : String) :
    SameReading (Keyed.erase fields n) (Keyed.erase fields' n) := by
  intro m
  by_cases hm : m = n
  · rw [hm, Keyed.get?_erase_self, Keyed.get?_erase_self]
  · rw [Keyed.get?_erase_of_ne fields hm, Keyed.get?_erase_of_ne fields' hm]
    exact h m

theorem setDate (h : SameReading fields fields') (hc : c.reading = c'.reading) :
    SameReading (setDate fields c) (setDate fields' c') :=
  (((h.put "date" hc).erase "year").erase "month").erase "day"

theorem map_written (h : SameReading fields fields') (n : String) :
    (Keyed.get? fields n).map Content.written = (Keyed.get? fields' n).map Content.written := by
  have hmap := congrArg (Option.map Prod.snd) (h n)
  rw [Option.map_map, Option.map_map] at hmap
  exact hmap

theorem isSome_eq (h : SameReading fields fields') (n : String) :
    (Keyed.get? fields n).isSome = (Keyed.get? fields' n).isSome := by
  simpa only [Option.isSome_map] using congrArg Option.isSome (h n)

/-- Fields that read the same give dates that read the same. -/
theorem dateOf (h : SameReading fields fields') :
    (dateOf fields).map (Option.map Content.reading) =
      (dateOf fields').map (Option.map Content.reading) := by
  have hdate := h "date"
  have hyear := h.map_written "year"
  unfold Bibtex.dateOf
  rw [h.map_written "month", h.map_written "day"]
  cases hd : Keyed.get? fields "date" with
  | some date =>
    rw [hd] at hdate
    obtain ⟨date', hd', heq⟩ := Option.map_eq_some_iff.mp hdate.symm
    have hwritten : date'.written = date.written := congrArg Prod.snd heq
    rw [hd']
    simp only [hwritten]
    split
    · rfl
    · exact congrArg (fun r => some (some r)) heq.symm
  | none =>
    rw [hd] at hdate
    rw [Option.map_eq_none_iff.mp hdate.symm]
    cases hy : Keyed.get? fields "year" with
    | none =>
      rw [hy] at hyear
      rw [Option.map_eq_none_iff.mp hyear.symm]
    | some year =>
      rw [hy] at hyear
      obtain ⟨year', hy', heq⟩ := Option.map_eq_some_iff.mp hyear.symm
      rw [hy']
      simp only [heq]

end SameReading

/-- Only the names that fields have count. -/
theorem sameReading_iff : SameReading fields fields' ↔
    ∀ n ∈ fields.map Prod.fst ++ fields'.map Prod.fst,
      (Keyed.get? fields n).map Content.reading = (Keyed.get? fields' n).map Content.reading := by
  refine ⟨fun h n _ => h n, fun h n => ?_⟩
  by_cases hn : n ∈ fields.map Prod.fst ++ fields'.map Prod.fst
  · exact h n hn
  · obtain ⟨hfields, hfields'⟩ := List.mem_append.not.trans not_or |>.mp hn
    rw [Keyed.get?_eq_none_iff.mpr hfields, Keyed.get?_eq_none_iff.mpr hfields']

instance (fields fields' : Fields) : Decidable (SameReading fields fields') :=
  decidable_of_iff' _ sameReading_iff

end Fields

/-- **What is taken over depends on how fields read**, on either side. -/
theorem inherit?_congr {type parentType : String} {fields fields' parent parent' filled : Fields}
    (h : fields.SameReading fields') (hparent : parent.SameReading parent')
    (hfilled : inherit? type parentType fields parent = some filled) :
    ∃ filled', inherit? type parentType fields' parent' = some filled' ∧
      filled.SameReading filled' := by
  simp only [inherit?] at hfilled ⊢
  generalize hadded : List.foldl _ fields _ = added at hfilled
  generalize hadded' : List.foldl _ fields' _ = added'
  have hsame : added.SameReading added' := by
    rw [← hadded, ← hadded']
    refine List.foldl_rel h fun n _ done done' hdone => ?_
    rw [hdone.isSome_eq n]
    split
    · exact hdone
    -- the field of the parent reads the same, if there is one
    have hvalue : ((inheritedFrom? parentType n).bind (Keyed.get? parent)).map Content.reading =
        ((inheritedFrom? parentType n).bind (Keyed.get? parent')).map Content.reading := by
      cases inheritedFrom? parentType n with
      | none => rfl
      | some m => exact hparent m
    split
    · next value hfound =>
      rw [hfound] at hvalue
      obtain ⟨value', hfound', heq⟩ := Option.map_eq_some_iff.mp hvalue.symm
      rw [hfound']
      exact hdone.put n heq.symm
    · next hnone =>
      rw [hnone] at hvalue
      rw [Option.map_eq_none_iff.mp hvalue.symm]
      exact hdone
  split at hfilled
  · next htype =>
    rw [if_pos htype]
    obtain ⟨date, hdate, hfilled⟩ := Option.bind_eq_some_iff.mp hfilled
    have hdates := hparent.dateOf
    rw [hdate, Option.map_some] at hdates
    obtain ⟨date', hdate', heq⟩ := Option.map_eq_some_iff.mp hdates.symm
    rw [hdate']
    cases date with
    | none =>
      cases hfilled
      rw [Option.map_none] at heq
      rw [Option.map_eq_none_iff.mp heq]
      exact ⟨added', rfl, hsame⟩
    | some date =>
      cases hfilled
      obtain ⟨date', rfl, hreading⟩ := Option.map_eq_some_iff.mp heq
      exact ⟨_, rfl, hsame.setDate hreading.symm⟩
  · next htype =>
    rw [if_neg htype]
    cases hfilled
    exact ⟨added', rfl, hsame⟩

/-! ## Settled records -/

/-- **A record that has what it takes over**: what the records that it refers to hand down leaves
its fields as they read. -/
def Record.Settled (known : Keyed String Record) (r : Record) : Prop :=
  ∀ key ∈ r.references, ∀ parent, known.get? key = some parent →
    ∃ filled, inherit? r.type parent.type r.fields parent.fields = some filled ∧
      filled.SameReading r.fields

instance (known : Keyed String Record) (r : Record) : Decidable (r.Settled known) :=
  inferInstanceAs (Decidable (∀ key ∈ r.references, ∀ parent ∈ known.get? key,
    ∃ filled ∈ inherit? r.type parent.type r.fields parent.fields,
      filled.SameReading r.fields))

/-- One step of taking over: from the record that a key names, if there is one. -/
def Record.takeOver? (known : Keyed String Record) (n : Nat) (r : Record) (fields : Fields)
    (key : String) : Option Fields :=
  (known.get? key).elim (some fields) fun parent =>
    (parent.fillIn? known n).bind fun parent => inherit? r.type parent.type fields parent.fields

theorem Record.fillIn?_succ (known : Keyed String Record) (n : Nat) (r : Record) :
    r.fillIn? known (n + 1) =
      (r.references.foldlM (r.takeOver? known n) r.fields).map fun filled =>
        { r with fields := Keyed.erase filled "xdata" } := by
  rw [fillIn?, Option.map_eq_bind]
  refine congrArg (Option.bind · _) (congrArg (fun f => r.references.foldlM f r.fields) ?_)
  funext fields key
  rw [takeOver?]
  cases known.get? key <;> rfl

/-- **Nothing changes about settled records** when they take over again, with no `xdata` left. -/
theorem fillIn?_of_settled {known : Keyed String Record}
    (hknown : ∀ key parent, known.get? key = some parent →
      parent.Settled known ∧ Keyed.get? parent.fields "xdata" = none) (n : Nat) {r : Record}
    (h : r.Settled known) (hxdata : Keyed.get? r.fields "xdata" = none) :
    ∃ fields, r.fillIn? known n = some { r with fields := fields } ∧
      fields.SameReading r.fields := by
  induction n generalizing r with
  | zero => exact ⟨r.fields, rfl, Fields.SameReading.refl r.fields⟩
  | succ n ih =>
    obtain ⟨filled, hfilled, hsame⟩ : ∃ filled,
        r.references.foldlM (r.takeOver? known n) r.fields = some filled ∧
          filled.SameReading r.fields := by
      refine exists_foldlM_eq_some (fun done key hkey hdone => ?_)
        (Fields.SameReading.refl r.fields)
      rw [Record.takeOver?]
      cases hparent : known.get? key with
      | none => exact ⟨done, rfl, hdone⟩
      | some parent =>
        -- the parent is settled itself, so it hands down what it has
        obtain ⟨hsettled, hused⟩ := hknown key parent hparent
        obtain ⟨fields, hfields, hreads⟩ := ih hsettled hused
        obtain ⟨added, hadded, hback⟩ := h key hkey parent hparent
        obtain ⟨added', hadded', hsame⟩ := inherit?_congr hdone.symm hreads.symm hadded
        refine ⟨added', ?_, hsame.symm.trans hback⟩
        rw [Option.elim_some, hfields, Option.bind_some]
        exact hadded'
    refine ⟨_, by rw [Record.fillIn?_succ, hfilled, Option.map_some], fun m => ?_⟩
    by_cases hm : m = "xdata"
    · rw [hm, hxdata, Keyed.get?_erase_self]
    · rw [Keyed.get?_erase_of_ne filled hm]
      exact hsame m

end DocCite.Bibtex
