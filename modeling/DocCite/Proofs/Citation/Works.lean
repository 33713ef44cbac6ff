import DocCite.Proofs.Citation.BibliographyOrder
import DocCite.Proofs.Database.Lookup

/-!
# Works cited under several spellings

Databases find a key whatever its case, while cited keys are collected as they are spelled. A work
that is cited under two spellings is therefore two entries of the bibliography, with two numbers or
two letters. What is proved here: this is the only way in which a work gets more than one
(`oneEntryEach_produce_iff`), and it is so for every kind of markers.
-/

namespace DocCite

/-! ## What is found for two keys -/

namespace Resolution

variable {key a b : String} {databases : List Database} {e : Entry} {i : Nat}

theorem slot?_of_lookupFrom (hdatabases : ∀ db ∈ databases, db.WellKeyed) {start : Nat}
    (h : lookupFrom key start databases = resolved e i) : e.slot? = some (lowercase key) := by
  induction databases generalizing start with
  | nil => cases h
  | cons db rest ih =>
    obtain ⟨hdb, hrest⟩ := List.forall_mem_cons.mp hdatabases
    rw [lookupFrom] at h
    cases hfound : db.lookup key with
    | none =>
      rw [hfound] at h
      exact ih hrest h
    | some found =>
      rw [hfound] at h
      cases h
      exact (hdb.lookup_eq_some_iff.mp hfound).2

/-- What is found for a key is stored under it. -/
theorem slot?_of_lookup (hdatabases : ∀ db ∈ databases, db.WellKeyed)
    (h : lookup key databases = resolved e i) : e.slot? = some (lowercase key) :=
  slot?_of_lookupFrom hdatabases h

/-- The case of a key does not count. -/
theorem lookup_congr (h : lowercase a = lowercase b) (databases : List Database) :
    lookup a databases = lookup b databases := by
  have hfrom (start : Nat) : lookupFrom a start databases = lookupFrom b start databases := by
    induction databases generalizing start with
    | nil => rfl
    | cons db rest ih =>
      have hdb : db.lookup a = db.lookup b := congrArg db.slots.get? h
      rw [lookupFrom, lookupFrom, hdb, ih]
  exact hfrom 0

/-- **Two keys find one entry of one database just when they differ in case at most.** -/
theorem lookup_eq_lookup_iff (hdatabases : ∀ db ∈ databases, db.WellKeyed)
    (hresolved : (lookup a databases).isResolved = true) :
    lookup a databases = lookup b databases ↔ lowercase a = lowercase b := by
  refine ⟨fun hsame => ?_, fun hcase => lookup_congr hcase databases⟩
  cases hfound : lookup a databases with
  | unresolved =>
    rw [hfound] at hresolved
    exact absurd hresolved (by decide)
  | resolved e i =>
    have ha := slot?_of_lookup hdatabases hfound
    have hb := slot?_of_lookup hdatabases (hsame.symm.trans hfound)
    exact Option.some.inj (ha.symm.trans hb)

end Resolution

namespace CitationGroups

variable {gs : CitationGroups} {databases : List Database} {style : Style}

/-- Two things are not found as one entry of one database. -/
def FoundApart {α : Type} (found : α → Resolution) (a b : α) : Prop :=
  (found a).isResolved = true → found a ≠ found b

instance {α : Type} (found : α → Resolution) : DecidableRel (FoundApart found) :=
  fun _ _ => inferInstanceAs (Decidable (_ → _))

instance {α : Type} (found : α → Resolution) : Std.Symm (FoundApart found) where
  symm _ _ h hb heq := h (heq ▸ hb) heq.symm

/-- **One entry for each work**: no two keys of a bibliography are found as one entry of one
database. -/
def OneEntryEach (bibliography : List CitedKey) : Prop :=
  bibliography.Pairwise (FoundApart CitedKey.resolution)

instance (bibliography : List CitedKey) : Decidable (OneEntryEach bibliography) :=
  inferInstanceAs (Decidable (List.Pairwise _ _))

/-- **One number, or one letter, for each work**: keys that are found as one entry of one database
have the same. -/
def OneEach {β : Type} (mark : CitedKey → β) (bibliography : List CitedKey) : Prop :=
  ∀ a ∈ bibliography, ∀ b ∈ bibliography,
    a.resolution.isResolved = true → a.resolution = b.resolution → mark a = mark b

/-- **Works cited under one spelling**: the keys of which some database knows an entry differ in
more than their case. -/
def SpelledOnce (databases : List Database) (gs : CitationGroups) : Prop :=
  ∀ a ∈ gs.firstAppearances, ∀ b ∈ gs.firstAppearances,
    (Resolution.lookup a databases).isResolved = true → lowercase a = lowercase b → a = b

/-! ## The keys of a bibliography and what is found for them -/

/-- A key with what is found for it. -/
def CitedKey.found (ck : CitedKey) : String × Resolution := (ck.key, ck.resolution)

/-- The cited keys of looked-up groups, each with what is found for it. -/
theorem map_found_citedKeys (h : gs.IsLookedUp databases) :
    gs.citedKeys.map CitedKey.found =
      gs.firstAppearances.map fun key => (key, Resolution.lookup key databases) := by
  rw [citedKeys_lookedUp h, List.map_map]
  rfl

/-- **A bibliography lists the keys that are read**, each once and with what is found for it. -/
theorem map_found_bibliography_perm (gs : CitationGroups) (databases : List Database)
    (style : Style) :
    ((gs.produce databases style).2.bibliography.map CitedKey.found).Perm
      (gs.firstAppearances.map fun key => (key, Resolution.lookup key databases)) := by
  have hresolved := map_found_citedKeys (isLookedUp_resolve gs databases)
  rw [firstAppearances_resolve] at hresolved
  have hsorted : (((gs.resolve databases).sortByStyle databases style).citedKeys.map
      CitedKey.found).Perm
        (gs.firstAppearances.map fun key => (key, Resolution.lookup key databases)) := by
    rw [map_found_citedKeys (isLookedUp_sortByStyle gs databases style)]
    exact ((firstAppearances_sortGroups_perm _ _).trans
      (firstAppearances_resolve gs databases ▸ .refl _)).map _
  simp only [produce, prepare]
  split_ifs with hkeys hnumeric
  · exact ((List.mergeSort_perm _ _).map _).trans hsorted
  · have hnumbered (cited : List CitedKey)
        (hcited : cited.Perm (gs.resolve databases).citedKeys) :
        ((numberFrom 1 cited).map CitedKey.found).Perm
          (gs.firstAppearances.map fun key => (key, Resolution.lookup key databases)) := by
      rw [map_numberFrom (fun _ _ => rfl), ← hresolved]
      exact hcited.map _
    rw [forNumbers]
    split
    · exact hnumbered _ (.refl _)
    · exact hnumbered _ (List.mergeSort_perm _ _)
  · refine ((List.mergeSort_perm _ _).map _).trans (List.Perm.trans (.of_eq ?_) hsorted)
    rw [assignLetters_citedKeys style (isLookedUp_sortByStyle gs databases style),
      map_found_citedKeys (isLookedUp_sortByStyle gs databases style), List.map_map]
    rfl

/-- A work has more than one entry just when it is cited under several spellings. -/
theorem oneEntryEach_bibliography_iff (hdatabases : ∀ db ∈ databases, db.WellKeyed)
    (gs : CitationGroups) (style : Style) :
    OneEntryEach (gs.produce databases style).2.bibliography ↔ gs.SpelledOnce databases := by
  have hkeys : OneEntryEach (gs.produce databases style).2.bibliography ↔
      gs.firstAppearances.Pairwise (FoundApart fun key => Resolution.lookup key databases) := by
    have hlisted := (map_found_bibliography_perm gs databases style).pairwise_iff
      (R := FoundApart Prod.snd) (symm_of _)
    rwa [List.pairwise_map, List.pairwise_map] at hlisted
  rw [hkeys]
  constructor
  · intro h a ha b hb hresolved hcase
    by_contra hne
    exact h.forall ha hb hne hresolved (Resolution.lookup_congr hcase databases)
  · intro h
    refine nodup_firstAppearances.pairwise_of_forall_ne fun a ha b hb hne hresolved hsame => ?_
    exact hne (h a ha b hb hresolved
      ((Resolution.lookup_eq_lookup_iff hdatabases hresolved).mp hsame))

/-! ## Numbers and letters of one work -/

/-- Where keys of one work differ in a mark, the mark is one for each work just when the entry
is. -/
theorem oneEach_iff_oneEntryEach {β : Type} {mark : CitedKey → β} {bibliography : List CitedKey}
    (h : bibliography.Pairwise fun a b =>
      a.resolution.isResolved = true → a.resolution = b.resolution → mark a ≠ mark b) :
    OneEach mark bibliography ↔ OneEntryEach bibliography := by
  constructor
  · intro hone
    refine h.imp_of_mem fun ha hb hdiffer hresolved hsame => ?_
    exact hdiffer hresolved hsame (hone _ ha _ hb hresolved hsame)
  · intro hone a ha b hb hresolved hsame
    by_contra hmark
    have hne : a ≠ b := fun heq => hmark (congrArg mark heq)
    exact hone.forall ha hb hne hresolved hsame

/-- No number is given twice. -/
theorem pairwise_number_ne (n : Nat) (cited : List CitedKey) :
    (numberFrom n cited).Pairwise fun a b =>
      a.resolution.isResolved = true → a.resolution = b.resolution → a.number ≠ b.number := by
  refine (pairwise_numberFrom n cited).imp_of_mem fun ha _ hbefore hresolved _ hsame => ?_
  obtain ⟨i, hi⟩ := Option.isSome_iff_exists.mp ((isSome_number_numberFrom ha).trans hresolved)
  exact Nat.lt_irrefl i (hbefore i hi i (hsame ▸ hi))

/-- The normalized marker of a work does not show the key. -/
theorem markerOfKey?_congr {a b : String} (style : Style)
    (hresolved : (Resolution.lookup a databases).isResolved = true)
    (hsame : Resolution.lookup a databases = Resolution.lookup b databases) :
    markerOfKey? databases style a = markerOfKey? databases style b := by
  simp only [markerOfKey?, Marker.normalized, Marker.Piece.of, ← hsame, hresolved, if_true]

/-- No letter is given to two keys of one work. -/
theorem pairwise_letter_ne (databases : List Database) (style : Style) (gs : CitationGroups) :
    (gs.firstAppearances.map (letteredKey databases style gs)).Pairwise fun a b =>
      a.resolution.isResolved = true → a.resolution = b.resolution → a.letter ≠ b.letter := by
  rw [List.pairwise_map]
  refine nodup_firstAppearances.pairwise_of_forall_ne fun a ha b hb hne hresolved hsame => ?_
  have hmarker : (markerOfKey? databases style a).isSome := by
    rw [markerOfKey?]
    exact (congrArg Option.isSome (if_pos hresolved)).trans rfl
  exact letterAmong_ne ha hb hne (markerOfKey?_congr style hresolved hsame) hmarker

/-- **A work has one entry just when it is cited under one spelling**, whatever kind of markers is
produced; and just then it has one number, or one letter. -/
theorem oneEntryEach_produce_iff (hdatabases : ∀ db ∈ databases, db.WellKeyed)
    (gs : CitationGroups) (style : Style) :
    (OneEntryEach (gs.produce databases style).2.bibliography ↔ gs.SpelledOnce databases) ∧
      (style.citationKeyMarkers = false → style.isNumeric = true →
        (OneEach CitedKey.number (gs.produce databases style).2.bibliography ↔
          gs.SpelledOnce databases)) ∧
      (style.citationKeyMarkers = false → style.isNumeric = false →
        (OneEach CitedKey.letter (gs.produce databases style).2.bibliography ↔
          gs.SpelledOnce databases)) := by
  have hentry := oneEntryEach_bibliography_iff hdatabases gs style
  refine ⟨hentry, fun hkeys hnumeric => ?_, fun hkeys hnumeric => ?_⟩
  · rw [← hentry]
    refine oneEach_iff_oneEntryEach ?_
    simp only [produce, prepare, hkeys, hnumeric, if_true, Bool.false_eq_true, if_false, forNumbers]
    split
    · exact pairwise_number_ne 1 _
    · exact pairwise_number_ne 1 _
  · rw [← hentry]
    refine oneEach_iff_oneEntryEach ?_
    simp only [produce, prepare, hkeys, hnumeric, Bool.false_eq_true, if_false]
    refine ((List.mergeSort_perm _ _).pairwise_iff ?_).mpr ?_
    · exact fun h hresolved hsame => (h (hsame ▸ hresolved) hsame.symm).symm
    · rw [assignLetters_citedKeys style (isLookedUp_sortByStyle gs databases style)]
      exact pairwise_letter_ne databases style _

/-- One source, cited under two spellings. -/
def recasedGroups : CitationGroups :=
  .ofList [.new "first" .parenthetical ["oak"] none, .new "second" .parenthetical ["Oak"] none]

theorem oneEntryEach_produce_iff_recasedGroups :
    (∀ db ∈ [sampleSources], db.WellKeyed) ∧
      (OneEntryEach (recasedGroups.produce [sampleSources] numericStyle).2.bibliography ↔
        recasedGroups.SpelledOnce [sampleSources]) ∧
      (OneEach CitedKey.number
          (recasedGroups.produce [sampleSources] numericStyle).2.bibliography ↔
        recasedGroups.SpelledOnce [sampleSources]) ∧
      (OneEach CitedKey.letter
          (recasedGroups.produce [sampleSources] Style.blank).2.bibliography ↔
        recasedGroups.SpelledOnce [sampleSources]) := by
  have hdatabases : ∀ db ∈ [sampleSources], db.WellKeyed :=
    List.forall_mem_singleton.mpr (Database.wellKeyed_ofEntries _ _)
  obtain ⟨hentry, hnumber, -⟩ := oneEntryEach_produce_iff hdatabases recasedGroups numericStyle
  obtain ⟨-, -, hletter⟩ := oneEntryEach_produce_iff hdatabases recasedGroups Style.blank
  exact ⟨hdatabases, hentry, hnumber (by decide) (by decide), hletter (by decide) (by decide)⟩

theorem not_oneEntryEach_recasedGroups :
    ¬ OneEntryEach (recasedGroups.produce [sampleSources] numericStyle).2.bibliography ∧
      (recasedGroups.produce [sampleSources] numericStyle).2.bibliography.map
        (fun ck => (ck.key, ck.resolution.isResolved, ck.number)) =
          [("oak", true, some 1), ("Oak", true, some 2)] := by
  decide +kernel

end CitationGroups

end DocCite
