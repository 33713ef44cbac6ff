import DocCite.Proofs.Citation.Letters
import DocCite.Proofs.Citation.Numbers

/-!
# Producing markers again

Producing markers writes into the groups what was looked up, the order of presentation, the
bibliography, numbers or letters, and which citations are the first of their keys. All of that
depends on keys and paths and on what is found for the keys, and these it leaves alone. So it finds
everything as it would write it when it is run again: nothing changes, and the same markers are
produced (`produce_produce`).
-/

namespace DocCite

/-! ## The order of presentation -/

namespace CitationGroup

variable {compare : Citation → Citation → Ordering} {g : CitationGroup}

/-- Whether the citation at one place may be presented before that at another. -/
def mayPrecede (compare : Citation → Citation → Ordering) (g : CitationGroup) (i j : Nat) : Bool :=
  match g.citations[i]?, g.citations[j]? with
  | some a, some b => compare a b != .gt
  | _, _ => true

/-- Citations that compare alike are presented in the same order. -/
theorem mayPrecede_mapIdx {f : Nat → Citation → Citation}
    (hcompare : ∀ i j a b, compare (f i a) (f j b) = compare a b) (g : CitationGroup) :
    mayPrecede compare { g with citations := g.citations.mapIdx f } = g.mayPrecede compare := by
  funext i j
  simp only [mayPrecede, List.getElem?_mapIdx]
  cases g.citations[i]? <;> cases g.citations[j]? <;>
    simp only [Option.map_some, Option.map_none, hcompare]

/-- A group is in order when nothing in it may be exchanged. -/
def InOrder (compare : Citation → Citation → Ordering) (g : CitationGroup) : Prop :=
  g.localOrder.Pairwise fun i j => g.mayPrecede compare i j = true

theorem sortBy_eq_self (h : g.InOrder compare) : g.sortBy compare = g := by
  have hsame : (g.sortBy compare).localOrder = g.localOrder := List.mergeSort_of_pairwise h
  exact congrArg (fun order => { g with localOrder := order }) hsame

/-- **A sorted group is in order**, if it presents citations of its own only. -/
theorem inOrder_sortBy (hown : ∀ i ∈ g.localOrder, i < g.citations.length)
    (htrans : ∀ a b c, (compare a b).isLE → (compare b c).isLE → (compare a c).isLE)
    (hswap : ∀ a b, (compare a b).swap = compare b a) : (g.sortBy compare).InOrder compare := by
  -- places outside of the group may precede all others, so they have to be kept out of the order
  let citationAt (i : Nat) : Citation := g.citations[i]?.getD { key := "" }
  let before (i j : Nat) : Bool := compare (citationAt i) (citationAt j) != .gt
  have hbefore : ∀ i ∈ g.localOrder, ∀ j ∈ g.localOrder, g.mayPrecede compare i j = before i j := by
    intro i hi j hj
    simp only [mayPrecede, before, citationAt, List.getElem?_eq_getElem (hown i hi),
      List.getElem?_eq_getElem (hown j hj), Option.getD_some]
  have hsorted : (g.localOrder.mergeSort before).Pairwise fun i j => before i j = true := by
    refine List.pairwise_mergeSort (fun i j k hij hjk => ?_) (fun i j => ?_) _
    · simp only [before, bne_iff_ne, ne_eq, ← Ordering.isLE_iff_ne_gt] at hij hjk ⊢
      exact htrans _ _ _ hij hjk
    · simp only [before, ← hswap (citationAt i)]
      cases compare (citationAt i) (citationAt j) <;> rfl
  have hsame : g.localOrder.mergeSort (g.mayPrecede compare) = g.localOrder.mergeSort before := by
    have hmap : (g.localOrder.mergeSort (g.mayPrecede compare)).map (fun i => i) =
        (g.localOrder.map fun i => i).mergeSort before := List.map_mergeSort hbefore
    rwa [List.map_id', List.map_id'] at hmap
  have hperm := List.mergeSort_perm g.localOrder (g.mayPrecede compare)
  change (g.localOrder.mergeSort (g.mayPrecede compare)).Pairwise
    fun i j => g.mayPrecede compare i j = true
  refine List.Pairwise.imp_of_mem (fun hi hj hij => ?_) (hsame ▸ hsorted)
  rwa [hbefore _ (hperm.mem_iff.mp hi) _ (hperm.mem_iff.mp hj)]

end CitationGroup

namespace EntryOrder

variable {o : EntryOrder} {databases : List Database} {a b c : Citation}

/-- A citation is compared like an entry of its key. -/
theorem compareCitations_eq (o : EntryOrder) (databases : List Database) (a b : Citation) :
    o.compareCitations databases a b =
      o.compareCited databases { key := a.key, resolution := a.resolution, occurrences := [] }
        { key := b.key, resolution := b.resolution, occurrences := [] } := rfl

theorem isLE_compareCitations_trans (hab : (o.compareCitations databases a b).isLE)
    (hbc : (o.compareCitations databases b c).isLE) :
    (o.compareCitations databases a c).isLE := by
  rw [compareCitations_eq] at hab hbc ⊢
  exact isLE_compareCited_trans hab hbc

theorem compareCitations_swap :
    (o.compareCitations databases a b).swap = o.compareCitations databases b a := by
  rw [compareCitations_eq, compareCitations_eq]
  exact compareCited_swap

end EntryOrder

namespace CitationGroups

variable {gs : CitationGroups} {databases : List Database} {style : Style}

/-- **Groups present citations of their own**: orders of presentation list no other places. -/
def PresentsOwn (gs : CitationGroups) : Prop :=
  ∀ g ∈ gs.groups, ∀ i ∈ g.localOrder, i < g.citations.length

theorem WellOrdered.presentsOwn (h : gs.WellOrdered) : gs.PresentsOwn := fun g hg _ hi =>
  List.mem_range.mp ((h.localOrder_perm g hg).mem_iff.mp hi)

theorem PresentsOwn.mapCitations (h : gs.PresentsOwn) (f : CitationPath → Citation → Citation) :
    (gs.mapCitations f).PresentsOwn := by
  intro g hg
  obtain ⟨i, hi, rfl⟩ := List.mem_mapIdx.mp hg
  simpa using h _ (List.getElem_mem hi)

/-! ## Stages that find everything written -/

/-- Citations that are as they would be written stay as they are. -/
theorem mapCitations_eq_self {f : CitationPath → Citation → Citation}
    (h : ∀ p c, gs.citation? p = some c → f p c = c) : gs.mapCitations f = gs := by
  have hgroups : (gs.mapCitations f).groups = gs.groups := by
    refine List.mapIdx_eq_iff.mpr fun i => ?_
    cases hg : gs.groups[i]? with
    | none => rfl
    | some g =>
      refine congrArg some ?_
      have hcitations : g.citations.mapIdx (fun j c => f ⟨i, j⟩ c) = g.citations := by
        refine List.mapIdx_eq_iff.mpr fun j => ?_
        cases hc : g.citations[j]? with
        | none => rfl
        | some c => exact congrArg some (h ⟨i, j⟩ c (citation?_eq_some_iff.mpr ⟨g, hg, hc⟩)).symm
      exact (congrArg (fun citations => { g with citations := citations }) hcitations).symm
  exact congrArg (fun groups => { gs with groups := groups }) hgroups

/-- A stage that changes citations in place, and neither their keys nor what was found. -/
def KeepsFound (f : CitationPath → Citation → Citation) : Prop :=
  ∀ p c, (f p c).key = c.key ∧ (f p c).resolution = c.resolution

theorem addOccurrence_congr {c c' : Citation} (hkey : c.key = c'.key)
    (hfound : c.resolution = c'.resolution) (cited : List CitedKey) (p : CitationPath) :
    addOccurrence cited p c = addOccurrence cited p c' := by
  induction cited with
  | nil => rw [addOccurrence, addOccurrence, hkey, hfound]
  | cons ck rest ih => rw [addOccurrence, addOccurrence, hkey, ih]

/-- The cited keys are read off keys, paths and what was found. -/
theorem citedKeys_mapCitations {f : CitationPath → Citation → Citation} (h : KeepsFound f) :
    (gs.mapCitations f).citedKeys = gs.citedKeys := by
  simp only [citedKeys, paths_mapCitations, citation?_mapCitations]
  refine List.foldl_ext _ _ _ fun cited p _ => ?_
  cases gs.citation? p with
  | none => rfl
  | some c => exact addOccurrence_congr (h p c).1 (h p c).2 cited p

/-- Whether every citation carries what is found for its key. -/
def AllLookedUp (databases : List Database) (gs : CitationGroups) : Prop :=
  ∀ p c, gs.citation? p = some c → c.resolution = Resolution.lookup c.key databases

theorem allLookedUp_resolve (gs : CitationGroups) (databases : List Database) :
    (gs.resolve databases).AllLookedUp databases := by
  intro p c hc
  rw [resolve, citation?_mapCitations, Option.map_eq_some_iff] at hc
  obtain ⟨c', -, rfl⟩ := hc
  rfl

theorem AllLookedUp.mapCitations (h : gs.AllLookedUp databases)
    {f : CitationPath → Citation → Citation} (hf : KeepsFound f) :
    (gs.mapCitations f).AllLookedUp databases := by
  intro p c hc
  rw [citation?_mapCitations, Option.map_eq_some_iff] at hc
  obtain ⟨c', hc', rfl⟩ := hc
  rw [(hf p c').1, (hf p c').2, h p c' hc']

theorem AllLookedUp.sortGroups (h : gs.AllLookedUp databases)
    (compare : Citation → Citation → Ordering) :
    (gs.sortGroups compare).AllLookedUp databases :=
  fun p c hc => h p c (citation?_sortGroups ▸ hc)

/-- **What was looked up is found again.** -/
theorem AllLookedUp.resolve_eq (h : gs.AllLookedUp databases) : gs.resolve databases = gs :=
  mapCitations_eq_self fun p c hc => by rw [← h p c hc]

/-- Groups in the order of the style stay so while other things are written into them. -/
def InStyleOrder (databases : List Database) (style : Style) (gs : CitationGroups) : Prop :=
  ∀ g ∈ gs.groups, g.InOrder ((EntryOrder.withinGroup style).compareCitations databases)

theorem inStyleOrder_sortByStyle (h : gs.PresentsOwn) (databases : List Database) (style : Style) :
    (gs.sortByStyle databases style).InStyleOrder databases style := by
  intro g hg
  obtain ⟨g', hg', rfl⟩ := List.mem_map.mp hg
  exact CitationGroup.inOrder_sortBy (h g' hg')
    (fun _ _ _ => EntryOrder.isLE_compareCitations_trans)
    fun _ _ => EntryOrder.compareCitations_swap

theorem InStyleOrder.mapCitations (h : gs.InStyleOrder databases style)
    {f : CitationPath → Citation → Citation} (hf : KeepsFound f) :
    (gs.mapCitations f).InStyleOrder databases style := by
  intro g hg
  obtain ⟨i, hi, rfl⟩ := List.mem_mapIdx.mp hg
  have hcompare (j k : Nat) (a b : Citation) :
      (EntryOrder.withinGroup style).compareCitations databases (f ⟨i, j⟩ a) (f ⟨i, k⟩ b) =
        (EntryOrder.withinGroup style).compareCitations databases a b := by
    simp only [EntryOrder.compareCitations, (hf _ _).1, (hf _ _).2]
  rw [CitationGroup.InOrder, CitationGroup.mayPrecede_mapIdx hcompare]
  exact h _ (List.getElem_mem hi)

/-- **A sorted group is not sorted again.** -/
theorem InStyleOrder.sortByStyle_eq (h : gs.InStyleOrder databases style) :
    gs.sortByStyle databases style = gs := by
  have hgroups : (gs.sortByStyle databases style).groups = gs.groups := by
    refine (List.map_congr_left fun g hg => ?_).trans (List.map_id _)
    exact CitationGroup.sortBy_eq_self (h g hg)
  exact congrArg (fun groups => { gs with groups := groups }) hgroups

/-! ## Numbers, letters and first citations -/

/-- What `markFirst` writes into a citation. -/
def withFirst (gs : CitationGroups) (p : CitationPath) (c : Citation) : Citation :=
  { c with
    isFirst :=
      gs.paths.find? (fun q => (gs.citation? q).map Citation.key = some c.key) == some p }

theorem keepsFound_withFirst (gs : CitationGroups) : KeepsFound gs.withFirst :=
  fun _ _ => ⟨rfl, rfl⟩

/-- Which citation is the first of its key is read off keys and paths. -/
theorem withFirst_mapCitations {f : CitationPath → Citation → Citation} (hf : KeepsFound f) :
    (gs.mapCitations f).withFirst = gs.withFirst := by
  funext p c
  have hkeys (q : CitationPath) : ((gs.mapCitations f).citation? q).map Citation.key =
      (gs.citation? q).map Citation.key := by
    rw [citation?_mapCitations, Option.map_map]
    exact Option.map_congr fun c _ => (hf q c).1
  simp only [withFirst, paths_mapCitations, hkeys]

/-- What distributing numbers writes into a citation. -/
def withNumber (gs : CitationGroups) (p : CitationPath) (c : Citation) : Citation :=
  match gs.citedAt? p with
  | some ck => { c with number := ck.number }
  | none => c

/-- What distributing letters writes into a citation. -/
def withLetter (gs : CitationGroups) (p : CitationPath) (c : Citation) : Citation :=
  match gs.citedAt? p with
  | some ck => { c with letter := ck.letter }
  | none => c

theorem keepsFound_withNumber (gs : CitationGroups) : KeepsFound gs.withNumber := by
  intro p c
  unfold withNumber
  split <;> exact ⟨rfl, rfl⟩

theorem keepsFound_withLetter (gs : CitationGroups) : KeepsFound gs.withLetter := by
  intro p c
  unfold withLetter
  split <;> exact ⟨rfl, rfl⟩

/-- What two stages wrote, and a stage would write as it is, stays as it is. -/
theorem mapCitations_written (f f' h : CitationPath → Citation → Citation)
    (hwritten : ∀ p c, h p (f' p (f p c)) = f' p (f p c)) :
    ((gs.mapCitations f).mapCitations f').mapCitations h =
      (gs.mapCitations f).mapCitations f' := by
  refine mapCitations_eq_self fun p c hc => ?_
  rw [citation?_mapCitations, citation?_mapCitations, Option.map_map,
    Option.map_eq_some_iff] at hc
  obtain ⟨c', -, rfl⟩ := hc
  exact hwritten p c'

/-- First citations are found again where they were marked. -/
theorem markFirst_written {f : CitationPath → Citation → Citation} :
    (gs.mapCitations f).markFirst.markFirst = (gs.mapCitations f).markFirst := by
  have hsame : (gs.mapCitations f).markFirst.withFirst = (gs.mapCitations f).withFirst :=
    withFirst_mapCitations (keepsFound_withFirst _)
  change (gs.mapCitations f).markFirst.mapCitations (gs.mapCitations f).markFirst.withFirst = _
  rw [hsame]
  exact mapCitations_written _ _ _ fun _ _ => rfl

/-- Numbers are those of the bibliography, and stay so. -/
theorem distributeNumbers_written :
    gs.distributeNumbers.markFirst.distributeNumbers = gs.distributeNumbers.markFirst := by
  refine mapCitations_written gs.withNumber gs.distributeNumbers.withFirst gs.withNumber fun p c => ?_
  unfold withNumber
  cases gs.citedAt? p <;> rfl

/-- Letters are those of the bibliography, and stay so. -/
theorem distributeLetters_written :
    gs.distributeLetters.markFirst.distributeLetters = gs.distributeLetters.markFirst := by
  refine mapCitations_written gs.withLetter gs.distributeLetters.withFirst gs.withLetter fun p c => ?_
  unfold withLetter
  cases gs.citedAt? p <;> rfl

/-! ## The three kinds of markers -/

theorem citedKeys_markFirst : gs.markFirst.citedKeys = gs.citedKeys :=
  citedKeys_mapCitations (keepsFound_withFirst gs)

theorem citedKeys_distributeNumbers : gs.distributeNumbers.citedKeys = gs.citedKeys :=
  citedKeys_mapCitations (keepsFound_withNumber gs)

theorem citedKeys_distributeLetters : gs.distributeLetters.citedKeys = gs.citedKeys :=
  citedKeys_mapCitations (keepsFound_withLetter gs)

/-- Numbering the same keys again changes nothing. -/
theorem numberAs_written (cited : List CitedKey) :
    ((gs.numberAs cited).markFirst.numberAs cited).markFirst = (gs.numberAs cited).markFirst := by
  have hnumbers : (gs.numberAs cited).markFirst.numberAs cited = (gs.numberAs cited).markFirst :=
    @distributeNumbers_written { gs with bibliography := some (numberFrom 1 cited) }
  rw [hnumbers]
  exact markFirst_written

theorem forNumbers_forNumbers (databases : List Database) (style : Style) (gs : CitationGroups) :
    (gs.forNumbers databases style).forNumbers databases style = gs.forNumbers databases style := by
  have hcited (cited : List CitedKey) :
      (gs.numberAs cited).markFirst.citedKeys = gs.citedKeys := by
    rw [citedKeys_markFirst, numberAs, citedKeys_distributeNumbers]
    rfl
  simp only [forNumbers, numberByAppearance, numberBy]
  split
  · rw [hcited, numberAs_written]
  · rw [hcited, numberAs_written]

theorem forKeys_forKeys (h : gs.PresentsOwn) (databases : List Database) (style : Style) :
    (gs.forKeys databases style).forKeys databases style = gs.forKeys databases style := by
  have hsorted : (gs.forKeys databases style).sortByStyle databases style =
      gs.forKeys databases style :=
    InStyleOrder.sortByStyle_eq (inStyleOrder_sortByStyle h databases style)
  rw [forKeys, hsorted]
  rfl

theorem forAuthorYear_forAuthorYear (h : gs.PresentsOwn) (databases : List Database)
    (style : Style) :
    (gs.forAuthorYear databases style).forAuthorYear databases style =
      gs.forAuthorYear databases style := by
  let sorted := gs.sortByStyle databases style
  let bibliography := sortCited (bibliographyOrder databases style)
    (assignLetters databases style sorted.citedKeys)
  let listed : CitationGroups := { sorted with bibliography := some bibliography }
  have hready : gs.forAuthorYear databases style = listed.distributeLetters.markFirst := rfl
  have hsorted : listed.distributeLetters.markFirst.sortByStyle databases style =
      listed.distributeLetters.markFirst := by
    have hlisted : listed.InStyleOrder databases style :=
      inStyleOrder_sortByStyle h databases style
    exact ((hlisted.mapCitations (keepsFound_withLetter _)).mapCitations
      (keepsFound_withFirst _)).sortByStyle_eq
  have hcited : listed.distributeLetters.markFirst.citedKeys = sorted.citedKeys := by
    rw [citedKeys_markFirst, citedKeys_distributeLetters]
    rfl
  rw [hready, forAuthorYear, hsorted, hcited]
  change listed.distributeLetters.markFirst.distributeLetters.markFirst = _
  rw [distributeLetters_written]
  exact markFirst_written

/-! ## Producing markers twice -/

/-- What is found does not change while groups are made ready. -/
theorem allLookedUp_prepare (gs : CitationGroups) (databases : List Database) (style : Style) :
    (gs.prepare databases style).AllLookedUp databases := by
  have hfound := allLookedUp_resolve gs databases
  simp only [prepare]
  split_ifs
  · exact hfound.sortGroups _
  · have hnumbered (cited : List CitedKey) :
        ((gs.resolve databases).numberAs cited).markFirst.AllLookedUp databases := by
      have hlisted : AllLookedUp databases
          { gs.resolve databases with bibliography := some (numberFrom 1 cited) } := hfound
      exact (hlisted.mapCitations (keepsFound_withNumber _)).mapCitations (keepsFound_withFirst _)
    rw [forNumbers]
    split
    · exact hnumbered _
    · exact hnumbered _
  · have hsorted := hfound.sortGroups
      ((EntryOrder.withinGroup style).compareCitations databases)
    exact AllLookedUp.mapCitations (AllLookedUp.mapCitations hsorted (keepsFound_withLetter _))
      (keepsFound_withFirst _)

/-- Groups that have been made ready are ready. -/
theorem prepare_prepare (h : gs.PresentsOwn) (databases : List Database) (style : Style) :
    (gs.prepare databases style).prepare databases style = gs.prepare databases style := by
  have hfound := (allLookedUp_prepare gs databases style).resolve_eq
  have hown : (gs.resolve databases).PresentsOwn := h.mapCitations _
  rw [prepare, hfound, prepare]
  split_ifs
  · exact forKeys_forKeys hown databases style
  · exact forNumbers_forNumbers databases style _
  · exact forAuthorYear_forAuthorYear hown databases style

/-- **Producing markers again changes nothing**: the groups stay as the first time left them, and
the markers, the bibliography and the unresolved keys are the same. -/
theorem produce_produce (h : gs.PresentsOwn) (databases : List Database) (style : Style) :
    (gs.produce databases style).1.produce databases style = gs.produce databases style := by
  have hready : ((gs.produce databases style).1).prepare databases style =
      gs.prepare databases style := prepare_prepare h databases style
  rw [produce, hready]
  rfl

theorem produce_produce_sample :
    sampleGroups.PresentsOwn ∧
      (sampleGroups.produce [sampleSources] Style.blank).1.produce [sampleSources] Style.blank =
        sampleGroups.produce [sampleSources] Style.blank := by
  have hwell : sampleGroups.WellOrdered := by
    refine wellOrdered_ofList fun g hg => ?_
    rcases List.mem_pair.mp hg with rfl | rfl <;> exact List.Perm.refl _
  exact ⟨hwell.presentsOwn, produce_produce hwell.presentsOwn [sampleSources] Style.blank⟩

end CitationGroups

end DocCite
