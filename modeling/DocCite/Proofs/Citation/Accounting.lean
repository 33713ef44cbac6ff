import DocCite.Citation.Bibliography
import DocCite.Proofs.Citation.Letters
import DocCite.Proofs.Citation.Marked

/-!
# Every citation is accounted for

Groups are looked up, sorted, put into the order of the document, numbered and lettered, in whatever
sequence. Each of these calls keeps the groups and their citations (`content_run`) and the orders
that list them (`WellOrdered.run`). So after any sequence of calls the paths list every citation
once, the cited keys share them out by key, and the bibliography names for every key the groups that
cite it (`accounted_runAll`).
-/

namespace DocCite

/-- **How groups come about**: citations are presented as they are stored, and sorted from then
on. -/
inductive CitationGroup.Made : CitationGroup → Prop
  | stored {g : CitationGroup} (h : g.localOrder = List.range g.citations.length) : Made g
  | sorted {g : CitationGroup} (compare : Citation → Citation → Ordering) (h : Made g) :
      Made (g.sortBy compare)

theorem CitationGroup.Made.localOrder_perm {g : CitationGroup} (h : g.Made) :
    g.localOrder.Perm (List.range g.citations.length) := by
  induction h with
  | stored h => exact .of_eq h
  | sorted compare _ ih => exact (List.mergeSort_perm _ _).trans ih

/-- What a group holds, however it is presented: what it says of its mark, and its keys. -/
def CitationGroup.content (g : CitationGroup) :
    (String × CitationKind × Option String) × List String :=
  (g.label, g.keys)

/-- A cited key and where it is cited, whatever was found for it. -/
def CitedKey.listing (ck : CitedKey) : String × List CitationPath := (ck.key, ck.occurrences)

/-- **What can be done** with the groups of a document. -/
inductive GroupsCall
  | resolve (databases : List Database)
  | sortGroups (compare : Citation → Citation → Ordering)
  | imposeOrder (ids : List String)
  | numberByAppearance
  | numberBy (compare : CitedKey → CitedKey → Ordering)
  | takeBibliography (cited : List CitedKey)
  | distributeLetters
  | markFirst

namespace GroupsCall

/-- What a call leaves behind; an order that is refused changes nothing. -/
def run (gs : CitationGroups) : GroupsCall → CitationGroups
  | resolve databases => gs.resolve databases
  | sortGroups compare => gs.sortGroups compare
  | imposeOrder ids => (gs.imposeOrder ids).toOption.getD gs
  | numberByAppearance => gs.numberByAppearance
  | numberBy compare => gs.numberBy compare
  | takeBibliography cited => { gs with bibliography := some cited }
  | distributeLetters => gs.distributeLetters
  | markFirst => gs.markFirst

/-- Calls, one after another. -/
def runAll (gs : CitationGroups) (calls : List GroupsCall) : CitationGroups := calls.foldl run gs

end GroupsCall

namespace CitationGroups

variable {gs gs' : CitationGroups}

/-! ## What each call keeps -/

/-- What the groups hold, as they are stored. -/
def content (gs : CitationGroups) :
    List ((String × CitationKind × Option String) × List String) :=
  gs.groups.map CitationGroup.content

theorem content_mapCitations {f : CitationPath → Citation → Citation}
    (h : ∀ p c, (f p c).key = c.key) : (gs.mapCitations f).content = gs.content := by
  refine map_mapIdx_of_eq fun i g => Prod.ext rfl ?_
  refine List.ext_getElem? fun j => ?_
  simp only [CitationGroup.content, CitationGroup.keys, List.getElem?_map, List.getElem?_mapIdx,
    Option.map_map]
  cases g.citations[j]? with
  | none => rfl
  | some c => exact congrArg some (h ⟨i, j⟩ c)

theorem content_sortGroups (compare : Citation → Citation → Ordering) :
    (gs.sortGroups compare).content = gs.content := by
  simp only [content, sortGroups, List.map_map]
  rfl

theorem content_imposeOrder {ids : List String} (h : gs.imposeOrder ids = .ok gs') :
    gs'.content = gs.content := by
  obtain ⟨slots, -, rfl⟩ := exists_slots_of_imposeOrder h
  exact map_mapIdx_of_eq fun _ _ => rfl

/-- Numbering writes to the citations and lists their keys, and leaves the rest. -/
theorem content_numberAs (cited : List CitedKey) : (gs.numberAs cited).content = gs.content := by
  refine (content_mapCitations fun p c => ?_).trans rfl
  split <;> rfl

theorem WellOrdered.withBibliography (h : gs.WellOrdered) (cited : List CitedKey) :
    WellOrdered { gs with bibliography := some cited } := ⟨h.slots_perm, h.localOrder_perm⟩

theorem WellOrdered.numberAs (h : gs.WellOrdered) (cited : List CitedKey) :
    (gs.numberAs cited).WellOrdered := by
  rw [CitationGroups.numberAs, distributeNumbers]
  exact (h.withBibliography _).mapCitations _

/-- **A call loses no citation and brings none in.** -/
theorem content_run (gs : CitationGroups) (call : GroupsCall) :
    (call.run gs).content = gs.content := by
  cases call with
  | resolve databases => exact content_mapCitations fun _ _ => rfl
  | sortGroups compare => exact content_sortGroups compare
  | imposeOrder ids =>
    rw [GroupsCall.run]
    cases hordered : gs.imposeOrder ids with
    | ok gs' => exact content_imposeOrder hordered
    | error e => rfl
  | numberByAppearance => exact content_numberAs _
  | numberBy compare => exact content_numberAs _
  | takeBibliography cited => rfl
  | distributeLetters => exact content_mapCitations fun p c => by split <;> rfl
  | markFirst => exact content_mapCitations fun _ _ => rfl

/-- **A call keeps the orders**: they list everything once. -/
theorem WellOrdered.run (h : gs.WellOrdered) (call : GroupsCall) : (call.run gs).WellOrdered := by
  cases call with
  | resolve databases =>
    rw [GroupsCall.run, CitationGroups.resolve]
    exact h.mapCitations _
  | sortGroups compare => exact h.sortGroups compare
  | imposeOrder ids =>
    rw [GroupsCall.run]
    cases hordered : gs.imposeOrder ids with
    | ok gs' => exact h.imposeOrder hordered
    | error e => exact h
  | numberByAppearance => exact h.numberAs _
  | numberBy compare => exact h.numberAs _
  | takeBibliography cited => exact h.withBibliography cited
  | distributeLetters =>
    rw [GroupsCall.run, CitationGroups.distributeLetters]
    exact h.mapCitations _
  | markFirst =>
    rw [GroupsCall.run, CitationGroups.markFirst]
    exact h.mapCitations _

theorem content_runAll (gs : CitationGroups) (calls : List GroupsCall) :
    (GroupsCall.runAll gs calls).content = gs.content := by
  induction calls generalizing gs with
  | nil => rfl
  | cons call calls ih => exact (ih _).trans (content_run gs call)

theorem ids_runAll (gs : CitationGroups) (calls : List GroupsCall) :
    (GroupsCall.runAll gs calls).ids = gs.ids := by
  have hnames := congrArg (List.map fun c => c.1.1) (content_runAll gs calls)
  rwa [content, content, List.map_map, List.map_map] at hnames

/-- **Groups have different names**, whatever is done with them. -/
theorem nodup_ids_runAll (made : List CitationGroup) (calls : List GroupsCall) :
    (GroupsCall.runAll (ofList made) calls).ids.Nodup := by
  rw [ids_runAll]
  exact nodup_ids_ofList made

theorem WellOrdered.runAll (h : gs.WellOrdered) (calls : List GroupsCall) :
    (GroupsCall.runAll gs calls).WellOrdered := by
  induction calls generalizing gs with
  | nil => exact h
  | cons call calls ih => exact ih (h.run call)

/-! ## Paths -/

/-- The key that is cited at a path. -/
def keyAt? (gs : CitationGroups) (p : CitationPath) : Option String :=
  (gs.citation? p).map Citation.key

/-- **No path is listed twice.** -/
theorem WellOrdered.nodup_paths (h : gs.WellOrdered) : gs.paths.Nodup := by
  have hslots : gs.slots.Nodup := h.slots_perm.nodup_iff.mpr List.nodup_range
  -- paths of one group differ in the citation, those of two groups in the group
  refine List.nodup_flatMap.mpr ⟨fun i _ => ?_, hslots.imp fun {i i'} hne p hp hp' => ?_⟩
  · split
    · next g hg =>
      have hlocal : g.localOrder.Nodup :=
        (h.localOrder_perm g (List.mem_of_getElem? hg)).nodup_iff.mpr List.nodup_range
      exact hlocal.map fun j j' heq => (CitationPath.mk.inj heq).2
    · exact List.nodup_nil
  · dsimp only at hp hp'
    have hgroup : p.group = i := by
      split at hp
      · obtain ⟨j, -, rfl⟩ := List.mem_map.mp hp
        rfl
      · cases hp
    have hgroup' : p.group = i' := by
      split at hp'
      · obtain ⟨j, -, rfl⟩ := List.mem_map.mp hp'
        rfl
      · cases hp'
    exact hne (hgroup.symm.trans hgroup')

/-- The paths are those of what is read. -/
theorem WellOrdered.map_fst_reading (h : gs.WellOrdered) : gs.reading.map Prod.fst = gs.paths := by
  rw [reading, List.map_filterMap]
  refine (List.filterMap_congr (g := some) fun p hp => ?_).trans List.filterMap_some
  obtain ⟨c, hc⟩ := (mem_paths_iff h).mp hp
  rw [hc]
  rfl

/-! ## Cited keys -/

/-- The paths at which a key is read. -/
theorem map_fst_filter_reading (gs : CitationGroups) (key : String) :
    (gs.reading.filter fun r => r.2.key = key).map Prod.fst =
      gs.paths.filter fun p => gs.keyAt? p = some key := by
  rw [reading]
  induction gs.paths with
  | nil => rfl
  | cons p paths ih =>
    rw [List.filterMap_cons, List.filter_cons, keyAt?]
    cases gs.citation? p with
    | none => simpa using ih
    | some c => by_cases hkey : c.key = key <;> simp [hkey, ih]

/-- **The cited keys with their paths**: the keys as they are first read, each with the paths at
which it is read. -/
theorem map_listing_citedKeys (gs : CitationGroups) :
    gs.citedKeys.map CitedKey.listing = gs.firstAppearances.map fun key =>
      (key, gs.paths.filter fun p => gs.keyAt? p = some key) := by
  -- What was found for a key has no part in where it is cited, so it may be forgotten.
  let forget : Citation → Citation := fun c => { c with resolution := .unresolved }
  let forgetKey : CitedKey → CitedKey := fun ck => { ck with resolution := .unresolved }
  have hadd (cited : List CitedKey) (p : CitationPath) (c : Citation) :
      addOccurrence (cited.map forgetKey) p (forget c) = (addOccurrence cited p c).map forgetKey := by
    induction cited with
    | nil => rfl
    | cons ck cited ih =>
      rw [List.map_cons, addOccurrence, addOccurrence]
      by_cases hkey : ck.key = c.key
      · rw [if_pos (by exact hkey), if_pos hkey]
        rfl
      · rw [if_neg (by exact hkey), if_neg hkey, ih]
        rfl
  have hforgotten : (gs.mapCitations fun _ => forget).citedKeys = gs.citedKeys.map forgetKey := by
    rw [citedKeys, citedKeys, paths_mapCitations]
    refine Eq.trans (b := List.foldl _ ([].map forgetKey) gs.paths) rfl ?_
    refine List.foldl_hom (List.map forgetKey) fun cited p => ?_
    rw [citation?_mapCitations]
    cases gs.citation? p with
    | none => rfl
    | some c => exact hadd cited p c
  have hread : ∀ r ∈ (gs.mapCitations fun _ => forget).reading, r.2.resolution = .unresolved := by
    rw [reading_mapCitations]
    intro r hr
    obtain ⟨r', -, rfl⟩ := List.mem_map.mp hr
    rfl
  have hkeys : (gs.mapCitations fun _ => forget).firstAppearances = gs.firstAppearances :=
    firstAppearances_mapCitations fun _ _ => rfl
  have hpaths (key : String) :
      (((gs.mapCitations fun _ => forget).reading.filter fun r => r.2.key = key).map Prod.fst) =
        gs.paths.filter fun p => gs.keyAt? p = some key := by
    rw [reading_mapCitations, List.filter_map, List.map_map, ← map_fst_filter_reading]
    rfl
  calc gs.citedKeys.map CitedKey.listing
      = (gs.citedKeys.map forgetKey).map CitedKey.listing := by rw [List.map_map]; rfl
    _ = gs.firstAppearances.map fun key =>
          (key, gs.paths.filter fun p => gs.keyAt? p = some key) := by
        rw [← hforgotten, citedKeys_eq (fun _ => .unresolved) hread, hkeys, List.map_map]
        exact List.map_congr_left fun key _ => Prod.ext rfl (hpaths key)

/-- What is listed for a cited key. -/
theorem listing_of_mem_citedKeys {ck : CitedKey} (h : ck ∈ gs.citedKeys) :
    ck.key ∈ gs.firstAppearances ∧
      ck.occurrences = gs.paths.filter fun p => gs.keyAt? p = some ck.key := by
  have hmem := List.mem_map_of_mem (f := CitedKey.listing) h
  rw [map_listing_citedKeys] at hmem
  obtain ⟨key, hkey, heq⟩ := List.mem_map.mp hmem
  obtain ⟨rfl, hoccurrences⟩ := Prod.mk.inj heq
  exact ⟨hkey, hoccurrences.symm⟩

theorem map_key_citedKeys (gs : CitationGroups) :
    gs.citedKeys.map CitedKey.key = gs.firstAppearances := by
  have hkeys := congrArg (List.map Prod.fst) (map_listing_citedKeys gs)
  rw [List.map_map, List.map_map] at hkeys
  exact hkeys.trans (List.map_id _)

theorem map_occurrences_citedKeys (gs : CitationGroups) :
    gs.citedKeys.map CitedKey.occurrences =
      gs.firstAppearances.map fun key => gs.paths.filter fun p => gs.keyAt? p = some key := by
  have hoccurrences := congrArg (List.map Prod.snd) (map_listing_citedKeys gs)
  rwa [List.map_map, List.map_map] at hoccurrences

/-- **The cited keys share out the paths.** -/
theorem WellOrdered.occurrences_perm (h : gs.WellOrdered) :
    (gs.citedKeys.flatMap CitedKey.occurrences).Perm gs.paths := by
  rw [List.flatMap_def, map_occurrences_citedKeys, ← List.flatMap_def]
  -- at a path one key is cited, so no path belongs to two keys
  refine (List.perm_ext_iff_of_nodup (List.nodup_flatMap.mpr ⟨?_, ?_⟩) h.nodup_paths).mpr ?_
  · exact fun key _ => h.nodup_paths.filter _
  · refine nodup_firstAppearances.imp fun hne p hp hp' => hne ?_
    have hkey := of_decide_eq_true (List.mem_filter.mp hp).2
    exact Option.some.inj (hkey.symm.trans (of_decide_eq_true (List.mem_filter.mp hp').2))
  · intro p
    rw [List.mem_flatMap]
    constructor
    · rintro ⟨key, -, hp⟩
      exact (List.mem_filter.mp hp).1
    · intro hp
      obtain ⟨c, hc⟩ := (mem_paths_iff h).mp hp
      have hread : (p, c) ∈ gs.reading := (mem_reading_iff h).mpr hc
      refine ⟨c.key, mem_firstAppearances.mpr ⟨_, hread, rfl⟩, List.mem_filter.mpr ⟨hp, ?_⟩⟩
      rw [keyAt?, hc]
      exact decide_eq_true rfl

/-! ## First citations -/

/-- The paths of the citations that are told as the first of their keys, as they are read. -/
def toldFirst (gs : CitationGroups) : List CitationPath :=
  (gs.reading.filter fun r => r.2.isFirst).map Prod.fst

/-- The first elements with each value of a function are those that are found when one looks for
their own value. -/
theorem map_find?_eraseDups {α β : Type} [DecidableEq α] [DecidableEq β] (f : α → β) {l : List α}
    (hnodup : l.Nodup) :
    (l.map f).eraseDups.map (fun b => l.find? fun a => f a = b) =
      (l.filter fun a => l.find? (fun a' => f a' = f a) = some a).map some := by
  -- what comes last is found only by a value that is new
  induction l using List.reverseRecOn with
  | nil => rfl
  | append_singleton l a ih =>
    obtain ⟨hl, -, hnew⟩ := List.nodup_append.mp hnodup
    have hfound {b : β} (hb : b ∈ l.map f) :
        (l ++ [a]).find? (fun a' => f a' = b) = l.find? fun a' => f a' = b := by
      obtain ⟨a', ha', rfl⟩ := List.mem_map.mp hb
      have hsome : (l.find? fun x => f x = f a').isSome :=
        List.find?_isSome.mpr ⟨a', ha', by simp⟩
      rw [List.find?_append, Option.or_of_isSome hsome]
    have hkept : (l.filter fun x => (l ++ [a]).find? (fun a' => f a' = f x) = some x) =
        l.filter fun x => l.find? (fun a' => f a' = f x) = some x :=
      List.filter_congr fun x hx => by rw [hfound (List.mem_map_of_mem hx)]
    have hmapped : (l.map f).eraseDups.map (fun b => (l ++ [a]).find? fun a' => f a' = b) =
        (l.map f).eraseDups.map fun b => l.find? fun a' => f a' = b :=
      List.map_congr_left fun b hb => hfound (List.mem_eraseDups.mp hb)
    rw [List.map_append, List.map_singleton, eraseDups_concat, List.filter_append, hkept,
      List.map_append, ← ih hl]
    by_cases hmem : f a ∈ l.map f
    · have hother : (l ++ [a]).find? (fun a' => f a' = f a) ≠ some a := by
        rw [hfound hmem]
        intro heq
        exact hnew a (List.mem_of_find?_eq_some heq) a List.mem_cons_self rfl
      rw [if_pos hmem, hmapped, List.filter_cons_of_neg (by simpa using hother)]
      simp
    · have hnone : l.find? (fun a' => f a' = f a) = none :=
        List.find?_eq_none.mpr fun x hx hfx =>
          hmem (List.mem_map.mpr ⟨x, hx, of_decide_eq_true hfx⟩)
      have hself : (l ++ [a]).find? (fun a' => f a' = f a) = some a := by
        rw [List.find?_append, hnone]
        simp
      rw [if_neg hmem, List.map_append, hmapped, List.filter_cons_of_pos (by simpa using hself),
        List.map_singleton, hself]
      rfl

/-- What is first read with a key is first at its path. -/
theorem WellOrdered.find?_reading_iff (h : gs.WellOrdered) {r : CitationPath × Citation}
    (hr : r ∈ gs.reading) :
    gs.reading.find? (fun r' => r'.2.key = r.2.key) = some r ↔
      gs.paths.find? (fun q => gs.keyAt? q = some r.2.key) = some r.1 := by
  have hsame : (gs.reading.find? fun r' => r'.2.key = r.2.key).map Prod.fst =
      gs.paths.find? fun q => gs.keyAt? q = some r.2.key := by
    rw [← List.head?_filter, ← List.head?_filter, ← List.head?_map, map_fst_filter_reading]
  rw [← hsame, Option.map_eq_some_iff]
  constructor
  · exact fun hfirst => ⟨r, hfirst, rfl⟩
  · rintro ⟨r', hfirst, hpath⟩
    have hnodup : (gs.reading.map Prod.fst).Nodup := h.map_fst_reading ▸ h.nodup_paths
    rwa [List.inj_on_of_nodup_map hnodup (List.mem_of_find?_eq_some hfirst) hr hpath] at hfirst

/-- **The citations told as first are the first of each key**, in the order of the keys. -/
theorem WellOrdered.map_head?_occurrences (h : gs.WellOrdered) :
    gs.citedKeys.map (fun ck => ck.occurrences.head?) = gs.markFirst.toldFirst.map some := by
  have hreading : gs.reading.Nodup := (h.map_fst_reading ▸ h.nodup_paths).of_map
  have htold : gs.markFirst.toldFirst = (gs.reading.filter fun r =>
      gs.reading.find? (fun r' => r'.2.key = r.2.key) = some r).map Prod.fst := by
    rw [toldFirst, markFirst, reading_mapCitations, List.filter_map, List.map_map]
    refine congrArg (List.map Prod.fst) (List.filter_congr fun r hr => ?_)
    rw [Function.comp_apply, Bool.eq_iff_iff, beq_iff_eq, decide_eq_true_eq,
      h.find?_reading_iff hr]
    rfl
  calc gs.citedKeys.map (fun ck => ck.occurrences.head?)
      = (gs.citedKeys.map CitedKey.occurrences).map List.head? := by rw [List.map_map]; rfl
    _ = (gs.firstAppearances.map fun key => gs.reading.find? fun r => r.2.key = key).map
          (Option.map Prod.fst) := by
        rw [map_occurrences_citedKeys, List.map_map, List.map_map]
        refine List.map_congr_left fun key _ => ?_
        rw [Function.comp_apply, Function.comp_apply, ← List.head?_filter, ← List.head?_map,
          map_fst_filter_reading]
    _ = gs.markFirst.toldFirst.map some := by
        rw [firstAppearances, map_find?_eraseDups (fun r => r.2.key) hreading, htold, List.map_map,
          List.map_map]
        rfl

/-! ## The groups that cite a key -/

/-- The groups in the order of the document are the groups. -/
theorem WellOrdered.inOrder_perm (h : gs.WellOrdered) : gs.inOrder.Perm gs.groups := by
  have hall : (List.range gs.groups.length).filterMap (fun i => gs.groups[i]?) = gs.groups := by
    have hsome : (List.range gs.groups.length).map (fun i => gs.groups[i]?) =
        gs.groups.map some := by
      refine List.ext_getElem (by simp) fun i hi hi' => ?_
      simp
    have hmap := congrArg (List.filterMap id) hsome
    rwa [List.filterMap_map, List.filterMap_map, Function.id_comp, Function.id_comp,
      List.filterMap_some] at hmap
  exact (h.slots_perm.filterMap _).trans (.of_eq hall)

/-- Blocks of one value each, with a different value in each of them. -/
theorem eraseDups_flatMap_replicate {α β : Type} [DecidableEq β] {value : α → β} (count : α → Nat)
    {l : List α} (hnodup : (l.map value).Nodup) :
    (l.flatMap fun a => List.replicate (count a) (value a)).eraseDups =
      (l.filter fun a => 0 < count a).map value := by
  induction l with
  | nil => rfl
  | cons a l ih =>
    obtain ⟨hnew, hrest⟩ := List.nodup_cons.mp hnodup
    rw [List.flatMap_cons, List.eraseDups_append]
    cases hcount : count a with
    | zero =>
      rw [List.filter_cons_of_neg (by simp [hcount]), ← ih hrest]
      simp [List.removeAll]
    | succ n =>
      have hblock : (List.replicate (n + 1) (value a)).eraseDups = [value a] := by
        rw [List.replicate_succ, List.eraseDups_cons]
        simp
      -- with its own repetitions a value removes none of another block
      have hapart : (l.flatMap fun a => List.replicate (count a) (value a)).removeAll
          (List.replicate (n + 1) (value a)) =
            l.flatMap fun a => List.replicate (count a) (value a) := by
        refine List.filter_eq_self.mpr fun b hb => ?_
        obtain ⟨a', ha', hb⟩ := List.mem_flatMap.mp hb
        have hvalue : b = value a' := (List.mem_replicate.mp hb).2
        have hne : b ≠ value a := fun heq =>
          hnew (List.mem_map.mpr ⟨a', ha', hvalue.symm.trans heq⟩)
        simp [hne]
      rw [hblock, hapart, ih hrest, List.filter_cons_of_pos (by simp [hcount])]
      rfl

/-- How many citations of a group are presented for a key. -/
def CitationGroup.citing (g : CitationGroup) (key : String) : Nat :=
  (g.localOrder.filter fun j => (g.citations[j]?).map Citation.key = some key).length

/-- The groups of the paths of a key, with repetitions. -/
theorem filterMap_group_paths (gs : CitationGroups) (key : String) :
    (gs.paths.filter fun p => gs.keyAt? p = some key).filterMap
        (fun p => (gs.groups[p.group]?).map CitationGroup.id) =
      gs.inOrder.flatMap fun g => List.replicate (CitationGroup.citing g key) g.id := by
  rw [paths, inOrder]
  induction gs.slots with
  | nil => rfl
  | cons i slots ih =>
    rw [List.flatMap_cons, List.filter_append, List.filterMap_append, ih, List.filterMap_cons]
    cases hg : gs.groups[i]? with
    | none => rfl
    | some g =>
      have hid : (fun p : CitationPath => (gs.groups[p.group]?).map CitationGroup.id) ∘
          (fun j => ⟨i, j⟩) = some ∘ fun _ => g.id := by
        funext j
        simp [hg]
      have hkey : (fun p => decide (gs.keyAt? p = some key)) ∘ (fun j => ⟨i, j⟩) =
          fun j => decide ((g.citations[j]?).map Citation.key = some key) := by
        funext j
        simp [keyAt?, citation?, hg]
      simp only [List.flatMap_cons, List.filter_map, List.filterMap_map, hid, hkey,
        List.filterMap_eq_map, List.map_const', CitationGroup.citing]

/-- A group that presents all its citations cites the keys that it holds. -/
theorem citing_pos_iff {g : CitationGroup} {key : String}
    (h : g.localOrder.Perm (List.range g.citations.length)) :
    0 < CitationGroup.citing g key ↔ key ∈ g.keys := by
  rw [CitationGroup.citing, List.length_pos_iff_exists_mem, CitationGroup.keys, List.mem_map]
  constructor
  · rintro ⟨j, hj⟩
    obtain ⟨c, hc, hkey⟩ := Option.map_eq_some_iff.mp (of_decide_eq_true (List.mem_filter.mp hj).2)
    exact ⟨c, List.mem_of_getElem? hc, hkey⟩
  · rintro ⟨c, hc, hkey⟩
    obtain ⟨j, hj⟩ := List.mem_iff_getElem?.mp hc
    have hlt : j < g.citations.length := (List.getElem?_eq_some_iff.mp hj).1
    refine ⟨j, List.mem_filter.mpr ⟨h.mem_iff.mpr (List.mem_range.mpr hlt), ?_⟩⟩
    rw [hj]
    exact decide_eq_true (congrArg some hkey)

/-- **A key is cited in the groups that hold it**, each of them named once and in the order of the
document. -/
theorem WellOrdered.citedIn_eq (h : gs.WellOrdered) (hids : gs.ids.Nodup) {ck : CitedKey}
    (hck : ck ∈ gs.citedKeys) :
    Bibliography.citedIn gs ck =
      (gs.inOrder.filter fun g => ck.key ∈ g.keys).map CitationGroup.id := by
  have hnodup : (gs.inOrder.map CitationGroup.id).Nodup :=
    (h.inOrder_perm.map CitationGroup.id).nodup_iff.mpr hids
  rw [Bibliography.citedIn, (listing_of_mem_citedKeys hck).2, filterMap_group_paths,
    eraseDups_flatMap_replicate _ hnodup]
  refine congrArg (List.map _) (List.filter_congr fun g hg => ?_)
  have hlocal := h.localOrder_perm g (h.inOrder_perm.mem_iff.mp hg)
  rw [Bool.eq_iff_iff, decide_eq_true_eq, decide_eq_true_eq, citing_pos_iff hlocal]

/-! ## Whatever is done with the groups -/

/-- **Every citation is accounted for**, where groups were made and things were done with them. -/
structure Accounted (made : List CitationGroup) (gs : CitationGroups) : Prop where
  /-- The groups are there, with their names, kinds, page info and keys. -/
  content_eq : gs.content = made.map CitationGroup.content
  /-- Groups present each of their citations once. -/
  localOrder_perm : ∀ g ∈ gs.groups, g.localOrder.Perm (List.range g.citations.length)
  /-- The order of the document has each group once. -/
  inOrder_perm : gs.inOrder.Perm gs.groups
  /-- The paths list each citation once. -/
  nodup_paths : gs.paths.Nodup
  mem_paths_iff : ∀ p, p ∈ gs.paths ↔ ∃ c, gs.citation? p = some c
  /-- The cited keys share out the paths by key, and keep their order. -/
  nodup_keys : (gs.citedKeys.map CitedKey.key).Nodup
  occurrences_perm : (gs.citedKeys.flatMap CitedKey.occurrences).Perm gs.paths
  occurrences_eq : ∀ ck ∈ gs.citedKeys,
    ck.occurrences = gs.paths.filter fun p => gs.keyAt? p = some ck.key
  /-- The citations told as first are the first ones of the keys, which come in their order. -/
  head?_occurrences : gs.citedKeys.map (fun ck => ck.occurrences.head?) =
    gs.markFirst.toldFirst.map some
  toldFirst_sublist : gs.markFirst.toldFirst.Sublist gs.paths
  /-- The bibliography names for each key the groups that cite it, in the order of the document. -/
  citedIn_eq : ∀ databases style,
    (Bibliography.ofCited gs gs.citedKeys databases style).entries.map
        (fun e => (e.key, e.citedIn)) =
      gs.citedKeys.map fun ck =>
        (ck.key, (gs.inOrder.filter fun g => ck.key ∈ g.keys).map CitationGroup.id)
  /-- No group is named twice. -/
  nodup_ids : (gs.inOrder.map CitationGroup.id).Nodup

/-- In well-ordered groups of different names every citation is accounted for. -/
theorem WellOrdered.accounted {made : List CitationGroup} (h : gs.WellOrdered)
    (hids : gs.ids.Nodup) (hcontent : gs.content = made.map CitationGroup.content) :
    Accounted made gs where
  content_eq := hcontent
  localOrder_perm := h.localOrder_perm
  inOrder_perm := h.inOrder_perm
  nodup_paths := h.nodup_paths
  mem_paths_iff _ := mem_paths_iff h
  nodup_keys := map_key_citedKeys gs ▸ nodup_firstAppearances
  occurrences_perm := h.occurrences_perm
  occurrences_eq _ hck := (listing_of_mem_citedKeys hck).2
  head?_occurrences := h.map_head?_occurrences
  toldFirst_sublist := by
    have hmarked : gs.markFirst.WellOrdered := h.mapCitations _
    have hpaths : gs.markFirst.paths = gs.paths := paths_mapCitations
    rw [toldFirst, ← hpaths, ← hmarked.map_fst_reading]
    exact List.filter_sublist.map _
  citedIn_eq databases style := by
    rw [Bibliography.ofCited, List.map_map]
    exact List.map_congr_left fun ck hck => Prod.ext rfl (h.citedIn_eq hids hck)
  nodup_ids := (h.inOrder_perm.map CitationGroup.id).nodup_iff.mpr hids

/-- **Whatever is done with groups, every citation is accounted for.** -/
theorem accounted_runAll {made : List CitationGroup} (hids : (made.map CitationGroup.id).Nodup)
    (hmade : ∀ g ∈ made, g.Made) (calls : List GroupsCall) :
    Accounted made (GroupsCall.runAll (ofList made) calls) := by
  have hwell : (ofList made).WellOrdered :=
    wellOrdered_ofList fun g hg => (hmade g hg).localOrder_perm
  have hcontent : (GroupsCall.runAll (ofList made) calls).content =
      made.map CitationGroup.content := by
    rw [content_runAll, content, groups_ofList hids]
  have hnames : (GroupsCall.runAll (ofList made) calls).ids = made.map CitationGroup.id := by
    have hlabels := congrArg (List.map fun c => c.1.1) hcontent
    rwa [content, List.map_map, List.map_map] at hlabels
  exact (hwell.runAll calls).accounted (hnames ▸ hids) hcontent

/-- Two groups that share a key. -/
def sharingGroups : List CitationGroup :=
  [.new "first" .parenthetical ["oak", "ash"] none, .new "second" .inText ["elm", "oak"] none]

/-- The second group comes first and is sorted by key; an order that leaves a group out is refused. -/
def sharingCalls : List GroupsCall :=
  [.imposeOrder ["second", "first"], .sortGroups fun a b => compare b.key a.key,
    .numberByAppearance, .imposeOrder ["first"], .markFirst]

theorem accounted_runAll_sharingGroups :
    (sharingGroups.map CitationGroup.id).Nodup ∧ (∀ g ∈ sharingGroups, g.Made) ∧
      Accounted sharingGroups (GroupsCall.runAll (ofList sharingGroups) sharingCalls) := by
  have hids : (sharingGroups.map CitationGroup.id).Nodup := by decide
  have hmade : ∀ g ∈ sharingGroups, g.Made := by
    intro g hg
    rcases List.mem_pair.mp hg with rfl | rfl <;> exact .stored rfl
  exact ⟨hids, hmade, accounted_runAll hids hmade sharingCalls⟩

end CitationGroups

end DocCite
