import DocCite.Proofs.Citation.Numbers
import DocCite.Proofs.Database.Lookup
import DocCite.Proofs.Document.Citing

/-!
# What an export holds

Cited entries are exported one after another, each with the entry that it inherits from. An entry
that has come along with an earlier one is passed over, and then what it inherits from itself does
not come along. So an export holds all that the cited entries inherit from, and gives their fields
as the database does, unless that is missed for an entry passed over
(`selfContained_exportCited_iff`).
-/

namespace DocCite

namespace Database

variable {db exported : Database} {cited earlier : List Entry} {e g : Entry}

/-! ## Entries that come along -/

/-- Whether an entry comes along with cited ones, the latest of which stands first: with one that
has not come along itself. -/
def comesAlong (db : Database) : List Entry → Entry → Bool
  | [], _ => false
  | e :: earlier, g =>
    comesAlong db earlier g || (db.parent? e == some g && !comesAlong db earlier e)

/-- **A cited entry is passed over** if it has come along with one that is cited before it. -/
def PassedOver (db : Database) (cited : List Entry) (e : Entry) : Prop :=
  ∃ before after, cited = before ++ e :: after ∧ e ∉ before ∧
    comesAlong db before.reverse e = true

theorem comesAlong_cons_iff :
    comesAlong db (e :: earlier) g = true ↔
      comesAlong db earlier g = true ∨
        (db.parent? e = some g ∧ ¬ comesAlong db earlier e = true) := by
  simp [comesAlong]

/-- What has come along stays there. -/
theorem comesAlong_of_suffix {l : List Entry} (hsuffix : earlier <:+ l)
    (h : comesAlong db earlier g = true) : comesAlong db l g = true := by
  obtain ⟨later, rfl⟩ := hsuffix
  induction later with
  | nil => exact h
  | cons e later ih => exact comesAlong_cons_iff.mpr (.inl ih)

/-- What comes along does so with a cited entry that has not come along before its turn. -/
theorem exists_suffix_of_comesAlong {l : List Entry} (h : comesAlong db l g = true) :
    ∃ e earlier, e :: earlier <:+ l ∧ db.parent? e = some g ∧
      ¬ comesAlong db earlier e = true := by
  induction l with
  | nil => cases h
  | cons e l ih =>
    rcases comesAlong_cons_iff.mp h with halready | ⟨hparent, hnew⟩
    · obtain ⟨c, earlier, hsuffix, hc⟩ := ih halready
      exact ⟨c, earlier, hsuffix.trans (List.suffix_cons e l), hc⟩
    · exact ⟨e, l, List.suffix_refl _, hparent, hnew⟩

/-- **What comes along** is what the cited entries inherit from that are not passed over. -/
theorem comesAlong_reverse_iff :
    comesAlong db cited.reverse g = true ↔
      ∃ e ∈ cited, ¬ PassedOver db cited e ∧ db.parent? e = some g := by
  constructor
  · intro h
    obtain ⟨e, earlier, hsuffix, hparent, hnew⟩ := exists_suffix_of_comesAlong h
    refine ⟨e, List.mem_reverse.mp (hsuffix.mem List.mem_cons_self), ?_, hparent⟩
    rintro ⟨before, after, rfl, hnot, halong⟩
    have hbefore : before.reverse <:+ (before ++ e :: after).reverse :=
      List.reverse_suffix.mpr (List.prefix_append _ _)
    -- the turn with which `g` came along is not before the first one
    rcases List.suffix_or_suffix_of_suffix hbefore hsuffix with hle | hge
    · rcases List.suffix_cons_iff.mp hle with heq | hle
      · exact hnot (List.mem_reverse.mp (heq ▸ List.mem_cons_self))
      · exact hnew (comesAlong_of_suffix hle halong)
    · exact hnot (List.mem_reverse.mp (hge.mem List.mem_cons_self))
  · rintro ⟨e, he, hturn, hparent⟩
    obtain ⟨before, after, rfl, hnot⟩ := List.eq_append_cons_of_mem he
    have hnew : ¬ comesAlong db before.reverse e = true :=
      fun halong => hturn ⟨before, after, rfl, hnot, halong⟩
    have hsuffix : e :: before.reverse <:+ (before ++ e :: after).reverse :=
      ⟨after.reverse, by simp⟩
    exact comesAlong_of_suffix hsuffix (comesAlong_cons_iff.mpr (.inr ⟨hparent, hnew⟩))

/-- What a cited entry inherits from has come along, unless the entry has. -/
theorem comesAlong_of_mem (he : e ∈ earlier) (hnew : ¬ comesAlong db earlier e = true)
    (hparent : db.parent? e = some g) : comesAlong db earlier g = true := by
  obtain ⟨later, rest, rfl⟩ := List.append_of_mem he
  have hrest : ¬ comesAlong db rest e = true := fun h =>
    hnew (comesAlong_of_suffix ((List.suffix_cons e rest).trans (List.suffix_append _ _)) h)
  exact comesAlong_of_suffix (List.suffix_append _ _)
    (comesAlong_cons_iff.mpr (.inr ⟨hparent, hrest⟩))

/-! ## Exporting entry by entry -/

/-- A database with entries that were exported, given the cited ones with the latest first. -/
structure Exports (db : Database) (earlier : List Entry) (exported : Database) : Prop
    extends PartOf db exported where
  mem_iff : ∀ g, g ∈ exported.entries ↔ g ∈ earlier ∨ comesAlong db earlier g = true

theorem exports_empty (mode : DatabaseMode) : Exports db [] { mode := mode } where
  wellKeyed := wellKeyed_empty mode
  mem_of_mem _ h := absurd h List.not_mem_nil
  mem_iff _ := by simp [entries, comesAlong]

open DocumentM

/-- Storing an entry in a part adds it, and nothing if it is there. -/
theorem PartOf.storeNew (h : PartOf db exported) (hdb : db.WellKeyed) (he : e ∈ db.entries) :
    PartOf db (storeNew exported e) ∧
      ∀ g, g ∈ (storeNew exported e).entries ↔ g ∈ exported.entries ∨ g = e := by
  obtain ⟨key, hkey⟩ := hdb.exists_citationKey he
  have hthere := h.contains_iff hdb he hkey
  simp only [DocumentM.storeNew, hkey]
  split
  · next hcontains =>
    refine ⟨h, fun g => (or_iff_left_of_imp ?_).symm⟩
    rintro rfl
    exact hthere.mp hcontains
  · next hcontains =>
    have hentries : (exported.insert e).entries = exported.entries ++ [e] :=
      entries_insert_of_new hkey (by simpa [contains] using hcontains)
    have hmem (g : Entry) : g ∈ (exported.insert e).entries ↔ g ∈ exported.entries ∨ g = e := by
      rw [hentries, List.mem_append, List.mem_singleton]
    refine ⟨⟨h.wellKeyed.insert e, fun g hg => ?_⟩, hmem⟩
    rcases (hmem g).mp hg with hold | rfl
    · exact h.mem_of_mem g hold
    · exact he

/-- A cited entry that is there: it was cited before, and what it inherits from has come along, or
it has come along itself and is passed over. -/
theorem Exports.cons_of_mem (h : Exports db earlier exported) (he : e ∈ exported.entries) :
    Exports db (e :: earlier) exported := by
  have hthere := (h.mem_iff e).mp he
  refine ⟨h.toPartOf, fun g => ?_⟩
  rw [h.mem_iff, List.mem_cons, comesAlong_cons_iff]
  constructor
  · exact fun hg => hg.imp .inr .inl
  · rintro ((rfl | hg) | hg | ⟨hparent, hnew⟩)
    · exact hthere
    · exact .inl hg
    · exact .inr hg
    · exact .inr (comesAlong_of_mem (hthere.resolve_right hnew) hnew hparent)

/-- A cited entry that is new comes with what it inherits from. -/
theorem Exports.cons_of_not_mem (h : Exports db earlier exported) (hdb : db.WellKeyed)
    (he : e ∈ db.entries) (hnew : e ∉ exported.entries) :
    Exports db (e :: earlier)
      ((db.parent? e).elim (storeNew exported e) (storeNew (storeNew exported e))) := by
  have hturn : ¬ comesAlong db earlier e = true := fun halong =>
    hnew ((h.mem_iff e).mpr (.inr halong))
  obtain ⟨hpart, hmem⟩ := h.toPartOf.storeNew hdb he
  cases hparent : db.parent? e with
  | none =>
    refine ⟨hpart, fun g => ?_⟩
    rw [Option.elim_none, hmem, h.mem_iff, List.mem_cons, comesAlong_cons_iff, hparent]
    grind
  | some parent =>
    obtain ⟨hboth, hmemBoth⟩ := hpart.storeNew hdb (mem_entries_of_parent? hdb hparent)
    refine ⟨hboth, fun g => ?_⟩
    rw [Option.elim_some, hmemBoth, hmem, h.mem_iff, List.mem_cons, comesAlong_cons_iff, hparent]
    grind

/-- **One more cited entry**: it is exported with what it inherits from, or passed over. -/
theorem Exports.exportKey (h : Exports db earlier exported) (hdb : db.WellKeyed) {ck : CitedKey}
    (hck : ck.resolution = Resolution.lookup ck.key [db]) :
    Exports db ((db.lookup ck.key).toList ++ earlier) (exportKey [db] exported ck) := by
  have hfound : ck.resolution.entryAndDatabase? [db] = (db.lookup ck.key).map fun e => (e, db) := by
    rw [hck, Resolution.lookup, Resolution.lookupFrom]
    cases db.lookup ck.key <;> rfl
  rw [DocumentM.exportKey, hfound]
  cases hlookup : db.lookup ck.key with
  | none => exact h
  | some e =>
    have he : e ∈ db.entries := (hdb.lookup_eq_some_iff.mp hlookup).1
    obtain ⟨key, hkey⟩ := hdb.exists_citationKey he
    have hthere := h.contains_iff hdb he hkey
    simp only [Option.map_some, hkey, Option.getD_some, Option.toList_some, List.singleton_append]
    split
    · next hcontains => exact h.cons_of_mem (hthere.mp hcontains)
    · next hcontains =>
      have hstored : exported.insert e = storeNew exported e := by
        simp [DocumentM.storeNew, hkey, hcontains]
      have hnext := h.cons_of_not_mem hdb he fun hmem => hcontains (hthere.mpr hmem)
      rw [parent?] at hnext
      rw [hstored]
      cases hparent : e.crossref.bind db.lookup <;>
        simpa only [hparent, Option.elim_none, Option.elim_some] using hnext

/-- All cited entries, one after another. -/
theorem Exports.foldl (h : Exports db earlier exported) (hdb : db.WellKeyed)
    {cited : List CitedKey}
    (hfound : ∀ ck ∈ cited, ck.resolution = Resolution.lookup ck.key [db]) :
    Exports db ((cited.filterMap fun ck => db.lookup ck.key).reverse ++ earlier)
      (cited.foldl (DocumentM.exportKey [db]) exported) := by
  induction cited generalizing earlier exported with
  | nil => exact h
  | cons ck cited ih =>
    have hnext := ih (h.exportKey hdb (hfound ck List.mem_cons_self)) fun c hc =>
      hfound c (List.mem_cons_of_mem _ hc)
    rw [List.foldl_cons, List.filterMap_cons]
    cases hlookup : db.lookup ck.key with
    | none => simpa only [hlookup, Option.toList_none, List.nil_append] using hnext
    | some e =>
      simpa only [hlookup, Option.toList_some, List.reverse_cons, List.append_assoc] using hnext

/-! ## What an export is to hold -/

/-- The entries that keys are found to be those of. -/
def found (db : Database) (keys : List String) : List Entry := keys.filterMap db.lookup

/-- **An export of cited keys that stands for itself**: the entries that are found and those that
they inherit from, each once, and no others; and every field of the entries that are found has the
value that it has in the database. -/
structure SelfContained (db : Database) (keys : List String) (exported : Database) : Prop where
  mem_iff : ∀ g, g ∈ exported.entries ↔
    g ∈ db.found keys ∨ ∃ e ∈ db.found keys, db.parent? e = some g
  nodup : exported.entries.Nodup
  resolvedField_eq : ∀ e ∈ db.found keys, ∀ name,
    e.resolvedField name exported = e.resolvedField name db

/-- Exported entries stand for themselves just when nothing is missed for those passed over. -/
theorem Exports.selfContained_iff (hdb : db.WellKeyed) {keys : List String}
    (h : Exports db (db.found keys).reverse exported) :
    SelfContained db keys exported ↔
      ∀ e, PassedOver db (db.found keys) e → ∀ g, db.parent? e = some g →
        g ∈ db.found keys ∨
          ∃ c ∈ db.found keys, ¬ PassedOver db (db.found keys) c ∧ db.parent? c = some g := by
  have hmem (g : Entry) : g ∈ exported.entries ↔ g ∈ db.found keys ∨
      ∃ c ∈ db.found keys, ¬ PassedOver db (db.found keys) c ∧ db.parent? c = some g := by
    rw [h.mem_iff, List.mem_reverse, comesAlong_reverse_iff]
  constructor
  · intro hself e ⟨before, after, hsplit, _⟩ g hparent
    have he : e ∈ db.found keys := hsplit ▸ by simp
    exact (hmem g).mp ((hself.mem_iff g).mpr (.inr ⟨e, he, hparent⟩))
  · intro hclosed
    have hparent : ∀ e ∈ db.found keys, ∀ g, db.parent? e = some g → g ∈ exported.entries := by
      intro e he g hg
      by_cases hturn : PassedOver db (db.found keys) e
      · exact (hmem g).mpr (hclosed e hturn g hg)
      · exact (hmem g).mpr (.inr ⟨e, he, hturn, hg⟩)
    constructor
    case mem_iff =>
      intro g
      constructor
      · exact fun hg => ((hmem g).mp hg).imp_right fun ⟨c, hc, _, hg⟩ => ⟨c, hc, hg⟩
      · rintro (hg | ⟨e, he, hg⟩)
        · exact (hmem g).mpr (.inl hg)
        · exact hparent e he g hg
    case nodup => exact h.wellKeyed.nodup_entries
    case resolvedField_eq => exact fun e he => h.toPartOf.resolvedField_eq hdb (hparent e he)

/-- Where what entries inherit from inherits nothing itself, exported entries stand for
themselves. -/
theorem Exports.selfContained_of_flat (hdb : db.WellKeyed) {keys : List String}
    (h : Exports db (db.found keys).reverse exported)
    (hflat : ∀ e ∈ db.found keys, ∀ g, db.parent? e = some g → db.parent? g = none) :
    SelfContained db keys exported := by
  refine (h.selfContained_iff hdb).mpr fun e ⟨before, after, hsplit, _, halong⟩ g hparent => ?_
  obtain ⟨c, hc, -, hce⟩ := comesAlong_reverse_iff.mp halong
  have hnone := hflat c (hsplit ▸ List.mem_append_left _ hc) e hce
  rw [hnone] at hparent
  cases hparent

end Database

namespace DocumentM

open CitationGroups

/-- What is exported, and the keys that are not found, follow from the groups of the document. -/
theorem run_exportCited_eq_ok_iff {d d' : Document} {databases : List Database}
    {r : Database × List String} :
    (exportCited databases).run d = (.ok r, d') ↔
      ∃ gs, loadGroups.run d = (.ok gs, d') ∧
        r = ((gs.resolve databases).citedKeys.foldl (exportKey databases)
            { mode := (databases.head?.map Database.mode).getD .bibtex },
          (gs.resolve databases).unresolvedKeys) := by
  rw [exportCited, run_bind_eq_ok_iff]
  constructor
  · rintro ⟨gs, d₁, hload, hpure⟩
    cases hpure
    exact ⟨gs, hload, rfl⟩
  · rintro ⟨gs, hload, rfl⟩
    exact ⟨gs, d', hload, rfl⟩

/-- The keys that are not found, as they first appear. -/
theorem unresolvedKeys_resolve (gs : CitationGroups) (db : Database) :
    (gs.resolve [db]).unresolvedKeys =
      gs.firstAppearances.filter fun key => (db.lookup key).isNone := by
  have hresolved (key : String) :
      (!(Resolution.lookup key [db]).isResolved) = (db.lookup key).isNone := by
    rw [Resolution.lookup, Resolution.lookupFrom]
    cases db.lookup key <;> rfl
  rw [unresolvedKeys, citedKeys_lookedUp (isLookedUp_resolve gs [db]), firstAppearances_resolve,
    List.filter_map, List.map_map]
  exact (List.map_id _).trans (List.filter_congr fun key _ => hresolved key)

/-- The cited entries of a document are exported one after another. -/
theorem exports_citedKeys {db : Database} (hdb : db.WellKeyed) (gs : CitationGroups)
    (mode : DatabaseMode) :
    Database.Exports db (db.found gs.firstAppearances).reverse
      ((gs.resolve [db]).citedKeys.foldl (exportKey [db]) { mode := mode }) := by
  have hcited := citedKeys_lookedUp (isLookedUp_resolve gs [db])
  have hfound : ∀ ck ∈ (gs.resolve [db]).citedKeys,
      ck.resolution = Resolution.lookup ck.key [db] := by
    intro ck hck
    rw [hcited] at hck
    obtain ⟨key, -, rfl⟩ := List.mem_map.mp hck
    rfl
  have hentries : ((gs.resolve [db]).citedKeys.filterMap fun ck => db.lookup ck.key) =
      db.found gs.firstAppearances := by
    rw [hcited, List.filterMap_map, firstAppearances_resolve]
    rfl
  have hall := (Database.exports_empty mode).foldl hdb hfound
  rwa [hentries, List.append_nil] at hall

/-- **When an export stands for itself**: just when what each entry passed over inherits from is
cited or comes along with an entry that is not passed over. Over a connection that does not break
there is always an export, and it tells the cited keys that are not found, in the order in which
they first appear. -/
theorem selfContained_exportCited_iff {db : Database} (hdb : db.WellKeyed) (d : Document) :
    (d.connection = .steady → ∃ r d', (exportCited [db]).run d = (.ok r, d')) ∧
      ∀ exported unresolved d', (exportCited [db]).run d = (.ok (exported, unresolved), d') →
        ∃ gs, loadGroups.run d = (.ok gs, d') ∧
          unresolved = gs.firstAppearances.filter (fun key => (db.lookup key).isNone) ∧
          (db.SelfContained gs.firstAppearances exported ↔
            ∀ e, db.PassedOver (db.found gs.firstAppearances) e → ∀ g, db.parent? e = some g →
              g ∈ db.found gs.firstAppearances ∨
                ∃ c ∈ db.found gs.firstAppearances,
                  ¬ db.PassedOver (db.found gs.firstAppearances) c ∧ db.parent? c = some g) := by
  constructor
  · intro hsteady
    have hload := (Makes.loadGroups (o := d.steady) (v := d.markedText)).run_eq
    have hd : d.steady = d := by rw [Document.steady, ← hsteady]
    rw [hd] at hload
    exact ⟨_, (loadGroups.run d).2, run_exportCited_eq_ok_iff.mpr
      ⟨_, Prod.ext hload rfl, rfl⟩⟩
  · intro exported unresolved d' hrun
    obtain ⟨gs, hload, hr⟩ := run_exportCited_eq_ok_iff.mp hrun
    rw [Prod.mk.injEq, unresolvedKeys_resolve] at hr
    refine ⟨gs, hload, hr.2, ?_⟩
    have hexports := exports_citedKeys hdb gs db.mode
    exact Database.Exports.selfContained_iff hdb (hr.1 ▸ hexports)

/-- A volume of a series. -/
def chainVolume : Entry := (Entry.new "volume" "collection").setFields [("crossref", "series")]

/-- A paper in the volume of a series that has the publisher. -/
def chainSources : Database :=
  .ofEntries .bibtex
    [(Entry.new "series" "collection").setFields [("publisher", "Press")], chainVolume,
      (Entry.new "paper" "incollection").setFields [("crossref", "volume")]]

/-- A document that cites the paper and then the volume. -/
def chainPaper : Document :=
  { Document.ofText "Paper" "(P) (V)" with
    marks := [("JR_cite_1_paper", .inBody 0 3), ("JR_cite_1_volume", .inBody 4 7)] }

theorem selfContained_exportCited_chainPaper :
    chainSources.WellKeyed ∧ chainPaper.connection = .steady ∧
      ∃ r d', (exportCited [chainSources]).run chainPaper = (.ok r, d') := by
  have hkeyed : chainSources.WellKeyed := Database.wellKeyed_ofEntries _ _
  have hsteady : chainPaper.connection = .steady := rfl
  exact ⟨hkeyed, hsteady, (selfContained_exportCited_iff hkeyed chainPaper).1 hsteady⟩

/-- The volume comes along with the paper and is passed over, so the series is missed, and with it
the publisher. -/
theorem not_selfContained_chainPaper :
    ∃ exported gs, ((exportCited [chainSources]).run chainPaper).1 = .ok (exported, []) ∧
      (loadGroups.run chainPaper).1 = .ok gs ∧
      ¬ chainSources.SelfContained gs.firstAppearances exported := by
  have hgs : (loadGroups.run chainPaper).1 =
      .ok (.ofList [.new "JR_cite_1_paper" .parenthetical ["paper"] none,
        .new "JR_cite_1_volume" .parenthetical ["volume"] none]) := by decide +kernel
  have hrun : ((exportCited [chainSources]).run chainPaper).1 =
      .ok (.ofEntries .bibtex
        [(Entry.new "paper" "incollection").setFields [("crossref", "volume")], chainVolume],
          []) := by decide +kernel
  refine ⟨_, _, hrun, hgs, fun h => ?_⟩
  have hpublisher := h.resolvedField_eq chainVolume (by decide +kernel) "publisher"
  exact absurd hpublisher (by decide +kernel)

end DocumentM

end DocCite
