import DocCite.Proofs.Document.Citing
import DocCite.Proofs.Document.Evaluating

/-!
# One more citation

Inserting a citation adds one group to those of the document, after all others, and changes nothing
else but the text at the cursor (`insertCitation_adds`). The keys go into the name of its mark, and
come back from there just when each of them can be written into a name
(`keysRead_insertCitation_iff`).
-/

namespace DocCite

/-! ## The keys that are cited -/

theorem map_some_eq_of_forall₂ {α β : Type} {f : α → Option β} {l : List α} {found : List β}
    (h : List.Forall₂ (fun a b => f a = some b) l found) : found.map some = l.map f := by
  induction h with
  | nil => rfl
  | cons hfirst _ ih => rw [List.map_cons, List.map_cons, hfirst, ih]

/-- **The keys that are cited** are those of the entries, and none of them is empty. -/
theorem citationKeys_of_keysToCite {entries : List Entry} {keys : List String}
    (h : keysToCite entries = .ok keys) :
    keys.map some = entries.map Entry.citationKey ∧ ∀ key ∈ keys, key.toList ≠ [] := by
  unfold keysToCite at h
  split at h
  · cases h
  have hfound : List.Forall₂ (fun e key => Entry.citationKey e = some key) entries keys := by
    refine (forall₂_of_mapM_eq_ok h).imp fun e key hkey => ?_
    split at hkey
    · next hsome =>
      cases hkey
      exact hsome
    · cases hkey
  refine ⟨map_some_eq_of_forall₂ hfound, fun key hkey => ?_⟩
  obtain ⟨e, -, he⟩ := (exists_of_forall₂_of_mem hfound).2 key hkey
  have hne := (Option.filter_eq_some_iff.mp he).2
  simpa using hne

/-- The names of marks can hold the keys that are cited, unless commas or paragraph breaks are in
them. -/
theorem forall_isWritable_iff {entries : List Entry} {keys : List String}
    (h : keysToCite entries = .ok keys) :
    (∀ key ∈ keys, MarkName.IsWritable key) ↔
      ∀ e ∈ entries, ∀ key, e.citationKey = some key → ',' ∉ key.toList ∧ '\n' ∉ key.toList := by
  obtain ⟨hcited, hne⟩ := citationKeys_of_keysToCite h
  have hmem (key : String) : key ∈ keys ↔ ∃ e ∈ entries, e.citationKey = some key := by
    rw [← List.mem_map, ← hcited, List.mem_map]
    exact ⟨fun hkey => ⟨key, hkey, rfl⟩, fun ⟨_, hkey, heq⟩ => Option.some.inj heq ▸ hkey⟩
  constructor
  · intro hall e he key hkey
    have hwritable := hall key ((hmem key).mpr ⟨e, he, hkey⟩)
    exact ⟨hwritable.no_comma, hwritable.no_break⟩
  · intro hall key hkey
    obtain ⟨e, he, hsome⟩ := (hmem key).mp hkey
    obtain ⟨hcomma, hbreak⟩ := hall e he key hsome
    exact ⟨hne key hkey, hcomma, hbreak⟩

/-! ## Names of new marks -/

namespace MarkName

/-- The keys that were cited come back from a fresh name when it can hold them. -/
theorem keys_of_parse?_fresh {keys : List String} {kind : CitationKind} {used : List String}
    (hne : keys ≠ []) :
    ((parse? (fresh keys kind used)).map MarkName.keys = some keys) ↔
      ∀ key ∈ keys, IsWritable key := by
  constructor
  · intro h
    obtain ⟨n, hn, rfl⟩ := Option.map_eq_some_iff.mp h
    exact (isWritable_of_parse? hn).2
  · intro h
    obtain ⟨serial, hparse⟩ := parse?_fresh hne h kind used
    rw [hparse, Option.map_some]

end MarkName

/-! ## The groups that are loaded -/

namespace CitationGroups

/-- Marks of other names do not count for the page info of groups. -/
theorem named_congr {properties properties' : Keyed String String} {names : List String}
    (h : ∀ name ∈ names, properties'.get? name = properties.get? name) :
    named properties' names = named properties names := by
  refine List.filterMap_congr fun name hname => ?_
  rw [CitationGroup.named?, CitationGroup.named?, h name hname]

end CitationGroups

theorem Document.get?_withPageInfo_self (d : Document) (name : String)
    (pageInfo : Option String) :
    (d.withPageInfo name pageInfo).properties.get? name = normalizePageInfo pageInfo := by
  rw [withPageInfo]
  cases normalizePageInfo pageInfo with
  | none => exact Keyed.get?_erase_self _ _
  | some info => exact (Keyed.get?_put _ _ _ _).trans (if_pos rfl)

theorem Document.get?_withPageInfo_of_ne (d : Document) {name name' : String}
    (hne : name' ≠ name) (pageInfo : Option String) :
    (d.withPageInfo name pageInfo).properties.get? name' = d.properties.get? name' := by
  rw [withPageInfo]
  cases normalizePageInfo pageInfo with
  | none => exact Keyed.get?_erase_of_ne _ hne
  | some info => exact (Keyed.get?_put _ _ _ _).trans (if_neg hne.symm)

namespace DocumentM

open MarkedText

variable {d d' : Document} {request : CitationRequest} {flow : Flow} {p : Nat} {g : CitationGroup}
  {content : List Char}

/-- The names of the marks are the former ones and the new one. -/
theorem IsInsertion.names_eq (h : IsInsertion d request flow p g content d') :
    d'.marks.map Prod.fst = d.marks.map Prod.fst ++ [g.id] := by
  rw [h.marks_eq, List.map_append, List.map_map]
  rfl

/-- **The groups after an insertion** are the former ones, and what the name of the new mark says. -/
theorem IsInsertion.groups_eq (hd : d.WellFormed) (h : IsInsertion d request flow p g content d') :
    ∃ before after, (loadGroups.run d.steady).1 = .ok before ∧
      (loadGroups.run d'.steady).1 = .ok after ∧
      after.groups = before.groups ++
        ((MarkName.parse? g.id).map fun n =>
          CitationGroup.new g.id n.kind n.keys request.pageInfo).toList := by
  have hnew : g.id ∉ d.marks.map Prod.fst := Keyed.get?_eq_none_iff.mp h.new_name
  have hnodup : (d'.marks.map Prod.fst).Nodup := by
    rw [h.names_eq]
    exact List.Nodup.append hd.marks_nodup (List.nodup_singleton _)
      (List.disjoint_singleton.mpr hnew)
  refine ⟨_, _, Makes.loadGroups.run_eq, Makes.loadGroups.run_eq, ?_⟩
  have hformer : CitationGroups.named d'.properties (d.marks.map Prod.fst) =
      CitationGroups.named d.properties (d.marks.map Prod.fst) := by
    refine CitationGroups.named_congr fun name hname => ?_
    have hne : name ≠ g.id := fun heq => hnew (heq ▸ hname)
    rw [h.properties_eq, d.get?_withPageInfo_of_ne hne]
  have hadded : CitationGroup.named? d'.properties g.id =
      (MarkName.parse? g.id).map fun n =>
        CitationGroup.new g.id n.kind n.keys request.pageInfo := by
    rw [CitationGroup.named?, h.properties_eq, d.get?_withPageInfo_self]
    refine congrArg (Option.map · _) (funext fun n => ?_)
    rw [CitationGroup.new, CitationGroup.new, normalizePageInfo_normalizePageInfo]
  change (CitationGroups.ofList (CitationGroups.named d'.properties (d'.marks.map Prod.fst))).groups
    = (CitationGroups.ofList (CitationGroups.named d.properties (d.marks.map Prod.fst))).groups ++ _
  rw [CitationGroups.groups_ofList_named hnodup, CitationGroups.groups_ofList_named hd.marks_nodup,
    h.names_eq, CitationGroups.named, List.filterMap_append, ← CitationGroups.named, hformer,
    List.filterMap_cons, List.filterMap_nil, hadded]
  cases MarkName.parse? g.id <;> rfl

/-- **One more citation** than before is in a document, at the end of the selection, and nothing
else has changed. -/
structure AddsCitation (d : Document) (cursor : TextRange) (g : CitationGroup)
    (content : List Char) (d' : Document) : Prop where
  groups : ∃ before after, (loadGroups.run d.steady).1 = .ok before ∧
    (loadGroups.run d'.steady).1 = .ok after ∧ after.groups = before.groups ++ [g]
  /-- What the new mark covers is inserted with a space behind it. -/
  text : ∀ flow, d'.markedText.text flow =
    if flow = cursor.flow then (d.markedText.text flow).map fun t =>
      t.take cursor.stop ++ (content ++ [' ']) ++ t.drop cursor.stop
    else d.markedText.text flow
  names : d'.marks.map Prod.fst = d.marks.map Prod.fst ++ [g.id]
  mark : d'.marks.get? g.id =
    some (.new cursor.flow cursor.stop (cursor.stop + content.length))
  /-- All other marks cover what they covered. -/
  former : ∀ name r, d.marks.get? name = some r →
    ∃ r', d'.marks.get? name = some r' ∧ d'.markedText.under? r' = d.markedText.under? r
  selection : d'.selection = .text (.collapsed cursor.flow (cursor.stop + content.length + 1))

/-- An insertion where no mark is around adds a citation, if the name of its mark says its keys. -/
theorem IsInsertion.addsCitation {cursor : TextRange} (hd : d.WellFormed)
    (h : IsInsertion d request cursor.flow cursor.stop g content d')
    (houtside : ∀ m ∈ d.marks, m.2.flow = cursor.flow →
      ¬ (m.2.start < cursor.stop ∧ cursor.stop < m.2.stop))
    (hkeys : ∀ key ∈ request.keys, MarkName.IsWritable key) :
    AddsCitation d cursor g content d' := by
  have hmarks : d'.marks = (d.markedText.placed g.id cursor.flow cursor.stop content).marks :=
    congrArg MarkedText.marks h.markedText_eq
  refine ⟨?_, fun flow => congrFun (congrArg MarkedText.text h.markedText_eq) flow, h.names_eq,
    ?_, fun name r hr => ?_, h.selection_eq⟩
  · -- the name of the new mark reads back as the group that was created
    obtain ⟨before, after, hbefore, hafter, hgroups⟩ := h.groups_eq hd
    refine ⟨before, after, hbefore, hafter, ?_⟩
    obtain ⟨serial, hparse⟩ := MarkName.parse?_fresh h.keys_ne_nil hkeys request.kind
      (d.marks.map Prod.fst)
    have hid : g.id = MarkName.fresh request.keys request.kind (d.marks.map Prod.fst) := by
      rw [h.group_eq, CitationGroup.id_new]
    rw [hgroups, hid, hparse, Option.map_some, Option.toList_some, ← h.group_eq]
  · rw [hmarks]
    exact get?_placed_self h.new_name
  · have hne : name ≠ g.id := by
      rintro rfl
      rw [h.new_name] at hr
      cases hr
    have hmem : (name, r) ∈ d.marks := (Keyed.get?_eq_some_iff hd.marks_nodup).mp hr
    have hinside : d.markedText.Inside r :=
      Document.inside_markedText_iff.mpr (hd.marks_inside _ hmem)
    refine ⟨r.afterInserting cursor.flow cursor.stop (content.length + 1), ?_, ?_⟩
    · rw [hmarks, get?_placed_of_ne hne]
      exact congrArg (Option.map _) hr
    · have hunder := under?_inserted (s := content ++ [' ']) h.inside hinside
        (houtside _ hmem)
      rw [List.length_append, List.length_singleton] at hunder
      rw [h.markedText_eq]
      exact hunder

/-- **Inserting a citation adds exactly one citation and nothing else**, unless the selection ends
strictly inside of a reference mark. -/
theorem insertCitation_adds {entries : List Entry} {keys : List String} {kind : CitationKind}
    {pageInfo : Option String} {cursor : TextRange} {preferences : Preferences}
    {databases : List Database} {style : Style} {unresolved : List String}
    (hd : d.WellFormed) (hcursor : d.cursor? = some cursor)
    (houtside : ∀ m ∈ d.marks, m.2.flow = cursor.flow →
      ¬ (m.2.start < cursor.stop ∧ cursor.stop < m.2.stop))
    (hkeys : keysToCite entries = .ok keys)
    (hwritable : ∀ e ∈ entries, ∀ key, e.citationKey = some key →
      ',' ∉ key.toList ∧ '\n' ∉ key.toList)
    (hrun : (insertCitation preferences ⟨keys, kind, pageInfo, false⟩ databases style).run d =
      (.ok unresolved, d')) :
    ∃ g content, AddsCitation d cursor g content d' ∧
      g.keys.map some = entries.map Entry.citationKey ∧ g.kind = kind ∧
      g.pageInfo = normalizePageInfo pageInfo ∧
      withoutPlaceholders (String.ofList content) =
        withoutPlaceholders (Markup.plain (preliminaryMarker style databases g)) := by
  obtain ⟨cursor', g, hcursor', h⟩ := isInsertion_of_insertCitation rfl hrun
  obtain rfl : cursor = cursor' := Option.some.inj (hcursor.symm.trans hcursor')
  have hall := (forall_isWritable_iff hkeys).mpr hwritable
  refine ⟨g, _, h.addsCitation hd houtside hall, ?_, ?_, ?_, ?_⟩
  · rw [h.group_eq, CitationGroup.keys_new]
    exact (citationKeys_of_keysToCite hkeys).1
  · rw [h.group_eq, CitationGroup.kind_new]
  · rw [h.group_eq, CitationGroup.pageInfo_new]
  · rw [withoutPlaceholders, withoutPlaceholders, String.toList_ofList, preliminaryText,
      filter_closedText, Markup.plain, String.toList_ofList]

/-- A text with a citation, and the cursor behind its first two words. -/
def citedDocument : Document :=
  { Document.ofPlain "As in, oaks grow (A)." [] [("JR_cite_1_a", .inBody 17 20)] with
    selection := .text (.collapsed .body 5) }

/-- What inserting a citation of an entry does to it. -/
def citedInsert (key : String) : Except DocumentError (List String) × Document :=
  (insertCitation {} ⟨[key], .parenthetical, some " 7 ", false⟩ [] Style.numbered).run
    citedDocument

theorem citedInsert_eq : citedInsert "a" = (.ok [], (citedInsert "a").2) :=
  eq_ok_of_toOption (by decide +kernel)

theorem insertCitation_adds_sample :
    ∃ d', (insertCitation {} ⟨["a"], .parenthetical, some " 7 ", false⟩ [] Style.numbered).run
        citedDocument = (.ok [], d') ∧
      citedDocument.WellFormed ∧ citedDocument.cursor? = some (.collapsed .body 5) ∧
      keysToCite [Entry.new "a" "misc"] = .ok ["a"] ∧
      ∃ g content, AddsCitation citedDocument (.collapsed .body 5) g content d' ∧
        g.keys.map some = [some "a"] ∧ g.kind = .parenthetical ∧
        g.pageInfo = normalizePageInfo (some " 7 ") ∧
        withoutPlaceholders (String.ofList content) =
          withoutPlaceholders (Markup.plain (preliminaryMarker Style.numbered [] g)) := by
  have hd : citedDocument.WellFormed := by decide +kernel
  have hkeys : keysToCite [Entry.new "a" "misc"] = .ok ["a"] := by decide +kernel
  refine ⟨(citedInsert "a").2, citedInsert_eq, hd, rfl, hkeys, ?_⟩
  exact insertCitation_adds hd rfl (by decide +kernel) hkeys (by decide +kernel) citedInsert_eq

/-! ## Keys that do not come back -/

/-- **The keys that were cited come back** from the document just when no key has a comma or a
paragraph break in it, which the entries are not checked for. -/
theorem keysRead_insertCitation_iff {entries : List Entry} {keys : List String}
    {kind : CitationKind} {pageInfo : Option String} {preferences : Preferences}
    {databases : List Database} {style : Style} {unresolved : List String} (hd : d.WellFormed)
    (hkeys : keysToCite entries = .ok keys)
    (hrun : (insertCitation preferences ⟨keys, kind, pageInfo, false⟩ databases style).run d =
      (.ok unresolved, d')) :
    (∃ before after g, (loadGroups.run d.steady).1 = .ok before ∧
        (loadGroups.run d'.steady).1 = .ok after ∧ after.groups = before.groups ++ [g] ∧
        g.keys.map some = entries.map Entry.citationKey) ↔
      ∀ e ∈ entries, ∀ key, e.citationKey = some key → ',' ∉ key.toList ∧ '\n' ∉ key.toList := by
  obtain ⟨cursor, g, -, h⟩ := isInsertion_of_insertCitation rfl hrun
  have hcited := (citationKeys_of_keysToCite hkeys).1
  obtain ⟨before, after, hbefore, hafter, hgroups⟩ := h.groups_eq hd
  have hid : g.id = MarkName.fresh keys kind (d.marks.map Prod.fst) := by
    rw [h.group_eq, CitationGroup.id_new]
  rw [← forall_isWritable_iff hkeys, ← MarkName.keys_of_parse?_fresh h.keys_ne_nil, ← hid]
  constructor
  · rintro ⟨before', after', g', hbefore', hafter', hgroups', hkeys'⟩
    obtain rfl : before = before' := Except.ok.inj (hbefore.symm.trans hbefore')
    obtain rfl : after = after' := Except.ok.inj (hafter.symm.trans hafter')
    -- the one group that came to the others is the one that the name of the new mark says
    have hadded := List.append_cancel_left (hgroups.symm.trans hgroups')
    cases hparse : MarkName.parse? g.id with
    | none =>
      rw [hparse] at hadded
      cases hadded
    | some n =>
      rw [hparse, Option.map_some, Option.toList_some, List.cons.injEq] at hadded
      rw [← hadded.1, CitationGroup.keys_new, ← hcited] at hkeys'
      exact congrArg some (List.map_injective_iff.mpr (Option.some_injective String) hkeys')
  · intro hparse
    obtain ⟨n, hn, hnkeys⟩ := Option.map_eq_some_iff.mp hparse
    refine ⟨before, after, .new g.id n.kind n.keys pageInfo, hbefore, hafter, ?_, ?_⟩
    · rw [hgroups, hn]
      rfl
    · rw [CitationGroup.keys_new, hnkeys, hcited]

theorem keysRead_insertCitation_sample :
    citedDocument.WellFormed ∧ keysToCite [Entry.new "a" "misc"] = .ok ["a"] ∧
      ∃ d', (insertCitation {} ⟨["a"], .parenthetical, some " 7 ", false⟩ [] Style.numbered).run
          citedDocument = (.ok [], d') ∧
        ((∃ before after g, (loadGroups.run citedDocument.steady).1 = .ok before ∧
            (loadGroups.run d'.steady).1 = .ok after ∧ after.groups = before.groups ++ [g] ∧
            g.keys.map some = [Entry.new "a" "misc"].map Entry.citationKey) ↔
          ∀ e ∈ [Entry.new "a" "misc"], ∀ key, e.citationKey = some key →
            ',' ∉ key.toList ∧ '\n' ∉ key.toList) := by
  have hd : citedDocument.WellFormed := by decide +kernel
  have hkeys : keysToCite [Entry.new "a" "misc"] = .ok ["a"] := by decide +kernel
  exact ⟨hd, hkeys, (citedInsert "a").2, citedInsert_eq,
    keysRead_insertCitation_iff hd hkeys citedInsert_eq⟩

/-- The keys of the groups of a document; none if they cannot be loaded. -/
def keysLoaded? (d : Document) : Option (List (List String)) :=
  (loadGroups.run d.steady).1.toOption.map fun gs => gs.groups.map CitationGroup.keys

/-- **A key with a comma in it** comes back as two. -/
theorem not_keysRead_insertCitation :
    keysToCite [Entry.new "a,b" "misc"] = .ok ["a,b"] ∧
      ∃ d', citedInsert "a,b" = (.ok [], d') ∧ keysLoaded? citedDocument = some [["a"]] ∧
        keysLoaded? d' = some [["a"], ["a", "b"]] :=
  ⟨by decide +kernel, (citedInsert "a,b").2, eq_ok_of_toOption (by decide +kernel),
    by decide +kernel, by decide +kernel⟩

end DocumentM

end DocCite
