import DocCite.Proofs.Document.Exchanging
import DocCite.Proofs.Document.Sound
import DocCite.Proofs.Document.Weaving

/-!
# The citations as they are read

The citations of a document, each with the range of its mark, in the order in which they are read
(`DocumentM.citationsRead`). In a sound document with separate citations this is a weave of the
passages of its outlines (`run_citationsRead_atRest`), and what is told along it is told place by
place: in the body with its footnotes, and in each footnote without an anchor (`readAt`).
-/

namespace DocCite

/-- Where a flow is read: in the body, or by itself if it is a footnote without an anchor. -/
def Document.readingPlace (d : Document) (flow : Flow) : Flow :=
  if d.anchorOf flow = none then flow else .body

/-- Those of some citations that are read at a place. -/
def Document.readAt (d : Document) (place : Flow) (cs : List (CitationGroup × TextRange)) :
    List (CitationGroup × TextRange) :=
  cs.filter fun c => d.readingPlace c.2.flow = place

namespace DocumentM

variable {α β γ : Type}

/-- The group with a name and its range, among groups and ranges. -/
def locate (gs : CitationGroups) (ranges : List (TextRange × String)) (id : String) :
    Option (CitationGroup × TextRange) := do
  let g ← gs.get? id
  let r ← (ranges.find? fun r => r.2 = id)
  return (g, r.1)

/-- The citations of a document with the ranges of their marks, as they are read. -/
def citationsRead : DocumentM (List (CitationGroup × TextRange)) := do
  let gs ← loadGroups
  let ranges ← groupRanges gs
  let ids ← readingOrder ranges
  return ids.filterMap (locate gs ranges)

/-! ## Looking over a steady connection -/

/-- An action looks at a document and changes nothing at all. -/
def Looks (d : Document) (x : DocumentM α) (a : α) : Prop := x.run d = (.ok a, d)

namespace Looks

variable {d : Document}

theorem pure (a : α) : Looks d (Pure.pure a) a := rfl

theorem bind {x : DocumentM α} {f : α → DocumentM β} {a : α} {b : β} (hx : Looks d x a)
    (hf : Looks d (f a) b) : Looks d (x >>= f) b :=
  run_bind_eq_ok_iff.mpr ⟨a, d, hx, hf⟩

theorem mapM {f : γ → DocumentM α} {g : γ → α} {l : List γ}
    (h : ∀ c ∈ l, Looks d (f c) (g c)) : Looks d (l.mapM f) (l.map g) := by
  induction l with
  | nil => exact pure _
  | cons c l ih =>
    rw [List.mapM_cons]
    exact bind (h c List.mem_cons_self)
      (bind (ih fun c' hc' => h c' (List.mem_cons_of_mem _ hc')) (pure _))

theorem see (h : d.connection = .steady) (f : Document → α) : Looks d (DocumentM.see f) (f d) := by
  unfold Looks DocumentM.see look
  rw [run_call_of_steady _ h]
  rfl

theorem loadGroups (h : d.connection = .steady) :
    Looks d loadGroups (.ofList (CitationGroups.named d.properties (d.marks.map Prod.fst))) := by
  have hread (name : String) :
      Looks d (readGroup? name) (CitationGroup.named? d.properties name) := by
    unfold readGroup? CitationGroup.named?
    cases MarkName.parse? name with
    | none => exact pure _
    | some n => exact bind (see h _) (pure _)
  have hnamed : CitationGroups.named d.properties (d.marks.map Prod.fst) =
      ((d.marks.map Prod.fst).map (CitationGroup.named? d.properties)).filterMap id := by
    rw [List.filterMap_map]
    rfl
  rw [hnamed]
  exact bind (see h _) (bind (mapM fun name _ => hread name) (pure _))

/-- The ranges of groups that have marks. -/
theorem groupRanges (h : d.connection = .steady) {gs : CitationGroups}
    {range : String → TextRange} (hgs : ∀ g ∈ gs.groups, d.marks.get? g.id = some (range g.id)) :
    Looks d (groupRanges gs) (gs.groups.map fun g => (range g.id, g.id)) := by
  refine mapM fun g hg => ?_
  have hrange : Looks d (groupRange g.id) (range g.id) := by
    have hmark : Looks d (markRange? g.id) (some (range g.id)) := hgs g hg ▸ see h _
    exact bind hmark (pure _)
  exact bind hrange (pure _)

end Looks

end DocumentM

/-! ## Citations and passages -/

namespace Outline

/-- The passages of outlines as they are read. -/
def reading (O : Flow → Outline) (loose : List Flow) : List (Flow × Passage) :=
  weave (fun flow => (O flow).passages) Passage.after (O .body).lead loose

/-- The footnotes that are anchored in outlines. -/
def anchored (O : Flow → Outline) : List Nat :=
  anchoredIn (fun flow => (O flow).passages) Passage.after (O .body).lead

/-- Outlines are read with some flows by themselves. -/
def ReadsLoose (O : Flow → Outline) (loose : List Flow) : Prop :=
  Woven (fun flow => (O flow).passages) Passage.after (O .body).lead loose

/-- What the letters of a body anchor, is anchored outside of its citations. -/
theorem filterMap_footnote_letters (ps : List Passage) :
    (ps.flatMap Passage.letters).filterMap Letter.footnote =
      (ps.flatMap Passage.after).filterMap Letter.footnote := by
  rw [List.filterMap_flatMap, List.filterMap_flatMap]
  refine List.flatMap_congr fun p _ => ?_
  rw [Passage.letters, List.filterMap_append, Piece.filterMap_footnote_plain, List.nil_append]

/-- The names read along the pieces of a body are those of the passages that are woven there. -/
theorem flatMap_read (O : Flow → Outline) (names : Nat → List String)
    (hnames : ∀ n, names n = (O (.footnote n)).passages.map fun p => p.group.id) :
    (O .body).pieces.flatMap (Piece.read names) =
      (weaveBody (fun flow => (O flow).passages) Passage.after (O .body).lead).map
        fun x => x.2.group.id := by
  have hletters (ls : List Letter) : (ls.map Piece.letter).flatMap (Piece.read names) =
      (noted (fun n => (O (.footnote n)).passages.map (Flow.footnote n, ·)) ls).map
        fun x => x.2.group.id := by
    rw [noted, List.map_flatMap]
    induction ls with
    | nil => rfl
    | cons l ls ih =>
      rw [List.map_cons, List.flatMap_cons, ih, List.filterMap_cons]
      cases hl : l.footnote with
      | none => simp [Piece.read, hl]
      | some n => simp [Piece.read, hl, hnames, Function.comp_def]
  have hpassages (ps : List Passage) : (Passage.allPieces ps).flatMap (Piece.read names) =
      (ps.flatMap fun p => (Flow.body, p) ::
        noted (fun n => (O (.footnote n)).passages.map (Flow.footnote n, ·)) p.after).map
          fun x => x.2.group.id := by
    induction ps with
    | nil => rfl
    | cons p ps ih =>
      rw [Passage.allPieces_cons, List.flatMap_cons, List.flatMap_append, hletters, ih]
      simp [Piece.read]
  rw [pieces, List.flatMap_append, hletters, hpassages, weaveBody, List.map_append]

end Outline

/-- The range of the mark with a name. -/
def Document.rangeOf (d : Document) (name : String) : TextRange :=
  (d.marks.get? name).getD (.collapsed .body 0)

namespace Arrangement

open Passage Outline DocumentM

variable {L : Arrangement} {O : Flow → Outline} {d : Document}

/-- The document at rest is described as before. -/
theorem Describes.atRest (hL : L.Describes d) : L.Describes d.atRest where
  wellFormed := ⟨hL.wellFormed.marks_nodup, hL.wellFormed.marks_inside,
    hL.wellFormed.bookmarks_nodup, hL.wellFormed.bookmarks_inside⟩
  spell_eq := hL.spell_eq
  mem_marksIn := hL.mem_marksIn
  nodup := hL.nodup
  property_eq := hL.property_eq
  noBibliography := hL.noBibliography

theorem Follows.letters_eq (h : L.Follows O) (hL : L.Describes d) (flow : Flow) :
    d.letters flow = (O flow).lead ++ (O flow).passages.flatMap Passage.letters := by
  rw [Document.letters, ← hL.spell_eq, h.pieces_eq, Outline.pieces]
  simp

theorem Follows.anchored_eq (h : L.Follows O) (hL : L.Describes d) :
    (d.letters .body).filterMap Letter.footnote = anchored O := by
  rw [h.letters_eq hL, anchored, anchoredIn, List.filterMap_append, List.filterMap_append,
    filterMap_footnote_letters]

/-- A flow is read where the outlines have it anchored. -/
theorem Follows.readingPlace_eq (h : L.Follows O) (hL : L.Describes d)
    (hanchored : (anchored O).Nodup) (flow : Flow) :
    d.readingPlace flow = placeIn (anchored O) flow := by
  cases flow with
  | body => rfl
  | footnote n =>
    rw [← h.anchored_eq hL] at hanchored ⊢
    have hiff : d.anchorOf (.footnote n) = none ↔
        n ∉ (d.letters .body).filterMap Letter.footnote := by
      rw [Document.anchorOf, Option.map_eq_none_iff, Option.eq_none_iff_forall_ne_some,
        List.mem_filterMap]
      constructor
      · rintro hnone ⟨l, hl, hn⟩
        obtain ⟨k, hk⟩ := List.mem_iff_getElem?.mp hl
        refine hnone k ((Document.anchorPlace?_eq_some_iff hanchored).mpr ?_)
        rw [hk, Option.bind_some, hn]
      · rintro hnot k hk
        obtain ⟨l, hl, hn⟩ :=
          Option.bind_eq_some_iff.mp ((Document.anchorPlace?_eq_some_iff hanchored).mp hk)
        exact hnot ⟨l, List.mem_of_getElem? hl, hn⟩
    by_cases hn : n ∈ (d.letters .body).filterMap Letter.footnote
    · rw [Document.readingPlace, if_neg (fun hnone => hiff.mp hnone hn), placeIn, if_pos hn]
    · rw [Document.readingPlace, if_pos (hiff.mpr hn), placeIn, if_neg hn]

/-- The range of a passage lies in its flow. -/
theorem Follows.rangeOf_mem (h : L.Follows O) (hL : L.Describes d) {flow : Flow} {p : Passage}
    (hp : p ∈ (O flow).passages) :
    d.marks.get? p.group.id = some (d.rangeOf p.group.id) ∧ (d.rangeOf p.group.id).flow = flow := by
  have hname := h.mem_names_iff.mpr ⟨p, hp, rfl⟩
  rw [← Piece.map_fst_marksFrom flow 0] at hname
  obtain ⟨m, hm, hid⟩ := List.mem_map.mp hname
  have hget := hL.get?_of_mem hm
  rw [hid] at hget
  rw [Document.rangeOf, hget]
  exact ⟨rfl, (Piece.bounds_of_mem_marksFrom hm).1⟩

/-! ## What is loaded -/

/-- Groups and ranges are those of a document. -/
structure Loaded (d : Document) (gs : CitationGroups) (ranges : List (TextRange × String)) :
    Prop where
  groups_eq : gs.groups = CitationGroups.named d.properties (d.marks.map Prod.fst)
  ranges_eq : ranges.map (fun r => (some r.1, r.2)) =
    gs.groups.map fun g => (d.marks.get? g.id, g.id)

namespace Loaded

variable {gs : CitationGroups} {ranges : List (TextRange × String)}

theorem map_snd (hloaded : Loaded d gs ranges) :
    ranges.map Prod.snd = (d.marks.map Prod.fst).filter MarkedText.isCitation := by
  have hsnd := congrArg (List.map Prod.snd) hloaded.ranges_eq
  rw [List.map_map, List.map_map] at hsnd
  rw [← CitationGroups.map_id_named, ← hloaded.groups_eq]
  exact hsnd

theorem mem_ranges_iff (hloaded : Loaded d gs ranges) {r : TextRange} {name : String} :
    (r, name) ∈ ranges ↔
      MarkedText.isCitation name = true ∧ d.marks.get? name = some r := by
  have hpair : (r, name) ∈ ranges ↔ (some r, name) ∈ ranges.map fun r => (some r.1, r.2) := by
    rw [List.mem_map]
    constructor
    · exact fun hmem => ⟨_, hmem, rfl⟩
    · rintro ⟨x, hx, heq⟩
      obtain ⟨hr, rfl⟩ := Prod.mk.inj heq
      rwa [← Option.some.inj hr]
  rw [hpair, hloaded.ranges_eq, List.mem_map]
  constructor
  · rintro ⟨g, hg, heq⟩
    obtain ⟨hget, rfl⟩ := Prod.mk.inj heq
    rw [hloaded.groups_eq] at hg
    exact ⟨(CitationGroups.mem_of_mem_named hg).2, hget⟩
  · rintro ⟨hname, hget⟩
    have hmark : name ∈ d.marks.map Prod.fst := by
      by_contra hnot
      rw [Keyed.get?_eq_none_iff.mpr hnot] at hget
      cases hget
    have hid : name ∈ gs.groups.map CitationGroup.id := by
      rw [hloaded.groups_eq, CitationGroups.map_id_named]
      exact List.mem_filter.mpr ⟨hmark, hname⟩
    obtain ⟨g, hg, rfl⟩ := List.mem_map.mp hid
    exact ⟨g, hg, congrArg (·, g.id) hget⟩

/-- Ranges that are loaded are those of all citation marks. -/
theorem listsMarks (hloaded : Loaded d gs ranges) (hL : L.Describes d) : L.ListsMarks ranges where
  nodup := by
    refine List.Nodup.of_map Prod.snd ?_
    rw [hloaded.map_snd]
    exact hL.wellFormed.marks_nodup.filter _
  mem_iff r name := by rw [hloaded.mem_ranges_iff, hL.mem_marksIn]

/-- **Every passage is located** by the name of its citation. -/
theorem locate_eq (hloaded : Loaded d gs ranges) (hL : L.Describes d) (h : L.Follows O)
    {flow : Flow} {p : Passage} (hp : p ∈ (O flow).passages) :
    locate gs ranges p.group.id = some (p.group, d.rangeOf p.group.id) := by
  obtain ⟨hget, -⟩ := h.rangeOf_mem hL hp
  have hgroup := h.group_eq flow p hp
  have hrange : (d.rangeOf p.group.id, p.group.id) ∈ ranges :=
    hloaded.mem_ranges_iff.mpr ⟨(id_of_group? hgroup).2, hget⟩
  have hfound : ranges.find? (fun r => r.2 = p.group.id) =
      some (d.rangeOf p.group.id, p.group.id) := by
    cases hfind : ranges.find? fun r => r.2 = p.group.id with
    | none => exact absurd (decide_eq_true rfl) (List.find?_eq_none.mp hfind _ hrange)
    | some r =>
      have hid : r.2 = p.group.id := of_decide_eq_true (List.find?_some hfind :)
      have hr := (hloaded.mem_ranges_iff.mp (List.mem_of_find?_eq_some hfind)).2
      rw [hid, hget, Option.some.injEq] at hr
      exact congrArg some (Prod.ext hr.symm hid)
  have hgroups : gs.get? p.group.id = some p.group := by
    rw [hL.group?_eq] at hgroup
    have hid : p.group.id ∈ gs.groups.map CitationGroup.id := by
      rw [hloaded.groups_eq, CitationGroups.map_id_named, ← hloaded.map_snd]
      exact List.mem_map_of_mem (f := Prod.snd) hrange
    obtain ⟨g', hg', hid'⟩ := List.mem_map.mp hid
    cases hfind : gs.get? p.group.id with
    | none => exact absurd (decide_eq_true hid') (List.find?_eq_none.mp hfind _ hg')
    | some g =>
      have hsame : g.id = p.group.id := of_decide_eq_true (List.find?_some hfind :)
      have hg := List.mem_of_find?_eq_some hfind
      rw [hloaded.groups_eq] at hg
      obtain ⟨name, -, hname⟩ := List.mem_filterMap.mp hg
      rw [← (CitationGroup.id_of_named? hname).1, hsame, hgroup] at hname
      exact hname.symm
  rw [locate, hgroups, hfound]
  rfl

/-- The groups that are loaded are those of the passages. -/
theorem mem_groups_iff (hloaded : Loaded d gs ranges) (hL : L.Describes d) (h : L.Follows O)
    {g : CitationGroup} :
    g ∈ gs.groups ↔ ∃ x : Flow × Passage, x.2 ∈ (O x.1).passages ∧ x.2.group = g := by
  constructor
  · intro hg
    rw [hloaded.groups_eq] at hg
    obtain ⟨m, hm, hid⟩ := List.mem_map.mp (CitationGroups.mem_of_mem_named hg).1
    obtain ⟨name, -, hnamed⟩ := List.mem_filterMap.mp hg
    have hname := (CitationGroup.id_of_named? hnamed).1
    have hmark := (Keyed.get?_eq_some_iff hL.wellFormed.marks_nodup).mpr hm
    rw [hid] at hmark
    have hin := (hL.mem_marksIn g.id m.2).mpr ⟨(CitationGroups.mem_of_mem_named hg).2, hmark⟩
    have hnames : g.id ∈ Piece.names (L.pieces m.2.flow) := by
      rw [← Piece.map_fst_marksFrom m.2.flow 0]
      exact List.mem_map_of_mem (f := Prod.fst) hin
    obtain ⟨p, hp, hgroup⟩ := h.mem_names_iff.mp hnames
    have hpg := h.group_eq m.2.flow p hp
    rw [hgroup, hname, hL.group?_eq, hnamed, Option.some.injEq] at hpg
    exact ⟨(m.2.flow, p), hp, hpg.symm⟩
  · rintro ⟨x, hx, rfl⟩
    have hlocate := hloaded.locate_eq hL h hx
    obtain ⟨g, hg, hrest⟩ := Option.bind_eq_some_iff.mp hlocate
    obtain ⟨r, -, hpair⟩ := Option.bind_eq_some_iff.mp hrest
    rw [← (Prod.mk.inj (Option.some.inj hpair)).1]
    exact List.mem_of_find?_eq_some hg

end Loaded

/-- **The citations of a document are read as its outlines are woven.** -/
theorem Follows.located_eq (h : L.Follows O) (hL : L.Describes d) (hanchored : (anchored O).Nodup)
    {gs : CitationGroups} {ranges : List (TextRange × String)} (hloaded : Loaded d gs ranges) :
    ∃ loose, ReadsLoose O loose ∧ (d.inReadingOrder ranges).filterMap (locate gs ranges) =
      (reading O loose).map fun x => (x.2.group, d.rangeOf x.2.group.id) := by
  have hlists := hloaded.listsMarks hL
  have hnames (flow : Flow) :
      Piece.names (L.pieces flow) = (O flow).passages.map fun p => p.group.id := by
    rw [h.pieces_eq, Outline.pieces]
    simp
  have hwoven : ReadsLoose O (PlacedItem.looseFlows (ranges.map d.placed)) := by
    refine ⟨hanchored, PlacedItem.nodup_looseFlows _, fun flow => ?_⟩
    have hplace : flow ≠ .body →
        (d.anchorOf flow = none ↔ placeIn (anchored O) flow = flow) := by
      intro hbody
      rw [← h.readingPlace_eq hL hanchored, Document.readingPlace]
      split_ifs with hnone
      · exact iff_of_true hnone rfl
      · exact iff_of_false hnone (Ne.symm hbody)
    have hmarks : L.marksIn flow ≠ [] ↔ (O flow).passages ≠ [] := by
      rw [not_iff_not, ← List.map_eq_nil_iff (f := Prod.fst), marksIn, Piece.map_fst_marksFrom,
        hnames, List.map_eq_nil_iff]
    rw [hlists.mem_looseFlows_iff, hmarks]
    constructor
    · rintro ⟨hbody, hnone, hne⟩
      exact ⟨hbody, (hplace hbody).mp hnone, hne⟩
    · rintro ⟨hbody, hself, hne⟩
      exact ⟨hbody, (hplace hbody).mpr hself, hne⟩
  refine ⟨_, hwoven, ?_⟩
  have hids : d.inReadingOrder ranges =
      (reading O (PlacedItem.looseFlows (ranges.map d.placed))).map fun x => x.2.group.id := by
    rw [hL.inReadingOrder_eq h (h.anchored_eq hL ▸ hanchored) hlists, h.pieces_eq,
      flatMap_read O _ fun n => hnames _, reading, weave, List.map_append, List.map_flatMap]
    refine congrArg _ (List.flatMap_congr fun flow _ => ?_)
    rw [hnames, List.map_map]
    rfl
  rw [hids, List.filterMap_map, List.filterMap_eq_map_iff_forall_eq_some]
  exact fun x hx => hloaded.locate_eq hL h (hwoven.mem_weave_iff.mp hx)

end Arrangement

namespace DocumentM

open Arrangement Outline

variable {L : Arrangement} {O : Flow → Outline} {d : Document}

/-- **At rest the citations of a document are read** as its outlines are woven. -/
theorem run_citationsRead_atRest (hL : L.Describes d) (h : L.Follows O)
    (hanchored : (anchored O).Nodup) :
    ∃ loose, ReadsLoose O loose ∧ (citationsRead.run d.atRest).1 =
      .ok ((reading O loose).map fun x => (x.2.group, d.rangeOf x.2.group.id)) := by
  let gs := CitationGroups.ofList (CitationGroups.named d.properties (d.marks.map Prod.fst))
  let ranges := gs.groups.map fun g => (d.rangeOf g.id, g.id)
  have hgroups : gs.groups = CitationGroups.named d.properties (d.marks.map Prod.fst) :=
    CitationGroups.groups_ofList_named hL.wellFormed.marks_nodup
  have hmarks : ∀ g ∈ gs.groups, d.marks.get? g.id = some (d.rangeOf g.id) := by
    intro g hg
    rw [hgroups] at hg
    obtain ⟨m, hm, hid⟩ := List.mem_map.mp (CitationGroups.mem_of_mem_named hg).1
    have hget := (Keyed.get?_eq_some_iff hL.wellFormed.marks_nodup).mpr hm
    rw [← hid, Document.rangeOf, hget, Option.getD_some]
  have hloaded : Loaded d gs ranges := by
    refine ⟨hgroups, ?_⟩
    rw [List.map_map]
    exact List.map_congr_left fun g hg => congrArg (·, g.id) (hmarks g hg).symm
  obtain ⟨loose, hwoven, hlocated⟩ := h.located_eq hL hanchored hloaded
  refine ⟨loose, hwoven, ?_⟩
  have hinside : ∀ item ∈ ranges, d.Inside item.1 := by
    intro item hitem
    have hget := (hloaded.mem_ranges_iff.mp hitem).2
    exact hL.wellFormed.marks_inside _ ((Keyed.get?_eq_some_iff hL.wellFormed.marks_nodup).mp hget)
  have horder := run_readingOrder_atRest d hinside
  cases hread : (readingOrder ranges).run d.atRest with
  | mk outcome d' =>
    rw [hread] at horder
    simp only at horder
    subst horder
    have hrun : citationsRead.run d.atRest =
        (.ok ((d.inReadingOrder ranges).filterMap (locate gs ranges)), d') := by
      refine run_bind_eq_ok_iff.mpr ⟨gs, d.atRest, Looks.loadGroups rfl, ?_⟩
      refine run_bind_eq_ok_iff.mpr ⟨ranges, d.atRest, Looks.groupRanges rfl hmarks, ?_⟩
      exact run_bind_eq_ok_iff.mpr ⟨_, d', hread, rfl⟩
    rw [hrun, hlocated]

end DocumentM

end DocCite
