import DocCite.Proofs.Document.Checks
import DocCite.Proofs.Document.Outside
import DocCite.Proofs.Document.Steady

/-!
# What a refresh reads

The groups of a document follow from the names of its marks and from its properties
(`Makes.loadGroups`). A refresh whose checks succeed has found their marks apart, and produces its
markers for the groups in the order in which they are read (`exists_ordered_of_planRefresh`).
-/

namespace DocCite

/-- The group that the name of a mark says, with its page info among properties. -/
def CitationGroup.named? (properties : Keyed String String) (name : String) :
    Option CitationGroup :=
  (MarkName.parse? name).map fun n =>
    CitationGroup.new name n.kind n.keys (properties.get? name)

/-- The groups that names of marks say. -/
def CitationGroups.named (properties : Keyed String String) (names : List String) :
    List CitationGroup :=
  names.filterMap (CitationGroup.named? properties)

section Named

variable {properties : Keyed String String} {names : List String}

theorem CitationGroup.id_of_named? {name : String} {g : CitationGroup}
    (h : CitationGroup.named? properties name = some g) :
    g.id = name ∧ MarkedText.isCitation name = true := by
  obtain ⟨n, hn, rfl⟩ := Option.map_eq_some_iff.mp h
  exact ⟨rfl, by rw [MarkedText.isCitation, hn]; rfl⟩

/-- Every citation mark has its group, and no other mark has one. -/
theorem CitationGroups.map_id_named (names : List String) :
    (CitationGroups.named properties names).map CitationGroup.id =
      names.filter MarkedText.isCitation := by
  induction names with
  | nil => rfl
  | cons name names ih =>
    rw [CitationGroups.named] at ih ⊢
    rw [List.filterMap_cons, List.filter_cons]
    cases hparse : MarkName.parse? name with
    | none => simp [CitationGroup.named?, MarkedText.isCitation, hparse, ← ih]
    | some n =>
      simp [CitationGroup.named?, MarkedText.isCitation, hparse, CitationGroup.new, ← ih]

theorem CitationGroups.mem_of_mem_named {g : CitationGroup}
    (hg : g ∈ CitationGroups.named properties names) :
    g.id ∈ names ∧ MarkedText.isCitation g.id = true := by
  have hmem := List.mem_map_of_mem (f := CitationGroup.id) hg
  rw [map_id_named] at hmem
  exact List.mem_filter.mp hmem

/-- Groups of different names are stored as they are given. -/
theorem CitationGroups.groups_ofList_named (hnodup : names.Nodup) :
    (CitationGroups.ofList (CitationGroups.named properties names)).groups =
      CitationGroups.named properties names := by
  refine groups_ofList ?_
  rw [map_id_named]
  exact hnodup.filter _

end Named

namespace Makes

variable {o : Document} {v : MarkedText} {r : TextRange}

open DocumentM

/-- Looking at one thing after another. -/
theorem mapM {γ α : Type} {f : γ → DocumentM α} {g : γ → α} {l : List γ}
    (h : ∀ c ∈ l, Makes o v (f c) (g c) v) : Makes o v (l.mapM f) (l.map g) v := by
  induction l with
  | nil => exact pure _
  | cons c l ih =>
    rw [List.mapM_cons]
    refine bind (h c List.mem_cons_self) (bind (ih fun c' hc' => ?_) (pure _))
    exact h c' (List.mem_cons_of_mem _ hc')

theorem readGroup? (name : String) :
    Makes o v (readGroup? name) (CitationGroup.named? o.properties name) v := by
  unfold DocumentM.readGroup? CitationGroup.named?
  cases MarkName.parse? name with
  | none => exact pure _
  | some n => exact bind (see fun d hd => congrArg (Keyed.get? · name) hd.properties) (pure _)

/-- **The groups of a text** are those that the names of its marks say. -/
theorem loadGroups : Makes o v loadGroups
    (.ofList (CitationGroups.named o.properties (v.marks.map Prod.fst))) v := by
  have hnames : Makes o v markNames (v.marks.map Prod.fst) v :=
    see fun d hd => by rw [← hd.markedText]; rfl
  have hread := mapM (o := o) (v := v) (l := v.marks.map Prod.fst) fun name _ => readGroup? name
  have hnamed : CitationGroups.named o.properties (v.marks.map Prod.fst) =
      ((v.marks.map Prod.fst).map (CitationGroup.named? o.properties)).filterMap id := by
    rw [List.filterMap_map]
    rfl
  rw [hnamed]
  exact bind hnames (bind hread (pure _))

/-- The visible text of a mark. -/
theorem visibleText {id : String} {s : List Char} (hmark : v.marks.get? id = some r)
    (hr : v.Inside r) (hunder : v.under? r = some s) :
    Makes o v (visibleText id) (withoutPlaceholders (String.ofList s)) v :=
  bind (bind (groupRange hmark) (text hr hunder)) (pure _)

/-- Over a connection that does not break, what an action makes of a text is its outcome. -/
theorem run_eq {α : Type} {x : DocumentM α} {a : α} {v' : MarkedText} {d : Document}
    (h : Makes d.steady d.markedText x a v') : (x.run d.steady).1 = .ok a := by
  have hpost := h d.steady (shows_self d.steady)
  cases hrun : x.run d.steady with
  | mk outcome d' =>
    rw [hrun] at hpost
    cases outcome with
    | ok b => rw [hpost.1]
    | error e => exact absurd rfl hpost.2

end Makes

namespace DocumentM

/-- The groups of a document, in the order in which they are read. -/
def groupsAsRead : DocumentM CitationGroups := do
  let loaded ← loadGroups
  let ranges ← groupRanges loaded
  imposeOrder loaded (← readingOrder ranges)

theorem lasts_loadGroups : Lasts loadGroups := by
  have hread (name : String) : Lasts (readGroup? name) := by
    unfold readGroup?
    split
    · exact .pure _
    · exact (Lasts.see fun d c => rfl).bind fun _ => .pure _
  exact (Lasts.see fun d c => rfl).bind fun names =>
    (Lasts.mapM hread names).bind fun _ => .pure _

theorem lasts_groupRanges (gs : CitationGroups) : Lasts (groupRanges gs) := by
  refine Lasts.mapM (fun g => ?_) _
  have hrange : Lasts (groupRange g.id) := (Lasts.see fun d c => rfl).bind fun r => by
    cases r with
    | some r => exact .pure _
    | none => exact .throw _
  exact hrange.bind fun _ => .pure _

theorem lasts_imposeOrder (gs : CitationGroups) (ids : List String) :
    Lasts (imposeOrder gs ids) := by
  unfold imposeOrder
  cases gs.imposeOrder ids with
  | ok ordered => exact .pure _
  | error e => exact .throw _

/-- Where the check of overlaps succeeds, the ranges keep apart. -/
theorem pairwise_apart_of_checkOverlaps {ranges : List (TextRange × String)}
    {preferences : Preferences} (hlimit : 1 ≤ preferences.overlapReportLimit) {d d' : Document}
    {u : Unit} (hrun : (checkOverlaps ranges preferences).run d = (.ok u, d')) :
    ranges.Pairwise fun a b => a.1.Apart b.1 := by
  obtain ⟨anchors, d₁, -, hrest⟩ := run_bind_eq_ok_iff.mp hrun
  simp only at hrest
  split at hrest
  · cases hrest
  · next hfound =>
    rw [Bool.not_eq_true, Bool.not_eq_false', List.isEmpty_iff] at hfound
    exact (TextRange.pairwise_apart_of_findOverlaps hlimit hfound).sublist
      (List.sublist_append_left ranges _)

/-- The check of overlaps only looks. -/
theorem steady_of_checkOverlaps {ranges : List (TextRange × String)} {preferences : Preferences}
    {d d' : Document} {u : Unit} (hrun : (checkOverlaps ranges preferences).run d = (.ok u, d')) :
    d'.steady = d.steady := by
  obtain ⟨anchors, d₁, hlook, hrest⟩ := run_bind_eq_ok_iff.mp hrun
  have hd₁ : d₁.steady = d.steady := by
    simp only [footnoteAnchors, see, look, call, ExceptT.run] at hlook
    cases hspend : d.connection.spend? with
    | none => rw [hspend] at hlook; cases hlook
    | some rest => rw [hspend] at hlook; cases hlook; rfl
  simp only at hrest
  split at hrest
  · cases hrest
  · cases hrest
    exact hd₁

/-- Marks whose ranges were found apart keep apart. -/
theorem citationsApart_of_ranges {d : Document} (hd : d.WellFormed) {loaded : CitationGroups}
    (hloaded : loaded.groups = CitationGroups.named d.properties (d.marks.map Prod.fst))
    {ranges : List (TextRange × String)}
    (hranges : ranges.map (fun r => (some r.1, r.2)) =
      loaded.groups.map fun g => (d.marks.get? g.id, g.id))
    (hapart : ranges.Pairwise fun a b => a.1.Apart b.1) : d.markedText.CitationsApart := by
  have hmem (name : String) (x : TextRange) (hname : MarkedText.isCitation name = true)
      (hx : d.marks.get? name = some x) : (x, name) ∈ ranges := by
    have hmark : name ∈ d.marks.map Prod.fst :=
      List.mem_map_of_mem ((Keyed.get?_eq_some_iff hd.marks_nodup).mp hx)
    have hid : name ∈ loaded.groups.map CitationGroup.id := by
      rw [hloaded, CitationGroups.map_id_named]
      exact List.mem_filter.mpr ⟨hmark, hname⟩
    obtain ⟨g, hg, rfl⟩ := List.mem_map.mp hid
    have hpair : (d.marks.get? g.id, g.id) ∈ ranges.map fun r => (some r.1, r.2) := by
      rw [hranges]
      exact List.mem_map_of_mem (f := fun g => (d.marks.get? g.id, g.id)) hg
    obtain ⟨r, hr, heq⟩ := List.mem_map.mp hpair
    rw [hx, Prod.mk.injEq, Option.some.injEq] at heq
    have hsame : (x, g.id) = r := Prod.ext heq.1.symm heq.2.symm
    rwa [hsame]
  intro name name' x y hname hname' hne hx hy
  have hsymm : Std.Symm fun a b : TextRange × String => a.1.Apart b.1 := ⟨fun _ _ h => h.symm⟩
  exact hapart.forall (hmem name x hname hx) (hmem name' y hname' hy) fun heq =>
    hne (congrArg Prod.snd heq)

/-- **A plan is made** for the groups in the order in which they are read, whose marks keep
apart. -/
theorem exists_ordered_of_planRefresh {d d' : Document} (hd : d.WellFormed)
    {databases : List Database} {style : Style} {preferences : Preferences}
    {update : BibliographyUpdate} {plan : RefreshPlan}
    (hrun : (planRefresh databases style preferences update).run d = (.ok plan, d')) :
    ∃ loaded ordered,
      (loadGroups.run d.steady).1 = .ok loaded ∧
      loaded.groups = CitationGroups.named d.properties (d.marks.map Prod.fst) ∧
      (groupsAsRead.run d.steady).1 = .ok ordered ∧ ordered.labels = loaded.labels ∧
      (plan.groups, plan.produced) = ordered.produce databases style ∧
      (update = .never → plan.rebuilds = false) ∧
      (1 ≤ preferences.overlapReportLimit → d.markedText.CitationsApart) := by
  obtain ⟨loaded, d₁, hload, hrun⟩ := run_bind_eq_ok_iff.mp hrun
  obtain ⟨ranges, d₂, hranges, hrun⟩ := run_bind_eq_ok_iff.mp hrun
  obtain ⟨u, d₃, hoverlaps, hrun⟩ := run_bind_eq_ok_iff.mp hrun
  obtain ⟨ids, d₄, hids, hrun⟩ := run_bind_eq_ok_iff.mp hrun
  obtain ⟨ordered, d₅, himpose, hrun⟩ := run_bind_eq_ok_iff.mp hrun
  have hloaded : loaded.groups = CitationGroups.named d.properties (d.marks.map Prod.fst) := by
    have hmake := Makes.loadGroups (o := d) (v := d.markedText)
    rw [(hmake.of_ok (shows_self d) hload).1]
    exact CitationGroups.groups_ofList_named hd.marks_nodup
  have hsame := sameDocument_of_keeps (fun C => keeps_loadGroups (C := C)) d
  rw [hload] at hsame
  have hmarks := ((triple_groupRanges d loaded).of_ok hsame hranges).1
  have hordered : loaded.imposeOrder ids = .ok ordered :=
    ((triple_imposeOrder d₄ loaded ids).of_ok (SameDocument.refl d₄) himpose).1
  have hread : groupsAsRead.run d.steady = (.ok ordered, d₅.steady) := by
    refine run_bind_eq_ok_iff.mpr ⟨loaded, d₁.steady, lasts_loadGroups _ _ _ hload, ?_⟩
    refine run_bind_eq_ok_iff.mpr ⟨ranges, d₂.steady, lasts_groupRanges _ _ _ _ hranges, ?_⟩
    rw [← steady_of_checkOverlaps hoverlaps]
    exact run_bind_eq_ok_iff.mpr ⟨ids, d₄.steady, lasts_readingOrder _ _ _ _ hids,
      lasts_imposeOrder _ _ _ _ _ himpose⟩
  obtain ⟨rebuilds, d₆, hrebuilds, hrun⟩ := run_bind_eq_ok_iff.mp hrun
  have hplan : plan =
      ⟨(ordered.produce databases style).1, (ordered.produce databases style).2, rebuilds⟩ := by
    have hlast {d₇ : Document} (hrun : (do
        checkMarkerStyle ranges style
        return (⟨(ordered.produce databases style).1, (ordered.produce databases style).2,
          rebuilds⟩ : RefreshPlan) : DocumentM RefreshPlan).run d₇ = (.ok plan, d')) :
        plan =
          ⟨(ordered.produce databases style).1, (ordered.produce databases style).2, rebuilds⟩ := by
      obtain ⟨u, d₈, -, hpure⟩ := run_bind_eq_ok_iff.mp hrun
      cases hpure
      rfl
    cases rebuilds with
    | false => exact hlast hrun
    | true =>
      obtain ⟨u, d₇, -, hrun⟩ := run_bind_eq_ok_iff.mp hrun
      exact hlast hrun
  refine ⟨loaded, ordered, ?_, hloaded, ?_, CitationGroups.labels_imposeOrder hordered, ?_, ?_,
    fun hlimit => ?_⟩
  · rw [lasts_loadGroups _ _ _ hload]
  · rw [hread]
  · rw [hplan]
  · rintro rfl
    cases hrebuilds
    rw [hplan]
  · exact citationsApart_of_ranges hd hloaded hmarks
      (pairwise_apart_of_checkOverlaps hlimit hoverlaps)

end DocumentM

end DocCite
