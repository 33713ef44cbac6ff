import DocCite.Proofs.Document.Loading
import DocCite.Proofs.Document.Settled

/-!
# What a refresh writes

A refresh writes the markers of all groups, one after another. Each step keeps the groups, the
text outside of their marks, and what has been written into other marks before
(`Progress.withMarker`). So when a refresh succeeds every mark holds the marker that was produced
for it, and no other text has changed (`refresh_writes`).
-/

namespace DocCite

namespace MarkedText

variable {v : MarkedText} {x r : TextRange} {id : String}

/-- A mark apart from the one that is written stays inside the text. -/
theorem inside_withMarker_of_apart (hr : v.Inside r) (hx : v.Inside x) (hapart : x.Apart r)
    (id : String) (s : List Char) : (v.withMarker id r s).Inside (x.afterMarker r s.length) := by
  obtain ⟨t, ht, hstop⟩ := hx
  obtain ⟨u, hu, hrstop⟩ := hr
  unfold Inside
  rw [text_withMarker ⟨u, hu, hrstop⟩, TextRange.flow_afterMarker, filled]
  by_cases hflow : x.flow = r.flow
  · rw [hflow, hu, Option.some.injEq] at ht
    subst ht
    refine ⟨u.take r.start ++ s ++ u.drop r.stop, by rw [if_pos hflow, hflow, hu]; rfl, ?_⟩
    have hrle := r.start_le_stop
    have hxle := x.start_le_stop
    rw [List.length_append, List.length_append, List.length_take_of_le (by omega),
      List.length_drop]
    rcases TextRange.afterMarker_cases hflow hapart s.length with
      ⟨h₁, h₂⟩ | ⟨h₁, h₂⟩ | ⟨h₁, h₂⟩
    · rw [h₂]
      omega
    · omega
    · omega
  · refine ⟨t, by rw [if_neg hflow, ht], ?_⟩
    rwa [TextRange.afterMarker_of_ne hflow]

/-- The mark that is written is inside the text. -/
theorem inside_withMarker_self (hr : v.Inside r) (id : String) (s : List Char) :
    (v.withMarker id r s).Inside (.new r.flow r.start (r.start + s.length)) := by
  have hinside := inside_filled (i := 0) (j := s.length) hr (text_withMarker hr id s) (by omega)
    (Nat.le_refl _)
  simpa using hinside

end MarkedText

open MarkedText in
/-- **How far the writing of markers has come**: the groups and the text outside of their marks are
those of the document before, and some of the marks hold their markers. -/
structure Progress (d₀ : Document) (marker : CitationGroup → List Char)
    (written : List CitationGroup) (v : MarkedText) : Prop where
  names : (v.marks.map Prod.fst).Perm (d₀.marks.map Prod.fst)
  inside : ∀ name r, isCitation name = true → v.marks.get? name = some r → v.Inside r
  apart : v.CitationsApart
  outside : ∀ flow, v.outside flow = d₀.markedText.outside flow
  settled : ∀ g ∈ written, ∀ r, v.marks.get? g.id = some r → v.SettledIn r
  written : ∀ g ∈ written, ∃ r, v.marks.get? g.id = some r ∧ v.under? r = some (marker g)

namespace Progress

open MarkedText

variable {d₀ : Document} {marker : CitationGroup → List Char} {written : List CitationGroup}
  {v : MarkedText}

/-- Nothing has been written at the start. -/
theorem start (hd₀ : d₀.WellFormed) (hapart : d₀.markedText.CitationsApart)
    (marker : CitationGroup → List Char) : Progress d₀ marker [] d₀.markedText where
  names := List.Perm.refl _
  inside name r _ hr := Document.inside_markedText_iff.mpr
    (hd₀.marks_inside (name, r) ((Keyed.get?_eq_some_iff hd₀.marks_nodup).mp hr))
  apart := hapart
  outside _ := rfl
  settled g hg := by cases hg
  written g hg := by cases hg

theorem nodup (h : Progress d₀ marker written v) (hd₀ : d₀.WellFormed) :
    (v.marks.map Prod.fst).Nodup :=
  h.names.nodup_iff.mpr hd₀.marks_nodup

/-- Every citation mark stays there. -/
theorem exists_mark (h : Progress d₀ marker written v) {id : String}
    (hid : id ∈ d₀.marks.map Prod.fst) : ∃ r, v.marks.get? id = some r := by
  cases hmark : v.marks.get? id with
  | some r => exact ⟨r, rfl⟩
  | none => exact absurd (h.names.mem_iff.mpr hid) (Keyed.get?_eq_none_iff.mp hmark)

/-- **One more marker** is written into its mark, and the others keep theirs. -/
theorem withMarker (h : Progress d₀ marker written v) (hd₀ : d₀.WellFormed) {g : CitationGroup}
    (hcitation : isCitation g.id = true)
    (hothers : ∀ g' ∈ written, isCitation g'.id = true ∧ g'.id ≠ g.id) {r : TextRange}
    (hmark : v.marks.get? g.id = some r) :
    Progress d₀ marker (written ++ [g]) (v.withMarker g.id r (marker g)) := by
  have hr := h.inside g.id r hcitation hmark
  have hnodup := h.nodup hd₀
  have hself := get?_withMarker_self hmark (marker g)
  refine ⟨(perm_map_fst_withMarker hnodup hmark _).trans h.names, ?_,
    h.apart.withMarker hmark hcitation _, fun flow => ?_, fun g' hg' => ?_, fun g' hg' => ?_⟩
  · intro name x hname hx
    by_cases hne : name = g.id
    · subst hne
      rw [hself, Option.some.injEq] at hx
      rw [← hx]
      exact inside_withMarker_self hr g.id _
    · rw [get?_withMarker_of_ne hne] at hx
      obtain ⟨old, hold, rfl⟩ := Option.map_eq_some_iff.mp hx
      exact inside_withMarker_of_apart hr (h.inside name old hname hold)
        (h.apart name g.id old r hname hcitation hne hold hmark) g.id _
  · rw [outside_withMarker hnodup h.apart hmark hcitation hr, h.outside]
  · rcases List.mem_append.mp hg' with hold | hlast
    · obtain ⟨hcitation', hne⟩ := hothers g' hold
      intro y hy
      rw [get?_withMarker_of_ne hne] at hy
      obtain ⟨x, hx, rfl⟩ := Option.map_eq_some_iff.mp hy
      have hapart := h.apart g'.id g.id x r hcitation' hcitation hne hx hmark
      exact (h.settled g' hold x hx).withMarker hmark hapart _
    · rw [List.mem_singleton.mp hlast]
      intro y hy
      rw [hself, Option.some.injEq] at hy
      rw [← hy]
      exact settledIn_withMarker_self hmark _
  · rcases List.mem_append.mp hg' with hold | hlast
    · obtain ⟨x, hx, hunder⟩ := h.written g' hold
      obtain ⟨hcitation', hne⟩ := hothers g' hold
      have hapart := h.apart g'.id g.id x r hcitation' hcitation hne hx hmark
      refine ⟨x.afterMarker r (marker g).length, ?_, ?_⟩
      · rw [get?_withMarker_of_ne hne, hx, Option.map_some]
      · rw [under?_withMarker_of_ne hr hapart, hunder]
    · rw [List.mem_singleton.mp hlast]
      exact ⟨_, hself, under?_withMarker_self hr g.id _⟩

end Progress

/-- The text that stays in the mark of a group. -/
def CitationMarkers.closedMarker (produced : CitationMarkers) (g : CitationGroup) : List Char :=
  closedText (g.kind = .invisible)
    (Markup.plainChars (DocumentM.CitationMarkers.markerOf produced g.id).toList)

/-- What can be seen of it is what can be seen of the marker. -/
theorem CitationMarkers.visible_closedMarker (produced : CitationMarkers) (g : CitationGroup) :
    DocumentM.withoutPlaceholders (String.ofList (produced.closedMarker g)) =
      DocumentM.withoutPlaceholders
        (Markup.plain (DocumentM.CitationMarkers.markerOf produced g.id)) := by
  rw [DocumentM.withoutPlaceholders, DocumentM.withoutPlaceholders, Markup.plain,
    String.toList_ofList, String.toList_ofList]
  exact congrArg String.ofList (filter_closedText _ _)

namespace DocumentM

open MarkedText

variable {d₀ : Document} {style : Style}

/-- The marks of groups are citation marks of a document, and different ones. -/
structure AreGroupsOf (d₀ : Document) (groups : List CitationGroup) : Prop where
  marks : ∀ g ∈ groups, g.id ∈ d₀.marks.map Prod.fst ∧ isCitation g.id = true
  nodup : (groups.map CitationGroup.id).Nodup

theorem AreGroupsOf.of_append {groups rest : List CitationGroup}
    (h : AreGroupsOf d₀ (groups ++ rest)) : AreGroupsOf d₀ groups where
  marks g hg := h.marks g (List.mem_append_left _ hg)
  nodup := by
    have hnodup := h.nodup
    rw [List.map_append] at hnodup
    exact hnodup.of_append_left

/-- The marker of one group is written. It must not take the bibliography with it. -/
def writeGroup (produced : CitationMarkers) (style : Style) (checked : Bool) (g : CitationGroup) :
    DocumentM PUnit := do
  writeMarker g.id g.kind (CitationMarkers.markerOf produced g.id) style
  if checked then
    if !(← hasBibliography) then
      throw (.inconsistent ("writing citation " ++ g.id ++ " removed the bibliography bookmark"))

/-- The markers are written group by group. -/
theorem writeMarkers_eq (gs : CitationGroups) (produced : CitationMarkers) (style : Style) :
    writeMarkers gs produced style =
      hasBibliography >>= fun checked => gs.groups.forM (writeGroup produced style checked) :=
  rfl

/-- The check of the bibliography changes nothing. -/
theorem keeps_checkBibliography {C : Contract} (checked : Bool) (g : CitationGroup) :
    Keeps C (do
      if checked then
        if !(← hasBibliography) then
          throw (.inconsistent
            ("writing citation " ++ g.id ++ " removed the bibliography bookmark"))) := by
  split
  · refine keeps_hasBibliography.bind fun there => ?_
    cases there with
    | false => exact .throw trivial
    | true => exact .pure _
  · exact .pure _

/-- **Writing one marker** goes on from the groups that have been written. -/
theorem triple_writeGroup (hd₀ : d₀.WellFormed) (produced : CitationMarkers)
    (hstyle : style.formatCitations = true → style.citationCharacterFormat ∈ d₀.characterStyles)
    (checked : Bool) {written : List CitationGroup} {g : CitationGroup}
    (hgroups : AreGroupsOf d₀ (written ++ [g])) :
    Triple (fun d => ∃ v, Progress d₀ produced.closedMarker written v ∧ Shows d₀ v d)
      (writeGroup produced style checked g)
      (fun _ d => ∃ v, Progress d₀ produced.closedMarker (written ++ [g]) v ∧ Shows d₀ v d)
      fun _ _ => True := by
  have hg := hgroups.marks g (by simp)
  have hothers (g' : CitationGroup) (hg' : g' ∈ written) :
      isCitation g'.id = true ∧ g'.id ≠ g.id := by
    refine ⟨(hgroups.marks g' (List.mem_append_left _ hg')).2, fun heq => ?_⟩
    have hnodup := hgroups.nodup
    rw [List.map_append, List.nodup_append] at hnodup
    exact hnodup.2.2 g'.id (List.mem_map_of_mem hg') g.id List.mem_cons_self heq
  refine .exists fun v => .assume fun hv => ?_
  obtain ⟨r, hmark⟩ := hv.exists_mark hg.1
  have hwrite : Makes d₀ v
      (writeMarker g.id g.kind (CitationMarkers.markerOf produced g.id) style) ()
      (v.withMarker g.id r (produced.closedMarker g)) :=
    Makes.writeMarker hmark (hv.inside g.id r hg.2 hmark) hstyle
  have hnext := hv.withMarker hd₀ hg.2 hothers hmark
  generalize v.withMarker g.id r (produced.closedMarker g) = w at hwrite hnext
  refine Triple.bind (hwrite.weaken_error fun _ _ _ => trivial) fun u => .assume fun _ => ?_
  exact Triple.weaken (keeps_checkBibliography (C := showing d₀ w) checked g) (fun _ hd => hd)
    (fun _ d hd => ⟨w, hnext, hd⟩) fun _ _ h => h

/-- **Writing all markers** leaves every group its marker. -/
theorem triple_writeMarkers (hd₀ : d₀.WellFormed) (hapart : d₀.markedText.CitationsApart)
    {gs : CitationGroups} (produced : CitationMarkers)
    (hstyle : gs.groups ≠ [] → style.formatCitations = true →
      style.citationCharacterFormat ∈ d₀.characterStyles)
    (hgroups : AreGroupsOf d₀ gs.groups) :
    Triple (Shows d₀ d₀.markedText) (writeMarkers gs produced style)
      (fun _ d => ∃ v, Progress d₀ produced.closedMarker gs.groups v ∧ Shows d₀ v d)
      fun _ _ => True := by
  have hstart := Progress.start hd₀ hapart produced.closedMarker
  refine Triple.bind (Q := fun _ => Shows d₀ d₀.markedText)
    (keeps_hasBibliography (C := showing d₀ d₀.markedText)) fun checked => ?_
  refine Triple.weaken (Triple.forM_prefix (I := fun written d =>
      ∃ v, Progress d₀ produced.closedMarker written v ∧ Shows d₀ v d) fun written g rest hsplit =>
        ?_) (fun d hd => ⟨_, hstart, hd⟩) (fun _ _ hd => hd) fun _ _ h => h
  rw [hsplit, List.append_cons] at hgroups
  exact triple_writeGroup hd₀ produced (hstyle (by simp [hsplit])) checked hgroups.of_append

/-- A refresh that leaves the bibliography alone writes nothing but markers. -/
theorem triple_writeRefresh (hd₀ : d₀.WellFormed) (hapart : d₀.markedText.CitationsApart)
    {plan : RefreshPlan} (hstyles : StylesDefined plan style d₀) (hnever : plan.rebuilds = false)
    (hgroups : AreGroupsOf d₀ plan.groups.groups) (databases : List Database)
    (preferences : Preferences) :
    Triple (Shows d₀ d₀.markedText) (writeRefresh plan databases style preferences)
      (fun _ d => ∃ v, Progress d₀ plan.produced.closedMarker plan.groups.groups v ∧
        Shows d₀ v d)
      fun _ _ => True := by
  have hmarkers := triple_writeMarkers hd₀ hapart plan.produced hstyles.markers hgroups
  have hbody : Triple (Shows d₀ d₀.markedText) (do
      writeMarkers plan.groups plan.produced style
      if plan.rebuilds then
        writeBibliography (.ofCited plan.groups plan.produced.bibliography databases style)
          preferences)
      (fun _ d => ∃ v, Progress d₀ plan.produced.closedMarker plan.groups.groups v ∧
        Shows d₀ v d) fun _ _ => True := by
    rw [hnever]
    exact hmarkers.bind fun _ => Triple.pure fun d hd => hd
  have hlocked : Keeps (showing d₀ d₀.markedText) lockScreen := keeps_lockScreen
  refine Triple.bind hlocked fun _ => hbody.closing (fun _ => ?_) fun _ _ _ => trivial
  refine .exists fun v => .assume fun hv => ?_
  have hunlocked : Keeps (showing d₀ v) unlockScreen := keeps_unlockScreen
  exact hunlocked.weaken (fun _ hd => hd) (fun _ d hd => ⟨v, hv, hd⟩) fun _ _ _ => trivial

/-- Groups with the labels of those that were loaded are groups of the document. -/
theorem areGroupsOf_of_labels {d : Document} (hd : d.WellFormed) {before gs : CitationGroups}
    (hbefore : before.groups = CitationGroups.named d.properties (d.marks.map Prod.fst))
    (hlabels : gs.labels = before.labels) : AreGroupsOf d gs.groups := by
  have hids : gs.groups.map CitationGroup.id = before.groups.map CitationGroup.id :=
    (CitationGroups.ids_eq_map_labels _).trans
      ((congrArg (List.map Prod.fst) hlabels).trans (CitationGroups.ids_eq_map_labels _).symm)
  refine ⟨fun g hg => ?_, ?_⟩
  · have hmem := List.mem_map_of_mem (f := CitationGroup.id) hg
    rw [hids, hbefore, CitationGroups.map_id_named] at hmem
    exact List.mem_filter.mp hmem
  · rw [hids, hbefore, CitationGroups.map_id_named]
    exact hd.marks_nodup.filter _

/-- **A refresh that leaves the bibliography alone** keeps all groups and the text outside of their
marks, and every mark holds the marker produced for the groups as they were read before. -/
theorem refresh_writes {d d' : Document} (hd : d.WellFormed) {databases : List Database}
    {preferences : Preferences} (hlimit : 1 ≤ preferences.overlapReportLimit)
    {unresolved : List String}
    (hrun : (refresh databases style preferences .never).run d = (.ok unresolved, d')) :
    ∃ before ordered after,
      (loadGroups.run d.steady).1 = .ok before ∧
      (groupsAsRead.run d.steady).1 = .ok ordered ∧
      (loadGroups.run d'.steady).1 = .ok after ∧ after.groups.Perm before.groups ∧
      (∀ flow, d'.markedText.outside flow = d.markedText.outside flow) ∧
      ∀ g ∈ before.groups, ((visibleText g.id).run d'.steady).1 =
        .ok (withoutPlaceholders (Markup.plain
          (CitationMarkers.markerOf (ordered.produce databases style).2 g.id))) := by
  obtain ⟨plan, d₁, hplan, hrun⟩ := run_bind_eq_ok_iff.mp hrun
  obtain ⟨u, d₂, hwrite, hpure⟩ := run_bind_eq_ok_iff.mp hrun
  cases hpure
  obtain ⟨before, ordered, hload, hbefore, hread, hlabels, hproduce, hnever, hapart⟩ :=
    exists_ordered_of_planRefresh hd hplan
  obtain ⟨hstyles, hsame⟩ :=
    (triple_planRefresh d databases style preferences .never).of_ok (SameDocument.refl d) hplan
  have hplanned : plan.groups.labels = before.labels := by
    rw [show plan.groups = (ordered.produce databases style).1 from congrArg Prod.fst hproduce,
      CitationGroups.labels_produce, hlabels]
  have hgroups := areGroupsOf_of_labels hd hbefore hplanned
  obtain ⟨v, hv, hshows⟩ := (triple_writeRefresh hd (hapart hlimit) hstyles (hnever rfl) hgroups
    databases preferences).of_ok ((shows_self d).of_same hsame) hwrite
  have hafter := (Makes.loadGroups (o := d'.steady) (v := d'.markedText)).run_eq
  refine ⟨before, ordered, _, hload, hread, hafter, ?_, fun flow => ?_, fun g hg => ?_⟩
  · rw [hshows.markedText, CitationGroups.groups_ofList_named (hv.nodup hd), hbefore]
    rw [show d'.steady.properties = d.properties from hshows.properties]
    exact hv.names.filterMap _
  · rw [hshows.markedText, hv.outside]
  · have hlabel : g.label ∈ plan.groups.labels := by
      rw [hplanned]
      exact List.mem_map_of_mem hg
    obtain ⟨g', hg', heq⟩ := List.mem_map.mp hlabel
    have hid : g'.id = g.id := congrArg Prod.fst heq
    obtain ⟨r, hmark, hunder⟩ := hv.written g' hg'
    have hr := hv.inside g'.id r (hgroups.marks g' hg').2 hmark
    rw [← hshows.markedText] at hmark hunder hr
    rw [← hid, (Makes.visibleText (o := d'.steady) hmark hr hunder).run_eq,
      CitationMarkers.visible_closedMarker,
      show plan.produced = (ordered.produce databases style).2 from congrArg Prod.snd hproduce]

/-! A sentence with the mark of a key that no database knows. -/

/-- A document with one citation. -/
def sampleDocument : Document :=
  { title := "Paper", body := "As in (?), oaks grow.".toList.map fun c => { char := c },
    marks := [("JR_cite_1_oak", .inBody 6 9)] }

theorem wellFormed_sampleDocument : sampleDocument.WellFormed := by
  refine ⟨by decide, fun m hm => ?_, List.nodup_nil, fun b hb => by cases hb⟩
  rw [List.mem_singleton.mp hm]
  exact ⟨sampleDocument.body, rfl, by decide⟩

/-- What a refresh does to it. -/
def sampleRefresh : Except DocumentError (List String) × Document :=
  (refresh [] Style.blank {} .never).run sampleDocument

theorem sampleRefresh_eq : sampleRefresh = (.ok ["oak"], sampleRefresh.2) := by
  have houtcome : sampleRefresh.1.toOption = some ["oak"] := by decide +kernel
  rcases hrun : sampleRefresh with ⟨outcome, d⟩
  rw [hrun] at houtcome
  cases outcome with
  | ok unresolved =>
    cases houtcome
    rfl
  | error e => cases houtcome

theorem refresh_writes_sample :
    ∃ d', (refresh [] Style.blank {} .never).run sampleDocument = (.ok ["oak"], d') ∧
      sampleDocument.WellFormed ∧ 1 ≤ ({} : Preferences).overlapReportLimit ∧
      ∃ before ordered after,
        (loadGroups.run sampleDocument.steady).1 = .ok before ∧
        (groupsAsRead.run sampleDocument.steady).1 = .ok ordered ∧
        (loadGroups.run d'.steady).1 = .ok after ∧ after.groups.Perm before.groups ∧
        (∀ flow, d'.markedText.outside flow = sampleDocument.markedText.outside flow) ∧
        ∀ g ∈ before.groups, ((visibleText g.id).run d'.steady).1 =
          .ok (withoutPlaceholders (Markup.plain
            (CitationMarkers.markerOf (ordered.produce [] Style.blank).2 g.id))) :=
  ⟨sampleRefresh.2, sampleRefresh_eq, wellFormed_sampleDocument, by decide,
    refresh_writes wellFormed_sampleDocument (by decide) sampleRefresh_eq⟩

end DocumentM

end DocCite
