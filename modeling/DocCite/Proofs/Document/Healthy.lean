import DocCite.Proofs.Document.Changing
import DocCite.Proofs.Document.Completing
import DocCite.Proofs.Document.Releasing

/-!
# Page info stays with its citation

Page info is a property with the name of the mark that it belongs to. A document is healthy if no
page info is left of a mark that is gone, and calls that succeed keep it so, although marks are
taken away, created anew and renamed under them (`keepsPageInfo_run`). What they do to the page
info of the groups that were there before is told for each call.
-/

namespace DocCite

/-- Groups that names say are all loaded, for a name says one group only. -/
theorem CitationGroups.mem_groups_ofList_named {properties : Keyed String String}
    {names : List String} {g : CitationGroup} :
    g ∈ (CitationGroups.ofList (CitationGroups.named properties names)).groups ↔
      g ∈ CitationGroups.named properties names := by
  constructor
  · intro hg
    obtain ⟨p, hp, rfl⟩ := List.mem_map.mp hg
    rcases Keyed.mem_putAll hp with hnil | hmem
    · cases hnil
    · obtain ⟨g, hnamed, rfl⟩ := List.mem_map.mp hmem
      exact hnamed
  · intro hg
    have hfound :
        (Keyed.putAll [] ((CitationGroups.named properties names).map fun g => (g.id, g))).get? g.id =
          some g :=
      Keyed.get?_putAll_of_mem (p := (g.id, g)) ?_ (List.mem_map_of_mem hg)
    · exact List.mem_map_of_mem (f := Prod.snd) (Keyed.mem_of_get?_eq_some hfound)
    · intro q hq hkey
      obtain ⟨g', hg', rfl⟩ := List.mem_map.mp hq
      obtain ⟨name, -, hname⟩ := List.mem_filterMap.mp hg
      obtain ⟨name', -, hname'⟩ := List.mem_filterMap.mp hg'
      have hsame : name' = name :=
        (CitationGroup.id_of_named? hname').1.symm.trans
          (hkey.trans (CitationGroup.id_of_named? hname).1)
      rw [hsame, hname, Option.some.injEq] at hname'
      rw [hname']

open DocumentM

/-! ## Healthy documents -/

namespace Document

variable {d d' : Document}

/-- **A healthy document**, by the report of the program itself over a connection that lasts. -/
def Healthy (d : Document) : Prop := (health.run d.steady).1 = .ok ⟨[]⟩

/-- The groups of a document, as they are loaded over a connection that lasts. -/
def groups (d : Document) : List CitationGroup :=
  ((loadGroups.run d.steady).1.toOption.map CitationGroups.groups).getD []

/-- Nothing is left just when every page info has its mark. -/
theorem healthy_iff : d.Healthy ↔ ∀ name, MarkName.isMark name = true →
    d.properties.get? name ≠ none → d.HasMark name := by
  have horphaned : Looks d.steady health ⟨(d.properties.map Prod.fst).filter fun name =>
      MarkName.isMark name && !(d.marks.map Prod.fst).contains name⟩ :=
    .bind (.bind (.see rfl _) (.bind (.see rfl _) (.pure _))) (.pure _)
  rw [Healthy, show (health.run d.steady).1 = _ from congrArg Prod.fst horphaned,
    Except.ok.injEq, HealthReport.mk.injEq, List.filter_eq_nil_iff]
  refine forall_congr' fun name => ?_
  rw [ne_eq, Keyed.get?_eq_none_iff, Decidable.not_not]
  constructor
  · intro h hmark hproperty
    simpa [hmark, HasMark] using h hproperty
  · intro h hproperty
    cases hmark : MarkName.isMark name with
    | false => simp
    | true => simpa [HasMark] using h hmark hproperty

/-- A group is loaded just when a mark says it. -/
theorem mem_groups {g : CitationGroup} :
    g ∈ d.groups ↔ d.HasMark g.id ∧ CitationGroup.named? d.properties g.id = some g := by
  have hload : loadGroups.run d.steady =
      (.ok (.ofList (CitationGroups.named d.properties (d.marks.map Prod.fst))), d.steady) :=
    Looks.loadGroups rfl
  rw [groups, hload]
  change g ∈ (CitationGroups.ofList _).groups ↔ _
  rw [CitationGroups.mem_groups_ofList_named, CitationGroups.named, List.mem_filterMap]
  constructor
  · rintro ⟨name, hname, hg⟩
    obtain rfl := (CitationGroup.id_of_named? hg).1
    exact ⟨hname, hg⟩
  · rintro ⟨hname, hg⟩
    exact ⟨g.id, hname, hg⟩

theorem healthy_connection (h : d.Healthy) (c : Connection) :
    Healthy { d with connection := c } :=
  healthy_iff.mpr (healthy_iff.mp h)

end Document

/-! ## What steps keep -/

/-- Nothing is left behind by a step that finds nothing left. -/
def healthFrame : Frame where
  Rel d d' := d.Healthy → d'.Healthy
  refl _ h := h
  trans h h' hd := h' (h hd)
  spend _ h := Document.healthy_connection h _
  lose _ h := Document.healthy_connection h _

instance : healthFrame.AllowsLosing where
  rel_of_same {d d'} h hd := by
    rw [Document.healthy_iff] at hd ⊢
    intro name hmark hproperty
    rw [h.properties] at hproperty
    exact (h.hasMark_iff name).mpr (hd name hmark hproperty)
  rel_of_gain {added pageInfo d d'} h hd := by
    rw [Document.healthy_iff] at hd ⊢
    intro name hmark hproperty
    rw [h.hasMark_iff]
    by_cases heq : name = added
    · exact .inr heq
    · rw [h.properties, d.get?_withPageInfo_of_ne heq] at hproperty
      exact .inl (hd name hmark hproperty)
  rel_of_loss {gone d d'} h hd := by
    rw [Document.healthy_iff] at hd ⊢
    intro name hmark hproperty
    rw [h.properties] at hproperty
    have hne : name ≠ gone := by
      rintro rfl
      exact hproperty (Keyed.get?_erase_self _ _)
    rw [Keyed.get?_erase_of_ne _ hne] at hproperty
    exact (h.hasMark_iff name).mpr ⟨hd name hmark hproperty, hne⟩

/-- The marks that are there stay, with their page info. -/
def pageInfoFrame : Frame where
  Rel d d' := ∀ name, d.HasMark name →
    d'.HasMark name ∧ d'.properties.get? name = d.properties.get? name
  refl _ _ h := ⟨h, rfl⟩
  trans h h' name hname :=
    ⟨(h' name (h name hname).1).1, (h' name (h name hname).1).2.trans (h name hname).2⟩
  spend _ _ h := ⟨h, rfl⟩
  lose _ _ h := ⟨h, rfl⟩

instance : pageInfoFrame.AllowsGaining where
  rel_of_same h name hname := ⟨(h.hasMark_iff name).mpr hname, by rw [h.properties]⟩
  rel_of_gain {added pageInfo d d'} h name hname := by
    have hne : name ≠ added := fun heq => h.new_name (heq ▸ hname)
    exact ⟨(h.hasMark_iff name).mpr (.inl hname),
      by rw [h.properties, d.get?_withPageInfo_of_ne hne]⟩

variable {d d' : Document}

/-- A group whose mark and page info stay is loaded as before. -/
theorem Document.mem_groups_of_kept {g : CitationGroup} (hg : g ∈ d.groups)
    (hmark : d'.HasMark g.id)
    (hproperty : d'.properties.get? g.id = d.properties.get? g.id) : g ∈ d'.groups := by
  have hnamed := (Document.mem_groups.mp hg).2
  rw [CitationGroup.named?, ← hproperty] at hnamed
  exact Document.mem_groups.mpr ⟨hmark, hnamed⟩

/-- A group whose page info is stored anew is loaded with it. -/
theorem Document.setPageInfo_mem_groups {g : CitationGroup} {pageInfo : Option String}
    (hg : g ∈ d.groups) (hmark : d'.HasMark g.id)
    (hproperty : d'.properties.get? g.id = normalizePageInfo pageInfo) :
    g.setPageInfo pageInfo ∈ d'.groups := by
  obtain ⟨n, hn, hsaid⟩ := Option.map_eq_some_iff.mp (Document.mem_groups.mp hg).2
  refine Document.mem_groups.mpr ⟨hmark, Option.map_eq_some_iff.mpr ⟨n, hn, ?_⟩⟩
  change CitationGroup.new g.id n.kind n.keys (d'.properties.get? g.id) = _
  rw [hproperty, CitationGroup.setPageInfo, ← hsaid, CitationGroup.new, CitationGroup.new,
    normalizePageInfo_normalizePageInfo]

/-! ## Stored page info -/

/-- **Edited page info is stored**, and nothing else. -/
theorem stored_of_setPageInfos {edits : List (String × Option String)} {u : Unit}
    (hnodup : (edits.map Prod.fst).Nodup)
    (hrun : (setPageInfos edits).run d = (.ok u, d')) :
    d'.marks = d.marks ∧
      (∀ e ∈ edits, d'.properties.get? e.1 = normalizePageInfo e.2) ∧
      ∀ name, name ∉ edits.map Prod.fst → d'.properties.get? name = d.properties.get? name := by
  induction edits generalizing d with
  | nil =>
    cases hrun
    exact ⟨rfl, nofun, fun _ _ => rfl⟩
  | cons e rest ih =>
    rw [List.map_cons, List.nodup_cons] at hnodup
    obtain ⟨v, d₁, hfirst, hrest⟩ := run_bind_eq_ok_iff.mp hrun
    obtain ⟨hmarks, hproperties⟩ := Completes.properties_of_setPageInfo hfirst
    obtain ⟨hmarks', hstored, hother⟩ := ih hnodup.2 hrest
    refine ⟨hmarks'.trans hmarks, List.forall_mem_cons.mpr ⟨?_, hstored⟩, fun name hname => ?_⟩
    · rw [hother e.1 hnodup.1, hproperties, d.get?_withPageInfo_self]
    · rw [List.map_cons, List.mem_cons, not_or] at hname
      rw [hother name hname.2, hproperties, d.get?_withPageInfo_of_ne hname.1]

/-! ## Calls -/

namespace SessionCall

variable {s s' : Session} {place : Nat}

/-- A call names reference marks that are there, each of them once. -/
def NamesMarks : SessionCall → Document → Prop
  | editPageInfo edits, d => (∀ e ∈ edits, d.HasMark e.1) ∧ (edits.map Prod.fst).Nodup
  | _, _ => True

/-- **What a call does to the page info** of the groups that are there before it: groups that are
inserted or refreshed beside them leave them as they are, and edits store what they say, tidied up.
Joining and separating give page info to other groups, of which nothing is said here. -/
def KeepsPageInfo : SessionCall → Document → Document → Prop
  | insert .., d, d' => ∀ g ∈ d.groups, g ∈ d'.groups
  | refresh, d, d' => ∀ g ∈ d.groups, g ∈ d'.groups
  | editPageInfo edits, d, d' =>
    (∀ e ∈ edits, d'.properties.get? e.1 = normalizePageInfo e.2 ∧
        ∀ g ∈ d.groups, g.id = e.1 → g.setPageInfo e.2 ∈ d'.groups) ∧
      ∀ g ∈ d.groups, g.id ∉ edits.map Prod.fst → g ∈ d'.groups
  | merge, _, _ => True
  | split, _, _ => True

/-- An action that succeeds on the connected document. -/
theorem exists_of_onCurrent {α : Type} {x : Preferences → DocumentM α} {a : α}
    (hcurrent : s.current = some place) (hd : s.documents[place]? = some d)
    (hrun : (SessionM.onCurrent x).run s = (.ok a, s')) :
    ∃ d', (x s.preferences).run d = (.ok a, d') ∧
      s'.documents = s.documents.set place d' := by
  rw [run_onCurrent _ hcurrent hd, Prod.mk.injEq] at hrun
  obtain ⟨hok, rfl⟩ := hrun
  exact ⟨_, Prod.ext hok rfl, rfl⟩

/-- Page info that was edited is stored as promised, and belongs to marks that are there. -/
theorem keepsPageInfo_editPageInfo {preferences : Preferences}
    {edits : List (String × Option String)} {u : Unit} (hhealthy : d.Healthy)
    (hnames : (editPageInfo edits).NamesMarks d)
    (hrun : (DocumentM.editPageInfo preferences edits).run d = (.ok u, d')) :
    d'.Healthy ∧ (editPageInfo edits).KeepsPageInfo d d' := by
  obtain ⟨hlive, hnodup⟩ := hnames
  obtain ⟨d₁, d₂, hedit, ⟨hbefore, hafter⟩, -⟩ := exists_run_of_mutate hrun
  obtain ⟨hmarks, hstored, hother⟩ := stored_of_setPageInfos hnodup hedit
  -- the marks and the other properties are those of before, for nothing else is done to them
  rw [hafter.properties, ← hbefore.properties] at hother
  rw [hafter.properties] at hstored
  have hmark (name : String) : d'.HasMark name ↔ d.HasMark name := by
    rw [Document.HasMark, Document.HasMark, ← hafter.marks, hmarks, ← hbefore.marks]
  refine ⟨Document.healthy_iff.mpr fun name hname hproperty => ?_, fun e he => ?_,
    fun g hg hnot => ?_⟩
  · by_cases hedited : name ∈ edits.map Prod.fst
    · obtain ⟨e, he, rfl⟩ := List.mem_map.mp hedited
      exact (hmark _).mpr (hlive e he)
    · rw [hother name hedited] at hproperty
      exact (hmark name).mpr (Document.healthy_iff.mp hhealthy name hname hproperty)
  · refine ⟨hstored e he, fun g hg heq => ?_⟩
    refine Document.setPageInfo_mem_groups hg ((hmark _).mpr (Document.mem_groups.mp hg).1) ?_
    rw [heq]
    exact hstored e he
  · exact Document.mem_groups_of_kept hg ((hmark _).mpr (Document.mem_groups.mp hg).1)
      (hother g.id hnot)

/-- **No call that succeeds leaves page info without its mark**, and the page info of the groups
that were there before is as promised. -/
theorem keepsPageInfo_run (call : SessionCall) (databases : List Database) (style : Style)
    (hcurrent : s.current = some place) (hd : s.documents[place]? = some d)
    (hhealthy : d.Healthy) (hnames : call.NamesMarks d) {a : call.Result}
    (hrun : (call.run databases style).run s = (.ok a, s')) :
    ∃ d', s'.documents = s.documents.set place d' ∧ d'.Healthy ∧ call.KeepsPageInfo d d' := by
  have hkept {x : DocumentM (List String)} [Completes pageInfoFrame x] {unresolved : List String}
      {d' : Document} (hx : x.run d = (.ok unresolved, d')) : ∀ g ∈ d.groups, g ∈ d'.groups := by
    intro g hg
    obtain ⟨hmark, hproperty⟩ := Completes.rel (F := pageInfoFrame) hx g.id
      (Document.mem_groups.mp hg).1
    exact Document.mem_groups_of_kept hg hmark hproperty
  cases call with
  | insert entries kind pageInfo sync =>
    cases hkeys : keysToCite entries with
    | error e =>
      simp only [run, SessionM.insertCitation, hkeys] at hrun
      cases hrun
    | ok keys =>
      simp only [run, SessionM.insertCitation, hkeys] at hrun
      obtain ⟨d', hx, hdocuments⟩ := exists_of_onCurrent (x := fun p =>
        DocumentM.insertCitation p ⟨keys, kind, pageInfo, sync⟩ databases style) hcurrent hd hrun
      exact ⟨d', hdocuments, Completes.rel (F := healthFrame) hx hhealthy, hkept hx⟩
  | refresh =>
    obtain ⟨d', hx, hdocuments⟩ :=
      exists_of_onCurrent (x := fun p => refreshAll p databases style) hcurrent hd hrun
    exact ⟨d', hdocuments, Completes.rel (F := healthFrame) hx hhealthy, hkept hx⟩
  | merge =>
    obtain ⟨d', hx, hdocuments⟩ :=
      exists_of_onCurrent (x := fun p => DocumentM.merge p databases style) hcurrent hd hrun
    exact ⟨d', hdocuments, Completes.rel (F := healthFrame) hx hhealthy, trivial⟩
  | split =>
    obtain ⟨d', hx, hdocuments⟩ :=
      exists_of_onCurrent (x := fun p => DocumentM.split p databases style) hcurrent hd hrun
    exact ⟨d', hdocuments, Completes.rel (F := healthFrame) hx hhealthy, trivial⟩
  | editPageInfo edits =>
    obtain ⟨d', hx, hdocuments⟩ :=
      exists_of_onCurrent (x := fun p => DocumentM.editPageInfo p edits) hcurrent hd hrun
    exact ⟨d', hdocuments, keepsPageInfo_editPageInfo hhealthy hnames hx⟩

/-- A paper with a citation and its page info. -/
def notedPaper : Document :=
  { Document.ofPlain "As in (A)." [] [("JR_cite_1_a", .inBody 6 9)] with
    properties := [("JR_cite_1_a", "7")] }

/-- A session that is connected to it. -/
def notedSession : Session := { documents := [notedPaper], current := some 0 }

/-- The page info of its citation, edited. -/
def notedEdit : SessionCall := editPageInfo [("JR_cite_1_a", some " 8 ")]

theorem keepsPageInfo_run_notedPaper :
    notedSession.current = some 0 ∧ notedSession.documents[0]? = some notedPaper ∧
      notedPaper.Healthy ∧ notedEdit.NamesMarks notedPaper ∧
      ∃ s', (notedEdit.run [] Style.blank).run notedSession = (.ok (), s') ∧
        ∃ d', s'.documents = notedSession.documents.set 0 d' ∧ d'.Healthy ∧
          notedEdit.KeepsPageInfo notedPaper d' := by
  have hhealthy : notedPaper.Healthy :=
    congrArg Prod.fst (eq_ok_of_toOption (by decide +kernel))
  have hnames : notedEdit.NamesMarks notedPaper :=
    ⟨List.forall_mem_singleton.mpr List.mem_cons_self, List.nodup_singleton _⟩
  have hrun : (notedEdit.run [] Style.blank).run notedSession =
      (.ok (), ((notedEdit.run [] Style.blank).run notedSession).2) :=
    eq_ok_of_toOption rfl
  exact ⟨rfl, rfl, hhealthy, hnames, _, hrun,
    keepsPageInfo_run notedEdit [] Style.blank rfl rfl hhealthy hnames hrun⟩

end SessionCall

end DocCite
