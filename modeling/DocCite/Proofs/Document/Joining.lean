import DocCite.Proofs.Document.Changing
import DocCite.Proofs.Document.Runs

/-!
# Joining citations

Joining puts one citation in the place of every run of citations in brackets that only spaces
separate, and leaves all else where it is (`JoinedTo`). Joined outlines tell the same keys
(`JoinedTo.alike`), and nothing in them is left to be joined (`JoinedTo.isChain`).
-/

namespace DocCite

/-- Lists that are related element by element tell the same, if related elements do. -/
theorem flatMap_eq_of_forall₂ {α β γ : Type} {R : α → β → Prop} {f : α → List γ} {f' : β → List γ}
    (hR : ∀ a b, R a b → f a = f' b) {l : List α} {l' : List β} (h : List.Forall₂ R l l') :
    l.flatMap f = l'.flatMap f' := by
  induction h with
  | nil => rfl
  | cons hab _ ih => rw [List.flatMap_cons, List.flatMap_cons, hR _ _ hab, ih]

theorem forall₂_comp {α β γ : Type} {R : α → β → Prop} {S : β → γ → Prop} {T : α → γ → Prop}
    (hT : ∀ a b c, R a b → S b c → T a c) {l : List α} {m : List β} {n : List γ}
    (h : List.Forall₂ R l m) (h' : List.Forall₂ S m n) : List.Forall₂ T l n := by
  induction h generalizing n with
  | nil =>
    cases h'
    exact .nil
  | cons hab _ ih =>
    cases h' with
    | cons hbc hrest => exact .cons (hT _ _ _ hab hbc) (ih hrest)

/-- Putting one element in the place of each relates the lists. -/
theorem forall₂_flatMap_of_singleton {α β : Type} {R : α → β → Prop} {σ : α → List β} {l : List α}
    (h : ∀ a ∈ l, ∃ b, σ a = [b] ∧ R a b) : List.Forall₂ R l (l.flatMap σ) := by
  induction l with
  | nil => exact .nil
  | cons a l ih =>
    obtain ⟨⟨b, hb, hR⟩, hrest⟩ := List.forall_mem_cons.mp h
    rw [List.flatMap_cons, hb]
    exact .cons hR (ih hrest)

namespace Passage

variable {p q q' : Passage} {run : List Passage} {ps : List Passage}

theorem IsJoinOf.afterRun_eq (h : IsJoinOf run q) : afterRun run = q.after := by
  rw [afterRun, h.after, Option.getD_some]

/-- What is in the mark of a citation does not matter. -/
theorem IsJoinOf.congr (h : IsJoinOf run q) (hgroup : q'.group = q.group)
    (hafter : q'.after = q.after) : IsJoinOf run q' where
  after := hafter ▸ h.after
  alone := hgroup ▸ h.alone
  kind := hgroup ▸ h.kind
  keys := hgroup ▸ h.keys
  pageInfo := hgroup ▸ h.pageInfo

/-- A citation joins itself. -/
theorem isJoinOf_singleton (p : Passage) : IsJoinOf [p] p where
  after := rfl
  alone := fun _ => rfl
  kind := fun h => absurd rfl h
  keys := by simp
  pageInfo := fun h => absurd rfl h

/-- Citations that join others are in brackets. -/
theorem kind_of_mem_run (hchain : run.IsChain fun p q => p.joins q = true) (hlength : run.length ≠ 1)
    (hp : p ∈ run) : p.group.kind = .parenthetical := by
  induction run with
  | nil => cases hp
  | cons a run ih =>
    cases run with
    | nil => exact absurd rfl hlength
    | cons b run =>
      obtain ⟨hjoins, hrest⟩ := List.isChain_cons_cons.mp hchain
      obtain ⟨hkind, hkind'⟩ := (joins_iff.mp hjoins).1
      rcases List.mem_cons.mp hp with rfl | hp
      · exact hkind
      · cases run with
        | nil => rwa [List.mem_singleton.mp hp]
        | cons c run => exact ih hrest (by simp) hp

/-- A joined citation is in brackets if any of its run is. -/
theorem IsJoinOf.kind_eq (h : IsJoinOf run q) (hchain : run.IsChain fun p q => p.joins q = true)
    (hp : p ∈ run) : q.group.kind = p.group.kind := by
  by_cases hlength : run.length = 1
  · have hmem := List.mem_map_of_mem (f := Passage.group) hp
    rw [h.alone hlength, List.mem_singleton] at hmem
    rw [hmem]
  · rw [h.kind hlength, kind_of_mem_run hchain hlength hp]

/-- A citation that is not in brackets stays as it is. -/
theorem IsJoinOf.group_eq (h : IsJoinOf run q) (hchain : run.IsChain fun p q => p.joins q = true)
    (hp : p ∈ run) (hkind : p.group.kind ≠ .parenthetical) : q.group = p.group := by
  have hlength : run.length = 1 := by
    by_contra hne
    exact hkind (kind_of_mem_run hchain hne hp)
  have hmem := List.mem_map_of_mem (f := Passage.group) hp
  rw [h.alone hlength, List.mem_singleton] at hmem
  exact hmem.symm

/-- Citations do not join when the runs that they come from do not. -/
theorem IsJoinOf.joins_eq_false {run' : List Passage} (h : IsJoinOf run q) (h' : IsJoinOf run' q')
    (hchain : run.IsChain fun p q => p.joins q = true)
    (hchain' : run'.IsChain fun p q => p.joins q = true) (hne : run ≠ []) (hne' : run' ≠ [])
    (hapart : (run.getLast hne).joins (run'.head hne') = false) : q.joins q' = false := by
  have hafter : (run.getLast hne).after = q.after := by
    rw [← h.afterRun_eq, afterRun, List.getLast?_eq_some_getLast hne]
    rfl
  rw [← hapart]
  exact joins_congr (h.kind_eq hchain (List.getLast_mem hne)) hafter.symm
    (h'.kind_eq hchain' (List.head_mem hne'))

end Passage

namespace Outline

open Passage

variable {O O' : Flow → Outline}

/-- **Outlines are joined to others**: in every flow each run has become one citation. -/
structure JoinedTo (O O' : Flow → Outline) : Prop where
  lead : ∀ flow, (O' flow).lead = (O flow).lead
  passages : ∀ flow, List.Forall₂ IsJoinOf (runs (O flow).passages) (O' flow).passages

theorem JoinedTo.redraw (h : JoinedTo O O') (inside : Passage → List Char) :
    JoinedTo O fun flow => (O' flow).redraw inside where
  lead := h.lead
  passages flow :=
    List.forall₂_map_right_iff.mpr ((h.passages flow).imp fun _ _ hjoin => hjoin.congr rfl rfl)

theorem JoinedTo.showAnchors (h : JoinedTo O O') (hshow : ∀ flow, ShowAnchors (O flow).passages)
    (flow : Flow) : ShowAnchors (O' flow).passages := by
  intro q hq l hl
  obtain ⟨run, hrun, hjoin⟩ := (exists_of_forall₂_of_mem (h.passages flow)).2 q hq
  obtain ⟨last, hlast, hafter⟩ := Option.map_eq_some_iff.mp hjoin.after
  have hmem := mem_of_mem_runs hrun (List.mem_of_getLast? hlast)
  exact hshow flow last hmem l (hafter ▸ hl)

/-- **Nothing is left to be joined.** -/
theorem JoinedTo.isChain (h : JoinedTo O O') (flow : Flow) :
    (O' flow).passages.IsChain fun p q => p.joins q = false := by
  have hjoins (run : List Passage) (hrun : run ∈ runs (O flow).passages) :=
    List.isChain_of_mem_splitBy hrun
  have hapart := List.isChain_getLast_head_splitBy joins (O flow).passages
  have hpassages := h.passages flow
  rw [runs] at hpassages hjoins
  generalize (O flow).passages.splitBy joins = rs at hjoins hapart hpassages
  generalize (O' flow).passages = qs at hpassages
  induction hpassages with
  | nil => exact List.IsChain.nil
  | cons hjoin hrest ih =>
    obtain ⟨hchain, hchains⟩ := List.forall_mem_cons.mp hjoins
    cases hrest with
    | nil => exact List.isChain_singleton _
    | cons hjoin' hrest' =>
      obtain ⟨⟨hne, hne', hfalse⟩, hapart⟩ := List.isChain_cons_cons.mp hapart
      refine List.isChain_cons_cons.mpr ⟨?_, ih hchains hapart⟩
      exact hjoin.joins_eq_false hjoin' hchain (hchains _ List.mem_cons_self) hne hne' hfalse

/-- What joined passages tell, if a joined citation tells what its run does. -/
theorem JoinedTo.tells_eq {γ : Type} (h : JoinedTo O O')
    (hshow : ∀ flow, ShowAnchors (O flow).passages) {g : CitationGroup → Flow → List γ}
    (hg : ∀ run q flow, IsJoinOf run q → run.flatMap (fun p => g p.group flow) = g q.group flow)
    (flow : Flow) (m : Nat → List γ) :
    tells g flow m (O' flow).passages = tells g flow m (O flow).passages := by
  rw [tells, tells, flatMap_append_noted_of_runs (hshow flow)]
  refine (flatMap_eq_of_forall₂ (fun run q hjoin => ?_) (h.passages flow)).symm
  rw [hg run q flow hjoin, hjoin.afterRun_eq]

/-- Outlines anchor what their leads and their passages note. -/
theorem anchored_eq_tells (O : Flow → Outline) :
    anchored O = noted (fun n => [n]) (O .body).lead ++
      tells (fun _ _ => []) .body (fun n => [n]) (O .body).passages := by
  have hnotes (ls : List Letter) : ls.filterMap Letter.footnote = noted (fun n => [n]) ls := by
    simp [noted]
  rw [anchored, anchoredIn, hnotes, noted_append, noted_flatMap]
  rfl

/-- **Joined outlines tell the same keys.** -/
theorem JoinedTo.alike (h : JoinedTo O O') (hshow : ∀ flow, ShowAnchors (O flow).passages) :
    Alike (fun g _ => g.keys) O O' where
  lead := h.lead .body
  tells := h.tells_eq hshow fun _ _ _ hjoin => hjoin.keys.symm
  anchored := by
    rw [anchored_eq_tells, anchored_eq_tells, h.lead, h.tells_eq hshow fun _ _ _ _ => by simp]

end Outline

/-! ## Joining all runs -/

namespace DocumentM

open Arrangement Outline Passage

variable {L : Arrangement} {O : Flow → Outline} {d d' : Document} {loose : List Flow}
  {preferences : Preferences}

theorem forM_map {ι κ : Type} (l : List ι) (f : ι → κ) (x : κ → DocumentM PUnit) :
    (l.map f).forM x = l.forM fun a => x (f a) := by
  induction l with
  | nil => rfl
  | cons a l ih => exact congrArg (x (f a) >>= ·) (funext fun _ => ih)

theorem nodup_runs {ps : List Passage} (h : ps.Nodup) : (runs ps).Nodup := by
  rw [← flatten_runs ps] at h
  refine (List.nodup_flatten.mp h).2.imp_of_mem fun {run run'} hrun _ hdisjoint => ?_
  rintro rfl
  obtain ⟨p, hp⟩ := List.exists_mem_of_ne_nil _ (ne_nil_of_mem_runs hrun)
  exact hdisjoint hp hp

/-- Joins the citations of a run, if there are any. -/
def joinGroups : List CitationGroup → DocumentM Unit
  | [] => return
  | first :: rest => joinRun first rest

/-- **The runs of a document are joined** one after another. -/
theorem rearranges_joinRuns (hL : L.Describes d) (h : L.Follows O) (hloose : ReadsLoose O loose)
    (hshow : ∀ flow, ShowAnchors (O flow).passages) :
    Rearranges L
      ((((readingRuns O loose).filter fun x => 1 < x.2.length).map fun x =>
        x.2.map Passage.group).forM joinGroups)
      fun _ L' => ∃ O', JoinedTo O O' ∧ L'.Follows O' := by
  have hwoven := hloose.woven_runs hshow
  have hnodup (flow : Flow) : (runs (O flow).passages).Nodup :=
    nodup_runs (h.nodup_passages hL flow)
  have hall : L.Follows
      (exchanged (fun flow => (O flow).lead) (fun flow => runs (O flow).passages) Prod.snd) := by
    refine cast (congrArg _ (funext fun flow => ?_)) h
    have hpassages : ((runs (O flow).passages).flatMap fun run => run) = (O flow).passages :=
      List.flatMap_id.trans (flatten_runs _)
    rw [exchanged, hpassages]
  rw [forM_map]
  refine (rearranges_exchanges (R := fun run block => ∃ q, block = [q] ∧ IsJoinOf run q) hnodup
    (fun run => joinGroups (run.map Passage.group))
    ((hwoven.nodup_weave hnodup).filter _)
    (fun x hx => hwoven.mem_weave_iff.mp (List.mem_of_mem_filter hx)) ?_ (fun _ _ => rfl)
    hall).weaken ?_
  · rintro ⟨flow, run⟩ hx L O before behind hO hpassages
    have hlength : 1 < run.length := by simpa using (List.mem_filter.mp hx).2
    rcases List.eq_nil_or_concat run with rfl | ⟨init, last, rfl⟩
    · cases hlength
    rw [List.concat_eq_append] at hlength hpassages ⊢
    have hinit : init ≠ [] := by
      rintro rfl
      simp at hlength
    obtain ⟨first, rest, hrun⟩ := List.exists_cons_of_ne_nil (List.append_ne_nil_of_right_ne_nil init
      (List.cons_ne_nil last []))
    have hjoin := rearranges_joinRun hO hrun hinit hpassages
    rw [show (init ++ [last]).map Passage.group = first.group :: rest.map Passage.group by
      rw [hrun, List.map_cons], joinGroups]
    refine hjoin.weaken ?_
    rintro - L' ⟨q, hq, hL'⟩
    exact ⟨[q], ⟨q, rfl, hq⟩, hL'⟩
  · rintro - L' ⟨σ, hdone, hothers, hL'⟩
    refine ⟨exchanged (fun flow => (O flow).lead) (fun flow => runs (O flow).passages) σ,
      ⟨fun _ => rfl, fun flow => forall₂_flatMap_of_singleton fun run hrun => ?_⟩, hL'⟩
    by_cases hmem : (flow, run) ∈ (readingRuns O loose).filter fun x => 1 < x.2.length
    · exact hdone _ hmem
    · have hshort : run.length ≤ 1 := by
        by_contra hlong
        exact hmem (List.mem_filter.mpr ⟨hwoven.mem_weave_iff.mpr hrun, by simpa using hlong⟩)
      have hone : run.length = 1 := by
        have hpos := List.length_pos_iff.mpr (ne_nil_of_mem_runs hrun)
        omega
      obtain ⟨p, rfl⟩ := List.length_eq_one_iff.mp hone
      exact ⟨p, hothers _ hmem, isJoinOf_singleton p⟩

/-- **Joining all runs** joins the outlines of a document. It tells that there were any only if one
of a flow has several citations. -/
theorem exists_joinedTo_of_joinAll (hL : L.Describes d) (h : L.Follows O)
    (hanchored : (anchored O).Nodup) (hshow : ∀ flow, ShowAnchors (O flow).passages)
    {joined : Bool} (hrun : (joinAll preferences).run d = (.ok joined, d')) :
    (∃ (L' : Arrangement) (O' : Flow → Outline), L'.Describes d' ∧ L'.Follows O' ∧
      JoinedTo O O') ∧
      (joined = true → ∃ flow, ∃ run ∈ runs (O flow).passages, 1 < run.length) := by
  obtain ⟨⟨gs, ranges⟩, d₁, hload, hrun⟩ := run_bind_eq_ok_iff.mp hrun
  obtain ⟨hloaded, hsame₁⟩ := loaded_of_loadApart hL.wellFormed hload
  obtain ⟨ids, d₂, hids, hrun⟩ := run_bind_eq_ok_iff.mp hrun
  have hinside : ∀ item ∈ ranges, d.Inside item.1 := by
    intro item hitem
    have hget := (hloaded.mem_ranges_iff.mp hitem).2
    exact hL.wellFormed.marks_inside _ ((Keyed.get?_eq_some_iff hL.wellFormed.marks_nodup).mp hget)
  obtain ⟨rfl, hsame₂⟩ := inReadingOrder_of_run hinside hsame₁ hids
  obtain ⟨loose, hloose, hlocated⟩ := h.located_eq hL hanchored hloaded
  obtain ⟨found, d₃, hfound, hrun⟩ := run_bind_eq_ok_iff.mp hrun
  have hordered : (d.inReadingOrder ranges).filterMap (fun id => do
      let g ← gs.get? id
      let r ← (ranges.find? fun r => r.2 = id)
      return (g, r.1)) = located d O loose := hlocated
  simp only [hordered] at hfound
  obtain ⟨rfl, hsame₃⟩ := (tells_joinableRuns hL h hloose hshow).of_ok hsame₂ hfound
  obtain ⟨u, d₄, hlocked, hpure⟩ := run_bind_eq_ok_iff.mp hrun
  cases hpure
  obtain ⟨L', ⟨O', hjoined, hL'⟩, hd'⟩ := Rearranges.of_ok
    (Rearranges.withLockedScreen (rearranges_joinRuns hL h hloose hshow)) (hL.of_same hsame₃) hlocked
  refine ⟨⟨L', O', hd', hL', hjoined⟩, fun htrue => ?_⟩
  have hne : ((readingRuns O loose).filter fun x => 1 < x.2.length) ≠ [] := by
    simpa using htrue
  obtain ⟨x, hx⟩ := List.exists_mem_of_ne_nil _ hne
  obtain ⟨hmem, hlong⟩ := List.mem_filter.mp hx
  exact ⟨x.1, x.2, (hloose.woven_runs hshow).mem_weave_iff.mp hmem, by simpa using hlong⟩

/-- **Joining the citations of a document** joins its outlines, whatever is written into the marks
afterwards. -/
theorem exists_joinedTo_of_merge {databases : List Database} {style : Style}
    {unresolved : List String} (hL : L.Describes d) (h : L.Follows O) (hanchored : (anchored O).Nodup)
    (hshow : ∀ flow, ShowAnchors (O flow).passages)
    (hrun : (merge preferences databases style).run d = (.ok unresolved, d')) :
    ∃ L' : Arrangement, L'.Describes d' ∧ L'.Follows d'.outline ∧ JoinedTo O d'.outline := by
  obtain ⟨L', O', inside, hjoined, hL', h', houtline⟩ := exists_redrawn_of_mutate hrun
    fun d₁ a d₂ hsame hedit =>
      (exists_joinedTo_of_joinAll (hL.of_same hsame) h hanchored hshow hedit).1
  exact ⟨L', hL', h', houtline ▸ hjoined.redraw inside⟩

end DocumentM

end DocCite
