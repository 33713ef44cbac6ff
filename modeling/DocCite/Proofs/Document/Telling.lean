import DocCite.Proofs.Document.CitationsRead

/-!
# Documents that tell the same

What the citations of a document tell, read in order, follows from its outlines. When two documents
have outlines that tell the same along each flow, with whatever is noted at the anchors on the way,
they tell the same at every place (`Alike.flatMap_readAt`). Of several footnotes without an anchor
it is open which is read first; if at most one of them has citations, everything is told in the same
order (`Alike.flatMap_eq`).
-/

namespace DocCite

/-- At most one of the footnotes without an anchor has citations. -/
def Document.AtMostOneLoose (d : Document) : Prop :=
  ∀ m ∈ d.marks, ∀ m' ∈ d.marks,
    MarkedText.isCitation m.1 = true → MarkedText.isCitation m'.1 = true →
      d.readingPlace m.2.flow ≠ .body → d.readingPlace m'.2.flow ≠ .body → m.2.flow = m'.2.flow

namespace Outline

open Passage

variable {γ : Type} {g : CitationGroup → Flow → List γ} {O O' : Flow → Outline}
  {loose loose' : List Flow}

/-- What passages of a flow tell, with what is noted at the anchors behind them. -/
def tells (g : CitationGroup → Flow → List γ) (flow : Flow) (m : Nat → List γ)
    (ps : List Passage) : List γ :=
  ps.flatMap fun p => g p.group flow ++ noted m p.after

/-- **Outlines tell alike**, flow by flow, and anchor the same footnotes. -/
structure Alike (g : CitationGroup → Flow → List γ) (O O' : Flow → Outline) : Prop where
  lead : (O' .body).lead = (O .body).lead
  tells : ∀ flow m, tells g flow m (O' flow).passages = tells g flow m (O flow).passages
  anchored : anchored O' = anchored O

theorem toldIn_eq_tells (flow : Flow) :
    toldIn (fun flow => (O flow).passages) (fun x => g x.2.group x.1) flow =
      tells g flow (fun _ => []) (O flow).passages := by
  refine List.flatMap_congr fun p _ => ?_
  simp [noted]

theorem toldBody_eq_tells :
    toldBody (fun flow => (O flow).passages) Passage.after (O .body).lead
        (fun x => g x.2.group x.1) =
      noted (fun n => tells g (.footnote n) (fun _ => []) (O (.footnote n)).passages)
          (O .body).lead ++
        tells g .body (fun n => tells g (.footnote n) (fun _ => []) (O (.footnote n)).passages)
          (O .body).passages := by
  simp only [toldBody, toldIn_eq_tells]
  rfl

/-- Outlines that tell alike tell the same in the body. -/
theorem Alike.toldBody_eq (h : Alike g O O') :
    toldBody (fun flow => (O' flow).passages) Passage.after (O' .body).lead
        (fun x => g x.2.group x.1) =
      toldBody (fun flow => (O flow).passages) Passage.after (O .body).lead
        fun x => g x.2.group x.1 := by
  rw [toldBody_eq_tells, toldBody_eq_tells, h.lead]
  simp only [h.tells]

theorem Alike.toldIn_eq (h : Alike g O O') (flow : Flow) :
    toldIn (fun flow => (O' flow).passages) (fun x => g x.2.group x.1) flow =
      toldIn (fun flow => (O flow).passages) (fun x => g x.2.group x.1) flow := by
  rw [toldIn_eq_tells, toldIn_eq_tells, h.tells]

theorem flatMap_reading :
    (reading O loose).flatMap (fun x => g x.2.group x.1) =
      toldBody (fun flow => (O flow).passages) Passage.after (O .body).lead
          (fun x => g x.2.group x.1) ++
        loose.flatMap (toldIn (fun flow => (O flow).passages) fun x => g x.2.group x.1) := by
  rw [reading, weave, List.flatMap_append, flatMap_weaveBody, List.flatMap_assoc]
  refine congrArg _ (List.flatMap_congr fun flow _ => ?_)
  exact List.flatMap_map _ _ _

/-- What a flow tells that is not among the loose ones, but could be, is nothing. -/
theorem ReadsLoose.toldIn_eq_nil (h : ReadsLoose O loose) {flow : Flow} (hbody : flow ≠ .body)
    (hself : placeIn (Outline.anchored O) flow = flow) (hnot : flow ∉ loose) :
    toldIn (fun flow => (O flow).passages) (fun x => g x.2.group x.1) flow = [] := by
  have hnil : (O flow).passages = [] := by
    by_contra hne
    exact hnot ((h.mem_loose_iff flow).mpr ⟨hbody, hself, hne⟩)
  rw [toldIn, hnil]
  rfl

/-- **Outlines that tell alike are read alike**, if at most one loose flow has citations. -/
theorem Alike.flatMap_reading_eq (h : Alike g O O') (hloose : ReadsLoose O loose)
    (hloose' : ReadsLoose O' loose') (hone : ∀ f ∈ loose, ∀ f' ∈ loose, f = f') :
    (reading O' loose').flatMap (fun x => g x.2.group x.1) =
      (reading O loose).flatMap fun x => g x.2.group x.1 := by
  have hplace (f : Flow) : placeIn (Outline.anchored O') f = placeIn (Outline.anchored O) f := by
    rw [h.anchored]
  have hout {f : Flow} (hf : f ∈ loose') (hnot : f ∉ loose) :
      toldIn (fun flow => (O flow).passages) (fun x => g x.2.group x.1) f = [] := by
    obtain ⟨hbody, hself, -⟩ := (hloose'.mem_loose_iff f).mp hf
    exact hloose.toldIn_eq_nil hbody ((hplace f).symm.trans hself) hnot
  rw [flatMap_reading, flatMap_reading, h.toldBody_eq]
  refine congrArg _ ?_
  simp only [funext h.toldIn_eq]
  cases loose with
  | nil => exact List.flatMap_eq_nil_iff.mpr fun f hf => hout hf List.not_mem_nil
  | cons f rest =>
    have hrest : rest = [] := by
      refine List.eq_nil_iff_forall_not_mem.mpr fun f' hf' => ?_
      have hsame : f = f' := hone f List.mem_cons_self f' (List.mem_cons_of_mem _ hf')
      exact (List.nodup_cons.mp hloose.loose_nodup).1 (hsame ▸ hf')
    subst hrest
    have hpick : ∀ f' ∈ loose',
        toldIn (fun flow => (O flow).passages) (fun x => g x.2.group x.1) f' =
          if f' = f then toldIn (fun flow => (O flow).passages) (fun x => g x.2.group x.1) f
          else [] := by
      intro f' hf'
      split_ifs with hsame
      · rw [hsame]
      · exact hout hf' (by simpa using hsame)
    rw [List.flatMap_congr hpick, flatMap_ite_eq hloose'.loose_nodup, List.flatMap_singleton]
    split_ifs with hmem
    · rfl
    · obtain ⟨hbody, hself, -⟩ := (hloose.mem_loose_iff f).mp List.mem_cons_self
      rw [← h.toldIn_eq]
      exact (hloose'.toldIn_eq_nil hbody ((hplace f).trans hself) hmem).symm

end Outline

/-! ## Documents -/

namespace Arrangement

open Outline Passage

variable {γ : Type} {g : CitationGroup → Flow → List γ} {L L' : Arrangement}
  {O O' : Flow → Outline} {d d' : Document} {loose loose' : List Flow}

/-- The citations of a document, in the order of a weave. -/
def located (d : Document) (O : Flow → Outline) (loose : List Flow) :
    List (CitationGroup × TextRange) :=
  (reading O loose).map fun x => (x.2.group, d.rangeOf x.2.group.id)

/-- The citations of a document are those of the passages, in their flows. -/
theorem Follows.mem_located_iff (h : L.Follows O) (hL : L.Describes d) (hloose : ReadsLoose O loose)
    {c : CitationGroup × TextRange} :
    c ∈ located d O loose ↔
      ∃ p ∈ (O c.2.flow).passages, c = (p.group, d.rangeOf p.group.id) := by
  rw [located, List.mem_map]
  constructor
  · rintro ⟨x, hx, rfl⟩
    have hp : x.2 ∈ (O x.1).passages := hloose.mem_weave_iff.mp hx
    rw [← (h.rangeOf_mem hL hp).2] at hp
    exact ⟨x.2, hp, rfl⟩
  · rintro ⟨p, hp, hc⟩
    exact ⟨(c.2.flow, p), hloose.mem_weave_iff.mpr hp, hc.symm⟩

/-- What citations tell in the flows of their ranges is what their passages tell. -/
theorem Follows.flatMap_located (h : L.Follows O) (hL : L.Describes d)
    (hloose : ReadsLoose O loose) (p : Flow → Bool) :
    ((located d O loose).filter fun c => p c.2.flow).flatMap (fun c => g c.1 c.2.flow) =
      ((reading O loose).filter fun x => p x.1).flatMap fun x => g x.2.group x.1 := by
  have hflow {x : Flow × Passage} (hx : x ∈ reading O loose) :
      (d.rangeOf x.2.group.id).flow = x.1 :=
    (h.rangeOf_mem hL (hloose.mem_weave_iff.mp hx)).2
  have hfilter : (reading O loose).filter (fun x => p (d.rangeOf x.2.group.id).flow) =
      (reading O loose).filter fun x => p x.1 :=
    List.filter_congr fun x hx => by rw [hflow hx]
  rw [located, List.filter_map, List.flatMap_map]
  change List.flatMap _ ((reading O loose).filter fun x => p (d.rangeOf x.2.group.id).flow) = _
  rw [hfilter]
  exact List.flatMap_congr fun x hx => by rw [hflow (List.mem_of_mem_filter hx)]

/-- **Documents that tell alike tell the same at every place.** -/
theorem flatMap_readAt_eq (hL : L.Describes d) (h : L.Follows O) (hloose : ReadsLoose O loose)
    (hL' : L'.Describes d') (h' : L'.Follows O') (hloose' : ReadsLoose O' loose')
    (halike : Alike g O O') (place : Flow) :
    (d'.readAt place (located d' O' loose')).flatMap (fun c => g c.1 c.2.flow) =
      (d.readAt place (located d O loose)).flatMap fun c => g c.1 c.2.flow := by
  have hplace : d.readingPlace = placeIn (anchored O) :=
    funext (h.readingPlace_eq hL hloose.anchored_nodup)
  have hplace' : d'.readingPlace = placeIn (anchored O) := by
    rw [← halike.anchored]
    exact funext (h'.readingPlace_eq hL' hloose'.anchored_nodup)
  have htold := hloose.told_filter_place (fun x => g x.2.group x.1) place
  have htold' := hloose'.told_filter_place (fun x => g x.2.group x.1) place
  rw [show anchoredIn (fun flow => (O' flow).passages) Passage.after (O' .body).lead =
    anchored O from halike.anchored, halike.toldBody_eq, halike.toldIn_eq] at htold'
  rw [Document.readAt, Document.readAt, hplace, hplace',
    h.flatMap_located hL hloose fun flow => decide (placeIn (anchored O) flow = place),
    h'.flatMap_located hL' hloose' fun flow => decide (placeIn (anchored O) flow = place)]
  exact htold'.trans htold.symm

/-- **Documents that tell alike tell the same in order**, where that is certain. -/
theorem flatMap_located_eq (hL : L.Describes d) (h : L.Follows O) (hloose : ReadsLoose O loose)
    (hL' : L'.Describes d') (h' : L'.Follows O') (hloose' : ReadsLoose O' loose')
    (halike : Alike g O O') (hone : d.AtMostOneLoose) :
    (located d' O' loose').flatMap (fun c => g c.1 c.2.flow) =
      (located d O loose).flatMap fun c => g c.1 c.2.flow := by
  have hall (l : List (CitationGroup × TextRange)) : l.filter (fun _ => true) = l :=
    List.filter_eq_self.mpr fun _ _ => rfl
  have hall' (l : List (Flow × Passage)) : l.filter (fun _ => true) = l :=
    List.filter_eq_self.mpr fun _ _ => rfl
  have hmark {f : Flow} (hf : f ∈ loose) : ∃ m ∈ d.marks, MarkedText.isCitation m.1 = true ∧
      d.readingPlace m.2.flow ≠ .body ∧ m.2.flow = f := by
    obtain ⟨hbody, hself, hne⟩ := (hloose.mem_loose_iff f).mp hf
    obtain ⟨p, hp⟩ := List.exists_mem_of_ne_nil _ hne
    obtain ⟨hget, hflow⟩ := h.rangeOf_mem hL hp
    refine ⟨_, (Keyed.get?_eq_some_iff hL.wellFormed.marks_nodup).mp hget,
      (id_of_group? (h.group_eq f p hp)).2, ?_, hflow⟩
    rw [hflow, h.readingPlace_eq hL hloose.anchored_nodup]
    exact hself.symm ▸ hbody
  have hsame : ∀ f ∈ loose, ∀ f' ∈ loose, f = f' := by
    intro f hf f' hf'
    obtain ⟨m, hm, hname, hplace, rfl⟩ := hmark hf
    obtain ⟨m', hm', hname', hplace', rfl⟩ := hmark hf'
    exact hone m hm m' hm' hname hname' hplace hplace'
  have hread := h.flatMap_located (g := g) hL hloose fun _ => true
  have hread' := h'.flatMap_located (g := g) hL' hloose' fun _ => true
  rw [hall, hall'] at hread hread'
  rw [hread, hread']
  exact halike.flatMap_reading_eq hloose hloose' hsame

end Arrangement

end DocCite
