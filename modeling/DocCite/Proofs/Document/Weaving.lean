import DocCite.Proofs.Document.TextOrder

/-!
# Weaving footnotes into a body

Items of several flows are read in one order: along the body, where at each anchor the items of the
footnote come in, and then flow by flow through what is not anchored. An item is here a citation or
a block of citations, with the text behind it. Each flow keeps its order in such a weave
(`filter_weave`), and what is told along it can be told place by place (`told_filter_place`).
-/

namespace DocCite

section Weave

variable {β γ : Type}

/-- What is noted at the anchors among letters. -/
def noted (m : Nat → List γ) (ls : List Letter) : List γ := (ls.filterMap Letter.footnote).flatMap m

/-- The items that are read along the body. -/
def weaveBody (items : Flow → List β) (after : β → List Letter) (lead : List Letter) :
    List (Flow × β) :=
  let notes := noted fun n => (items (.footnote n)).map (Flow.footnote n, ·)
  notes lead ++ (items .body).flatMap fun b => (.body, b) :: notes (after b)

/-- All items as they are read. -/
def weave (items : Flow → List β) (after : β → List Letter) (lead : List Letter)
    (loose : List Flow) : List (Flow × β) :=
  weaveBody items after lead ++ loose.flatMap fun flow => (items flow).map (flow, ·)

/-- The footnotes that are anchored in a body. -/
def anchoredIn (items : Flow → List β) (after : β → List Letter) (lead : List Letter) : List Nat :=
  (lead ++ (items .body).flatMap after).filterMap Letter.footnote

/-- Where a flow is read: in the body, or by itself if it is not anchored there. -/
def placeIn (anchored : List Nat) : Flow → Flow
  | .body => .body
  | .footnote n => if n ∈ anchored then .body else .footnote n

/-- **Items are woven** when no footnote is anchored twice, and the loose flows are those with items
that are not read in the body. -/
structure Woven (items : Flow → List β) (after : β → List Letter) (lead : List Letter)
    (loose : List Flow) : Prop where
  anchored_nodup : (anchoredIn items after lead).Nodup
  loose_nodup : loose.Nodup
  mem_loose_iff : ∀ flow, flow ∈ loose ↔
    flow ≠ .body ∧ placeIn (anchoredIn items after lead) flow = flow ∧ items flow ≠ []

variable {items : Flow → List β} {after : β → List Letter} {lead : List Letter}
  {loose : List Flow} {ls ls' : List Letter} {m : Nat → List γ}

@[simp] theorem noted_nil : noted m [] = [] := rfl

@[simp] theorem noted_append : noted m (ls ++ ls') = noted m ls ++ noted m ls' := by
  simp [noted]

theorem noted_eq_nil (h : ∀ l ∈ ls, l.footnote = none) : noted m ls = [] := by
  rw [noted, List.filterMap_eq_nil_iff.mpr h, List.flatMap_nil]

theorem noted_flatMap {δ : Type} (l : List δ) (f : δ → List Letter) :
    noted m (l.flatMap f) = l.flatMap fun x => noted m (f x) := by
  induction l with
  | nil => rfl
  | cons x l ih => simp [ih]

/-- Of different elements one is picked once, if it is there. -/
theorem flatMap_ite_eq {α : Type} [DecidableEq α] {l : List α} (h : l.Nodup) (a : α)
    (picked : List γ) :
    (l.flatMap fun b => if b = a then picked else []) = if a ∈ l then picked else [] := by
  induction l with
  | nil => rfl
  | cons b l ih =>
    obtain ⟨hnot, hl⟩ := List.nodup_cons.mp h
    rw [List.flatMap_cons, ih hl]
    by_cases hab : b = a
    · subst hab
      simp [hnot]
    · simp [hab, Ne.symm hab]

/-- The items of one flow among those of another. -/
theorem filter_tagged (f flow : Flow) :
    ((items f).map (f, ·)).filter (fun x => x.1 = flow) =
      if f = flow then (items flow).map (flow, ·) else [] := by
  split_ifs with h
  · subst h
    exact List.filter_eq_self.mpr fun x hx => by
      obtain ⟨b, -, rfl⟩ := List.mem_map.mp hx
      exact decide_eq_true rfl
  · refine List.filter_eq_nil_iff.mpr fun x hx => ?_
    obtain ⟨b, -, rfl⟩ := List.mem_map.mp hx
    simpa using h

/-- The items along the body are those of flows that are read there. -/
theorem placeIn_of_mem_weaveBody {x : Flow × β} (h : x ∈ weaveBody items after lead) :
    placeIn (anchoredIn items after lead) x.1 = .body := by
  have hnote {ls : List Letter} (hls : ∀ n ∈ ls.filterMap Letter.footnote,
      n ∈ anchoredIn items after lead)
      (hx : x ∈ noted (fun n => (items (.footnote n)).map (Flow.footnote n, ·)) ls) :
      placeIn (anchoredIn items after lead) x.1 = .body := by
    obtain ⟨n, hn, hx⟩ := List.mem_flatMap.mp hx
    obtain ⟨b, -, rfl⟩ := List.mem_map.mp hx
    exact if_pos (hls n hn)
  rcases List.mem_append.mp h with hlead | hrest
  · refine hnote (fun n hn => ?_) hlead
    rw [anchoredIn, List.filterMap_append]
    exact List.mem_append_left _ hn
  · obtain ⟨b, hb, hx⟩ := List.mem_flatMap.mp hrest
    rcases List.mem_cons.mp hx with rfl | hx
    · rfl
    · refine hnote (fun n hn => ?_) hx
      rw [anchoredIn, List.filterMap_append, List.filterMap_flatMap]
      exact List.mem_append_right _ (List.mem_flatMap.mpr ⟨b, hb, hn⟩)

/-- What is woven in of a footnote: its items, if it is anchored. -/
theorem filter_weaveBody (hanchored : (anchoredIn items after lead).Nodup) (n : Nat) :
    (weaveBody items after lead).filter (fun x => x.1 = .footnote n) =
      if n ∈ anchoredIn items after lead then (items (.footnote n)).map (Flow.footnote n, ·)
      else [] := by
  have hnoted (ls : List Letter) :
      (noted (fun n => (items (.footnote n)).map (Flow.footnote n, ·)) ls).filter
          (fun x => x.1 = .footnote n) =
        noted (fun k => if k = n then (items (.footnote n)).map (Flow.footnote n, ·) else []) ls := by
    rw [noted, List.filter_flatMap]
    refine List.flatMap_congr fun k _ => ?_
    rw [filter_tagged]
    simp
  rw [← flatMap_ite_eq hanchored n]
  change _ = noted _ (lead ++ (items .body).flatMap after)
  rw [weaveBody, List.filter_append, hnoted, noted_append, noted_flatMap, List.filter_flatMap]
  congr 1
  refine List.flatMap_congr fun b _ => ?_
  rw [List.filter_cons_of_neg (by simp), hnoted]

/-- **Every flow keeps its order in a weave.** -/
theorem Woven.filter_weave (h : Woven items after lead loose) (flow : Flow) :
    (weave items after lead loose).filter (fun x => x.1 = flow) =
      (items flow).map (flow, ·) := by
  have hloose : (loose.flatMap fun f => (items f).map (f, ·)).filter (fun x => x.1 = flow) =
      if flow ∈ loose then (items flow).map (flow, ·) else [] := by
    rw [List.filter_flatMap, ← flatMap_ite_eq h.loose_nodup]
    exact List.flatMap_congr fun f _ => filter_tagged f flow
  rw [weave, List.filter_append, hloose]
  cases flow with
  | body =>
    have hnot : Flow.body ∉ loose := fun hmem => ((h.mem_loose_iff .body).mp hmem).1 rfl
    have hnone (ls : List Letter) :
        (noted (fun n => (items (.footnote n)).map (Flow.footnote n, ·)) ls).filter
          (fun x => x.1 = .body) = [] := by
      rw [noted, List.filter_flatMap]
      refine List.flatMap_eq_nil_iff.mpr fun k _ => ?_
      rw [filter_tagged]
      simp
    rw [if_neg hnot, List.append_nil, weaveBody, List.filter_append, hnone, List.nil_append,
      List.filter_flatMap, ← List.flatMap_singleton' ((items .body).map _), List.flatMap_map]
    refine List.flatMap_congr fun b _ => ?_
    rw [List.filter_cons_of_pos (by simp), hnone]
  | footnote n =>
    rw [filter_weaveBody h.anchored_nodup]
    by_cases hn : n ∈ anchoredIn items after lead
    · have hnot : Flow.footnote n ∉ loose := by
        intro hmem
        have hplace := ((h.mem_loose_iff _).mp hmem).2.1
        rw [placeIn, if_pos hn] at hplace
        cases hplace
      rw [if_pos hn, if_neg hnot, List.append_nil]
    · rw [if_neg hn, List.nil_append]
      split_ifs with hmem
      · rfl
      · have hnil : items (.footnote n) = [] := by
          by_contra hne
          exact hmem ((h.mem_loose_iff _).mpr ⟨by simp, if_neg hn, hne⟩)
        rw [hnil, List.map_nil]

theorem Woven.mem_weave_iff (h : Woven items after lead loose) {x : Flow × β} :
    x ∈ weave items after lead loose ↔ x.2 ∈ items x.1 := by
  have hfilter : x ∈ (weave items after lead loose).filter (fun y => y.1 = x.1) ↔
      x ∈ weave items after lead loose := by
    rw [List.mem_filter, and_iff_left (decide_eq_true rfl)]
  rw [← hfilter, h.filter_weave, List.mem_map]
  constructor
  · rintro ⟨b, hb, heq⟩
    rwa [show x.2 = b from (congrArg Prod.snd heq).symm]
  · exact fun hx => ⟨x.2, hx, rfl⟩

/-- Neighbours with the same key are neighbours among all elements with that key. -/
theorem isChain_of_filter {α κ : Type} [DecidableEq κ] {l : List α} {key : α → κ}
    {R : α → α → Prop} (h : ∀ k, (l.filter fun a => key a = k).IsChain R) :
    l.IsChain fun a b => key a = key b → R a b := by
  rw [List.isChain_iff_forall_rel_of_append_cons_cons]
  rintro a b before behind rfl hkey
  have hfilter := h (key b)
  rw [List.filter_append, List.filter_cons_of_pos (by simpa using hkey),
    List.filter_cons_of_pos (by simp)] at hfilter
  exact List.isChain_iff_forall_rel_of_append_cons_cons.mp hfilter rfl

/-- **Neighbours in a weave that are in one flow are neighbours there.** -/
theorem Woven.isChain_weave (h : Woven items after lead loose) {R : Flow → β → β → Prop}
    (hR : ∀ flow, (items flow).IsChain (R flow)) :
    (weave items after lead loose).IsChain fun x y => x.1 = y.1 → R x.1 x.2 y.2 := by
  refine isChain_of_filter fun flow => ?_
  rw [h.filter_weave, List.isChain_map]
  exact hR flow

/-- Items that are different in each flow are different in a weave. -/
theorem Woven.nodup_weave (h : Woven items after lead loose) (hitems : ∀ flow, (items flow).Nodup) :
    (weave items after lead loose).Nodup := by
  refine List.pairwise_iff_forall_sublist.mpr fun {x y} hsub => ?_
  rintro rfl
  have hfilter := hsub.filter fun z => decide (z.1 = x.1)
  rw [h.filter_weave, List.filter_eq_self.mpr (by simp)] at hfilter
  have hnodup : ((items x.1).map (x.1, ·)).Nodup :=
    (hitems x.1).map fun _ _ heq => (Prod.mk.inj heq).2
  exact (List.nodup_cons.mp (hnodup.sublist hfilter)).1 List.mem_cons_self

/-! ## What is told along a weave -/

/-- What the items of a flow tell. -/
def toldIn (items : Flow → List β) (g : Flow × β → List γ) (flow : Flow) : List γ :=
  (items flow).flatMap fun b => g (flow, b)

/-- What is told along the body. -/
def toldBody (items : Flow → List β) (after : β → List Letter) (lead : List Letter)
    (g : Flow × β → List γ) : List γ :=
  let notes := noted fun n => toldIn items g (.footnote n)
  notes lead ++ (items .body).flatMap fun b => g (.body, b) ++ notes (after b)

theorem flatMap_weaveBody (g : Flow × β → List γ) :
    (weaveBody items after lead).flatMap g = toldBody items after lead g := by
  have hnotes (ls : List Letter) :
      (noted (fun n => (items (.footnote n)).map (Flow.footnote n, ·)) ls).flatMap g =
        noted (fun n => toldIn items g (.footnote n)) ls := by
    rw [noted, List.flatMap_assoc]
    exact List.flatMap_congr fun n _ => List.flatMap_map _ _ _
  rw [weaveBody, List.flatMap_append, hnotes, List.flatMap_assoc]
  refine congrArg _ (List.flatMap_congr fun b _ => ?_)
  rw [List.flatMap_cons, hnotes]

/-- **What is told at one place of a weave**: along the body, or in a flow that is read by itself. -/
theorem Woven.told_filter_place (h : Woven items after lead loose) (g : Flow × β → List γ)
    (place : Flow) :
    ((weave items after lead loose).filter fun x =>
        placeIn (anchoredIn items after lead) x.1 = place).flatMap g =
      if place = .body then toldBody items after lead g
      else if placeIn (anchoredIn items after lead) place = place then toldIn items g place
      else [] := by
  have hloose : ((loose.flatMap fun f => (items f).map (f, ·)).filter fun x =>
      placeIn (anchoredIn items after lead) x.1 = place) =
        if place ∈ loose then (items place).map (place, ·) else [] := by
    rw [List.filter_flatMap, ← flatMap_ite_eq h.loose_nodup]
    refine List.flatMap_congr fun f hf => ?_
    rw [← filter_tagged]
    refine List.filter_congr fun x hx => ?_
    obtain ⟨b, -, rfl⟩ := List.mem_map.mp hx
    rw [((h.mem_loose_iff f).mp hf).2.1]
  rw [weave, List.filter_append, hloose]
  by_cases hbody : place = .body
  · subst hbody
    have hnot : Flow.body ∉ loose := fun hmem => ((h.mem_loose_iff .body).mp hmem).1 rfl
    rw [if_neg hnot, if_pos rfl, List.append_nil, ← flatMap_weaveBody]
    refine congrArg (List.flatMap g) (List.filter_eq_self.mpr fun x hx => ?_)
    exact decide_eq_true (placeIn_of_mem_weaveBody hx)
  · have hnone : (weaveBody items after lead).filter
        (fun x => placeIn (anchoredIn items after lead) x.1 = place) = [] := by
      refine List.filter_eq_nil_iff.mpr fun x hx => ?_
      rw [placeIn_of_mem_weaveBody hx]
      simpa using Ne.symm hbody
    rw [hnone, List.nil_append, if_neg hbody]
    by_cases hself : placeIn (anchoredIn items after lead) place = place
    · rw [if_pos hself]
      split_ifs with hmem
      · exact List.flatMap_map _ _ _
      · have hnil : items place = [] := by
          by_contra hne
          exact hmem ((h.mem_loose_iff _).mpr ⟨hbody, hself, hne⟩)
        rw [toldIn, hnil]
        rfl
    · rw [if_neg hself, if_neg fun hmem => hself ((h.mem_loose_iff _).mp hmem).2.1,
        List.flatMap_nil]

end Weave

end DocCite
