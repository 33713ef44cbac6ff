import DocCite.Proofs.Document.Overlapping

/-!
# What a report of overlaps names

A search for overlaps compares each range only with the one before it that reaches furthest. It
still invents no pair and names no element twice as the later one; and where any two ranges are in
each other's way, it names some pair (`findOverlaps_reports`). Labels can be equal, so the pairs are
told by the places of their elements.
-/

namespace DocCite.TextRange

variable {α β : Type} {touching : Bool}

/-- An overlap with other labels. -/
def Overlap.map (f : α → β) (o : Overlap α) : Overlap β := ⟨o.kind, f o.first, f o.second⟩

/-- The ranges of a list with their places as labels. -/
def placed (items : List (TextRange × α)) : List (TextRange × Fin items.length) :=
  (List.finRange items.length).map fun i => (items[i].1, i)

/-- **The kind of an overlap** is told by the ranges. -/
structure HasKind (touching : Bool) (a b : TextRange) (kind : OverlapKind) : Prop where
  equal_iff : kind = .equal ↔ a = b
  overlap_iff : kind = .overlap ↔ a ≠ b ∧ a.intersects b = true
  touch_iff : kind = .touch ↔
    touching = true ∧ b.start = a.stop ∧ a ≠ b ∧ a.intersects b = false

/-- **A pair that can be reported**: two elements of one flow, and how their ranges are in each
other's way. -/
structure Reportable (touching : Bool) (items : List (TextRange × α))
    (o : Overlap (Fin items.length)) : Prop where
  first_ne_second : o.first ≠ o.second
  flow_eq : items[o.first].1.flow = items[o.second].1.flow
  hasKind : HasKind touching items[o.first].1 items[o.second].1 o.kind

/-! ## Labels -/

/-- Labels have no part in a scan. -/
theorem overlapsFrom_map (f : α → β) (widest : Option (TextRange × α))
    (items : List (TextRange × α)) :
    overlapsFrom touching (widest.map (Prod.map id f)) (items.map (Prod.map id f)) =
      (overlapsFrom touching widest items).map (Overlap.map f) := by
  induction items generalizing widest with
  | nil => cases widest <;> rfl
  | cons item rest ih =>
    cases widest with
    | none => exact ih (some item)
    | some widest =>
      have hnext : (if widest.1.stop ≤ item.1.stop then Prod.map id f item
          else Prod.map id f widest) =
          Prod.map id f (if widest.1.stop ≤ item.1.stop then item else widest) :=
        (apply_ite (Prod.map id f) _ _ _).symm
      have hrest := ih (some (if widest.1.stop ≤ item.1.stop then item else widest))
      rw [Option.map_some] at hrest
      simp only [Option.map_some, List.map_cons, overlapsFrom, List.map_append, Prod.map_fst, id_eq,
        Prod.map_snd, hnext, hrest]
      cases overlapKind? touching widest.1 item.1 <;> rfl

/-- Labels have no part in a search. -/
theorem allOverlaps_map (f : α → β) (items : List (TextRange × α)) :
    allOverlaps (items.map (Prod.map id f)) touching =
      (allOverlaps items touching).map (Overlap.map f) := by
  have hflow (flow : Flow) :
      inFlow flow (items.map (Prod.map id f)) = (inFlow flow items).map (Prod.map id f) := by
    rw [inFlow, List.filter_map]
    exact (List.map_mergeSort (f := Prod.map id f) fun _ _ _ _ => rfl).symm
  rw [allOverlaps_eq_flatMap, allOverlaps_eq_flatMap, List.map_flatMap, List.map_map]
  refine congrArg (List.flatMap · _) (funext fun flow => ?_)
  rw [hflow]
  exact overlapsFrom_map f none _

theorem map_placed (items : List (TextRange × α)) :
    (placed items).map (Prod.map id fun i => items[i].2) = items := by
  rw [placed, List.map_map]
  exact List.map_getElem_finRange items

/-- A label is the place of the range. -/
theorem eq_of_mem_placed {items : List (TextRange × α)} {x : TextRange × Fin items.length}
    (h : x ∈ placed items) : x.1 = items[x.2].1 := by
  obtain ⟨i, -, rfl⟩ := List.mem_map.mp h
  rfl

theorem nodup_placed (items : List (TextRange × α)) : ((placed items).map Prod.snd).Nodup := by
  rw [placed, List.map_map]
  exact (List.map_id _).symm ▸ List.nodup_finRange items.length

/-! ## One scan -/

/-- In the order of a scan, what the ends tell about two ranges is what they are to each other. -/
theorem hasKind_of_overlapKind? {x y : TextRange × α} {kind : OverlapKind}
    (hflow : x.1.flow = y.1.flow) (hsorted : startsBefore x y = true)
    (h : overlapKind? touching x.1 y.1 = some kind) : HasKind touching x.1 y.1 kind := by
  have hx := x.1.start_le_stop
  have hy := y.1.start_le_stop
  have horder := startsBefore_iff.mp hsorted
  unfold overlapKind? at h
  split at h
  · next hends =>
    cases h
    have heq : x.1 = y.1 := eq_of_ends hflow hends.1 hends.2
    exact ⟨iff_of_true rfl heq, iff_of_false nofun fun h => h.1 heq,
      iff_of_false nofun fun h => h.2.2.1 heq⟩
  · next hends =>
    have hne : x.1 ≠ y.1 := fun heq => hends (by rw [heq]; exact ⟨rfl, rfl⟩)
    split at h
    · next hover =>
      cases h
      -- the first one starts before the other ends, since otherwise it would come behind it
      have hmeet : x.1.intersects y.1 = true := intersects_iff.mpr ⟨hflow, by omega, hover⟩
      exact ⟨iff_of_false nofun hne, iff_of_true rfl ⟨hne, hmeet⟩,
        iff_of_false nofun fun h => Bool.false_ne_true (h.2.2.2.symm.trans hmeet)⟩
    · next hover =>
      split at h
      · next htouch =>
        cases h
        have hapart : x.1.intersects y.1 = false :=
          Bool.eq_false_iff.mpr fun hmeet => hover (intersects_iff.mp hmeet).2.2
        exact ⟨iff_of_false nofun hne,
          iff_of_false nofun fun h => Bool.false_ne_true (hapart.symm.trans h.2),
          iff_of_true rfl ⟨htouch.2, htouch.1, hne, hapart⟩⟩
      · cases h

/-- **A scan invents nothing**: what it finds is about two of the items, one behind the other. -/
theorem exists_of_mem_overlapsFrom {widest : TextRange × α} {items : List (TextRange × α)}
    {o : Overlap α} (h : o ∈ overlapsFrom touching (some widest) items) :
    ∃ x y, [x, y].Sublist (widest :: items) ∧ overlapKind? touching x.1 y.1 = some o.kind ∧
      o.first = x.2 ∧ o.second = y.2 := by
  induction items generalizing widest with
  | nil => exact absurd h List.not_mem_nil
  | cons item rest ih =>
    rw [overlapsFrom] at h
    rcases List.mem_append.mp h with hnow | hlater
    · obtain ⟨kind, hkind, rfl⟩ := Option.map_eq_some_iff.mp (Option.mem_toList.mp hnow)
      exact ⟨widest, item, List.prefix_append [widest, item] rest |>.sublist, hkind, rfl, rfl⟩
    · obtain ⟨x, y, hsublist, hfound⟩ := ih hlater
      refine ⟨x, y, hsublist.trans ?_, hfound⟩
      split
      · exact List.sublist_cons_self widest _
      · exact (List.sublist_cons_self item rest).cons_cons widest

/-- **Each item is at most once the later one** of what a scan finds. -/
theorem sublist_second_overlapsFrom (widest : Option (TextRange × α))
    (items : List (TextRange × α)) :
    ((overlapsFrom touching widest items).map Overlap.second).Sublist (items.map Prod.snd) := by
  induction items generalizing widest with
  | nil => cases widest <;> exact List.Sublist.slnil
  | cons item rest ih =>
    cases widest with
    | none => exact (ih (some item)).cons item.2
    | some widest =>
      have hrest := ih (some (if widest.1.stop ≤ item.1.stop then item else widest))
      rw [overlapsFrom]
      cases overlapKind? touching widest.1 item.1 with
      | none => exact hrest.cons item.2
      | some kind => exact hrest.cons_cons item.2

/-! ## All scans -/

/-- What is found is found in one flow, in the order of its scan. -/
theorem exists_of_mem_allOverlaps {items : List (TextRange × α)} {o : Overlap α}
    (h : o ∈ allOverlaps items touching) :
    ∃ x y flow, [x, y].Sublist (inFlow flow items) ∧
      overlapKind? touching x.1 y.1 = some o.kind ∧ o.first = x.2 ∧ o.second = y.2 := by
  rw [allOverlaps_eq_flatMap] at h
  obtain ⟨flow, -, ho⟩ := List.mem_flatMap.mp h
  cases hsorted : inFlow flow items with
  | nil =>
    rw [hsorted] at ho
    exact absurd ho List.not_mem_nil
  | cons first rest =>
    rw [hsorted] at ho
    obtain ⟨x, y, hfound⟩ := exists_of_mem_overlapsFrom ho
    exact ⟨x, y, flow, hsorted ▸ hfound⟩

/-- **Every pair that is found can be reported.** -/
theorem reportable_of_mem {items : List (TextRange × α)} {o : Overlap (Fin items.length)}
    (h : o ∈ allOverlaps (placed items) touching) : Reportable touching items o := by
  obtain ⟨x, y, flow, hsublist, hkind, hfirst, hsecond⟩ := exists_of_mem_allOverlaps h
  obtain ⟨hxplaced, hxflow⟩ := mem_inFlow.mp (hsublist.subset List.mem_cons_self)
  obtain ⟨hyplaced, hyflow⟩ :=
    mem_inFlow.mp (hsublist.subset (List.mem_cons_of_mem _ List.mem_cons_self))
  have hflow : x.1.flow = y.1.flow := hxflow.trans hyflow.symm
  have hsorted : startsBefore x y = true :=
    List.pairwise_iff_forall_sublist.mp (pairwise_inFlow flow (placed items)) hsublist
  have hlabels : (inFlow flow (placed items)).Pairwise fun x y => x.2 ≠ y.2 := by
    rw [(inFlow_perm flow (placed items)).pairwise_iff Ne.symm]
    exact (List.pairwise_map.mp (nodup_placed items)).filter _
  have hne : x.2 ≠ y.2 := List.pairwise_iff_forall_sublist.mp hlabels hsublist
  have hhas := hasKind_of_overlapKind? hflow hsorted hkind
  obtain ⟨kind, first, second⟩ := o
  obtain rfl : first = x.2 := hfirst
  obtain rfl : second = y.2 := hsecond
  rw [eq_of_mem_placed hxplaced, eq_of_mem_placed hyplaced] at hflow hhas
  exact ⟨hne, hflow, hhas⟩

/-- **No element is reported twice as the later one.** -/
theorem nodup_second_allOverlaps (items : List (TextRange × α)) :
    ((allOverlaps (placed items) touching).map Overlap.second).Nodup := by
  have hseconds (flow : Flow) :
      ((overlapsFrom touching none (inFlow flow (placed items))).map Overlap.second).Sublist
        ((inFlow flow (placed items)).map Prod.snd) := sublist_second_overlapsFrom none _
  rw [allOverlaps_eq_flatMap, List.map_flatMap, List.nodup_flatMap]
  constructor
  · intro flow _
    refine List.Nodup.sublist (hseconds flow) ?_
    rw [((inFlow_perm flow (placed items)).map Prod.snd).nodup_iff]
    exact (nodup_placed items).sublist (List.filter_sublist.map Prod.snd)
  · refine (nodup_eraseDups _).imp fun {flow flow'} hne i hi hi' => hne ?_
    -- the place of a range tells its flow
    have hplace {flow : Flow} (hi : i ∈ (overlapsFrom touching none
        (inFlow flow (placed items))).map Overlap.second) : items[i].1.flow = flow := by
      obtain ⟨x, hx, rfl⟩ := List.mem_map.mp ((hseconds flow).subset hi)
      obtain ⟨hplaced, hflow⟩ := mem_inFlow.mp hx
      rw [← eq_of_mem_placed hplaced]
      exact hflow
    rw [← hplace hi, ← hplace hi']

/-- **What a report of overlaps names.** There are pairs of elements such that each report is the
first of them, as many as it may have. Each of them is two elements of one flow with the kind that
their ranges have; no element is the later one of two pairs; and there is no pair just when all
ranges are clear of each other. -/
theorem findOverlaps_reports (items : List (TextRange × α)) (touching : Bool) :
    ∃ pairs : List (Overlap (Fin items.length)),
      (∀ limit, findOverlaps items touching limit =
        (pairs.take limit).map (Overlap.map fun i => items[i].2)) ∧
      pairs.length ≤ items.length ∧
      (∀ o ∈ pairs, Reportable touching items o) ∧
      (pairs.map Overlap.second).Nodup ∧
      (pairs = [] ↔ items.Pairwise fun x y => ClearOf touching x.1 y.1) := by
  have hlabels : allOverlaps items touching =
      (allOverlaps (placed items) touching).map (Overlap.map fun i => items[i].2) := by
    rw [← allOverlaps_map, map_placed]
  have hnodup : ((allOverlaps (placed items) touching).map Overlap.second).Nodup :=
    nodup_second_allOverlaps items
  refine ⟨allOverlaps (placed items) touching, fun limit => ?_, ?_,
    fun o ho => reportable_of_mem ho, hnodup, ?_⟩
  · rw [findOverlaps_eq_take, hlabels, List.map_take]
  · have hcount := (List.subperm_of_subset hnodup fun i _ => List.mem_finRange i).length_le
    rwa [List.length_map, List.length_finRange] at hcount
  · rw [← allOverlaps_eq_nil_iff_clearOf, hlabels, List.map_eq_nil_iff]

end DocCite.TextRange
