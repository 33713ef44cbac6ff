import DocCite.Proofs.Document.Joining
import Mathlib.Data.Set.List

/-!
# Separating citations

Separating puts the parts of a citation in its place, one for each of its keys, and leaves citations
of one key as they are (`SplitTo`). The parts tell the same keys, each with the kind of the citation
(`SplitTo.alike`), and as nothing but a space is between them, what is anchored stays.
-/

namespace DocCite

namespace Passage

variable {p : Passage} {kind : CitationKind} {pageInfo : Option String} {after : List Letter}
  {keys : List String} {parts : List Passage}

/-- There are as many parts as keys. -/
theorem ArePartsOf.length_eq (h : ArePartsOf kind pageInfo after keys parts) :
    parts.length = keys.length := by
  have hlength := congrArg List.length h.keys
  rwa [List.length_map, List.length_map] at hlength

theorem ArePartsOf.afterRun_eq (h : ArePartsOf kind pageInfo after keys parts) :
    afterRun parts = after := by
  obtain ⟨last, hlast, -, hafter⟩ := h.last
  rw [afterRun, hlast]
  exact hafter

theorem ArePartsOf.after_getLast (h : ArePartsOf kind pageInfo after keys parts) :
    (parts.getLast h.ne_nil).after = after := by
  obtain ⟨last, hlast, -, hafter⟩ := h.last
  rw [List.getLast?_eq_some_getLast h.ne_nil, Option.some.injEq] at hlast
  rw [hlast, hafter]

/-- A part has one key. -/
theorem ArePartsOf.length_keys (h : ArePartsOf kind pageInfo after keys parts) {q : Passage}
    (hq : q ∈ parts) : q.group.keys.length = 1 := by
  have hmem := List.mem_map_of_mem (f := fun q => q.group.keys) hq
  rw [h.keys] at hmem
  obtain ⟨key, -, hkey⟩ := List.mem_map.mp hmem
  exact hkey ▸ rfl

/-- What is in the marks of parts does not matter. -/
theorem ArePartsOf.redraw (h : ArePartsOf kind pageInfo after keys parts)
    (inside : Passage → List Char) :
    ArePartsOf kind pageInfo after keys (parts.map fun q => { q with inside := inside q }) where
  keys := by rw [List.map_map]; exact h.keys
  kind := List.forall_mem_map.mpr h.kind
  between := by rw [← List.map_dropLast]; exact List.forall_mem_map.mpr h.between
  last := by
    obtain ⟨last, hlast, hends⟩ := h.last
    refine ⟨{ last with inside := inside last }, ?_, hends⟩
    rw [List.getLast?_map, hlast]
    rfl

/-- **Parts tell what the citation does**, if a part tells it of its key. -/
theorem ArePartsOf.flatMap_eq {γ : Type} (h : ArePartsOf kind pageInfo after keys parts)
    {g : CitationGroup → List γ} {told : String → List γ}
    (hg : ∀ q ∈ parts, ∀ key, q.group.keys = [key] → g q.group = told key) (m : Nat → List γ) :
    (parts.flatMap fun q => g q.group ++ noted m q.after) = keys.flatMap told ++ noted m after := by
  have hkeys := h.keys
  have hbetween : ∀ q ∈ parts.dropLast, noted m q.after = [] := fun q hq => by
    rw [(h.between q hq).2]
    rfl
  obtain ⟨last, hlast, -, hafter⟩ := h.last
  clear h
  induction parts generalizing keys with
  | nil => cases hlast
  | cons q parts ih =>
    cases keys with
    | nil => cases hkeys
    | cons key keys =>
      obtain ⟨hkey, hrest⟩ := List.cons.inj hkeys
      obtain ⟨hfirst, hothers⟩ := List.forall_mem_cons.mp hg
      rw [List.flatMap_cons, List.flatMap_cons, hfirst key hkey]
      cases parts with
      | nil =>
        rw [List.getLast?_singleton, Option.some.injEq] at hlast
        rw [List.map_eq_nil_iff.mp hrest.symm, hlast, hafter]
        simp
      | cons q' parts =>
        rw [List.dropLast_cons_of_ne_nil (List.cons_ne_nil _ _)] at hbetween
        obtain ⟨hnone, hbetween⟩ := List.forall_mem_cons.mp hbetween
        rw [hnone, List.append_nil, ih hothers hrest hbetween hlast, List.append_assoc]

theorem IsSplitOf.redraw (h : IsSplitOf p parts) (inside : Passage → List Char) :
    IsSplitOf p (parts.map fun q => { q with inside := inside q }) where
  toArePartsOf := h.toArePartsOf.redraw inside
  alone hone := by rw [List.map_map]; exact h.alone hone

/-- A citation of one key is its only part. -/
theorem isSplitOf_singleton (hone : p.group.keys.length = 1) : IsSplitOf p [p] where
  keys := by
    obtain ⟨key, hkey⟩ := List.length_eq_one_iff.mp hone
    rw [hkey, List.map_singleton, List.map_singleton, hkey]
  kind := fun q hq => by rw [List.mem_singleton.mp hq]
  between := fun q hq => absurd hq List.not_mem_nil
  last := ⟨p, rfl, rfl, rfl⟩
  alone := fun _ => rfl

end Passage

namespace Outline

open Passage

variable {O O' : Flow → Outline}

/-- **Outlines are separated into others**: in every flow the parts of each citation are in its
place. -/
structure SplitTo (O O' : Flow → Outline) : Prop where
  lead : ∀ flow, (O' flow).lead = (O flow).lead
  passages : ∀ flow, ∃ parts, List.Forall₂ IsSplitOf (O flow).passages parts ∧
    (O' flow).passages = parts.flatten

theorem SplitTo.redraw (h : SplitTo O O') (inside : Passage → List Char) :
    SplitTo O fun flow => (O' flow).redraw inside where
  lead := h.lead
  passages flow := by
    obtain ⟨parts, hparts, hflatten⟩ := h.passages flow
    refine ⟨parts.map (List.map fun q => { q with inside := inside q }),
      List.forall₂_map_right_iff.mpr (hparts.imp fun _ _ hsplit => hsplit.redraw inside), ?_⟩
    rw [Outline.redraw, hflatten, List.map_flatten]

/-- Every citation is part of one that was there before. -/
theorem SplitTo.exists_of_mem (h : SplitTo O O') {flow : Flow} {q : Passage}
    (hq : q ∈ (O' flow).passages) :
    ∃ p ∈ (O flow).passages, ∃ parts, IsSplitOf p parts ∧ q ∈ parts := by
  obtain ⟨parts, hparts, hflatten⟩ := h.passages flow
  rw [hflatten] at hq
  obtain ⟨part, hpart, hq⟩ := List.mem_flatten.mp hq
  obtain ⟨p, hp, hsplit⟩ := (exists_of_forall₂_of_mem hparts).2 part hpart
  exact ⟨p, hp, part, hsplit, hq⟩

/-- A citation of one key stays as it is. -/
theorem SplitTo.exists_of_one_key (h : SplitTo O O') {flow : Flow} {p : Passage}
    (hp : p ∈ (O flow).passages) (hone : p.group.keys.length = 1) :
    ∃ q ∈ (O' flow).passages, q.group = p.group := by
  obtain ⟨parts, hparts, hflatten⟩ := h.passages flow
  obtain ⟨part, hpart, hsplit⟩ := (exists_of_forall₂_of_mem hparts).1 p hp
  have hmem : p.group ∈ part.map Passage.group := by
    rw [hsplit.alone hone]
    exact List.mem_singleton_self _
  obtain ⟨q, hq, hgroup⟩ := List.mem_map.mp hmem
  exact ⟨q, hflatten ▸ List.mem_flatten.mpr ⟨part, hpart, hq⟩, hgroup⟩

theorem SplitTo.showAnchors (h : SplitTo O O') (hshow : ∀ flow, ShowAnchors (O flow).passages)
    (flow : Flow) : ShowAnchors (O' flow).passages := by
  intro q hq l hl hanchor
  obtain ⟨p, hp, parts, hsplit, hq⟩ := h.exists_of_mem hq
  obtain ⟨last, hlast, -, hafter⟩ := hsplit.last
  obtain ⟨init, rfl⟩ := List.getLast?_eq_some_iff.mp hlast
  rcases List.mem_append.mp hq with hinit | hmem
  · rw [(hsplit.between q (by simpa using hinit)).2] at hl
    rw [List.mem_singleton.mp hl] at hanchor
    exact absurd rfl hanchor
  · rw [List.mem_singleton.mp hmem, hafter] at hl
    exact hshow flow p hp l hl hanchor

/-- What separated passages tell, if the parts of a citation tell it of its keys. -/
theorem SplitTo.tells_eq {γ : Type} (h : SplitTo O O') {g : CitationGroup → Flow → List γ}
    (told : CitationKind → Flow → String → List γ)
    (hg : ∀ c flow, g c flow = c.keys.flatMap (told c.kind flow)) (flow : Flow) (m : Nat → List γ) :
    tells g flow m (O' flow).passages = tells g flow m (O flow).passages := by
  obtain ⟨parts, hparts, hflatten⟩ := h.passages flow
  rw [tells, tells, hflatten, List.flatten_eq_flatMap, List.flatMap_assoc]
  refine (flatMap_eq_of_forall₂ (fun p part hsplit => ?_) hparts).symm
  have hpart : ∀ q ∈ part, ∀ key, q.group.keys = [key] →
      g q.group flow = told p.group.kind flow key := by
    intro q hq key hkey
    rw [hg, hkey, hsplit.kind q hq, List.flatMap_singleton]
  rw [hg, id_eq, hsplit.flatMap_eq (g := fun c => g c flow) hpart]

/-- **Separated outlines tell the same keys**, each with its kind. -/
theorem SplitTo.alike (h : SplitTo O O') :
    Alike (fun g _ => g.keys.map fun key => (key, g.kind)) O O' where
  lead := h.lead .body
  tells := h.tells_eq (fun kind _ key => [(key, kind)]) fun c _ => by
    rw [List.map_eq_flatMap]
  anchored := by
    rw [anchored_eq_tells, anchored_eq_tells, h.lead, h.tells_eq fun _ _ _ => []]
    intro c _
    simp

end Outline

/-! ## Separating all citations -/

namespace DocumentM

open Arrangement Outline Passage

variable {L : Arrangement} {O : Flow → Outline} {d d' : Document} {preferences : Preferences}

/-- Separates the citation of a passage, which is the only one of its block. -/
def splitBlock : List Passage → DocumentM Unit
  | [] => return
  | p :: _ => splitGroup p.group

/-- **The citations of passages are separated** one after another. -/
theorem rearranges_splitPassages (hL : L.Describes d) (h : L.Follows O)
    {todo : List (Flow × Passage)} (htodo : todo.Nodup)
    (hmem : ∀ x ∈ todo, x.2 ∈ (O x.1).passages) (hseveral : ∀ x ∈ todo, x.2.group.keys.length ≠ 1)
    (hothers : ∀ flow, ∀ p ∈ (O flow).passages, (flow, p) ∉ todo → p.group.keys.length = 1) :
    Rearranges L (todo.forM fun x => splitGroup x.2.group)
      fun _ L' => ∃ O', SplitTo O O' ∧ L'.Follows O' := by
  have hinjective : Function.Injective fun p : Passage => [p] := fun _ _ heq => (List.cons.inj heq).1
  have hblock : Function.Injective fun x : Flow × Passage => (x.1, [x.2]) := fun x y heq => by
    obtain ⟨hflow, hp⟩ := Prod.mk.inj heq
    exact Prod.ext hflow (hinjective hp)
  have hall : L.Follows (exchanged (fun flow => (O flow).lead)
      (fun flow => (O flow).passages.map ([·])) Prod.snd) := by
    refine cast (congrArg _ (funext fun flow => ?_)) h
    rw [exchanged, List.flatMap_map, List.flatMap_singleton']
  have hloop : (todo.forM fun x => splitGroup x.2.group) =
      (todo.map fun x => (x.1, [x.2])).forM fun x => splitBlock x.2 :=
    (forM_map todo (fun x => (x.1, [x.2])) fun x => splitBlock x.2).symm
  rw [hloop]
  refine (rearranges_exchanges (R := fun block parts => ∃ p, block = [p] ∧ IsSplitOf p parts)
    (fun flow => (h.nodup_passages hL flow).map hinjective) splitBlock (htodo.map hblock) ?_ ?_
    (fun _ _ => rfl) hall).weaken ?_
  · intro x hx
    obtain ⟨y, hy, rfl⟩ := List.mem_map.mp hx
    exact List.mem_map_of_mem (hmem y hy)
  · intro x hx L O before behind hO hpassages
    obtain ⟨y, hy, rfl⟩ := List.mem_map.mp hx
    refine (rearranges_splitGroup hO hpassages (hseveral y hy)).weaken ?_
    rintro - L' ⟨parts, hsplit, hL'⟩
    exact ⟨parts, ⟨y.2, rfl, hsplit⟩, hL'⟩
  · rintro - L' ⟨σ, hdone, hkept, hL'⟩
    refine ⟨exchanged (fun flow => (O flow).lead) (fun flow => (O flow).passages.map ([·])) σ,
      ⟨fun _ => rfl, fun flow => ⟨(O flow).passages.map fun p => σ (flow, [p]), ?_, ?_⟩⟩, hL'⟩
    · rw [List.forall₂_map_right_iff, List.forall₂_same]
      intro p hp
      by_cases hin : (flow, p) ∈ todo
      · obtain ⟨p', heq, hsplit⟩ := hdone (flow, [p]) (List.mem_map_of_mem hin)
        rwa [← hinjective heq] at hsplit
      · rw [hkept (flow, [p]) fun hx => hin ((List.mem_map_of_injective hblock).mp hx)]
        exact isSplitOf_singleton (hothers flow p hp hin)
    · rw [exchanged, List.flatMap_map, List.flatMap_def]

/-- **Separating all citations** separates the outlines of a document. -/
theorem exists_splitTo_of_splitAll (hL : L.Describes d) (h : L.Follows O) {separated : Bool}
    (hrun : (splitAll preferences).run d = (.ok separated, d')) :
    ∃ (L' : Arrangement) (O' : Flow → Outline), L'.Describes d' ∧ L'.Follows O' ∧ SplitTo O O' := by
  obtain ⟨⟨gs, ranges⟩, d₁, hload, hrun⟩ := run_bind_eq_ok_iff.mp hrun
  obtain ⟨hloaded, hsame⟩ := loaded_of_loadApart hL.wellFormed hload
  obtain ⟨u, d₂, hlocked, hpure⟩ := run_bind_eq_ok_iff.mp hrun
  cases hpure
  -- every group with several keys is that of a passage
  have hranges : gs.groups.filter (fun g => 1 < g.citations.length) ∈
      Set.range (List.map fun x : { x : Flow × Passage // x.2 ∈ (O x.1).passages } =>
        x.1.2.group) := by
    rw [Set.range_list_map]
    intro g hg
    obtain ⟨x, hx, hgroup⟩ := (hloaded.mem_groups_iff hL h).mp (List.mem_of_mem_filter hg)
    exact ⟨⟨x, hx⟩, hgroup⟩
  obtain ⟨several, hseveral⟩ := hranges
  have hmap : several.map (fun x => x.1.2.group) =
      (several.map Subtype.val).map fun x => x.2.group := by
    rw [List.map_map]
    rfl
  rw [hmap] at hseveral
  have hnodup : (several.map Subtype.val).Nodup := by
    refine List.Nodup.of_map (fun x => x.2.group) ?_
    rw [hseveral]
    refine (List.Nodup.of_map CitationGroup.id ?_).filter _
    rw [hloaded.groups_eq, CitationGroups.map_id_named]
    exact hL.wellFormed.marks_nodup.filter _
  have hlength (g : CitationGroup) : g.keys.length = g.citations.length := List.length_map _
  simp only [← hseveral] at hlocked
  rw [forM_map] at hlocked
  have hsplit := rearranges_splitPassages hL h hnodup (fun x hx => ?_) (fun x hx => ?_)
    fun flow p hp hnot => ?_
  · obtain ⟨L', ⟨O', hO', hL'⟩, hd'⟩ :=
      Rearranges.of_ok (Rearranges.withLockedScreen hsplit) (hL.of_same hsame) hlocked
    exact ⟨L', O', hd', hL', hO'⟩
  · obtain ⟨y, -, rfl⟩ := List.mem_map.mp hx
    exact y.2
  · have hmem := List.mem_map_of_mem (f := fun x => x.2.group) hx
    rw [hseveral] at hmem
    have hlong : 1 < x.2.group.citations.length := by simpa using (List.mem_filter.mp hmem).2
    rw [hlength]
    exact (Nat.ne_of_lt hlong).symm
  · by_contra hlong
    have hpos := List.length_pos_iff.mpr (isWritable_of_group? (h.group_eq flow p hp)).2.1
    have hmem : p.group ∈ gs.groups.filter fun g => 1 < g.citations.length := by
      refine List.mem_filter.mpr ⟨(hloaded.mem_groups_iff hL h).mpr ⟨(flow, p), hp, rfl⟩, ?_⟩
      rw [decide_eq_true_eq, ← hlength]
      omega
    rw [← hseveral] at hmem
    obtain ⟨x, hx, hgroup⟩ := List.mem_map.mp hmem
    obtain ⟨y, -, rfl⟩ := List.mem_map.mp hx
    obtain ⟨hflow, hp'⟩ := h.distinct hL y.1.1 flow y.1.2 y.2 p hp (congrArg _ hgroup)
    exact hnot ((show y.1 = (flow, p) from Prod.ext hflow hp') ▸ hx)

/-- **Separating the citations of a document** separates its outlines, whatever is written into the
marks afterwards. -/
theorem exists_splitTo_of_split {databases : List Database} {style : Style}
    {unresolved : List String} (hL : L.Describes d) (h : L.Follows O)
    (hrun : (split preferences databases style).run d = (.ok unresolved, d')) :
    ∃ L' : Arrangement, L'.Describes d' ∧ L'.Follows d'.outline ∧ SplitTo O d'.outline := by
  obtain ⟨L', O', inside, hsplit, hL', h', houtline⟩ := exists_redrawn_of_mutate hrun
    fun d₁ a d₂ hsame hedit => exists_splitTo_of_splitAll (hL.of_same hsame) h hedit
  exact ⟨L', hL', h', houtline ▸ hsplit.redraw inside⟩

end DocumentM

end DocCite
