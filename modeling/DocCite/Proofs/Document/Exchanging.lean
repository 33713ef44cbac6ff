import DocCite.Proofs.Document.Outline

/-!
# Exchanging passages

Joining puts one citation in the place of a run of passages, and separating puts several in the
place of one. Either way the passages around stay as they are, in their flow and in all others
(`Follows.put`), and so the exchanges that a loop makes add up (`rearranges_exchanges`).
-/

namespace DocCite

namespace Outline

/-- Outlines with other passages in one flow. -/
def put (O : Flow → Outline) (flow : Flow) (ps : List Passage) : Flow → Outline :=
  Function.update O flow ⟨(O flow).lead, ps⟩

variable {O : Flow → Outline} {flow flow' : Flow} {ps : List Passage}

@[simp] theorem passages_put : (put O flow ps flow).passages = ps := by
  rw [put, Function.update_self]

@[simp] theorem lead_put : (put O flow ps flow').lead = (O flow').lead := by
  unfold put Function.update
  split
  · next h =>
    subst h
    rfl
  · rfl

theorem put_of_ne (h : flow' ≠ flow) : put O flow ps flow' = O flow' :=
  Function.update_of_ne h _ _

/-- The name of a citation is that of no other one. -/
def Distinct (O : Flow → Outline) : Prop :=
  ∀ flow flow', ∀ p ∈ (O flow).passages, ∀ p' ∈ (O flow').passages,
    p.group.id = p'.group.id → flow = flow' ∧ p = p'

end Outline

namespace Arrangement

open Passage Outline

variable {L L' : Arrangement} {O : Flow → Outline} {flow : Flow}

/-- No name is there twice. -/
theorem Describes.nodup_names {d : Document} (h : L.Describes d) (flow : Flow) :
    (Piece.names (L.pieces flow)).Nodup := by
  rw [← Piece.map_fst_marksFrom flow 0]
  exact h.nodup flow

/-- A name is in one flow only. -/
theorem Describes.flow_eq_of_mem {d : Document} (h : L.Describes d) {name : String}
    {flow flow' : Flow} (hmem : name ∈ Piece.names (L.pieces flow))
    (hmem' : name ∈ Piece.names (L.pieces flow')) : flow = flow' := by
  rw [← Piece.map_fst_marksFrom flow 0] at hmem
  rw [← Piece.map_fst_marksFrom flow' 0] at hmem'
  obtain ⟨m, hm, rfl⟩ := List.mem_map.mp hmem
  obtain ⟨m', hm', heq⟩ := List.mem_map.mp hmem'
  have hget := h.get?_of_mem hm
  rw [← heq, h.get?_of_mem hm', Option.some.injEq] at hget
  rw [← (Piece.bounds_of_mem_marksFrom hm).1, ← hget, (Piece.bounds_of_mem_marksFrom hm').1]

theorem Follows.mem_names_iff (h : L.Follows O) {name : String} {flow : Flow} :
    name ∈ Piece.names (L.pieces flow) ↔ ∃ p ∈ (O flow).passages, p.group.id = name := by
  rw [h.pieces_eq, Outline.pieces]
  simp

/-- The citations of a document have different names. -/
theorem Follows.distinct (h : L.Follows O) {d : Document} (hL : L.Describes d) : Distinct O := by
  intro flow flow' p hp p' hp' hid
  have hflow : flow = flow' := hL.flow_eq_of_mem (h.mem_names_iff.mpr ⟨p, hp, rfl⟩)
    (h.mem_names_iff.mpr ⟨p', hp', hid.symm⟩)
  subst hflow
  refine ⟨rfl, ?_⟩
  have hnodup := hL.nodup_names flow
  rw [h.pieces_eq, Outline.pieces, Piece.names_append, Piece.names_map_letter, List.nil_append,
    names_allPieces] at hnodup
  exact List.inj_on_of_nodup_map hnodup hp hp' hid

/-- Nor is a citation there twice. -/
theorem Follows.nodup_passages (h : L.Follows O) {d : Document} (hL : L.Describes d)
    (flow : Flow) : (O flow).passages.Nodup := by
  have hnodup := hL.nodup_names flow
  rw [h.pieces_eq, Outline.pieces, Piece.names_append, Piece.names_map_letter, List.nil_append,
    names_allPieces] at hnodup
  exact hnodup.of_map

/-- The text around a block of passages. Before the block it ends open. -/
theorem Follows.exists_around (h : L.Follows O) {before block behind : List Passage}
    (hpassages : (O flow).passages = before ++ block ++ behind) (hne : block ≠ []) :
    ∃ A, A = Outline.pieces ⟨(O flow).lead, before⟩ ∧ Piece.EndsOpen A ∧
      L.pieces flow = A ++ allPieces block ++ allPieces behind := by
  refine ⟨_, rfl, ?_, ?_⟩
  · obtain ⟨p, rest, rfl⟩ := List.exists_cons_of_ne_nil hne
    have hspaced := h.spaced flow
    rw [hpassages, List.append_assoc] at hspaced
    exact endsOpen_of_spaced hspaced
  · rw [h.pieces_eq, Outline.pieces, Outline.pieces, hpassages]
    simp

/-- What is named freely after some passages were taken out is named as one of those, if as any. -/
theorem Follows.mem_block_of_free (h : L.Follows O) {before block behind : List Passage}
    (hpassages : (O flow).passages = before ++ block ++ behind) {ps : List Piece}
    (hpieces : L'.pieces = (L.set flow ps).pieces)
    (hkept : ∀ p ∈ before ++ behind, p.group.id ∈ Piece.names ps) {name : String}
    (hfree : ∀ flow', name ∉ Piece.names (L'.pieces flow')) {flow' : Flow} {p : Passage}
    (hp : p ∈ (O flow').passages) (hname : name = p.group.id) : flow' = flow ∧ p ∈ block := by
  have hnot := hfree flow'
  rw [hpieces] at hnot
  by_cases hflow : flow' = flow
  · subst hflow
    refine ⟨rfl, ?_⟩
    rw [pieces_set] at hnot
    by_contra hout
    rw [hpassages, List.mem_append, List.mem_append] at hp
    refine hnot (hname ▸ hkept p (List.mem_append.mpr ?_))
    tauto
  · rw [pieces_set_of_ne hflow] at hnot
    exact absurd (h.mem_names_iff.mpr ⟨p, hp, hname.symm⟩) hnot

/-- **Passages are exchanged** for others: the ones around stay, as nothing is stored under their
names. -/
theorem Follows.put (h : L.Follows O) {d : Document} (hL : L.Describes d)
    {before block block' behind : List Passage}
    (hpassages : (O flow).passages = before ++ block ++ behind)
    (hpieces : L'.pieces = (L.set flow (Outline.pieces ⟨(O flow).lead,
      before ++ block' ++ behind⟩)).pieces)
    (hproperty : ∀ name, (∀ p ∈ block ++ block', p.group.id ≠ name) →
      L'.property name = L.property name)
    (hfresh : ∀ q ∈ block', ∀ flow', ∀ p ∈ (O flow').passages, q.group.id = p.group.id →
      flow' = flow ∧ p ∈ block)
    (hgroup : ∀ q ∈ block', L'.group? q.group.id = some q.group)
    (hspaced : Spaced (before ++ block' ++ behind)) :
    L'.Follows (Outline.put O flow (before ++ block' ++ behind)) := by
  have hnodup := h.nodup_passages hL flow
  rw [hpassages] at hnodup
  have hkept (flow' : Flow) (p : Passage) (hp : p ∈ (O flow').passages)
      (hout : flow' = flow → p ∉ block) : L'.group? p.group.id = some p.group := by
    rw [← h.group_eq flow' p hp, group?, group?, hproperty]
    intro q hq hid
    rcases List.mem_append.mp hq with hold | hnew
    · have hmem : q ∈ (O flow).passages := by
        rw [hpassages]
        exact List.mem_append_left _ (List.mem_append_right _ hold)
      obtain ⟨hflow, rfl⟩ := h.distinct hL flow flow' q hmem p hp hid
      exact hout hflow.symm hold
    · obtain ⟨hflow, hin⟩ := hfresh q hnew flow' p hp hid
      exact hout hflow hin
  constructor
  case pieces_eq =>
    intro flow'
    rw [hpieces]
    by_cases hflow : flow' = flow
    · subst hflow
      rw [pieces_set, Outline.put, Function.update_self]
    · rw [pieces_set_of_ne hflow, put_of_ne hflow, h.pieces_eq]
  case group_eq =>
    intro flow' p hp
    by_cases hflow : flow' = flow
    · subst hflow
      rw [passages_put] at hp
      rcases List.mem_append.mp hp with hp | hbehind
      · rcases List.mem_append.mp hp with hbefore | hnew
        · refine hkept flow' p ?_ fun _ hin => ?_
          · rw [hpassages]
            exact List.mem_append_left _ (List.mem_append_left _ hbefore)
          · exact (List.nodup_append.mp (List.nodup_append.mp hnodup).1).2.2 p hbefore p hin rfl
        · exact hgroup p hnew
      · refine hkept flow' p ?_ fun _ hin => ?_
        · rw [hpassages]
          exact List.mem_append_right _ hbehind
        · exact (List.nodup_append.mp hnodup).2.2 p (List.mem_append_right _ hin) p hbehind rfl
    · rw [put_of_ne hflow] at hp
      exact hkept flow' p hp fun hsame => absurd hsame hflow
  case spaced =>
    intro flow'
    by_cases hflow : flow' = flow
    · subst hflow
      rw [passages_put]
      exact hspaced
    · rw [put_of_ne hflow]
      exact h.spaced flow'

/-- **Passages are exchanged for new ones**, under names that are free when the old ones are out. -/
theorem Follows.exchange (h : L.Follows O) {d : Document} (hL : L.Describes d)
    {before block block' behind : List Passage}
    (hpassages : (O flow).passages = before ++ block ++ behind) (between : List Letter)
    {emptied : Arrangement}
    (hemptied : emptied.pieces = (L.set flow (Outline.pieces ⟨(O flow).lead, before⟩ ++
      (between.map .letter ++ allPieces behind))).pieces)
    (hfree : ∀ q ∈ block', ∀ flow', q.group.id ∉ Piece.names (emptied.pieces flow'))
    (hpieces : L'.pieces = (L.set flow (Outline.pieces ⟨(O flow).lead,
      before ++ block' ++ behind⟩)).pieces)
    (hproperty : ∀ name, (∀ p ∈ block ++ block', p.group.id ≠ name) →
      L'.property name = L.property name)
    (hgroup : ∀ q ∈ block', L'.group? q.group.id = some q.group)
    (hspaced : Spaced (before ++ block' ++ behind)) :
    L'.Follows (Outline.put O flow (before ++ block' ++ behind)) := by
  refine h.put hL hpassages hpieces hproperty (fun q hq flow' p hp hid => ?_) hgroup hspaced
  refine h.mem_block_of_free hpassages hemptied (fun p hp => ?_) (hfree q hq) hp hid
  rw [Outline.pieces]
  simp only [Piece.names_append, Piece.names_map_letter, names_allPieces, List.nil_append,
    List.mem_append]
  exact (List.mem_append.mp hp).imp List.mem_map_of_mem List.mem_map_of_mem

end Arrangement

/-! ## Joining a run -/

namespace Passage

/-- The different page infos of passages, in the order of the text. -/
def pageInfos (run : List Passage) : List String :=
  (run.filterMap fun p => p.group.pageInfo).eraseDups

/-- **A citation is the join of a run**: in brackets, with the keys of all, with their different
page infos, and with the text behind the last one. A run of one citation is left as it is. -/
structure IsJoinOf (run : List Passage) (q : Passage) : Prop where
  after : run.getLast?.map Passage.after = some q.after
  alone : run.length = 1 → run.map Passage.group = [q.group]
  kind : run.length ≠ 1 → q.group.kind = .parenthetical
  keys : q.group.keys = run.flatMap fun p => p.group.keys
  pageInfo : run.length ≠ 1 → q.group.pageInfo =
    if pageInfos run = [] then none else some ("; ".intercalate (pageInfos run))

theorem joinedPageInfo_map_group (run : List Passage) :
    DocumentM.joinedPageInfo (run.map Passage.group) =
      if pageInfos run = [] then none else some ("; ".intercalate (pageInfos run)) := by
  have hinfos : (run.filterMap (CitationGroup.pageInfo ∘ Passage.group)).eraseDups =
      pageInfos run := rfl
  rw [DocumentM.joinedPageInfo, List.filterMap_map, hinfos]
  cases pageInfos run <;> rfl

/-- The citation that is created in the place of a run of several is their join. -/
theorem isJoinOf_new {init : List Passage} {last : Passage} (hinit : init ≠ [])
    (hinfo : ∀ p ∈ init ++ [last], normalizePageInfo p.group.pageInfo = p.group.pageInfo)
    (name : String) (inside : List Char) :
    IsJoinOf (init ++ [last])
      { group := .new name .parenthetical
          (((init ++ [last]).map Passage.group).flatMap CitationGroup.keys)
          (DocumentM.joinedPageInfo ((init ++ [last]).map Passage.group))
        inside := inside
        after := last.after } := by
  have hseveral : (init ++ [last]).length ≠ 1 := by
    simpa using hinit
  constructor
  case after => simp
  case alone => exact fun hone => absurd hone hseveral
  case kind => exact fun _ => rfl
  case keys => rw [CitationGroup.keys_new, List.flatMap_map]
  case pageInfo =>
    intro _
    rw [← joinedPageInfo_map_group, CitationGroup.pageInfo_new]
    refine DocumentM.normalizePageInfo_joinedPageInfo fun g hg => ?_
    obtain ⟨p, hp, rfl⟩ := List.mem_map.mp hg
    exact hinfo p hp

end Passage

namespace Arrangement

theorem isWritable_of_group? {L : Arrangement} {name : String} {g : CitationGroup}
    (h : L.group? name = some g) :
    (∀ key ∈ g.keys, MarkName.IsWritable key) ∧ g.keys ≠ [] ∧
      normalizePageInfo g.pageInfo = g.pageInfo := by
  obtain ⟨n, hn, rfl⟩ := Option.map_eq_some_iff.mp h
  rw [CitationGroup.keys_new]
  exact ⟨(MarkName.isWritable_of_parse? hn).2, (MarkName.isWritable_of_parse? hn).1,
    normalizePageInfo_normalizePageInfo _⟩

/-- What a name tells and what is stored under it make the group of the name. -/
theorem group?_eq_some {L : Arrangement} {name : String} {serial : Option Nat}
    {kind : CitationKind} {keys : List String} {pageInfo : Option String}
    (hparse : MarkName.parse? name = some ⟨serial, kind, keys⟩)
    (hstored : L.property name = normalizePageInfo pageInfo) :
    L.group? name = some (.new name kind keys pageInfo) := by
  rw [group?, hparse, Option.map_some, hstored, CitationGroup.new, CitationGroup.new,
    normalizePageInfo_normalizePageInfo]

/-- The keys of passages can be written into names. -/
theorem Follows.isWritable_keys {L : Arrangement} {O : Flow → Outline} (h : L.Follows O)
    {flow : Flow} {run : List Passage} (hrun : ∀ p ∈ run, p ∈ (O flow).passages) :
    ∀ key ∈ (run.map Passage.group).flatMap CitationGroup.keys, MarkName.IsWritable key := by
  intro key hkey
  obtain ⟨g, hg, hkey⟩ := List.mem_flatMap.mp hkey
  obtain ⟨p, hp, rfl⟩ := List.mem_map.mp hg
  exact (isWritable_of_group? (h.group_eq flow p (hrun p hp))).1 key hkey

end Arrangement

namespace DocumentM

open Passage Piece

variable {L : Arrangement} {O : Flow → Outline} {flow : Flow} {A B : List Piece}

/-- The marks of passages are removed; their text stays. -/
theorem rearranges_removeGroups {run : List Passage}
    (hpieces : L.pieces flow = A ++ allPieces run ++ B) :
    Rearranges L ((run.map Passage.group).forM fun g => removeGroup g.id) fun _ L' =>
      L'.pieces = (L.set flow (A ++ (run.flatMap Passage.letters).map letter ++ B)).pieces ∧
        ∀ name, (∀ p ∈ run, p.group.id ≠ name) → L'.property name = L.property name := by
  induction run generalizing L A with
  | nil =>
    refine .pure ⟨?_, fun _ _ => rfl⟩
    rw [List.flatMap_nil, List.map_nil, ← allPieces_nil, ← hpieces, Arrangement.set_pieces]
  | cons p run ih =>
    have hfirst : L.pieces flow =
        A ++ mark p.group.id p.inside :: (p.after.map letter ++ allPieces run ++ B) := by
      rw [hpieces]
      simp
    refine (rearranges_removeGroup hfirst).bind ?_
    rintro - _ rfl
    refine (ih (A := A ++ p.letters.map letter) ?_).weaken ?_
    · simp [Passage.letters, typed]
    · rintro - L' ⟨hsame, hproperty⟩
      constructor
      · rw [hsame]
        simp [Arrangement.set]
      · intro name hname
        rw [hproperty name fun q hq => hname q (List.mem_cons_of_mem _ hq)]
        exact Function.update_of_ne (hname p List.mem_cons_self).symm _ _

/-- The last group of a run is that of its last passage. -/
theorem getLastD_groups {init : List Passage} {first last : Passage} {rest : List Passage}
    (hrun : init ++ [last] = first :: rest) :
    (rest.map Passage.group).getLastD first.group = last.group := by
  have hget := congrArg (fun run => (run.map Passage.group).getLast?) hrun
  simp only [List.map_append, List.map_cons, List.map_nil, List.getLast?_concat,
    List.getLast?_cons, Option.some.injEq] at hget
  rw [List.getLastD_eq_getLast?, ← hget]

/-- **A run of passages is joined** into one. -/
theorem rearranges_joinRun (h : L.Follows O) {before init behind : List Passage}
    {first last : Passage} {rest : List Passage} (hrun : init ++ [last] = first :: rest)
    (hinit : init ≠ [])
    (hpassages : (O flow).passages = before ++ (init ++ [last]) ++ behind) :
    Rearranges L (joinRun first.group (rest.map Passage.group)) fun _ L' =>
      ∃ q, IsJoinOf (init ++ [last]) q ∧
        L'.Follows (Outline.put O flow (before ++ [q] ++ behind)) := by
  refine .of_described fun d hL => ?_
  obtain ⟨A, hA, hopen, hpieces⟩ := h.exists_around hpassages (List.concat_ne_nil _ _)
  have hgroups : (init ++ [last]).map Passage.group = first.group :: rest.map Passage.group := by
    rw [hrun, List.map_cons]
  have hmem {p : Passage} (hp : p ∈ init ++ [last]) : p ∈ (O flow).passages := by
    rw [hpassages]
    exact List.mem_append_left _ (List.mem_append_right _ hp)
  have hfirst : L.pieces flow = A ++ mark first.group.id first.inside ::
      (first.after.map letter ++ allPieces rest ++ allPieces behind) := by
    rw [hpieces, hrun]
    simp
  have hlast : L.pieces flow = (A ++ allPieces init) ++ mark last.group.id last.inside ::
      (last.after.map letter ++ allPieces behind) := by
    rw [hpieces]
    simp
  unfold joinRun
  -- the range of the run
  refine (rearranges_groupRange hfirst).bind ?_
  rintro _ L ⟨rfl, rfl⟩
  rw [getLastD_groups hrun]
  refine (rearranges_groupRange hlast).bind ?_
  rintro _ L ⟨rfl, rfl⟩
  refine Rearranges.bind (Q := fun span L' => span = .new flow (width A)
    (width A + ((init.flatMap Passage.letters).length + last.inside.length)) ∧ L' = L)
    (.liftExcept fun span hspan => ?_) ?_
  · simp only [TextRange.through, TextRange.sameFlow, TextRange.flow_new, beq_self_eq_true,
      if_true, Except.ok.injEq] at hspan
    refine ⟨?_, rfl⟩
    rw [← hspan]
    simp [Nat.add_assoc]
  rintro _ L ⟨rfl, rfl⟩
  -- without the run
  rw [← hgroups]
  refine (rearranges_removeGroups hpieces).bind ?_
  rintro - L₁ ⟨hpieces₁, hproperty₁⟩
  have htext : L₁.pieces flow = A ++
      ((init.flatMap Passage.letters ++ plain last.inside).map letter) ++
        (last.after.map letter ++ allPieces behind) := by
    rw [hpieces₁]
    simp [Passage.letters]
  refine (rearranges_replace (r := .new flow (width A) (width A +
    ((init.flatMap Passage.letters).length + last.inside.length))) "" htext ?_ ?_
    (Or.inl rfl)).bind ?_
  · simp
  · simp
  rintro - _ ⟨-, rfl⟩
  -- the join in its place
  refine (rearranges_createGroup (A := A) (B := last.after.map letter ++ allPieces behind)
    (h.isWritable_keys fun p => hmem) _ _ ?_ ?_ hopen false).bind ?_
  · simp [TextRange.startPoint]
  · simp [TextRange.startPoint]
  rintro - _ ⟨name, ⟨serial, hparse⟩, hfree, -, rfl⟩
  have hinfo : ∀ p ∈ init ++ [last], normalizePageInfo p.group.pageInfo = p.group.pageInfo :=
    fun p hp => (Arrangement.isWritable_of_group? (h.group_eq flow p (hmem hp))).2.2
  refine .pure ⟨_, isJoinOf_new hinit hinfo name placeholders.toList,
    h.exchange hL hpassages last.after ?_ (List.forall_mem_singleton.mpr hfree) ?_
      (fun name' hname' => ?_) (List.forall_mem_singleton.mpr ?_) ?_⟩
  · simp [Arrangement.set, hpieces₁, hA]
  · simp [Arrangement.set, hpieces₁, hA, Outline.pieces, TextRange.startPoint]
  · obtain ⟨hold, hnew⟩ := List.forall_mem_append.mp hname'
    refine (Function.update_of_ne (hnew _ (List.mem_singleton_self _)).symm _ _).trans ?_
    exact hproperty₁ name' hold
  · exact Arrangement.group?_eq_some hparse (Function.update_self _ _ _)
  · have hspaced := h.spaced flow
    rw [hpassages] at hspaced
    have hone (q : Passage) : Spaced ([] ++ [q]) := List.isChain_singleton q
    exact hspaced.exchange (hone _) rfl

end DocumentM

/-! ## Separating a passage -/

namespace Passage

/-- **Passages are the parts of a citation** of some keys: one for each key, with a space behind
each but the last one, which has the page info and the text behind the citation. -/
structure ArePartsOf (kind : CitationKind) (pageInfo : Option String) (after : List Letter)
    (keys : List String) (parts : List Passage) : Prop where
  keys : parts.map (fun q => q.group.keys) = keys.map fun key => [key]
  kind : ∀ q ∈ parts, q.group.kind = kind
  between : ∀ q ∈ parts.dropLast, q.group.pageInfo = none ∧ q.after = Piece.plain [' ']
  last : ∃ q, parts.getLast? = some q ∧ q.group.pageInfo = pageInfo ∧ q.after = after

variable {kind : CitationKind} {pageInfo : Option String} {after : List Letter}
  {keys : List String} {parts : List Passage}

theorem ArePartsOf.ne_nil (h : ArePartsOf kind pageInfo after keys parts) : parts ≠ [] := by
  rintro rfl
  obtain ⟨q, hq, -⟩ := h.last
  cases hq

theorem ArePartsOf.cons (h : ArePartsOf kind pageInfo after keys parts) {q : Passage} {key : String}
    (hkeys : q.group.keys = [key]) (hkind : q.group.kind = kind)
    (hpageInfo : q.group.pageInfo = none) (hafter : q.after = Piece.plain [' ']) :
    ArePartsOf kind pageInfo after (key :: keys) (q :: parts) where
  keys := by rw [List.map_cons, List.map_cons, hkeys, h.keys]
  kind := List.forall_mem_cons.mpr ⟨hkind, h.kind⟩
  between := by
    rw [List.dropLast_cons_of_ne_nil h.ne_nil]
    exact List.forall_mem_cons.mpr ⟨⟨hpageInfo, hafter⟩, h.between⟩
  last := by
    obtain ⟨last, hlast, hends⟩ := h.last
    exact ⟨last, by rw [List.getLast?_cons, hlast]; rfl, hends⟩

theorem ArePartsOf.spaced (h : ArePartsOf kind pageInfo after keys parts) : Spaced parts := by
  have hbetween : ∀ q ∈ parts.dropLast, q.after ≠ [] := fun q hq => by
    rw [(h.between q hq).2]
    exact List.cons_ne_nil _ _
  clear h
  induction parts with
  | nil => exact List.IsChain.nil
  | cons q parts ih =>
    cases parts with
    | nil => exact List.isChain_singleton _
    | cons q' parts =>
      rw [List.dropLast_cons_of_ne_nil (List.cons_ne_nil _ _)] at hbetween
      obtain ⟨hq, hrest⟩ := List.forall_mem_cons.mp hbetween
      exact List.isChain_cons_cons.mpr ⟨hq, ih hrest⟩

/-- **Passages are what a citation is separated into**: its parts, or the citation as it is if it
has one key. -/
structure IsSplitOf (p : Passage) (parts : List Passage) : Prop extends
    ArePartsOf p.group.kind p.group.pageInfo p.after p.group.keys parts where
  alone : p.group.keys.length = 1 → parts.map Passage.group = [p.group]

end Passage

namespace DocumentM

open Passage Piece

variable {L : Arrangement} {O : Flow → Outline} {flow : Flow} {A B : List Piece}

/-- **Parts are created** one after another, each under a name of its own. -/
theorem rearranges_splitInto {keys : List String} (hne : keys ≠ [])
    (hkeys : ∀ key ∈ keys, MarkName.IsWritable key) (kind : CitationKind)
    (pageInfo : Option String) {place : TextRange} (hflow : place.flow = flow)
    {after : List Letter} (hpieces : L.pieces flow = A ++ (after.map letter ++ B))
    (hstart : place.start = width A) (hopen : EndsOpen A) :
    Rearranges L (splitInto kind pageInfo place keys) fun _ L' => ∃ parts,
      ArePartsOf kind (normalizePageInfo pageInfo) after keys parts ∧
        L'.pieces = (L.set flow (A ++ allPieces parts ++ B)).pieces ∧
        (∀ q ∈ parts, L'.group? q.group.id = some q.group ∧
          ∀ flow', q.group.id ∉ names (L.pieces flow')) ∧
        ∀ name, (∀ q ∈ parts, q.group.id ≠ name) → L'.property name = L.property name := by
  subst hflow
  induction keys generalizing L A place with
  | nil => exact absurd rfl hne
  | cons key keys ih =>
    have hkey : ∀ k ∈ [key], MarkName.IsWritable k := fun k hk =>
      hkeys k (List.mem_singleton.mp hk ▸ List.mem_cons_self)
    cases keys with
    | nil =>
      unfold splitInto
      refine (rearranges_createGroup hkey pageInfo kind hpieces hstart hopen false).bind ?_
      rintro - _ ⟨name, ⟨serial, hparse⟩, hfree, -, rfl⟩
      refine .pure ⟨[⟨.new name kind [key] pageInfo, placeholders.toList, after⟩], ?_, ?_, ?_, ?_⟩
      · exact ⟨by simp, by simp, by simp, _, rfl, rfl, rfl⟩
      · simp
      · intro q hq
        rw [List.mem_singleton.mp hq]
        exact ⟨Arrangement.group?_eq_some hparse (Function.update_self _ _ _), hfree⟩
      · intro name' hname'
        exact Function.update_of_ne (hname' _ List.mem_cons_self).symm _ _
    | cons key' rest =>
      unfold splitInto
      refine (rearranges_createGroup hkey none kind hpieces hstart hopen true).bind ?_
      rintro _ _ ⟨name, ⟨serial, hparse⟩, hfree, rfl, rfl⟩
      have hspace : EndsOpen (A ++ mark name placeholders.toList :: typed [' ']) := by
        have hopen : EndsOpen (A ++ [mark name placeholders.toList] ++ [letter ⟨' ', none⟩]) :=
          endsOpen_append_letter _
        simpa [typed, plain] using hopen
      refine (ih (A := A ++ mark name placeholders.toList :: typed [' ']) (List.cons_ne_nil _ _)
        (fun k hk => hkeys k (List.mem_cons_of_mem _ hk)) ?_ hspace ?_).weaken ?_
      · simp [String.length_toList, Nat.add_assoc]
      · simp
      rintro - L' ⟨parts, hparts, hpieces', hgroups, hproperty⟩
      have hnot : ∀ q ∈ parts, q.group.id ≠ name := by
        intro q hq hid
        refine (hgroups q hq).2 place.flow ?_
        simp [hid]
      refine ⟨⟨.new name kind [key] none, placeholders.toList, plain [' ']⟩ :: parts,
        hparts.cons (CitationGroup.keys_new) rfl rfl rfl, ?_, ?_, ?_⟩
      · rw [hpieces']
        simp [Arrangement.set, typed]
      · refine List.forall_mem_cons.mpr ⟨⟨?_, hfree⟩, fun q hq => ⟨(hgroups q hq).1, ?_⟩⟩
        · exact Arrangement.group?_eq_some hparse
            ((hproperty name hnot).trans (Function.update_self _ _ _))
        · intro flow' hmem
          refine (hgroups q hq).2 flow' ?_
          by_cases hflow : flow' = place.flow
          · subst hflow
            rw [hpieces] at hmem
            simp at hmem ⊢
            tauto
          · simpa [Arrangement.pieces_set_of_ne hflow] using hmem
      · intro name' hname'
        obtain ⟨hfirst, hrest⟩ := List.forall_mem_cons.mp hname'
        rw [hproperty name' hrest]
        exact Function.update_of_ne (Ne.symm hfirst) _ _

/-- **A passage is separated** into its parts. -/
theorem rearranges_splitGroup (h : L.Follows O) {before behind : List Passage} {p : Passage}
    (hpassages : (O flow).passages = before ++ [p] ++ behind) (hseveral : p.group.keys.length ≠ 1) :
    Rearranges L (splitGroup p.group) fun _ L' => ∃ parts, IsSplitOf p parts ∧
      L'.Follows (Outline.put O flow (before ++ parts ++ behind)) := by
  refine .of_described fun d hL => ?_
  obtain ⟨A, hA, hopen, hpieces⟩ := h.exists_around hpassages (List.cons_ne_nil _ _)
  have hmem : p ∈ (O flow).passages := by
    rw [hpassages]
    simp
  obtain ⟨hkeys, hne, hinfo⟩ := Arrangement.isWritable_of_group? (h.group_eq flow p hmem)
  have hmark : L.pieces flow =
      A ++ mark p.group.id p.inside :: (p.after.map letter ++ allPieces behind) := by
    rw [hpieces]
    simp
  unfold splitGroup
  refine (rearranges_groupRange hmark).bind ?_
  rintro _ L ⟨rfl, rfl⟩
  refine (rearranges_removeGroup hmark).bind ?_
  rintro - _ rfl
  refine (rearranges_replace (r := .new flow (width A) (width A + p.inside.length)) (A := A)
    (X := plain p.inside) (B := p.after.map letter ++ allPieces behind) "" ?_ ?_ ?_
    (Or.inl rfl)).bind ?_
  · simp [typed]
  · simp
  · simp
  rintro - _ ⟨-, rfl⟩
  refine (rearranges_splitInto hne hkeys p.group.kind p.group.pageInfo rfl
    (show Arrangement.pieces _ flow = A ++ (p.after.map letter ++ allPieces behind) by simp)
    ?_ hopen).weaken ?_
  · simp [TextRange.startPoint]
  rintro - L' ⟨parts, hparts, hpieces', hgroups, hproperty⟩
  rw [hinfo] at hparts
  refine ⟨parts, ⟨hparts, fun hone => absurd hone hseveral⟩,
    h.exchange hL hpassages p.after ?_ (fun q hq => (hgroups q hq).2) ?_
      (fun name hname => ?_) (fun q hq => (hgroups q hq).1) ?_⟩
  · simp [Arrangement.set, hA]
  · rw [hpieces']
    simp [Arrangement.set, hA, Outline.pieces, TextRange.startPoint]
  · obtain ⟨hold, hnew⟩ := List.forall_mem_append.mp hname
    rw [hproperty name hnew]
    exact Function.update_of_ne (hold p (List.mem_singleton_self _)).symm _ _
  · obtain ⟨last, hlast, -, hafter⟩ := hparts.last
    obtain ⟨init, rfl⟩ := List.getLast?_eq_some_iff.mp hlast
    have hspaced := h.spaced flow
    rw [hpassages] at hspaced
    have hthis : Spaced (before ++ ([] ++ [p]) ++ behind) := hspaced
    exact hthis.exchange hparts.spaced hafter

end DocumentM

/-! ## Many exchanges -/

namespace Outline

/-- Outlines of which the passages come in blocks, with others in the place of each block. -/
def exchanged (lead : Flow → List Letter) (blocks : Flow → List (List Passage))
    (σ : Flow × List Passage → List Passage) (flow : Flow) : Outline where
  lead := lead flow
  passages := (blocks flow).flatMap fun b => σ (flow, b)

/-- One more block is exchanged. -/
theorem put_exchanged {lead : Flow → List Letter} {blocks : Flow → List (List Passage)}
    {flow : Flow} {block : List Passage} (hnodup : (blocks flow).Nodup)
    (σ : Flow × List Passage → List Passage) (hblock : block ∈ blocks flow) :
    ∃ before behind,
      (exchanged lead blocks σ flow).passages = before ++ σ (flow, block) ++ behind ∧
        ∀ block', put (exchanged lead blocks σ) flow (before ++ block' ++ behind) =
          exchanged lead blocks (Function.update σ (flow, block) block') := by
  obtain ⟨front, back, hblocks⟩ := List.append_of_mem hblock
  rw [hblocks] at hnodup
  have hfront : block ∉ front := fun hmem =>
    (List.nodup_append.mp hnodup).2.2 block hmem block List.mem_cons_self rfl
  have hback : block ∉ back := (List.nodup_cons.mp (List.nodup_append.mp hnodup).2.1).1
  have hsame {part : List (List Passage)} (hpart : block ∉ part) (block' : List Passage) :
      part.flatMap (fun b => Function.update σ (flow, block) block' (flow, b)) =
        part.flatMap fun b => σ (flow, b) := by
    refine List.flatMap_congr fun b hb => Function.update_of_ne ?_ _ _
    intro heq
    exact hpart ((Prod.mk.inj heq).2 ▸ hb)
  refine ⟨front.flatMap fun b => σ (flow, b), back.flatMap fun b => σ (flow, b), ?_,
    fun block' => ?_⟩
  · simp [exchanged, hblocks]
  · funext flow'
    by_cases hflow : flow' = flow
    · subst hflow
      simp [put, exchanged, hblocks, hsame hfront, hsame hback]
    · rw [put_of_ne hflow, exchanged, exchanged]
      congr 1
      refine List.flatMap_congr fun b _ => (Function.update_of_ne ?_ _ _).symm
      intro heq
      exact hflow (Prod.mk.inj heq).1

end Outline

namespace DocumentM

open Outline

variable {L : Arrangement}

/-- **The exchanges of a loop add up**: each block that it comes to is exchanged, and no other
one. -/
theorem rearranges_exchanges {lead : Flow → List Letter} {blocks : Flow → List (List Passage)}
    (hnodup : ∀ flow, (blocks flow).Nodup) {R : List Passage → List Passage → Prop}
    (act : List Passage → DocumentM Unit) {todo : List (Flow × List Passage)} (htodo : todo.Nodup)
    (hmem : ∀ x ∈ todo, x.2 ∈ blocks x.1)
    (hact : ∀ x ∈ todo, ∀ (L : Arrangement) (O : Flow → Outline) (before behind : List Passage),
      L.Follows O → (O x.1).passages = before ++ x.2 ++ behind →
        Rearranges L (act x.2) fun _ L' => ∃ block', R x.2 block' ∧
          L'.Follows (put O x.1 (before ++ block' ++ behind)))
    {σ : Flow × List Passage → List Passage} (hσ : ∀ x ∈ todo, σ x = x.2)
    (h : L.Follows (exchanged lead blocks σ)) :
    Rearranges L (todo.forM fun x => act x.2) fun _ L' => ∃ σ', (∀ x ∈ todo, R x.2 (σ' x)) ∧
      (∀ x, x ∉ todo → σ' x = σ x) ∧ L'.Follows (exchanged lead blocks σ') := by
  induction todo generalizing L σ with
  | nil => exact .pure ⟨σ, fun x hx => absurd hx List.not_mem_nil, fun _ _ => rfl, h⟩
  | cons x rest ih =>
    obtain ⟨hnot, hrest⟩ := List.nodup_cons.mp htodo
    obtain ⟨before, behind, hpassages, hput⟩ :=
      put_exchanged (hnodup x.1) σ (hmem x List.mem_cons_self)
    rw [hσ x List.mem_cons_self] at hpassages
    refine (hact x List.mem_cons_self L _ before behind h hpassages).bind ?_
    rintro - L₁ ⟨block', hblock', hL₁⟩
    rw [hput] at hL₁
    have hkept {y : Flow × List Passage} (hy : y ∈ rest) : y ≠ x := fun heq => hnot (heq ▸ hy)
    refine (ih hrest (fun y hy => hmem y (List.mem_cons_of_mem _ hy))
      (fun y hy => hact y (List.mem_cons_of_mem _ hy)) (fun y hy => ?_) hL₁).weaken ?_
    · rw [Function.update_of_ne (hkept hy)]
      exact hσ y (List.mem_cons_of_mem _ hy)
    · rintro - L' ⟨σ', hdone, hothers, hL'⟩
      refine ⟨σ', List.forall_mem_cons.mpr ⟨?_, hdone⟩, fun y hy => ?_, hL'⟩
      · rw [hothers x hnot, Function.update_self]
        exact hblock'
      · obtain ⟨hne, hnotin⟩ := not_or.mp (mt List.mem_cons.mpr hy)
        rw [hothers y hnotin, Function.update_of_ne hne]

end DocumentM

end DocCite
