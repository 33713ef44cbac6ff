import DocCite.Proofs.Document.Telling
import Mathlib.Data.List.SplitBy

/-!
# Runs of citations

Citations in brackets join where only spaces are between them. The runs that joining finds among
the citations as they are read are the runs of each flow: nothing of another flow comes between two
citations that join (`splitBy_reading`). So what is found follows from the outlines
(`tells_joinableRuns`).
-/

namespace DocCite

/-- Where neighbours are not related, the runs of related elements are short. -/
theorem length_le_one_of_mem_splitBy {α : Type} {r : α → α → Bool} {l run : List α}
    (hapart : l.IsChain fun a b => r a b = false) (h : run ∈ l.splitBy r) : run.length ≤ 1 := by
  have hchain := List.isChain_of_mem_splitBy h
  obtain ⟨front, back, hruns⟩ := List.append_of_mem h
  rw [← List.flatten_splitBy r l, hruns, List.flatten_append, List.flatten_cons] at hapart
  have hfalse := (List.isChain_append.mp (List.isChain_append.mp hapart).2.1).1
  rcases run with _ | ⟨a, _ | ⟨b, run⟩⟩
  · exact Nat.zero_le _
  · exact Nat.le_refl _
  · have hrelated := (List.isChain_cons_cons.mp hchain).1
    rw [(List.isChain_cons_cons.mp hfalse).1] at hrelated
    cases hrelated

namespace Passage

/-- The characters behind a citation, up to the next one. -/
def gap (p : Passage) : List Char := p.after.map Letter.char

/-- Whether a citation joins the one before it: both are in brackets, with at least one space
between them, and nothing but spaces. -/
def joins (p q : Passage) : Bool :=
  decide (p.group.kind = .parenthetical ∧ q.group.kind = .parenthetical) &&
    (!p.gap.isEmpty && !p.gap.contains '\n' && Text.isAllBlank p.gap)

/-- The runs of passages that join. -/
def runs (ps : List Passage) : List (List Passage) := ps.splitBy joins

/-- The text behind a run. -/
def afterRun (run : List Passage) : List Letter := (run.getLast?.map after).getD []

/-- Passages in which everything that anchors a footnote looks like an anchor. -/
def ShowAnchors (ps : List Passage) : Prop :=
  ∀ p ∈ ps, ∀ l ∈ p.after, l.footnote ≠ none → l.char = Cell.anchorChar

variable {p q : Passage} {ps run : List Passage}

theorem joins_iff : p.joins q = true ↔
    (p.group.kind = .parenthetical ∧ q.group.kind = .parenthetical) ∧
      p.gap ≠ [] ∧ '\n' ∉ p.gap ∧ ∀ c ∈ p.gap, Text.isBlank c = true := by
  simp [joins, Text.isAllBlank, and_assoc]

/-- Whether citations join depends on their kinds and on the text between them. -/
theorem joins_congr {p' q' : Passage} (hkind : p'.group.kind = p.group.kind)
    (hafter : p'.after = p.after) (hkind' : q'.group.kind = q.group.kind) :
    p'.joins q' = p.joins q := by
  rw [joins, joins, gap, gap, hkind, hafter, hkind']

/-- Nothing is anchored between citations that join. -/
theorem footnote_eq_none_of_joins (hshow : ShowAnchors ps) (hp : p ∈ ps)
    (h : p.joins q = true) : ∀ l ∈ p.after, l.footnote = none := by
  intro l hl
  by_contra hanchor
  have hblank := (joins_iff.mp h).2.2.2 l.char (List.mem_map_of_mem hl)
  rw [hshow p hp l hl hanchor] at hblank
  exact absurd hblank (by decide)

theorem flatten_runs (ps : List Passage) : (runs ps).flatten = ps := List.flatten_splitBy _ _

theorem ne_nil_of_mem_runs (h : run ∈ runs ps) : run ≠ [] := List.ne_nil_of_mem_splitBy h

theorem mem_of_mem_runs (h : run ∈ runs ps) (hp : p ∈ run) : p ∈ ps := by
  rw [← flatten_runs ps]
  exact List.mem_flatten.mpr ⟨run, h, hp⟩

/-- Where runs are short, nothing is to be joined. -/
theorem isChain_of_length_le_one (h : ∀ run ∈ runs ps, run.length ≤ 1) :
    ps.IsChain fun p q => p.joins q = false := by
  have hapart := List.isChain_getLast_head_splitBy joins ps
  have hnil : [] ∉ runs ps := List.nil_notMem_splitBy _ _
  rw [← flatten_runs ps, List.isChain_flatten hnil]
  refine ⟨fun run hrun => ?_, hapart.imp fun run run' hfalse p hp q hq => ?_⟩
  · rcases run with _ | ⟨p, _ | ⟨q, run⟩⟩
    · exact List.IsChain.nil
    · exact List.isChain_singleton p
    · exact absurd (h _ hrun) (by simp)
  · obtain ⟨hne, hne', hfalse⟩ := hfalse
    rw [List.getLast?_eq_some_getLast hne, Option.mem_some_iff] at hp
    rw [List.head?_eq_some_head hne', Option.mem_some_iff] at hq
    rw [← hp, ← hq, hfalse]

/-- What a run tells is what its citations tell, and what is noted behind its last one. -/
theorem flatMap_append_noted_of_run {γ : Type} (hshow : ShowAnchors run)
    (hchain : run.IsChain fun p q => p.joins q = true) (f : Passage → List γ) (m : Nat → List γ) :
    (run.flatMap fun p => f p ++ noted m p.after) = run.flatMap f ++ noted m (afterRun run) := by
  induction run with
  | nil => rfl
  | cons p run ih =>
    cases run with
    | nil => simp [afterRun]
    | cons q run =>
      obtain ⟨hjoins, hrest⟩ := List.isChain_cons_cons.mp hchain
      have hnone := noted_eq_nil (m := m)
        (footnote_eq_none_of_joins hshow List.mem_cons_self hjoins)
      rw [List.flatMap_cons, ih (fun p' hp' => hshow p' (List.mem_cons_of_mem _ hp')) hrest, hnone,
        List.append_nil, ← List.append_assoc, ← List.flatMap_cons]
      rfl

theorem flatMap_append_noted_of_runs {γ : Type} (hshow : ShowAnchors ps) (f : Passage → List γ)
    (m : Nat → List γ) :
    (ps.flatMap fun p => f p ++ noted m p.after) =
      (runs ps).flatMap fun run => run.flatMap f ++ noted m (afterRun run) := by
  conv_lhs => rw [← flatten_runs ps, List.flatten_eq_flatMap, List.flatMap_assoc]
  refine List.flatMap_congr fun run hrun => ?_
  exact flatMap_append_noted_of_run (fun p hp => hshow p (mem_of_mem_runs hrun hp))
    (List.isChain_of_mem_splitBy hrun) f m

end Passage

/-! ## Runs among the citations as they are read -/

namespace Outline

open Passage

variable {O : Flow → Outline} {loose : List Flow}

/-- Whether a citation joins the one that is read before it. -/
def joinsInReading (x y : Flow × Passage) : Bool := decide (x.1 = y.1) && x.2.joins y.2

/-- The runs of all flows as they are read. -/
def readingRuns (O : Flow → Outline) (loose : List Flow) : List (Flow × List Passage) :=
  weave (fun flow => runs (O flow).passages) afterRun (O .body).lead loose

theorem ReadsLoose.woven_runs (h : ReadsLoose O loose)
    (hshow : ∀ flow, ShowAnchors (O flow).passages) :
    Woven (fun flow => runs (O flow).passages) afterRun (O .body).lead loose := by
  have hanchored : anchoredIn (fun flow => runs (O flow).passages) afterRun (O .body).lead =
      anchored O := by
    have hnotes (ls : List Letter) :
        ls.filterMap Letter.footnote = noted (fun n => [n]) ls := by simp [noted]
    have htold := flatMap_append_noted_of_runs (hshow .body) (fun _ => ([] : List Nat))
      fun n => [n]
    simp only [List.nil_append, ← noted_flatMap] at htold
    have hruns (rs : List (List Passage)) : (rs.flatMap fun run =>
        (run.flatMap fun _ => ([] : List Nat)) ++ noted (fun n => [n]) (afterRun run)) =
          noted (fun n => [n]) (rs.flatMap afterRun) := by
      rw [noted_flatMap]
      exact List.flatMap_congr fun run _ => by simp
    rw [hruns] at htold
    rw [anchored, anchoredIn, anchoredIn, hnotes, hnotes, noted_append, noted_append, htold]
  refine ⟨hanchored ▸ h.anchored_nodup, h.loose_nodup, fun flow => ?_⟩
  rw [h.mem_loose_iff, hanchored]
  exact and_congr_right fun _ => and_congr_right fun _ => not_congr List.splitBy_eq_nil.symm

/-- **The runs among the citations as they are read are the runs of the flows.** -/
theorem ReadsLoose.splitBy_reading (h : ReadsLoose O loose)
    (hshow : ∀ flow, ShowAnchors (O flow).passages) :
    (reading O loose).splitBy joinsInReading =
      (readingRuns O loose).map fun x => x.2.map (x.1, ·) := by
  have hwoven := h.woven_runs hshow
  have hrun {x : Flow × List Passage} (hx : x ∈ readingRuns O loose) :
      x.2 ∈ runs (O x.1).passages := hwoven.mem_weave_iff.mp hx
  rw [List.splitBy_eq_iff]
  refine ⟨?_, ?_, fun run hmem => ?_, ?_⟩
  · -- all passages are in their runs, and between those of a run nothing is noted
    have htold (flow : Flow) : toldIn (fun flow => runs (O flow).passages)
        (fun x => x.2.map (x.1, ·)) flow = (O flow).passages.map (flow, ·) := by
      rw [toldIn]
      conv_rhs => rw [← flatten_runs (O flow).passages, List.map_flatten]
      rw [List.flatMap_def]
    have hbody := flatMap_append_noted_of_runs (hshow .body) (fun p => [(Flow.body, p)])
      fun n => (O (.footnote n)).passages.map (Flow.footnote n, ·)
    have hsingle (run : List Passage) :
        (run.flatMap fun p => [(Flow.body, p)]) = run.map (Flow.body, ·) := by
      induction run with
      | nil => rfl
      | cons p run ih => exact congrArg (_ :: ·) ih
    simp only [hsingle] at hbody
    rw [← List.flatMap_def, readingRuns, weave, List.flatMap_append, flatMap_weaveBody,
      List.flatMap_assoc, reading, weave, weaveBody, toldBody]
    simp only [htold]
    refine congrArg₂ (· ++ ·) (congrArg _ hbody) (List.flatMap_congr fun flow _ => ?_)
    rw [List.flatMap_map]
    exact (htold flow).symm
  · intro hnil
    obtain ⟨x, hx, heq⟩ := List.mem_map.mp hnil
    exact ne_nil_of_mem_runs (hrun hx) (List.map_eq_nil_iff.mp heq)
  · obtain ⟨x, hx, rfl⟩ := List.mem_map.mp hmem
    rw [List.isChain_map]
    refine (List.isChain_of_mem_splitBy (hrun hx)).imp fun p q hjoins => ?_
    rw [joinsInReading, hjoins, Bool.and_true]
    exact decide_eq_true rfl
  · have hapart := hwoven.isChain_weave (R := fun _ run run' => ∃ hne hne',
      (run.getLast hne).joins (run'.head hne') = false)
      fun flow => List.isChain_getLast_head_splitBy joins (O flow).passages
    rw [List.isChain_map]
    refine List.isChain_iff_forall_rel_of_append_cons_cons.mpr fun x y before behind heq => ?_
    have hxy := List.isChain_iff_forall_rel_of_append_cons_cons.mp hapart heq
    have hx : x ∈ readingRuns O loose := heq ▸ by simp
    have hy : y ∈ readingRuns O loose := heq ▸ by simp
    refine ⟨by simpa using ne_nil_of_mem_runs (hrun hx), by simpa using ne_nil_of_mem_runs (hrun hy),
      ?_⟩
    rw [List.getLast_map, List.head_map, joinsInReading]
    by_cases hflow : x.1 = y.1
    · obtain ⟨hne, hne', hfalse⟩ := hxy hflow
      rw [hfalse, Bool.and_false]
    · rw [decide_eq_false hflow, Bool.false_and]

/-- Where no citation joins the one that is read before it, none joins the one before it in its
flow. -/
theorem ReadsLoose.isChain_of_reading (h : ReadsLoose O loose)
    (hshow : ∀ flow, ShowAnchors (O flow).passages)
    (hapart : (reading O loose).IsChain fun x y => joinsInReading x y = false) (flow : Flow) :
    (O flow).passages.IsChain fun p q => p.joins q = false := by
  refine isChain_of_length_le_one fun run hrun => ?_
  have hmem : (flow, run) ∈ readingRuns O loose := (h.woven_runs hshow).mem_weave_iff.mpr hrun
  have hsplit : run.map (flow, ·) ∈ (reading O loose).splitBy joinsInReading := by
    rw [h.splitBy_reading hshow]
    exact List.mem_map_of_mem (f := fun x => x.2.map (x.1, ·)) hmem
  have hshort := length_le_one_of_mem_splitBy hapart hsplit
  rwa [List.length_map] at hshort

end Outline

/-! ## Finding runs in a document -/

namespace Arrangement

open Passage Outline

variable {L : Arrangement} {O : Flow → Outline} {d : Document}

/-- Where the mark of a passage is. -/
theorem Follows.rangeOf_eq (h : L.Follows O) (hL : L.Describes d) {flow : Flow} {p : Passage}
    {before behind : List Passage} (hpassages : (O flow).passages = before ++ p :: behind) :
    d.rangeOf p.group.id =
      .new flow ((O flow).lead.length + (before.flatMap letters).length)
        ((O flow).lead.length + (before.flatMap letters).length + p.inside.length) := by
  have hmark : (p.group.id, TextRange.new flow
      ((O flow).lead.length + (before.flatMap letters).length)
      ((O flow).lead.length + (before.flatMap letters).length + p.inside.length)) ∈
        L.marksIn flow := by
    rw [marksIn, h.pieces_eq, Outline.pieces, hpassages]
    simp [Piece.marksFrom_append, Piece.marksFrom]
  rw [Document.rangeOf, hL.get?_of_mem hmark, Option.getD_some]

/-- The mark of the next passage starts where the text behind the one before it ends. -/
theorem Follows.start_rangeOf_next (h : L.Follows O) (hL : L.Describes d) {flow : Flow}
    {p q : Passage} {before behind : List Passage}
    (hpassages : (O flow).passages = before ++ p :: q :: behind) :
    (d.rangeOf q.group.id).start = (d.rangeOf p.group.id).stop + p.after.length := by
  have hnext : (O flow).passages = (before ++ [p]) ++ q :: behind := by simp [hpassages]
  rw [h.rangeOf_eq hL hpassages, h.rangeOf_eq hL hnext]
  simp [letters, Nat.add_assoc]

end Arrangement

namespace DocumentM

open Passage Outline Arrangement

variable {L : Arrangement} {O : Flow → Outline} {d : Document} {loose : List Flow}

/-- The text between neighbours is told. -/
theorem tells_text_gap (hL : L.Describes d) (h : L.Follows O) {flow : Flow} {p q : Passage}
    {before behind : List Passage} (hpassages : (O flow).passages = before ++ p :: q :: behind) :
    Tells d (text (.new flow (d.rangeOf p.group.id).stop (d.rangeOf q.group.id).start))
      (String.ofList p.gap) := by
  have hp := h.rangeOf_eq hL hpassages
  have hq := h.start_rangeOf_next hL hpassages
  have hmem : q ∈ (O flow).passages := by simp [hpassages]
  obtain ⟨hmark, hflow⟩ := h.rangeOf_mem hL hmem
  obtain ⟨cells, hcells, hstop⟩ := hL.wellFormed.marks_inside _
    ((Keyed.get?_eq_some_iff hL.wellFormed.marks_nodup).mp hmark)
  simp only [hflow] at hcells
  generalize hi : (O flow).lead.length + (before.flatMap letters).length = i at hp
  have hgap : TextRange.new flow (d.rangeOf p.group.id).stop (d.rangeOf q.group.id).start =
      .new flow (i + p.inside.length) (i + p.inside.length + p.after.length) := by
    rw [hq, hp]
    simp
  have hletters : cells.map Cell.letter =
      ((O flow).lead ++ before.flatMap letters ++ Piece.plain p.inside) ++ p.after ++
        (q :: behind).flatMap letters := by
    have hspell := h.letters_eq hL flow
    rw [Document.letters, hcells, Option.getD_some] at hspell
    rw [hspell, hpassages]
    simp [letters]
  have hbefore : ((O flow).lead ++ before.flatMap letters ++ Piece.plain p.inside).length =
      i + p.inside.length := by
    simp [← hi, Nat.add_assoc]
  have hinside : d.Inside (.new flow (d.rangeOf p.group.id).stop (d.rangeOf q.group.id).start) := by
    refine ⟨cells, hcells, ?_⟩
    have hlength := congrArg List.length hletters
    rw [List.length_map, List.length_append, List.length_append, hbefore] at hlength
    rw [hgap, TextRange.stop_new]
    omega
  have htext : Cells.text (Cells.slice cells (i + p.inside.length)
      (i + p.inside.length + p.after.length)) = String.ofList p.gap := by
    have hslice : (Cells.slice cells (i + p.inside.length)
        (i + p.inside.length + p.after.length)).map Cell.letter = p.after := by
      rw [Cells.slice, List.map_drop, List.map_take, hletters,
        List.take_left' (by rw [List.length_append, hbefore]), List.drop_left' hbefore]
    have hchars := congrArg (List.map Letter.char) hslice
    rw [List.map_map] at hchars
    exact congrArg String.ofList hchars
  have htell := Tells.text hinside
  rw [hgap] at htell ⊢
  simp only [TextRange.flow_new, TextRange.start_new, TextRange.stop_new, hcells, Option.getD_some,
    Nat.min_eq_left (Nat.le_add_right _ _), Nat.max_eq_right (Nat.le_add_right _ _), htext]
    at htell
  exact htell

/-- **Whether two citations join is told**, if those of one flow are neighbours there. -/
theorem tells_joins (hL : L.Describes d) (h : L.Follows O) {x y : Flow × Passage}
    (hx : x.2 ∈ (O x.1).passages) (hy : y.2 ∈ (O y.1).passages)
    (hnext : x.1 = y.1 → ∃ before behind, (O x.1).passages = before ++ x.2 :: y.2 :: behind) :
    Tells d (joins (x.2.group, d.rangeOf x.2.group.id) (y.2.group, d.rangeOf y.2.group.id))
      (joinsInReading x y) := by
  have hxflow := (h.rangeOf_mem hL hx).2
  have hyflow := (h.rangeOf_mem hL hy).2
  unfold joins joinsInReading Passage.joins
  split
  · next hkinds =>
    rw [decide_eq_true hkinds, Bool.true_and]
    unfold onlySpacesBetween TextRange.sameFlow
    simp only [hxflow, hyflow]
    by_cases hflow : x.1 = y.1
    · obtain ⟨before, behind, hpassages⟩ := hnext hflow
      have hle : ¬ (d.rangeOf y.2.group.id).start < (d.rangeOf x.2.group.id).stop := by
        rw [h.start_rangeOf_next hL hpassages]
        omega
      simp only [hflow, beq_self_eq_true, Bool.not_true, Bool.false_or, decide_eq_true_eq, if_neg hle,
        decide_true, Bool.true_and]
      have htext := tells_text_gap hL h hpassages
      rw [hflow] at htext
      refine Tells.bind htext ?_
      rw [String.toList_ofList]
      exact Tells.pure _
    · simp only [beq_eq_false_iff_ne.mpr hflow, Bool.not_false, Bool.true_or, if_true,
        decide_eq_false hflow, Bool.false_and]
      exact Tells.pure _
  · next hkinds =>
    rw [decide_eq_false hkinds, Bool.false_and, Bool.and_false]
    exact Tells.pure _

/-- Runs are told when it is told which neighbours join. -/
theorem tells_runsFrom {α : Type} {c : α → CitationGroup × TextRange} {j : α → α → Bool} (a : α)
    (as : List α) (hjoins : (a :: as).IsChain fun a b => Tells d (joins (c a) (c b)) (j a b)) :
    Tells d (runsFrom (c a) (as.map c)) (((a :: as).splitBy j).map fun run => run.map c) := by
  induction as generalizing a with
  | nil => exact Tells.pure _
  | cons b as ih =>
    obtain ⟨hab, hrest⟩ := List.isChain_cons_cons.mp hjoins
    refine Tells.bind hab (Tells.bind (ih b hrest) ?_)
    cases hruns : (b :: as).splitBy j with
    | nil => exact absurd hruns (List.splitBy_ne_nil.mpr (List.cons_ne_nil _ _))
    | cons run runs =>
      rw [List.map_cons]
      refine cast (congrArg _ ?_) (Tells.pure _)
      obtain ⟨hflatten, hne, hchains, hapart⟩ := List.splitBy_eq_iff.mp hruns
      cases hj : j a b with
      | false =>
        have hsplit := List.splitBy_append_cons (l := [a]) (a := b) as (r := j)
          (by simpa using hj)
        rw [List.singleton_append, List.splitBy_of_isChain (List.cons_ne_nil _ _)
          (List.isChain_singleton a), hruns] at hsplit
        rw [hsplit]
        rfl
      | true =>
        have hrun : run ≠ [] := fun hnil => hne (hnil ▸ List.mem_cons_self)
        obtain ⟨b', run, rfl⟩ := List.exists_cons_of_ne_nil hrun
        obtain rfl : b = b' := (List.cons.inj hflatten).1
        have hsplit : (a :: b :: as).splitBy j = (a :: b :: run) :: runs := by
          refine List.splitBy_eq_iff.mpr ⟨by rw [hflatten]; rfl, ?_, ?_, ?_⟩
          · intro hnil
            rcases List.mem_cons.mp hnil with hnil | hnil
            · cases hnil
            · exact hne (List.mem_cons_of_mem _ hnil)
          · refine List.forall_mem_cons.mpr ⟨?_, (List.forall_mem_cons.mp hchains).2⟩
            exact List.isChain_cons_cons.mpr ⟨hj, (List.forall_mem_cons.mp hchains).1⟩
          · cases runs with
            | nil => exact List.isChain_singleton _
            | cons run' runs =>
              obtain ⟨⟨hne, hne', hfalse⟩, hrest⟩ := List.isChain_cons_cons.mp hapart
              refine List.isChain_cons_cons.mpr ⟨⟨List.cons_ne_nil _ _, hne', ?_⟩, hrest⟩
              rwa [List.getLast_cons hne]
        rw [hsplit]
        rfl

/-- Whether neighbours join is told, all along the citations as they are read. -/
theorem isChain_tells_joins (hL : L.Describes d) (h : L.Follows O) (hloose : ReadsLoose O loose) :
    (reading O loose).IsChain fun x y =>
      Tells d (joins (x.2.group, d.rangeOf x.2.group.id) (y.2.group, d.rangeOf y.2.group.id))
        (joinsInReading x y) := by
  have hnext := hloose.isChain_weave (R := fun flow p q =>
    ∃ before behind, (O flow).passages = before ++ p :: q :: behind) fun flow =>
      List.isChain_iff_forall_rel_of_append_cons_cons.mpr fun p q before behind heq =>
        ⟨before, behind, heq⟩
  refine List.isChain_iff_forall_rel_of_append_cons_cons.mpr fun x y before behind heq => ?_
  have hmem {z : Flow × Passage} (hz : z ∈ reading O loose) : z.2 ∈ (O z.1).passages :=
    hloose.mem_weave_iff.mp hz
  exact tells_joins hL h (hmem (heq ▸ by simp)) (hmem (heq ▸ by simp))
    (List.isChain_iff_forall_rel_of_append_cons_cons.mp hnext heq)

/-- **The runs that are to be joined are told**: those of the flows with at least two citations. -/
theorem tells_joinableRuns (hL : L.Describes d) (h : L.Follows O) (hloose : ReadsLoose O loose)
    (hshow : ∀ flow, ShowAnchors (O flow).passages) :
    Tells d (joinableRuns (located d O loose))
      (((readingRuns O loose).filter fun x => 1 < x.2.length).map fun x =>
        x.2.map Passage.group) := by
  have hruns := hloose.splitBy_reading hshow
  have hjoins := isChain_tells_joins hL h hloose
  rw [located]
  cases hread : reading O loose with
  | nil =>
    rw [hread, List.splitBy_nil] at hruns
    rw [List.map_eq_nil_iff.mp hruns.symm]
    exact Tells.pure _
  | cons x xs =>
    rw [hread] at hjoins hruns
    refine Tells.bind (tells_runsFrom (c := fun x => (x.2.group, d.rangeOf x.2.group.id)) x xs
      hjoins) ?_
    refine cast (congrArg _ ?_) (Tells.pure _)
    rw [hruns, List.map_map, List.filter_map, List.map_map]
    refine congrArg₂ List.map (funext fun y => ?_) (List.filter_congr fun y _ => ?_)
    · simp [Function.comp_def]
    · simp

end DocumentM

end DocCite
