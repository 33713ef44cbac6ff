import DocCite.Proofs.Document.Citing
import DocCite.Proofs.Document.Evaluating

/-!
# Marks in each other's way

Text that is inserted apart keeps marks from touching what they did not touch before. A new mark can
therefore be in the way of another one only if it is placed inside of it, which an insertion does not
check (`disjoint_insertCitation_iff`).
-/

namespace DocCite

namespace TextRange

variable {a b x : TextRange} {flow : Flow} {p count : Nat}

/-- Ranges intersect where each starts before the other one ends, empty or not. -/
theorem intersects_iff :
    a.intersects b = true ↔ a.flow = b.flow ∧ a.start < b.stop ∧ b.start < a.stop := by
  have ha := a.start_le_stop
  have hb := b.start_le_stop
  rw [intersects, sameFlow, Bool.and_eq_true, beq_iff_eq]
  refine and_congr_right fun _ => ?_
  cases ha' : a.isEmpty <;> cases hb' : b.isEmpty <;>
    simp only [isEmpty, beq_eq_false_iff_ne, beq_iff_eq, ne_eq] at ha' hb' <;>
    simp only [Bool.and_eq_true, decide_eq_true_eq, Bool.false_eq_true, false_iff] <;> omega

/-- Ranges are apart where they do not intersect. They can touch. -/
theorem apart_iff : a.Apart b ↔ a.intersects b = false := by
  rw [Apart, ← Bool.not_eq_true, intersects_iff, not_and]
  refine forall_congr' fun _ => ?_
  omega

/-- **Two ranges are disjoint**: they are not equal, and they do not intersect. -/
def Disjoint (a b : TextRange) : Prop := a ≠ b ∧ a.intersects b = false

instance (a b : TextRange) : Decidable (a.Disjoint b) := inferInstanceAs (Decidable (_ ∧ _))

/-- In one flow, disjoint ranges differ in an end, and one ends before the other starts. -/
theorem disjoint_iff :
    a.Disjoint b ↔ a.flow = b.flow →
      (a.start ≠ b.start ∨ a.stop ≠ b.stop) ∧ (b.stop ≤ a.start ∨ a.stop ≤ b.start) := by
  rw [Disjoint, ← Bool.not_eq_true, intersects_iff]
  constructor
  · rintro ⟨hne, hnot⟩ hflow
    have hapart : ¬ (a.start < b.stop ∧ b.start < a.stop) := fun hmeet => hnot ⟨hflow, hmeet⟩
    refine ⟨?_, by omega⟩
    by_contra hsame
    exact hne (eq_of_ends hflow (by omega) (by omega))
  · intro h
    refine ⟨fun heq => ?_, fun hmeet => ?_⟩
    · obtain ⟨hends, -⟩ := h (congrArg flow heq)
      rw [heq] at hends
      simp at hends
    · obtain ⟨-, hapart⟩ := h hmeet.1
      omega

/-- The ends of a mark behind inserted text, before it or around it. -/
theorem ends_afterInserting (h : x.flow = flow) (p count : Nat) :
    p ≤ x.start ∧ (x.afterInserting flow p count).start = x.start + count ∧
        (x.afterInserting flow p count).stop = x.stop + count ∨
      x.start < p ∧ x.stop ≤ p ∧ (x.afterInserting flow p count).start = x.start ∧
        (x.afterInserting flow p count).stop = x.stop ∨
      x.start < p ∧ p < x.stop ∧ (x.afterInserting flow p count).start = x.start ∧
        (x.afterInserting flow p count).stop = x.stop + count := by
  have hle := x.start_le_stop
  obtain ⟨hp, heq⟩ | ⟨hstart, hstop, heq⟩ | ⟨hstart, hstop, heq⟩ :=
    afterInserting_cases h p count
  · rw [heq, start_new, stop_new]
    omega
  · rw [heq]
    omega
  · rw [heq, start_new, stop_new]
    omega

/-- Disjoint marks stay disjoint. -/
theorem Disjoint.afterInserting (h : a.Disjoint b) :
    (a.afterInserting flow p count).Disjoint (b.afterInserting flow p count) := by
  rw [disjoint_iff, flow_afterInserting, flow_afterInserting]
  intro hsame
  have hends := disjoint_iff.mp h hsame
  by_cases hflow : a.flow = flow
  · have ha := ends_afterInserting hflow p count
    have hb := ends_afterInserting (hsame.symm.trans hflow) p count
    have := a.start_le_stop
    have := b.start_le_stop
    omega
  · rw [TextRange.afterInserting, if_neg hflow, TextRange.afterInserting,
      if_neg (fun hb => hflow (hsame.trans hb))]
    exact hends

/-- **A mark is disjoint from a new one** before other inserted text, unless it is around it. -/
theorem disjoint_new_iff {length : Nat} (hlength : length < count) :
    (x.afterInserting flow p count).Disjoint (new flow p (p + length)) ↔
      ¬ (x.flow = flow ∧ x.start < p ∧ p < x.stop) := by
  rw [disjoint_iff, flow_afterInserting, flow_new, start_new, stop_new,
    Nat.min_eq_left (Nat.le_add_right _ _), Nat.max_eq_right (Nat.le_add_right _ _), not_and]
  refine forall_congr' fun hflow => ?_
  have hends := ends_afterInserting hflow p count
  have := x.start_le_stop
  omega

end TextRange

/-- **No two marks are equal or intersect**, among those whose names count. -/
def Document.MarksDisjoint (d : Document) (counts : String → Bool) : Prop :=
  d.marks.Pairwise fun m m' =>
    counts m.1 = true → counts m'.1 = true → m.2.Disjoint m'.2

instance (d : Document) (counts : String → Bool) : Decidable (d.MarksDisjoint counts) :=
  inferInstanceAs (Decidable (List.Pairwise _ _))

namespace DocumentM

open MarkedText

variable {d d' : Document} {request : CitationRequest} {flow : Flow} {p : Nat} {g : CitationGroup}
  {content : List Char} {counts : String → Bool}

/-- Marks stay disjoint under an insertion if it is not inside of one of them. -/
theorem IsInsertion.marksDisjoint_iff (h : IsInsertion d request flow p g content d')
    (hd : d.MarksDisjoint counts) :
    d'.MarksDisjoint counts ↔
      ¬ (counts g.id = true ∧
        ∃ m ∈ d.marks, counts m.1 = true ∧ m.2.flow = flow ∧ m.2.start < p ∧ p < m.2.stop) := by
  have hformer : (d.marks.map fun m => (m.1, m.2.afterInserting flow p (content.length + 1))).Pairwise
      fun m m' => counts m.1 = true → counts m'.1 = true → m.2.Disjoint m'.2 := by
    rw [List.pairwise_map]
    exact hd.imp fun hdisjoint hm hm' => (hdisjoint hm hm').afterInserting
  have hnew (m : String × TextRange) :
      (m.2.afterInserting flow p (content.length + 1)).Disjoint
          (.new flow p (p + content.length)) ↔
        ¬ (m.2.flow = flow ∧ m.2.start < p ∧ p < m.2.stop) :=
    TextRange.disjoint_new_iff (Nat.lt_succ_self _)
  -- the former marks stay disjoint, so only their pairs with the new one count
  rw [Document.MarksDisjoint, h.marks_eq, List.pairwise_append, and_iff_right hformer,
    and_iff_right (List.pairwise_singleton _ _)]
  simp only [List.mem_map, List.mem_singleton, forall_exists_index, and_imp,
    forall_apply_eq_imp_iff₂, forall_eq, hnew]
  constructor
  · rintro hall ⟨hcounts, m, hm, hname, hflow, hstart, hstop⟩
    exact hall m hm hname hcounts ⟨hflow, hstart, hstop⟩
  · rintro hnot m hm hname hcounts ⟨hflow, hstart, hstop⟩
    exact hnot ⟨hcounts, m, hm, hname, hflow, hstart, hstop⟩

/-- **Inserting a citation keeps citation marks disjoint** just when the selection does not end
strictly inside of one, whichever names of marks count as those of citations. -/
theorem disjoint_insertCitation_iff {cursor : TextRange} {preferences : Preferences}
    {databases : List Database} {style : Style} {unresolved : List String}
    (hd : d.MarksDisjoint counts) (hcursor : d.cursor? = some cursor)
    (hsync : request.sync = false)
    (hrun : (insertCitation preferences request databases style).run d = (.ok unresolved, d')) :
    d'.MarksDisjoint counts ↔
      ¬ (counts (MarkName.fresh request.keys request.kind (d.marks.map Prod.fst)) = true ∧
        ∃ m ∈ d.marks, counts m.1 = true ∧ m.2.flow = cursor.flow ∧
          m.2.start < cursor.stop ∧ cursor.stop < m.2.stop) := by
  obtain ⟨cursor', g, hcursor', h⟩ := isInsertion_of_insertCitation hsync hrun
  obtain rfl : cursor = cursor' := Option.some.inj (hcursor.symm.trans hcursor')
  have hid : g.id = MarkName.fresh request.keys request.kind (d.marks.map Prod.fst) := by
    rw [h.group_eq, CitationGroup.id_new]
  rw [← hid]
  exact h.marksDisjoint_iff hd

/-- A text of which the first two words are a citation, with the cursor at a place. -/
def coveredDocument (place : Nat) : Document :=
  { Document.ofPlain "Oaks grow." [] [("JR_cite_1_x", .inBody 0 6)] with
    selection := .text (.collapsed .body place) }

/-- What inserting a citation does to it. -/
def coveredInsert (place : Nat) : Except DocumentError (List String) × Document :=
  (insertCitation {} ⟨["a"], .parenthetical, none, false⟩ [] Style.numbered).run
    (coveredDocument place)

theorem disjoint_insertCitation_sample :
    (coveredDocument 6).MarksDisjoint MarkName.isMark ∧
      (coveredDocument 6).cursor? = some (.collapsed .body 6) ∧
      ∃ d', (insertCitation {} ⟨["a"], .parenthetical, none, false⟩ [] Style.numbered).run
          (coveredDocument 6) = (.ok [], d') ∧ d'.MarksDisjoint MarkName.isMark := by
  have hd : (coveredDocument 6).MarksDisjoint MarkName.isMark := by decide +kernel
  have hrun : (insertCitation {} ⟨["a"], .parenthetical, none, false⟩ [] Style.numbered).run
      (coveredDocument 6) = (.ok [], (coveredInsert 6).2) := eq_ok_of_toOption (by decide +kernel)
  refine ⟨hd, rfl, (coveredInsert 6).2, hrun, ?_⟩
  exact (disjoint_insertCitation_iff hd rfl rfl hrun).mpr (by decide +kernel)

/-- **With the cursor inside of a citation** the mark of a new one is inserted into it. -/
theorem not_disjoint_insertCitation :
    (coveredDocument 3).MarksDisjoint MarkName.isMark ∧
      ∃ d', (insertCitation {} ⟨["a"], .parenthetical, none, false⟩ [] Style.numbered).run
          (coveredDocument 3) = (.ok [], d') ∧ ¬ d'.MarksDisjoint MarkName.isMark :=
  ⟨by decide +kernel, (coveredInsert 3).2, eq_ok_of_toOption (by decide +kernel),
    by decide +kernel⟩

end DocumentM

end DocCite
