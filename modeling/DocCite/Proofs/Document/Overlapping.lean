import DocCite.Proofs.Document.Apart
import DocCite.Proofs.Document.Intersecting

/-!
# What the check of overlaps accepts

The scan of the sorted ranges of a flow tells ranges in each other's way by their starts and ends
alone. For ranges in that order it is the same as to ask whether they are equal or intersect, or
touch. So the check accepts the documents whose ranges are all clear of each other, and all
documents if the report is to have no lines (`checkOverlaps_eq_ok_iff`).
-/

namespace DocCite

namespace TextRange

variable {a b : TextRange} {touching : Bool}

/-- Two ranges of a flow touch if one starts where the other ends. -/
def Touches (a b : TextRange) : Prop := a.flow = b.flow ∧ (a.start = b.stop ∨ b.start = a.stop)

instance (a b : TextRange) : Decidable (a.Touches b) := inferInstanceAs (Decidable (_ ∧ _))

/-- **Two ranges are clear of each other**: they are not equal, do not intersect and, if that is not
wanted either, do not touch. -/
def ClearOf (touching : Bool) (a b : TextRange) : Prop :=
  a.Disjoint b ∧ (touching = true → ¬ a.Touches b)

instance (touching : Bool) (a b : TextRange) : Decidable (ClearOf touching a b) :=
  inferInstanceAs (Decidable (_ ∧ _))

theorem Disjoint.symm (h : a.Disjoint b) : b.Disjoint a := by
  refine disjoint_iff.mpr fun hflow => ?_
  obtain ⟨hends, hapart⟩ := disjoint_iff.mp h hflow.symm
  exact ⟨hends.imp Ne.symm Ne.symm, hapart.symm⟩

theorem Touches.symm (h : a.Touches b) : b.Touches a := ⟨h.1.symm, h.2.symm⟩

theorem ClearOf.symm (h : ClearOf touching a b) : ClearOf touching b a :=
  ⟨h.1.symm, fun ht hb => h.2 ht hb.symm⟩

/-- Ranges of different flows are clear of each other. -/
theorem clearOf_of_flow_ne (h : a.flow ≠ b.flow) : ClearOf touching a b :=
  ⟨disjoint_iff.mpr fun hflow => absurd hflow h, fun _ ht => h ht.1⟩

/-- For two ranges of a flow in the order of the scan, being in the way is what it is at large. -/
theorem overlapKind?_eq_none_iff_clearOf {α : Type} {x y : TextRange × α}
    (hflow : x.1.flow = y.1.flow) (hsorted : startsBefore x y = true) :
    overlapKind? touching x.1 y.1 = none ↔ ClearOf touching x.1 y.1 := by
  have hx := x.1.start_le_stop
  have hy := y.1.start_le_stop
  have horder := startsBefore_iff.mp hsorted
  rw [overlapKind?_eq_none_iff, ClearOf, disjoint_iff, Touches]
  constructor
  · rintro ⟨hne, hle, htouch⟩
    refine ⟨fun _ => ⟨by omega, Or.inr hle⟩, fun ht hends => ?_⟩
    have := htouch ht
    omega
  · rintro ⟨hdisjoint, htouch⟩
    obtain ⟨hends, hapart⟩ := hdisjoint hflow
    refine ⟨by omega, by omega, fun ht hstart => htouch ht ⟨hflow, Or.inr hstart⟩⟩

/-- **The scans find nothing** just when all ranges are clear of each other. -/
theorem allOverlaps_eq_nil_iff_clearOf {α : Type} {items : List (TextRange × α)} :
    allOverlaps items touching = [] ↔ items.Pairwise fun x y => ClearOf touching x.1 y.1 := by
  have hflow (flow : Flow) :
      (inFlow flow items).Pairwise (fun x y => overlapKind? touching x.1 y.1 = none) ↔
        (items.filter fun item => item.1.flow = flow).Pairwise
          fun x y => ClearOf touching x.1 y.1 := by
    rw [← (inFlow_perm flow items).pairwise_iff fun h => h.symm]
    have hiff := (pairwise_inFlow flow items).imp_of_mem fun {x y} hx hy h =>
      (overlapKind?_eq_none_iff_clearOf ((mem_inFlow.mp hx).2.trans (mem_inFlow.mp hy).2.symm) h :
        overlapKind? touching x.1 y.1 = none ↔ ClearOf touching x.1 y.1)
    exact ⟨fun h => (hiff.and h).imp fun h => h.1.mp h.2,
      fun h => (hiff.and h).imp fun h => h.1.mpr h.2⟩
  rw [allOverlaps_eq_nil_iff]
  simp only [hflow]
  exact ⟨fun h => pairwise_of_flows (fun a b => clearOf_of_flow_ne) h,
    fun h flow => h.filter _⟩

end TextRange

/-- What the check of overlaps looks at: given ranges, and the anchors of all footnotes. -/
def Document.checkedRanges (d : Document) (ranges : List (TextRange × String)) : List TextRange :=
  ranges.map Prod.fst ++ d.anchorPlaces.map fun i => .inBody i (i + 1)

namespace DocumentM

/-- **The check of overlaps accepts** a document that it can look at just when all ranges are clear
of each other, or when no line is to be reported. -/
theorem checkOverlaps_eq_ok_iff (ranges : List (TextRange × String)) (preferences : Preferences)
    (d : Document) :
    (∃ d', (checkOverlaps ranges preferences).run d = (.ok (), d')) ↔
      d.connection.spend?.isSome = true ∧
        (preferences.overlapReportLimit = 0 ∨
          (d.checkedRanges ranges).Pairwise
            (TextRange.ClearOf preferences.reportTouchingRanges)) := by
  have hfound : TextRange.findOverlaps
        (ranges ++ (d.anchorPlaces.map fun i => TextRange.inBody i (i + 1)).map
          fun r => (r, "footnote mark at " ++ toString r.start))
        preferences.reportTouchingRanges preferences.overlapReportLimit = [] ↔
      preferences.overlapReportLimit = 0 ∨
        (d.checkedRanges ranges).Pairwise
          (TextRange.ClearOf preferences.reportTouchingRanges) := by
    have hfst (l : List TextRange) :
        (l.map fun r => (r, "footnote mark at " ++ toString r.start)).map Prod.fst = l := by
      rw [List.map_map]
      exact List.map_id l
    rw [TextRange.findOverlaps_eq_nil_iff, TextRange.allOverlaps_eq_nil_iff_clearOf,
      ← List.pairwise_map (f := Prod.fst), List.map_append, hfst, Document.checkedRanges]
  constructor
  · rintro ⟨d', hrun⟩
    obtain ⟨anchors, d₁, hanchors, hrest⟩ := run_bind_eq_ok_iff.mp hrun
    obtain ⟨rest, hspend, rfl, rfl⟩ := run_see_eq_ok_iff.mp hanchors
    refine ⟨by rw [hspend]; rfl, hfound.mp ?_⟩
    simp only at hrest
    split at hrest
    · cases hrest
    · next hempty => rwa [Bool.not_eq_true, Bool.not_eq_false', List.isEmpty_iff] at hempty
  · rintro ⟨hreach, hclear⟩
    obtain ⟨rest, hspend⟩ := Option.isSome_iff_exists.mp hreach
    have hanchors : footnoteAnchors.run d =
        (.ok (d.anchorPlaces.map fun i => .inBody i (i + 1)), { d with connection := rest }) :=
      run_see_eq_ok_iff.mpr ⟨rest, hspend, rfl, rfl⟩
    refine ⟨{ d with connection := rest }, run_bind_eq_ok_iff.mpr ⟨_, _, hanchors, ?_⟩⟩
    simp only [hfound.mpr hclear]
    rfl

/-- **With no line to report**, ranges that intersect are accepted. -/
theorem not_clearOf_of_checkOverlaps :
    (∃ d', (checkOverlaps [(.inBody 0 4, "a"), (.inBody 2 6, "b")] { overlapReportLimit := 0 }).run
        (Document.ofText "Paper" "Oaks grow.") = (.ok (), d')) ∧
      ¬ ((Document.ofText "Paper" "Oaks grow.").checkedRanges
        [(.inBody 0 4, "a"), (.inBody 2 6, "b")]).Pairwise (TextRange.ClearOf false) := by
  refine ⟨⟨Document.ofText "Paper" "Oaks grow.", ?_⟩, by decide +kernel⟩
  simp only [checkOverlaps, TextRange.findOverlaps_eq_take, List.take_zero]
  rfl

end DocumentM

end DocCite
