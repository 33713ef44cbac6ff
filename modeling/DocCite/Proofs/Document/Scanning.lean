import DocCite.Document.Range
import Mathlib.Data.List.Basic

/-!
# Scans that stop at a limit

A search for overlaps scans flow after flow, the items of each by their starts and then by their
ends (`inFlow`), and stops where it would report too many. What it has found by then is the
beginning of what scans without a limit find (`findOverlaps_eq_take`), so what is said of all
overlaps is said of those that are reported.
-/

namespace DocCite.TextRange

variable {α β : Type} {touching : Bool} {limit : Nat}

/-! ## The order of a scan -/

theorem startsBefore_iff {a b : TextRange × α} :
    startsBefore a b = true ↔ a.1.start < b.1.start ∨
      a.1.start = b.1.start ∧ a.1.stop ≤ b.1.stop := by
  simp [startsBefore]

theorem startsBefore_trans (a b c : TextRange × α) (hab : startsBefore a b = true)
    (hbc : startsBefore b c = true) : startsBefore a c = true := by
  rw [startsBefore_iff] at *
  omega

theorem startsBefore_total (a b : TextRange × α) :
    (startsBefore a b || startsBefore b a) = true := by
  rw [Bool.or_eq_true, startsBefore_iff, startsBefore_iff]
  omega

/-- The items of a flow in the order of a scan. -/
def inFlow (flow : Flow) (items : List (TextRange × α)) : List (TextRange × α) :=
  (items.filter fun item => item.1.flow = flow).mergeSort startsBefore

theorem inFlow_perm (flow : Flow) (items : List (TextRange × α)) :
    (inFlow flow items).Perm (items.filter fun item => item.1.flow = flow) :=
  List.mergeSort_perm _ _

theorem mem_inFlow {flow : Flow} {items : List (TextRange × α)} {x : TextRange × α} :
    x ∈ inFlow flow items ↔ x ∈ items ∧ x.1.flow = flow := by
  rw [(inFlow_perm flow items).mem_iff, List.mem_filter, decide_eq_true_eq]

theorem pairwise_inFlow (flow : Flow) (items : List (TextRange × α)) :
    (inFlow flow items).Pairwise fun x y => startsBefore x y = true :=
  List.pairwise_mergeSort startsBefore_trans startsBefore_total _

/-! ## Scans with and without a limit -/

/-- The overlaps of sorted items of one flow with the item before them that reaches furthest. -/
def overlapsFrom (touching : Bool) :
    Option (TextRange × α) → List (TextRange × α) → List (Overlap α)
  | _, [] => []
  | none, item :: rest => overlapsFrom touching (some item) rest
  | some widest, item :: rest =>
    ((overlapKind? touching widest.1 item.1).map fun kind => ⟨kind, widest.2, item.2⟩).toList ++
      overlapsFrom touching (some (if widest.1.stop ≤ item.1.stop then item else widest)) rest

/-- All overlaps among items. -/
def allOverlaps (items : List (TextRange × α)) (touching : Bool) : List (Overlap α) :=
  (partitionByFlow items).flatMap fun part =>
    overlapsFrom touching none (part.2.mergeSort startsBefore)

theorem allOverlaps_eq_flatMap (items : List (TextRange × α)) (touching : Bool) :
    allOverlaps items touching = (items.map fun item => item.1.flow).eraseDups.flatMap fun flow =>
      overlapsFrom touching none (inFlow flow items) :=
  List.flatMap_map _ _ _

/-- How a scan ends that comes upon some things one by one: with all of them, or stopped with as
many as are allowed. -/
def upTo (limit : Nat) (all : List β) : Except (List β) (List β) :=
  if all.length ≤ limit then .ok all else .error (all.take limit)

theorem upTo_of_le {all : List β} (h : all.length ≤ limit) : upTo limit all = .ok all := if_pos h

/-- What comes after the limit does not count. -/
theorem upTo_append_of_lt {all : List β} (h : limit < all.length) (more : List β) :
    upTo limit (all ++ more) = .error (all.take limit) := by
  have hlong : ¬ (all ++ more).length ≤ limit := by
    rw [List.length_append]
    omega
  rw [upTo, if_neg hlong, List.take_append_of_le_length (Nat.le_of_lt h)]

/-- **A scan of one flow** adds its overlaps to those found before, up to the limit. -/
theorem scanFlow_eq {found : List (Overlap α)} (h : found.length ≤ limit)
    (widest : Option (TextRange × α)) (items : List (TextRange × α)) :
    scanFlow touching limit widest found items =
      upTo limit (found ++ overlapsFrom touching widest items) := by
  induction items generalizing widest found with
  | nil =>
    rw [overlapsFrom, List.append_nil, upTo_of_le h]
    cases widest <;> rfl
  | cons item rest ih =>
    cases widest with
    | none => exact ih h (some item)
    | some widest =>
      rw [scanFlow, overlapsFrom]
      cases overlapKind? touching widest.1 item.1 with
      | none => exact ih h _
      | some kind =>
        by_cases hfull : limit ≤ found.length
        · -- one more would be too many
          have hlength : found.length = limit := Nat.le_antisymm h hfull
          have hover : limit < (found ++ [⟨kind, widest.2, item.2⟩] : List (Overlap α)).length := by
            rw [List.length_append, List.length_singleton]
            omega
          have hmore := upTo_append_of_lt hover
          simp only [if_pos hfull, Option.map_some, Option.toList_some, ← List.append_assoc, hmore]
          rw [List.take_append_of_le_length hfull, ← hlength, List.take_length]
        · have hroom : (found ++ [⟨kind, widest.2, item.2⟩] : List (Overlap α)).length ≤ limit := by
            rw [List.length_append, List.length_singleton]
            omega
          simp only [if_neg hfull, Option.map_some, Option.toList_some, ← List.append_assoc]
          exact ih hroom _

/-- **Scans of one flow after another** end where the first of them is stopped. -/
theorem foldlM_scanFlow {found : List (Overlap α)} (h : found.length ≤ limit)
    (flows : List (List (TextRange × α))) :
    flows.foldlM (scanFlow touching limit none) found =
      upTo limit (found ++ flows.flatMap (overlapsFrom touching none)) := by
  induction flows generalizing found with
  | nil =>
    rw [List.flatMap_nil, List.append_nil, upTo_of_le h]
    rfl
  | cons flow flows ih =>
    rw [List.foldlM_cons, scanFlow_eq h, List.flatMap_cons, ← List.append_assoc]
    by_cases hfits : (found ++ overlapsFrom touching none flow).length ≤ limit
    · rw [upTo_of_le hfits]
      exact ih hfits
    · rw [upTo, if_neg hfits, upTo_append_of_lt (Nat.lt_of_not_le hfits)]
      rfl

/-- **What is reported is the beginning of all overlaps.** -/
theorem findOverlaps_eq_take (items : List (TextRange × α)) (touching : Bool) (limit : Nat) :
    findOverlaps items touching limit = (allOverlaps items touching).take limit := by
  have hscans : ((partitionByFlow items).map fun part => part.2.mergeSort startsBefore).foldlM
      (scanFlow touching limit none) [] = upTo limit (allOverlaps items touching) := by
    rw [foldlM_scanFlow (Nat.zero_le limit), allOverlaps, List.nil_append, List.flatMap_map]
  by_cases hfits : (allOverlaps items touching).length ≤ limit
  · rw [upTo_of_le hfits] at hscans
    simp only [findOverlaps, hscans]
    exact (List.take_of_length_le hfits).symm
  · rw [upTo, if_neg hfits] at hscans
    simp only [findOverlaps, hscans]

end DocCite.TextRange
