import DocCite.Proofs.Document.Evaluating
import DocCite.Proofs.Document.Outline

/-!
# Reading is sorting

The reading order is found by two sorts, one by places in the text and one by places on the screen.
Where every footnote is anchored and no two items have all places in common, both come down to the
one order in which the places increase. Neither the order in which the items are given nor the
layout has a part in it, and the document is left as it was (`readingOrder_sorts`).
-/

namespace DocCite

/-! ## Items anchored in the body -/

namespace PlacedItem

variable {α : Type} {a b : PlacedItem α}

/-- The key of an item is lower where it comes first and the other one does not. -/
theorem key_lt_iff : a.key < b.key ↔ a.comesFirst b = true ∧ ¬ b.comesFirst a = true := by
  rw [comesFirst_iff, comesFirst_iff]
  simp only [key, List.cons_lt_cons_iff, List.not_lt_nil, and_false, or_false]
  omega

/-- Items with the same places have the same key. -/
theorem key_eq_of_comesFirst (hab : a.comesFirst b = true) (hba : b.comesFirst a = true) :
    a.key = b.key := by
  rw [comesFirst_iff] at hab hba
  simp only [key, List.cons.injEq, and_true]
  omega

end PlacedItem

namespace Document

variable {α : Type} {d : Document} {items : List (TextRange × α)}

/-- A range has a place in the body: it is there, or in a footnote that is anchored there. -/
def Anchored (d : Document) (flow : Flow) : Prop := flow = .body ∨ (d.anchorOf flow).isSome = true

instance (d : Document) (flow : Flow) : Decidable (d.Anchored flow) :=
  inferInstanceAs (Decidable (_ ∨ _))

theorem Anchored.flow_sortRange {item : TextRange × α} (h : d.Anchored item.1.flow) :
    (d.placed item).sortRange.flow = .body := by
  rcases h with hbody | hanchor
  · simp [placed, anchorOf, hbody]
  obtain ⟨anchor, hsome⟩ := Option.isSome_iff_exists.mp hanchor
  have hflow : anchor.flow = .body := by
    cases hitem : item.1.flow with
    | body =>
      rw [hitem] at hsome
      cases hsome
    | footnote n =>
      rw [hitem, anchorOf] at hsome
      obtain ⟨i, -, rfl⟩ := Option.map_eq_some_iff.mp hsome
      exact TextRange.flow_new _ _ _
  simp only [placed, hsome, Option.getD_some, hflow]

/-- With all places in the body, one sort finds the reading order. -/
theorem inReadingOrder_of_anchored (h : ∀ item ∈ items, d.Anchored item.1.flow) :
    d.inReadingOrder items =
      ((items.map d.placed).mergeSort PlacedItem.comesFirst).map PlacedItem.item := by
  have hbody : ∀ p ∈ items.map d.placed, p.sortRange.flow = .body :=
    List.forall_mem_map.mpr fun item hitem => (h item hitem).flow_sortRange
  have hall : ((items.map d.placed).filter fun p => p.sortRange.flow = .body) =
      items.map d.placed :=
    List.filter_eq_self.mpr fun p hp => decide_eq_true (hbody p hp)
  have hloose : PlacedItem.looseFlows (items.map d.placed) = [] := by
    refine List.eq_nil_iff_forall_not_mem.mpr fun flow hflow => ?_
    obtain ⟨hne, p, hp, rfl⟩ := PlacedItem.mem_looseFlows.mp hflow
    exact hne (hbody p hp)
  rw [inReadingOrder, PlacedItem.flatten_inTextOrder, hloose, List.flatMap_nil, List.append_nil,
    PlacedItem.sortedIn, hall]

/-- The document with other lines and pages. -/
def laidOut (d : Document) (width length : Nat) : Document :=
  { d with lineWidth := width, linesPerPage := length }

/-- The order of the text has nothing to do with lines and pages. -/
theorem inReadingOrder_laidOut (d : Document) (width length : Nat)
    (items : List (TextRange × α)) :
    (d.laidOut width length).inReadingOrder items = d.inReadingOrder items := rfl

end Document

/-! ## Actions that select -/

namespace DocumentM

variable {α β γ : Type}

/-- Over a steady connection an action changes nothing but what is selected. -/
def OnlySelects (x : DocumentM α) : Prop :=
  ∀ d : Document, d.connection = .steady → ∃ s, (x.run d).2 = { d with selection := s }

namespace OnlySelects

theorem pure (a : α) : OnlySelects (Pure.pure a) := fun d _ => ⟨d.selection, rfl⟩

theorem bind {x : DocumentM α} {f : α → DocumentM β} (hx : OnlySelects x)
    (hf : ∀ a, OnlySelects (f a)) : OnlySelects (x >>= f) := by
  intro d hd
  obtain ⟨s, hs⟩ := hx d hd
  rw [run_bind]
  cases hrun : x.run d with
  | mk outcome d' =>
    rw [hrun] at hs
    cases outcome with
    | error e => exact ⟨s, hs⟩
    | ok a =>
      obtain rfl : d' = { d with selection := s } := hs
      exact hf a _ hd

theorem mapM {f : γ → DocumentM α} (hf : ∀ c, OnlySelects (f c)) (l : List γ) :
    OnlySelects (l.mapM f) := by
  induction l with
  | nil => exact pure _
  | cons c l ih =>
    rw [List.mapM_cons]
    exact (hf c).bind fun a => ih.bind fun as => pure _

theorem call {f : Document → Except DocumentError (α × Document)}
    (hf : ∀ d a d', f d = .ok (a, d') → ∃ s, d' = { d with selection := s }) :
    OnlySelects (DocumentM.call f) := by
  intro d hd
  rw [run_call_of_steady f hd]
  cases hrun : f d with
  | error e => exact ⟨d.selection, rfl⟩
  | ok r => exact hf d r.1 r.2 hrun

theorem see (f : Document → α) : OnlySelects (DocumentM.see f) :=
  call fun d a d' h => by
    cases h
    exact ⟨d.selection, rfl⟩

theorem viewPosition (r : TextRange) : OnlySelects (DocumentM.viewPosition r) :=
  call fun d a d' h => by
    cases hcells : d.cellsAround r with
    | error e =>
      rw [hcells] at h
      cases h
    | ok cells =>
      rw [hcells] at h
      cases h
      exact ⟨_, rfl⟩

theorem placeItem (item : TextRange × α) : OnlySelects (DocumentM.placeItem item) := by
  have hanchor : OnlySelects (anchorOf? item.1) := by
    unfold anchorOf?
    cases item.1.flow with
    | body => exact pure _
    | footnote n => exact see _
  refine hanchor.bind fun anchor => ?_
  cases anchor <;> exact pure _

theorem orderByScreen (items : List (TextRange × α)) :
    OnlySelects (DocumentM.orderByScreen items) :=
  (mapM placeItem items).bind fun _ =>
    (mapM (fun _ => (mapM (fun _ => (viewPosition _).bind fun _ => pure _) _).bind fun _ =>
      pure _) _).bind fun _ => pure _

end OnlySelects

/-! ## The reading order -/

variable {d : Document} {cursor : TextRange} {items : List (TextRange × α)}

/-- **The reading order is found and leaves the document as it was**, if its cursor is in the
text. -/
theorem run_readingOrder (hsteady : d.connection = .steady)
    (hselection : d.selection = .text cursor) (hcursor : d.Inside cursor)
    (hinside : ∀ item ∈ items, d.Inside item.1) :
    (readingOrder items).run d = (.ok (d.inReadingOrder items), d) := by
  unfold readingOrder
  split
  · next hempty =>
    rw [List.isEmpty_iff.mp hempty]
    rfl
  have hrequire : requireViewCursor.run d = (.ok cursor, d) := by
    have hview : viewCursor?.run d = (.ok (some cursor), d) := by
      unfold viewCursor? see look
      rw [run_call_of_steady _ hsteady]
      simp [hselection, Except.map]
    rw [requireViewCursor, run_bind, hview]
    rfl
  obtain ⟨s, hs⟩ := OnlySelects.orderByScreen items d hsteady
  have horder : (orderByScreen items).run d =
      (.ok (d.inReadingOrder items), { d with selection := s }) :=
    Prod.ext ((Tells.orderByScreen hinside).run_eq hsteady) hs
  -- the cursor is put back where it was found
  have hback : (setViewCursor cursor).run { d with selection := s } = (.ok (), d) := by
    obtain ⟨cells, hcells, hstop⟩ := hcursor
    unfold setViewCursor
    rw [run_call_of_steady _ (d := { d with selection := s }) hsteady,
      Document.cellsAround_of_le (d := { d with selection := s }) hcells hstop]
    simp only [← hselection]
    rfl
  rw [run_bind, hrequire]
  simp only [run_closing, horder, hback]

/-- **The reading order sorts by places in the text**: the range that counts, which is the anchor
of a footnote for what is in it, and then the range itself. The order of the items, the width of
lines and the length of pages do not matter, and the document is the same afterwards, with its
cursor. -/
theorem readingOrder_sorts (hsteady : d.connection = .steady)
    (hselection : d.selection = .text cursor) (hcursor : d.Inside cursor)
    (hinside : ∀ item ∈ items, d.Inside item.1)
    (hanchored : ∀ item ∈ items, d.Anchored item.1.flow)
    (hkeys : (items.map fun item => (d.placed item).key).Nodup) :
    ∃ sorted : List (TextRange × α), sorted.Perm items ∧
      (sorted.Pairwise fun a b => (d.placed a).key < (d.placed b).key) ∧
      ∀ items', items'.Perm items → ∀ width length,
        (readingOrder items').run (d.laidOut width length) =
          (.ok (sorted.map Prod.snd), d.laidOut width length) := by
  let first (a b : TextRange × α) : Bool := (d.placed a).comesFirst (d.placed b)
  have hperm : (items.mergeSort first).Perm items := List.mergeSort_perm items first
  have hsorted :
      (items.mergeSort first).Pairwise fun a b => (d.placed a).key < (d.placed b).key := by
    have hle : (items.mergeSort first).Pairwise fun a b => first a b = true :=
      List.pairwise_mergeSort (fun a b c => PlacedItem.comesFirst_trans (d.placed a) _ _)
        (fun a b => PlacedItem.comesFirst_total (d.placed a) _) items
    have hne : (items.mergeSort first).Pairwise fun a b => (d.placed a).key ≠ (d.placed b).key :=
      List.pairwise_map.mp ((hperm.map _).nodup_iff.mpr hkeys)
    exact (hle.and hne).imp fun ⟨h, hne⟩ =>
      PlacedItem.key_lt_iff.mpr ⟨h, fun h' => hne (PlacedItem.key_eq_of_comesFirst h h')⟩
  refine ⟨items.mergeSort first, hperm, hsorted, fun items' hitems' width length => ?_⟩
  have hmem {item : TextRange × α} (h : item ∈ items') : item ∈ items := hitems'.mem_iff.mp h
  have horder : d.inReadingOrder items' = (items.mergeSort first).map Prod.snd := by
    rw [Document.inReadingOrder_of_anchored fun item h => hanchored item (hmem h),
      mergeSort_eq_of_perm PlacedItem.comesFirst_trans PlacedItem.comesFirst_total
        ((hitems'.trans hperm.symm).map d.placed)
        (List.pairwise_map.mpr (hsorted.imp fun h => PlacedItem.key_lt_iff.mp h)), List.map_map]
    rfl
  have hrun := run_readingOrder (d := d.laidOut width length) hsteady hselection hcursor
    fun item h => hinside item (hmem h)
  rw [hrun, Document.inReadingOrder_laidOut, horder]

/-- A text with a footnote at its first word, and the cursor at its end. -/
def footnotedDocument : Document := (Document.ofText "Paper" "Oaks grow.").addFootnote 4 "See."

/-- Two words of the footnote, and one of the text behind it. -/
def footnotedItems : List (TextRange × String) :=
  [(.new (.footnote 1) 2 3, "b"), (.inBody 6 9, "c"), (.new (.footnote 1) 0 1, "a")]

theorem readingOrder_sorts_footnoted :
    footnotedDocument.connection = .steady ∧
      footnotedDocument.selection = .text (.collapsed .body 11) ∧
      footnotedDocument.Inside (.collapsed .body 11) ∧
      (∀ item ∈ footnotedItems, footnotedDocument.Inside item.1) ∧
      (∀ item ∈ footnotedItems, footnotedDocument.Anchored item.1.flow) ∧
      (footnotedItems.map fun item => (footnotedDocument.placed item).key).Nodup ∧
      ∀ items', items'.Perm footnotedItems → ∀ width length,
        (readingOrder items').run (footnotedDocument.laidOut width length) =
          (.ok ["a", "b", "c"], footnotedDocument.laidOut width length) := by
  have hinside : ∀ item ∈ footnotedItems, footnotedDocument.Inside item.1 := by decide +kernel
  have hanchored : ∀ item ∈ footnotedItems, footnotedDocument.Anchored item.1.flow := by
    decide +kernel
  have hkeys : (footnotedItems.map fun item => (footnotedDocument.placed item).key).Nodup := by
    decide +kernel
  have hselection : footnotedDocument.selection = .text (.collapsed .body 11) := by decide +kernel
  have hcursor : footnotedDocument.Inside (.collapsed .body 11) := by decide +kernel
  refine ⟨rfl, hselection, hcursor, hinside, hanchored, hkeys,
    fun items' hitems' width length => ?_⟩
  obtain ⟨sorted, hperm, hsorted, hrun⟩ :=
    readingOrder_sorts rfl hselection hcursor hinside hanchored hkeys
  -- there is one order in which the places increase
  have heq : sorted = [(.new (.footnote 1) 0 1, "a"), (.new (.footnote 1) 2 3, "b"),
      (.inBody 6 9, "c")] := by
    refine List.Perm.eq_of_pairwise (fun a b _ _ hab hba => absurd hba (lt_asymm hab)) hsorted
      (by decide +kernel) (hperm.trans (by decide +kernel))
  rw [hrun items' hitems' width length, heq]
  rfl

end DocumentM

end DocCite
