import DocCite.Document.Citing
import DocCite.Proofs.Document.ReadingOrder
import DocCite.Proofs.Document.Scanning
import DocCite.Proofs.Document.Sound
import Mathlib.Data.List.Sort

/-!
# Runs on given documents

What an action does to a given document is a matter of computing, but the kernel does not get
through `List.mergeSort`, which recurses on the lengths of its halves. The sorts of a run are
therefore exchanged for sorts by insertion, which recurse on the list (`mergeSort_eq_insertionSort`,
one equation for each order that items of documents are sorted by). That a document is well formed
and its citations are separate is decided.
-/

namespace DocCite

/-- An element is inserted where those end that it is behind. -/
theorem orderedInsert_append {α : Type} {le : α → α → Bool} {a : α} {before behind : List α}
    (hbefore : ∀ b ∈ before, le a b = false) (hbehind : ∀ b ∈ behind, le a b = true) :
    (before ++ behind).orderedInsert (fun x y => le x y = true) a = before ++ a :: behind := by
  induction before with
  | nil =>
    cases behind with
    | nil => rfl
    | cons b behind => exact if_pos (hbehind b List.mem_cons_self)
  | cons b before ih =>
    have hnot : ¬ le a b = true := Bool.eq_false_iff.mp (hbefore b List.mem_cons_self)
    have hrest := ih fun c hc => hbefore c (List.mem_cons_of_mem _ hc)
    rw [List.cons_append, List.orderedInsert_cons, if_neg hnot, hrest, List.cons_append]

/-- Sorting is inserting one element after another, in an order that is total. -/
theorem mergeSort_eq_insertionSort {α : Type} {le : α → α → Bool}
    (trans : ∀ a b c, le a b → le b c → le a c) (total : ∀ a b, le a b || le b a) (l : List α) :
    l.mergeSort le = l.insertionSort fun a b => le a b = true := by
  induction l with
  | nil => rw [List.mergeSort_nil, List.insertionSort_nil]
  | cons a l ih =>
    obtain ⟨before, behind, hsort, hrest, hbefore⟩ := List.mergeSort_cons trans total a l
    have hbehind : ∀ b ∈ behind, le a b = true := by
      have hsorted := List.pairwise_mergeSort trans total (a :: l)
      rw [hsort] at hsorted
      exact (List.pairwise_cons.mp (List.pairwise_append.mp hsorted).2.1).1
    rw [List.insertionSort_cons, ← ih, hrest, hsort]
    exact (orderedInsert_append (fun b hb => by simpa using hbefore b hb) hbehind).symm

namespace TextRange

variable {α : Type}

theorem mergeSort_startsBefore (items : List (TextRange × α)) :
    items.mergeSort startsBefore = items.insertionSort fun a b => startsBefore a b = true :=
  mergeSort_eq_insertionSort startsBefore_trans startsBefore_total items

end TextRange

namespace PlacedItem

variable {α : Type}

theorem mergeSort_key (items : List (PlacedItem α)) :
    (items.mergeSort fun a b => lexLE (· < ·) a.key b.key) =
      items.insertionSort fun a b => lexLE (· < ·) a.key b.key = true :=
  mergeSort_eq_insertionSort comesFirst_trans comesFirst_total items

theorem mergeSort_screenPoint (items : List (ScreenPoint × α)) :
    (items.mergeSort fun a b => lexLE (· < ·) [a.1.y, a.1.x] [b.1.y, b.1.x]) =
      items.insertionSort fun a b => lexLE (· < ·) [a.1.y, a.1.x] [b.1.y, b.1.x] = true := by
  refine mergeSort_eq_insertionSort (fun a b c => ?_) (fun a b => ?_) items
  · simp only [lexLE_two]
    omega
  · rw [Bool.or_eq_true, lexLE_two, lexLE_two]
    omega

end PlacedItem

namespace DocumentM

variable {α : Type}

theorem sortByScreen_eq : @sortByScreen α = fun items => do
    let placed ← items.mapM fun p => return (← viewPosition p.sortRange.startPoint, p.item)
    return (placed.insertionSort fun a b =>
      lexLE (· < ·) [a.1.y, a.1.x] [b.1.y, b.1.x] = true).map Prod.snd := by
  funext items
  simp only [sortByScreen, PlacedItem.mergeSort_screenPoint]

end DocumentM

/-- A run succeeds if its outcome says so. -/
theorem eq_ok_of_toOption {ε α σ : Type} {x : Except ε α × σ} {a : α}
    (h : x.1.toOption = some a) : x = (.ok a, x.2) := by
  obtain ⟨outcome, s⟩ := x
  cases outcome with
  | ok b =>
    cases h
    rfl
  | error e => cases h

/-! ## Documents of plain text -/

namespace Document

instance (d : Document) (r : TextRange) : Decidable (d.Inside r) :=
  decidable_of_iff ((d.cells? r.flow).any (fun cells => decide (r.stop ≤ cells.length)) = true) <| by
    simp [Inside, Option.any_eq_true]

instance (d : Document) : Decidable d.WellFormed :=
  decidable_of_iff ((d.marks.map Prod.fst).Nodup ∧ (∀ m ∈ d.marks, d.Inside m.2) ∧
      (d.bookmarks.map Prod.fst).Nodup ∧ ∀ b ∈ d.bookmarks, d.Inside b.2)
    ⟨fun h => ⟨h.1, h.2.1, h.2.2.1, h.2.2.2⟩, fun h => ⟨h.1, h.2, h.3, h.4⟩⟩

instance (d : Document) : Decidable d.Separated :=
  decidable_of_iff ((∀ m ∈ d.marks, ∀ m' ∈ d.marks, MarkedText.isCitation m.1 = true →
      MarkedText.isCitation m'.1 = true → m.1 ≠ m'.1 → m.2.flow = m'.2.flow →
        m.2.stop < m'.2.start ∨ m'.2.stop < m.2.start) ∧
      ∀ m ∈ d.marks, MarkedText.isCitation m.1 = true →
        ∀ c ∈ Cells.slice ((d.cells? m.2.flow).getD []) m.2.start m.2.stop, c.isAnchor = false)
    ⟨fun h => ⟨h.1, h.2⟩, fun h => ⟨h.1, h.2⟩⟩

/-- A document of plain texts with reference marks. -/
def ofPlain (body : String) (footnotes : List String) (marks : Keyed String TextRange) : Document :=
  let plain (s : String) : List Cell := s.toList.map fun c => { char := c }
  { title := "Paper", body := plain body, footnotes := footnotes.map plain, marks }

/-- Plain text anchors no footnotes, so well-formed documents of it are sound. -/
theorem sound_ofPlain {body : String} {footnotes : List String} {marks : Keyed String TextRange}
    (hd : (ofPlain body footnotes marks).WellFormed) : (ofPlain body footnotes marks).Sound := by
  have hplain (s : String) : ∀ c ∈ s.toList.map fun c => ({ char := c } : Cell),
      c.isAnchor = false := by
    intro c hc
    obtain ⟨x, -, rfl⟩ := List.mem_map.mp hc
    rfl
  refine sound_of_text hd (hplain body) fun cells hcells => ?_
  obtain ⟨s, -, rfl⟩ := List.mem_map.mp hcells
  exact hplain s

end Document

/-- References are numbered in the order in which they are cited. -/
def Style.numbered : Style :=
  { Style.blank with
    properties := [("IsNumberEntries", .bool true), ("IsSortByPosition", .bool true)] ++
      Style.defaultProperties }

end DocCite
