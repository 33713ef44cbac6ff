import DocCite.Proofs.Document.Outline
import DocCite.Proofs.Document.ReadingOrder

/-!
# Reading an arrangement

A document that an arrangement describes is read along the pieces of its body: a mark is read where
it stands, and at the anchor of a footnote the marks of the footnote are read (`Piece.read`). What
is in footnotes without an anchor comes last, one after another (`inReadingOrder_eq`).
-/

namespace DocCite

namespace Piece

/-- The names that are read at a piece: that of a mark, or those of an anchored footnote. -/
def read (inFootnote : Nat → List String) : Piece → List String
  | letter l => l.footnote.elim [] inFootnote
  | mark name _ => [name]

/-- No mark stands right behind another one. -/
def Parted (ps : List Piece) : Prop :=
  ps.IsChain fun a b => ∀ name inside, a = mark name inside → ∃ l, b = letter l

/-- The items that are ordered in the body, as its pieces follow each other from a place on. -/
def walk (M : Nat → List (String × TextRange)) : Nat → List Piece → List (PlacedItem String)
  | _, [] => []
  | i, letter l :: ps =>
    (l.footnote.elim [] M).map (fun m => ⟨m.1, m.2, .inBody i (i + 1)⟩) ++ walk M (i + 1) ps
  | i, mark name inside :: ps =>
    ⟨name, .inBody i (i + inside.length), .inBody i (i + inside.length)⟩ ::
      walk M (i + inside.length) ps

variable {M : Nat → List (String × TextRange)} {ps qs : List Piece} {i : Nat}

theorem parted_map_letter_append (ls : List Letter) (h : Parted ps) :
    Parted (ls.map letter ++ ps) := by
  induction ls with
  | nil => exact h
  | cons l ls ih =>
    rw [List.map_cons, List.cons_append, Parted, List.isChain_cons]
    refine ⟨fun _ _ _ _ heq => ?_, ih⟩
    cases heq

/-- Spaced passages are parted. -/
theorem parted_of_spaced {passages : List Passage} (h : Passage.Spaced passages)
    (lead : List Letter) : Parted (lead.map letter ++ Passage.allPieces passages) := by
  refine parted_map_letter_append lead ?_
  induction passages with
  | nil => exact List.IsChain.nil
  | cons p passages ih =>
    rw [Passage.allPieces_cons, Parted, List.isChain_cons]
    refine ⟨fun b hb name inside _ => ?_, parted_map_letter_append _ (ih h.of_cons)⟩
    cases hafter : p.after with
    | cons l ls =>
      rw [hafter] at hb
      exact ⟨l, (Option.some.inj hb).symm⟩
    | nil =>
      rw [hafter] at hb
      cases passages with
      | nil => cases hb
      | cons q passages => exact absurd hafter (List.isChain_cons_cons.mp h).1

theorem map_item_walk (M : Nat → List (String × TextRange)) (i : Nat) (ps : List Piece) :
    (walk M i ps).map PlacedItem.item = ps.flatMap (read fun n => (M n).map Prod.fst) := by
  induction ps generalizing i with
  | nil => rfl
  | cons a ps ih =>
    cases a with
    | mark name inside => exact congrArg (name :: ·) (ih _)
    | letter l =>
      rw [walk, List.map_append, ih, List.flatMap_cons, read, List.map_map]
      cases l.footnote <;> rfl

/-- What is walked over lies behind the start, and it covers something unless a mark comes first. -/
theorem bounds_of_mem_walk {x : PlacedItem String} (h : x ∈ walk M i ps) :
    x.sortRange.flow = .body ∧ i ≤ x.sortRange.start ∧
      (x.sortRange.stop ≤ i → ∃ name inside, ps.head? = some (mark name inside)) := by
  induction ps generalizing i with
  | nil => cases h
  | cons a ps ih =>
    have hle := x.sortRange.start_le_stop
    cases a with
    | mark name inside =>
      rcases List.mem_cons.mp h with rfl | hrest
      · exact ⟨rfl, by simp [TextRange.inBody], fun _ => ⟨name, inside, rfl⟩⟩
      · obtain ⟨hflow, hstart, -⟩ := ih hrest
        exact ⟨hflow, by omega, fun _ => ⟨name, inside, rfl⟩⟩
    | letter l =>
      rcases List.mem_append.mp h with hnote | hrest
      · obtain ⟨m, -, rfl⟩ := List.mem_map.mp hnote
        refine ⟨rfl, by simp [TextRange.inBody], fun hstop => ?_⟩
        simp only [TextRange.inBody, TextRange.stop_new] at hstop
        omega
      · obtain ⟨hflow, hstart, -⟩ := ih hrest
        exact ⟨hflow, by omega, fun hstop => by omega⟩

/-- **A walk goes forward**, each item strictly behind the one before it. -/
theorem pairwise_walk (hparted : Parted ps)
    (hM : ∀ n, (M n).Pairwise fun a b => a.2.start < b.2.start) :
    (walk M i ps).Pairwise fun a b => a.comesFirst b = true ∧ ¬ b.comesFirst a = true := by
  induction ps generalizing i with
  | nil => exact List.Pairwise.nil
  | cons a ps ih =>
    have hrest := ih (i := i + width [a]) hparted.of_cons
    cases a with
    | mark name inside =>
      rw [width_cons_mark, width_nil, Nat.add_zero] at hrest
      refine List.pairwise_cons.mpr ⟨fun x hx => ?_, hrest⟩
      obtain ⟨-, hstart, hstop⟩ := bounds_of_mem_walk hx
      have hforward : i + inside.length < x.sortRange.stop := by
        by_contra hnot
        obtain ⟨name', inside', hhead⟩ := hstop (Nat.le_of_not_lt hnot)
        obtain ⟨l, hl⟩ := (List.isChain_cons.mp hparted).1 _ hhead name inside rfl
        cases hl
      rw [PlacedItem.comesFirst_iff, PlacedItem.comesFirst_iff]
      simp only [TextRange.inBody, TextRange.start_new, TextRange.stop_new]
      omega
    | letter l =>
      rw [width_cons_letter, width_nil, Nat.add_zero] at hrest
      refine List.pairwise_append.mpr ⟨List.pairwise_map.mpr ?_, hrest, fun x hx y hy => ?_⟩
      · cases l.footnote with
        | none => exact List.Pairwise.nil
        | some n =>
          refine (hM n).imp fun hlt => ?_
          rw [PlacedItem.comesFirst_iff, PlacedItem.comesFirst_iff]
          simp
          omega
      · obtain ⟨m, -, rfl⟩ := List.mem_map.mp hx
        have hstart := (bounds_of_mem_walk hy).2.1
        rw [PlacedItem.comesFirst_iff, PlacedItem.comesFirst_iff]
        simp only [TextRange.inBody, TextRange.start_new, TextRange.stop_new]
        omega

/-- In a mark nothing is anchored. -/
theorem footnote_spell_mark (name : String) {inside : List Char} {k : Nat}
    (hk : k < inside.length) :
    (spell (mark name inside :: ps))[k]?.bind Letter.footnote = none := by
  rw [spell_cons, letters, List.getElem?_append_left (by simpa using hk)]
  simp [plain, hk]

/-- Behind a mark come the letters of the other pieces. -/
theorem getElem?_spell_mark (name : String) (inside : List Char) (k : Nat) :
    (spell (mark name inside :: ps))[inside.length + k]? = (spell ps)[k]? := by
  rw [spell_cons, letters, List.getElem?_append_right (by simp)]
  simp

/-- **A walk comes to every mark of the body, and to every mark of an anchored footnote.** -/
theorem mem_walk_iff {x : PlacedItem String} :
    x ∈ walk M i ps ↔
      ((x.item, x.range) ∈ marksFrom .body i ps ∧ x.sortRange = x.range) ∨
        ∃ k n, (spell ps)[k]?.bind Letter.footnote = some n ∧ (x.item, x.range) ∈ M n ∧
          x.sortRange = .inBody (i + k) (i + k + 1) := by
  induction ps generalizing i with
  | nil => simp [walk, marksFrom]
  | cons a ps ih =>
    cases a with
    | mark name inside =>
      rw [walk, List.mem_cons, ih, marksFrom, List.mem_cons]
      constructor
      · rintro (rfl | ⟨hmark, hsort⟩ | ⟨k, n, hk, hm, hsort⟩)
        · exact Or.inl ⟨Or.inl rfl, rfl⟩
        · exact Or.inl ⟨Or.inr hmark, hsort⟩
        · rw [← getElem?_spell_mark name inside] at hk
          exact Or.inr ⟨inside.length + k, n, hk, hm, by rw [hsort, Nat.add_assoc]⟩
      · rintro (⟨hhead | hmark, hsort⟩ | ⟨k, n, hk, hm, hsort⟩)
        · obtain ⟨hname, hrange⟩ := Prod.mk.inj hhead
          refine Or.inl ?_
          obtain ⟨item, range, sortRange⟩ := x
          simp only at hname hrange hsort
          rw [hsort, hname, hrange]
          rfl
        · exact Or.inr (Or.inl ⟨hmark, hsort⟩)
        · by_cases hlt : k < inside.length
          · rw [footnote_spell_mark name hlt] at hk
            cases hk
          · obtain ⟨j, rfl⟩ := Nat.exists_eq_add_of_le (Nat.le_of_not_lt hlt)
            rw [getElem?_spell_mark] at hk
            exact Or.inr (Or.inr ⟨j, n, hk, hm, by rw [hsort, ← Nat.add_assoc]⟩)
    | letter l =>
      rw [walk, List.mem_append, ih, marksFrom]
      constructor
      · rintro (hnote | ⟨hmark, hsort⟩ | ⟨k, n, hk, hm, hsort⟩)
        · obtain ⟨m, hm, rfl⟩ := List.mem_map.mp hnote
          cases hn : l.footnote with
          | none =>
            rw [hn] at hm
            cases hm
          | some n =>
            rw [hn] at hm
            exact Or.inr ⟨0, n, hn, hm, rfl⟩
        · exact Or.inl ⟨hmark, hsort⟩
        · exact Or.inr ⟨k + 1, n, hk, hm, by rw [hsort]; congr 1 <;> omega⟩
      · rintro (⟨hmark, hsort⟩ | ⟨k, n, hk, hm, hsort⟩)
        · exact Or.inr (Or.inl ⟨hmark, hsort⟩)
        · cases k with
          | zero =>
            have hn : l.footnote = some n := hk
            refine Or.inl (List.mem_map.mpr ⟨(x.item, x.range), ?_, ?_⟩)
            · rw [hn]
              exact hm
            · obtain ⟨item, range, sortRange⟩ := x
              simp only at hsort
              rw [hsort]
              rfl
          | succ k => exact Or.inr (Or.inr ⟨k, n, hk, hm, by rw [hsort]; congr 1 <;> omega⟩)

end Piece

/-! ## Anchors -/

/-- What is told once of a list is told of one place. -/
theorem eq_of_nodup_filterMap {α β : Type} {l : List α} {f : α → Option β}
    (h : (l.filterMap f).Nodup) {j k : Nat} {b : β} (hj : l[j]?.bind f = some b)
    (hk : l[k]?.bind f = some b) : j = k := by
  have hne {j k : Nat} (hlt : j < k) (hj : l[j]?.bind f = some b)
      (hk : l[k]?.bind f = some b) : False := by
    obtain ⟨a, ha, hfa⟩ := Option.bind_eq_some_iff.mp hj
    obtain ⟨a', ha', hfa'⟩ := Option.bind_eq_some_iff.mp hk
    obtain ⟨hj', rfl⟩ := List.getElem?_eq_some_iff.mp ha
    obtain ⟨hk', rfl⟩ := List.getElem?_eq_some_iff.mp ha'
    rw [List.Nodup, List.pairwise_filterMap] at h
    exact List.pairwise_iff_getElem.mp h j k hj' hk' hlt b hfa b hfa' rfl
  rcases Nat.lt_trichotomy j k with hlt | heq | hgt
  · exact (hne hlt hj hk).elim
  · exact heq
  · exact (hne hgt hk hj).elim

/-- **A footnote is anchored where a letter of the body says so.** -/
theorem Document.anchorPlace?_eq_some_iff {d : Document}
    (hanchors : ((d.letters .body).filterMap Letter.footnote).Nodup) {n k : Nat} :
    d.anchorPlace? n = some k ↔ (d.letters .body)[k]?.bind Letter.footnote = some n := by
  have hletters : d.letters .body = d.body.map Cell.letter := rfl
  have htold (j : Nat) (hj : j < d.body.length) :
      (d.letters .body)[j]?.bind Letter.footnote = some n ↔
        (d.body[j].role == .anchor n) = true := by
    rw [hletters, List.getElem?_map, List.getElem?_eq_getElem hj, Option.map_some,
      Option.bind_some, Cell.footnote_letter_eq_some_iff, beq_iff_eq]
  rw [anchorPlace?, List.findIdx?_eq_some_iff_getElem]
  constructor
  · rintro ⟨hk, hrole, -⟩
    exact (htold k hk).mpr hrole
  · intro htells
    have hk : k < d.body.length := by
      by_contra hnot
      rw [hletters, List.getElem?_eq_none (by simpa using hnot)] at htells
      cases htells
    refine ⟨hk, (htold k hk).mp htells, fun j hj hrole => ?_⟩
    have heq := eq_of_nodup_filterMap hanchors ((htold j (by omega)).mpr hrole) htells
    omega

/-- What is not ordered in the body is not anchored there, and is ordered by its own range. -/
theorem Document.sortRange_placed_of_ne {α : Type} {d : Document} {item : TextRange × α}
    (h : (d.placed item).sortRange.flow ≠ .body) :
    d.anchorOf item.1.flow = none ∧ (d.placed item).sortRange = item.1 := by
  cases hanchor : d.anchorOf item.1.flow with
  | none => exact ⟨rfl, by rw [placed, hanchor, Option.getD_none]⟩
  | some anchor =>
    refine absurd ?_ h
    rw [placed, hanchor, Option.getD_some]
    cases hflow : item.1.flow with
    | body =>
      rw [hflow] at hanchor
      cases hanchor
    | footnote n =>
      rw [hflow, anchorOf] at hanchor
      obtain ⟨i, -, rfl⟩ := Option.map_eq_some_iff.mp hanchor
      rfl

namespace Arrangement

open Piece PlacedItem

variable {L : Arrangement} {d : Document} {items : List (TextRange × String)}

/-- What is read in the body: the marks there, and those of each footnote at its anchor. -/
def walkBody (L : Arrangement) : List (PlacedItem String) :=
  walk (fun n => L.marksIn (.footnote n)) 0 (L.pieces .body)

/-- The walk over the body comes to the marks that are ordered there. -/
theorem Describes.mem_walkBody_iff (hL : L.Describes d)
    (hanchors : ((d.letters .body).filterMap Letter.footnote).Nodup) {x : PlacedItem String} :
    x ∈ L.walkBody ↔
      ((x.item, x.range) ∈ L.marksIn x.range.flow ∧ x = d.placed (x.range, x.item)) ∧
        x.sortRange.flow = .body := by
  obtain ⟨name, range, sortRange⟩ := x
  have hspell : spell (L.pieces .body) = d.letters .body := hL.spell_eq .body
  have hplaced : (⟨name, range, sortRange⟩ : PlacedItem String) = d.placed (range, name) ↔
      sortRange = (d.anchorOf range.flow).getD range := by
    simp [Document.placed]
  rw [walkBody, mem_walk_iff, hspell, hplaced]
  simp only [Nat.zero_add]
  constructor
  · rintro (⟨hmark, rfl⟩ | ⟨k, n, hk, hm, rfl⟩)
    · have hflow : sortRange.flow = .body := (bounds_of_mem_marksFrom hmark).1
      refine ⟨⟨?_, ?_⟩, hflow⟩
      · rw [hflow]
        exact hmark
      · rw [hflow]
        rfl
    · have hflow : range.flow = .footnote n := (bounds_of_mem_marksFrom hm).1
      refine ⟨⟨?_, ?_⟩, rfl⟩
      · rw [hflow]
        exact hm
      · rw [hflow, Document.anchorOf, (Document.anchorPlace?_eq_some_iff hanchors).mpr hk]
        rfl
  · rintro ⟨⟨hmark, rfl⟩, hbody⟩
    cases hflow : range.flow with
    | body =>
      rw [hflow] at hmark
      exact Or.inl ⟨hmark, rfl⟩
    | footnote n =>
      rw [hflow] at hmark hbody
      cases hplace : d.anchorPlace? n with
      | none =>
        simp only [Document.anchorOf, hplace, Option.map_none, Option.getD_none] at hbody
        cases hbody.symm.trans hflow
      | some k =>
        refine Or.inr ⟨k, n, (Document.anchorPlace?_eq_some_iff hanchors).mp hplace, hmark, ?_⟩
        simp only [Document.anchorOf, hplace, Option.map_some, Option.getD_some]

/-- Items are all marks with their ranges when they are those of the arrangement, each once. -/
structure ListsMarks (L : Arrangement) (items : List (TextRange × String)) : Prop where
  nodup : items.Nodup
  mem_iff : ∀ r name, (r, name) ∈ items ↔ (name, r) ∈ L.marksIn r.flow

theorem ListsMarks.mem_placed_iff (h : L.ListsMarks items) {x : PlacedItem String} :
    x ∈ items.map d.placed ↔
      (x.item, x.range) ∈ L.marksIn x.range.flow ∧ x = d.placed (x.range, x.item) := by
  rw [List.mem_map]
  constructor
  · rintro ⟨⟨r, name⟩, hitem, rfl⟩
    exact ⟨(h.mem_iff r name).mp hitem, rfl⟩
  · rintro ⟨hmark, heq⟩
    exact ⟨_, (h.mem_iff _ _).mpr hmark, heq.symm⟩

theorem ListsMarks.nodup_placed (h : L.ListsMarks items) (d : Document) :
    (items.map d.placed).Nodup := by
  refine h.nodup.map fun a b hab => ?_
  exact Prod.ext (congrArg PlacedItem.range hab) (congrArg PlacedItem.item hab)

/-- A sorted list is what it has to be if it goes strictly forward over the same items. -/
theorem ListsMarks.sortedIn_eq (h : L.ListsMarks items) {flow : Flow}
    {sorted : List (PlacedItem String)}
    (hmem : ∀ x, x ∈ sorted ↔
      ((x.item, x.range) ∈ L.marksIn x.range.flow ∧ x = d.placed (x.range, x.item)) ∧
        x.sortRange.flow = flow)
    (hsorted : sorted.Pairwise fun a b => a.comesFirst b = true ∧ ¬ b.comesFirst a = true) :
    sortedIn (items.map d.placed) flow = sorted := by
  refine mergeSort_eq_of_perm comesFirst_trans comesFirst_total ?_ hsorted
  refine (List.perm_ext_iff_of_nodup ((h.nodup_placed d).filter _) ?_).mpr fun x => ?_
  · refine hsorted.imp ?_
    rintro a _ ⟨hab, hba⟩ rfl
    exact hba hab
  · rw [List.mem_filter, h.mem_placed_iff, decide_eq_true_iff, hmem]

/-- The flows that are read last are those without an anchor that have marks. -/
theorem ListsMarks.mem_looseFlows_iff (h : L.ListsMarks items) {flow : Flow} :
    flow ∈ looseFlows (items.map d.placed) ↔
      flow ≠ .body ∧ d.anchorOf flow = none ∧ L.marksIn flow ≠ [] := by
  rw [mem_looseFlows, and_congr_right_iff]
  intro hbody
  constructor
  · rintro ⟨x, hx, rfl⟩
    obtain ⟨hmark, heq⟩ := h.mem_placed_iff.mp hx
    rw [heq] at hbody ⊢
    obtain ⟨hanchor, hsort⟩ := Document.sortRange_placed_of_ne hbody
    rw [hsort]
    exact ⟨hanchor, List.ne_nil_of_mem hmark⟩
  · rintro ⟨hanchor, hne⟩
    obtain ⟨m, hm⟩ := List.exists_mem_of_ne_nil _ hne
    have hflow : m.2.flow = flow := (bounds_of_mem_marksFrom hm).1
    refine ⟨d.placed (m.2, m.1), List.mem_map_of_mem ((h.mem_iff _ _).mpr (hflow ▸ hm)), ?_⟩
    simp [Document.placed, hflow, hanchor]

variable {O : Flow → Outline}

/-- The marks of a flow go forward. -/
theorem Follows.pairwise_marksIn (h : L.Follows O) (flow : Flow) :
    (L.marksIn flow).Pairwise fun a b => a.2.start < b.2.start := by
  rw [h.marksIn_eq]
  exact List.pairwise_map.mpr (Passage.pairwise_rangesFrom (h.spaced flow) flow _)

/-- **The reading order of a document**: along its body, with the footnotes where they are anchored,
and then through the other ones. -/
theorem Describes.inReadingOrder_eq (hL : L.Describes d) (h : L.Follows O)
    (hanchors : ((d.letters .body).filterMap Letter.footnote).Nodup)
    (hitems : L.ListsMarks items) :
    d.inReadingOrder items =
      (L.pieces .body).flatMap (Piece.read fun n => names (L.pieces (.footnote n))) ++
        (looseFlows (items.map d.placed)).flatMap fun flow => names (L.pieces flow) := by
  have hbody : sortedIn (items.map d.placed) .body = L.walkBody := by
    refine hitems.sortedIn_eq (fun x => hL.mem_walkBody_iff hanchors) (pairwise_walk ?_ ?_)
    · rw [h.pieces_eq]
      exact parted_of_spaced (h.spaced .body) _
    · exact fun n => h.pairwise_marksIn _
  have hloose : ∀ flow ∈ looseFlows (items.map d.placed),
      (sortedIn (items.map d.placed) flow).map PlacedItem.item = names (L.pieces flow) := by
    intro flow hflow
    obtain ⟨hne, hanchor, -⟩ := hitems.mem_looseFlows_iff.mp hflow
    have hsorted : sortedIn (items.map d.placed) flow =
        (L.marksIn flow).map fun m => ⟨m.1, m.2, m.2⟩ := by
      refine hitems.sortedIn_eq (fun x => ?_) (List.pairwise_map.mpr ?_)
      · obtain ⟨name, range, sortRange⟩ := x
        rw [List.mem_map]
        constructor
        · rintro ⟨m, hm, heq⟩
          cases heq
          have hrange : m.2.flow = flow := (bounds_of_mem_marksFrom hm).1
          exact ⟨⟨hrange ▸ hm, by simp [Document.placed, hrange, hanchor]⟩, hrange⟩
        · rintro ⟨⟨hmark, heq⟩, hsort⟩
          rw [heq] at hsort ⊢
          have hrange := (Document.sortRange_placed_of_ne (hsort ▸ hne)).2
          rw [hrange] at hsort
          refine ⟨(name, range), hsort ▸ hmark, ?_⟩
          rw [Document.placed, hsort, hanchor, Option.getD_none]
      · refine (h.pairwise_marksIn flow).imp fun hlt => ?_
        rw [comesFirst_iff, comesFirst_iff]
        simp only
        omega
    rw [hsorted, List.map_map, ← map_fst_marksFrom flow 0]
    rfl
  rw [Document.inReadingOrder, flatten_inTextOrder, List.map_append, hbody, walkBody, map_item_walk,
    List.map_flatMap, List.flatMap_congr hloose]
  simp only [marksIn, map_fst_marksFrom]

end Arrangement

end DocCite
