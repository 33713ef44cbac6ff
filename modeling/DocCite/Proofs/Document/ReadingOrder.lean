import DocCite.Proofs.Citation.Reading
import DocCite.Proofs.Document.Loading
import Mathlib.Data.List.Sort
import Mathlib.Data.Prod.Lex

/-!
# The reading order is that of the text

Items are sorted twice: by where they are in the text, and, flow by flow, by where they are on the
screen. As the screen shows a text from its start to its end (`screenPoint_mono`), the second
sorting moves nothing, and the reading order is a matter of the text alone (`triple_readingOrder`).
-/

namespace DocCite

/-! ## Places on the screen -/

theorem lexLE_two {a b c d : Nat} :
    lexLE (· < ·) [a, b] [c, d] = true ↔ a < c ∨ a = c ∧ b ≤ d := by
  simp [lexLE, List.lex]
  omega

namespace Cells

theorem le_advance (width : Nat) (p : Nat × Nat) (c : Cell) :
    toLex p ≤ toLex (advance width p c) := by
  obtain ⟨line, column⟩ := p
  rw [Prod.Lex.toLex_le_toLex, advance]
  split
  · exact Or.inl (Nat.lt_succ_self line)
  · exact Or.inr ⟨rfl, Nat.le_succ column⟩

theorem le_foldl_advance (width : Nat) (p : Nat × Nat) (cells : List Cell) :
    toLex p ≤ toLex (cells.foldl (advance width) p) := by
  induction cells generalizing p with
  | nil => exact le_refl _
  | cons c cells ih => exact (le_advance width p c).trans (ih _)

/-- The line and the column go on with the text. -/
theorem lineAndColumn_mono (width : Nat) (cells : List Cell) {i j : Nat} (h : i ≤ j) :
    toLex (lineAndColumn width (cells.take i)) ≤ toLex (lineAndColumn width (cells.take j)) := by
  obtain ⟨k, rfl⟩ := Nat.exists_eq_add_of_le h
  rw [List.take_add, lineAndColumn, lineAndColumn, List.foldl_append]
  exact le_foldl_advance _ _ _

end Cells

namespace Document

variable {d : Document}

theorem page?_congr {a b : TextRange} {n : Nat} (ha : a.flow = .footnote n)
    (hb : b.flow = .footnote n) : d.page? a = d.page? b := by
  simp [page?, ha, hb]

/-- The lines of a flow come after each other on the screen. -/
theorem position_mono {a b : TextRange} (hflow : a.flow = b.flow) (h : a.start ≤ b.start) :
    toLex (d.position a) ≤ toLex (d.position b) := by
  cases hb : b.flow with
  | body =>
    simp only [position, hflow, hb]
    exact Cells.lineAndColumn_mono _ _ h
  | footnote n =>
    have hmono := Cells.lineAndColumn_mono d.lineWidth ((d.cells? (.footnote n)).getD []) h
    rw [Prod.Lex.toLex_le_toLex] at hmono ⊢
    simp only [position, hflow, hb, page?_congr (hflow.trans hb) hb]
    omega

/-- **The screen shows a text from its start to its end.** -/
theorem screenPoint_mono {a b : TextRange} (hflow : a.flow = b.flow) (h : a.start ≤ b.start) :
    lexLE (· < ·) [(d.screenPoint a).y, (d.screenPoint a).x]
      [(d.screenPoint b).y, (d.screenPoint b).x] = true := by
  have hmono := position_mono (d := d) hflow h
  rw [Prod.Lex.toLex_le_toLex] at hmono
  rw [lexLE_two]
  simp only [screenPoint]
  omega

end Document

theorem SameDocument.screenPoint {d d' : Document} (h : SameDocument d d') (r : TextRange) :
    d'.screenPoint r = d.screenPoint r := by
  simp only [Document.screenPoint, Document.position, Document.page?, Document.bodyPosition,
    Document.anchorPlace?, h.cells?, h.body, h.lineWidth, h.linesPerPage]

/-! ## The order of the text -/

namespace PlacedItem

variable {α : Type} {items : List (PlacedItem α)}

/-- Whether an item comes no later in the text than another one. -/
def comesFirst (a b : PlacedItem α) : Bool := lexLE (· < ·) a.key b.key

theorem comesFirst_iff {a b : PlacedItem α} :
    a.comesFirst b = true ↔
      a.sortRange.start < b.sortRange.start ∨ a.sortRange.start = b.sortRange.start ∧
        (a.sortRange.stop < b.sortRange.stop ∨ a.sortRange.stop = b.sortRange.stop ∧
          (a.range.start < b.range.start ∨ a.range.start = b.range.start ∧
            a.range.stop ≤ b.range.stop)) := by
  simp [comesFirst, lexLE, List.lex, key]
  omega

theorem comesFirst_trans (a b c : PlacedItem α) (h : a.comesFirst b = true)
    (h' : b.comesFirst c = true) : a.comesFirst c = true := by
  rw [comesFirst_iff] at h h' ⊢
  omega

theorem comesFirst_total (a b : PlacedItem α) : (a.comesFirst b || b.comesFirst a) = true := by
  rw [Bool.or_eq_true, comesFirst_iff, comesFirst_iff]
  omega

/-- The items that are ordered among those of one flow, in the order of the text. -/
def sortedIn (items : List (PlacedItem α)) (flow : Flow) : List (PlacedItem α) :=
  (items.filter fun p => p.sortRange.flow = flow).mergeSort comesFirst

/-- The flows beside the body that items are ordered in, as they first occur. -/
def looseFlows (items : List (PlacedItem α)) : List Flow :=
  ((items.map fun p => p.sortRange.flow).eraseDups).filter (· ≠ .body)

theorem mem_sortedIn {p : PlacedItem α} {flow : Flow} :
    p ∈ sortedIn items flow ↔ p ∈ items ∧ p.sortRange.flow = flow := by
  simp [sortedIn]

theorem pairwise_sortedIn (items : List (PlacedItem α)) (flow : Flow) :
    (sortedIn items flow).Pairwise fun a b => a.sortRange.start ≤ b.sortRange.start := by
  refine (List.pairwise_mergeSort comesFirst_trans comesFirst_total _).imp fun h => ?_
  rw [comesFirst_iff] at h
  omega

theorem nodup_looseFlows (items : List (PlacedItem α)) : (looseFlows items).Nodup :=
  (nodup_eraseDups _).filter _

theorem mem_looseFlows {flow : Flow} :
    flow ∈ looseFlows items ↔ flow ≠ .body ∧ ∃ p ∈ items, p.sortRange.flow = flow := by
  rw [looseFlows, List.mem_filter, List.mem_eraseDups, List.mem_map, and_comm, decide_eq_true_iff]

theorem inTextOrder_eq (items : List (PlacedItem α)) :
    inTextOrder items =
      ((((items.map fun p => p.sortRange.flow).eraseDups).filter (· = .body)) ++
        looseFlows items).map (sortedIn items) := by
  simp only [inTextOrder, TextRange.partitionByFlow, List.filter_map, ← List.map_append,
    List.map_map]
  refine List.map_congr_left fun flow _ => ?_
  refine congrArg (List.mergeSort · comesFirst) ?_
  rw [List.map_map]
  exact List.map_id _

/-- **The order of the text**: first come the items of the body and of what is anchored there, then
those of other flows. -/
theorem flatten_inTextOrder (items : List (PlacedItem α)) :
    (inTextOrder items).flatten =
      sortedIn items .body ++ (looseFlows items).flatMap (sortedIn items) := by
  have hbody : ((((items.map fun p => p.sortRange.flow).eraseDups).filter (· = .body)).map
      (sortedIn items)).flatten = sortedIn items .body := by
    rw [List.filter_eq]
    by_cases hmem : Flow.body ∈ (items.map fun p => p.sortRange.flow).eraseDups
    · rw [List.count_eq_one_of_mem (nodup_eraseDups _) hmem]
      simp
    · rw [List.count_eq_zero_of_not_mem hmem]
      refine (List.eq_nil_iff_forall_not_mem.mpr fun p hp => hmem ?_).symm
      obtain ⟨hitem, hflow⟩ := mem_sortedIn.mp hp
      exact List.mem_eraseDups.mpr (List.mem_map.mpr ⟨p, hitem, hflow⟩)
  rw [inTextOrder_eq, List.map_append, List.flatten_append, hbody, List.flatMap_def]

end PlacedItem

namespace Document

variable {α : Type} {d : Document}

/-- The anchor of a flow in the body. -/
def anchorOf (d : Document) : Flow → Option TextRange
  | .body => none
  | .footnote n => (d.anchorPlace? n).map fun i => .inBody i (i + 1)

/-- An item with the range that it is ordered by. -/
def placed (d : Document) (item : TextRange × α) : PlacedItem α :=
  ⟨item.2, item.1, (d.anchorOf item.1.flow).getD item.1⟩

/-- Items in the order of the text. -/
def inReadingOrder (d : Document) (items : List (TextRange × α)) : List α :=
  (PlacedItem.inTextOrder (items.map d.placed)).flatten.map PlacedItem.item

/-- What a range inside the text is ordered by begins inside the text, too. -/
theorem Inside.placed {item : TextRange × α} (h : d.Inside item.1) :
    d.Inside (d.placed item).sortRange.startPoint := by
  have hself : d.Inside item.1.startPoint := h.startPoint
  cases hflow : item.1.flow with
  | body => simpa [Document.placed, anchorOf, hflow] using hself
  | footnote n =>
    cases hplace : d.anchorPlace? n with
    | none => simpa [Document.placed, anchorOf, hflow, hplace] using hself
    | some i =>
      have hlt : i < d.body.length := (List.findIdx?_eq_some_iff_getElem.mp hplace).1
      simp only [Document.placed, anchorOf, hflow, hplace, Option.map_some, Option.getD_some]
      refine ⟨d.body, rfl, ?_⟩
      simp [TextRange.startPoint, TextRange.inBody]
      omega

end Document

namespace DocumentM

/-! ## Actions that tell something of a document -/

variable {α β γ : Type} {d₀ : Document}

/-- **An action tells something of a document**, and leaves the document the same; only a breaking
connection can stop it. -/
def Tells (d₀ : Document) (x : DocumentM α) (a : α) : Prop :=
  Triple (SameDocument d₀) x (fun b d => b = a ∧ SameDocument d₀ d)
    fun e d => d₀.Breaks e ∧ SameDocument d₀ d

namespace Tells

theorem pure (a : α) : Tells d₀ (Pure.pure a) a := Triple.pure fun _ hd => ⟨rfl, hd⟩

theorem bind {x : DocumentM α} {f : α → DocumentM β} {a : α} {b : β} (hx : Tells d₀ x a)
    (hf : Tells d₀ (f a) b) : Tells d₀ (x >>= f) b := by
  refine Triple.bind hx fun a' => .assume fun ha => ?_
  rw [ha]
  exact hf

theorem mapM {f : γ → DocumentM α} {g : γ → α} {l : List γ}
    (h : ∀ c ∈ l, Tells d₀ (f c) (g c)) : Tells d₀ (l.mapM f) (l.map g) := by
  induction l with
  | nil => exact pure _
  | cons c l ih =>
    rw [List.mapM_cons]
    exact bind (h c List.mem_cons_self)
      (bind (ih fun c' hc' => h c' (List.mem_cons_of_mem _ hc')) (pure _))

theorem see {f : Document → α} {a : α} (h : ∀ d, SameDocument d₀ d → f d = a) :
    Tells d₀ (DocumentM.see f) a := by
  have ha : a = f d₀ := (h d₀ (SameDocument.refl d₀)).symm
  rw [ha]
  exact triple_see fun d hd => (h d hd).trans ha

theorem text {r : TextRange} (hr : d₀.Inside r) :
    Tells d₀ (DocumentM.text r)
      (Cells.text (Cells.slice ((d₀.cells? r.flow).getD []) r.start r.stop)) := by
  obtain ⟨cells, hcells, hstop⟩ := hr
  have hunder {d : Document} (hd : SameDocument d₀ d) :
      d.textUnder r = .ok (Cells.text (Cells.slice cells r.start r.stop)) := by
    rw [Document.textUnder, Document.cellsAround_of_le (hd.cells? r.flow ▸ hcells) hstop]
    rfl
  refine (triple_look fun d hd => (hunder hd).trans (hunder (SameDocument.refl d₀)).symm).weaken
    (fun _ hd => hd) (fun a d hpost => ⟨?_, hpost.2⟩) fun e d hpost => ⟨?_, hpost.2⟩
  · rw [hcells, Option.getD_some]
    exact (Except.ok.inj (hpost.1.symm.trans (hunder (SameDocument.refl d₀))))
  · rcases hpost.1 with hbreaks | herror
    · exact hbreaks
    · cases herror.symm.trans (hunder (SameDocument.refl d₀))

theorem viewPosition {r : TextRange} (hr : d₀.Inside r) :
    Tells d₀ (DocumentM.viewPosition r) (d₀.screenPoint r) := by
  obtain ⟨cells, hcells, hstop⟩ := hr
  refine Triple.call (fun d c hc hd => hd.trans (sameDocument_connection hc)) (fun d hd => ?_)
    fun d hbroken hd => ⟨⟨rfl, fun h => hbroken (hd.steady.mp h)⟩, hd⟩
  rw [Document.cellsAround_of_le (hd.cells? r.flow ▸ hcells) hstop]
  exact ⟨hd.screenPoint r, hd.trans (sameDocument_selection d _)⟩

theorem placeItem (item : TextRange × α) : Tells d₀ (DocumentM.placeItem item) (d₀.placed item) := by
  have hanchor : Tells d₀ (anchorOf? item.1) (d₀.anchorOf item.1.flow) := by
    unfold anchorOf? Document.anchorOf
    cases item.1.flow with
    | body => exact pure _
    | footnote n => exact see fun d hd => by simp only [Document.anchorPlace?, hd.body]
  refine bind hanchor ?_
  unfold Document.placed
  cases d₀.anchorOf item.1.flow with
  | none => exact pure _
  | some anchor => exact pure _

/-- Items of one flow in the order of the text are so on the screen. -/
theorem sortByScreen {items : List (PlacedItem α)} {flow : Flow}
    (hinside : ∀ p ∈ items, d₀.Inside p.sortRange.startPoint)
    (hflow : ∀ p ∈ items, p.sortRange.flow = flow)
    (hsorted : items.Pairwise fun a b => a.sortRange.start ≤ b.sortRange.start) :
    Tells d₀ (DocumentM.sortByScreen items) (items.map PlacedItem.item) := by
  refine bind (mapM (g := fun p => (d₀.screenPoint p.sortRange.startPoint, p.item)) fun p hp =>
    bind (viewPosition (hinside p hp)) (pure _)) ?_
  have hscreen : (items.map fun p => (d₀.screenPoint p.sortRange.startPoint, p.item)).Pairwise
      fun a b => lexLE (· < ·) [a.1.y, a.1.x] [b.1.y, b.1.x] = true := by
    refine List.pairwise_map.mpr (hsorted.imp_of_mem fun {a b} ha hb hab => ?_)
    exact Document.screenPoint_mono ((hflow a ha).trans (hflow b hb).symm) hab
  rw [List.mergeSort_of_pairwise hscreen, List.map_map]
  exact pure _

/-- **Items are ordered by the screen as they are in the text.** -/
theorem orderByScreen {items : List (TextRange × α)} (hinside : ∀ item ∈ items, d₀.Inside item.1) :
    Tells d₀ (DocumentM.orderByScreen items) (d₀.inReadingOrder items) := by
  refine bind (mapM fun item _ => placeItem item) ?_
  rw [Document.inReadingOrder, List.map_flatten]
  refine bind (mapM (g := fun part => part.map PlacedItem.item) fun part hpart => ?_) (pure _)
  rw [PlacedItem.inTextOrder_eq] at hpart
  obtain ⟨flow, -, rfl⟩ := List.mem_map.mp hpart
  refine sortByScreen (fun p hp => ?_)
    (fun p hp => (PlacedItem.mem_sortedIn.mp hp).2) (PlacedItem.pairwise_sortedIn _ flow)
  obtain ⟨item, hitem, rfl⟩ := List.mem_map.mp (PlacedItem.mem_sortedIn.mp hp).1
  exact (hinside item hitem).placed

/-- Where the connection is steady, what is told is the outcome. -/
theorem run_eq {x : DocumentM α} {a : α} (h : Tells d₀ x a) (hsteady : d₀.connection = .steady) :
    (x.run d₀).1 = .ok a := by
  have hpost := h d₀ (SameDocument.refl d₀)
  cases hrun : x.run d₀ with
  | mk outcome d' =>
    rw [hrun] at hpost
    cases outcome with
    | ok b => rw [hpost.1]
    | error e => exact absurd hsteady hpost.1.2

end Tells

/-! ## The reading order -/

variable {items : List (TextRange × α)}

/-- **The reading order is that of the text**, where the cursor can go away and come back. -/
theorem triple_readingOrder {P : Document → Prop} {S : TextRange → Prop}
    {E : DocumentError → Document → Prop} (hinside : ∀ item ∈ items, d₀.Inside item.1)
    (hP : ∀ d, P d → SameDocument d₀ d)
    (hcursor : Triple P requireViewCursor (fun r d => S r ∧ SameDocument d₀ d) E)
    (hback : ∀ r, S r → Triple (SameDocument d₀) (setViewCursor r) (fun _ => SameDocument d₀) E)
    (hbreaks : ∀ e d, d₀.Breaks e → E e d) :
    Triple P (readingOrder items) (fun ids d => ids = d₀.inReadingOrder items ∧ SameDocument d₀ d)
      E := by
  unfold readingOrder
  split
  · next hempty =>
    rw [List.isEmpty_iff.mp hempty]
    exact Triple.pure fun d hd => ⟨rfl, hP d hd⟩
  · refine Triple.bind hcursor fun saved => .assume fun hsaved => ?_
    refine Triple.closing (Tells.orderByScreen hinside) (fun ids => .assume fun hids => ?_)
      fun e d hpost => hbreaks _ _ hpost.1
    exact (hback saved hsaved).weaken (fun _ hd => hd) (fun _ _ hd => ⟨hids, hd⟩) fun _ _ h => h

/-- A reading order that is found is that of the text. -/
theorem inReadingOrder_of_run {d d' : Document} {ids : List α}
    (hinside : ∀ item ∈ items, d₀.Inside item.1) (hd : SameDocument d₀ d)
    (hrun : (readingOrder items).run d = (.ok ids, d')) :
    ids = d₀.inReadingOrder items ∧ SameDocument d₀ d' := by
  refine Triple.of_ok (triple_readingOrder (P := SameDocument d₀) (S := fun _ => True)
    (E := fun _ _ => True) hinside (fun _ h => h) ?_ (fun r _ => ?_) fun _ _ _ => trivial) hd hrun
  · exact Triple.weaken (keeps_requireViewCursor (C := sameAs d₀) fun _ _ hd => hd)
      (fun _ h => h) (fun _ _ h => ⟨trivial, h⟩) fun _ _ _ => trivial
  · exact (keeps_setViewCursor (C := sameAs d₀) r).weaken_error fun _ _ _ => trivial

end DocumentM

/-! ## Documents at rest -/

/-- The document over a connection that does not break, with the cursor at its start. -/
def Document.atRest (d : Document) : Document :=
  { d with connection := .steady, selection := .text (.collapsed .body 0) }

namespace DocumentM

variable {α : Type}

/-- **At rest the reading order is found**, whatever there is to be read. -/
theorem run_readingOrder_atRest (d : Document) {items : List (TextRange × α)}
    (hinside : ∀ item ∈ items, d.Inside item.1) :
    ((readingOrder items).run d.atRest).1 = .ok (d.inReadingOrder items) := by
  let rests (d' : Document) : Prop :=
    d'.selection = .text (.collapsed .body 0) ∧ SameDocument d.atRest d'
  have hcursor : Triple rests requireViewCursor
      (fun r d' => r = .collapsed .body 0 ∧ SameDocument d.atRest d')
      fun e _ => d.atRest.Breaks e := by
    refine Triple.bind (Q := fun cursor d' => cursor = some (.collapsed .body 0) ∧
      SameDocument d.atRest d') ?_ fun cursor => .assume fun hsome => ?_
    · unfold viewCursor? see look
      refine Triple.call (fun d' c hc hd => ⟨hd.1, hd.2.trans (sameDocument_connection hc)⟩)
        (fun d' hd => ⟨by simp only [hd.1], hd.2⟩) fun d' hbroken hd => ?_
      exact absurd (hd.2.steady.mp rfl) hbroken
    · rw [hsome]
      exact Triple.pure fun d' hd => ⟨rfl, hd⟩
  have hback : Triple (SameDocument d.atRest) (setViewCursor (.collapsed .body 0))
      (fun _ => SameDocument d.atRest) fun e _ => d.atRest.Breaks e := by
    refine Triple.call (fun d' c hc hd => hd.trans (sameDocument_connection hc)) (fun d' hd => ?_)
      fun d' hbroken hd => absurd (hd.steady.mp rfl) hbroken
    rw [Document.cellsAround_of_le rfl (Nat.zero_le _)]
    exact hd.trans (sameDocument_selection d' _)
  have horder : Triple rests (readingOrder items)
      (fun ids d' => ids = d.atRest.inReadingOrder items ∧ SameDocument d.atRest d')
      fun e _ => d.atRest.Breaks e :=
    triple_readingOrder (S := fun r => r = .collapsed .body 0) hinside (fun _ hd => hd.2) hcursor
      (fun r hr => hr ▸ hback) fun _ _ h => h
  have hpost := horder d.atRest ⟨rfl, SameDocument.refl _⟩
  cases hrun : (readingOrder items).run d.atRest with
  | mk outcome d' =>
    rw [hrun] at hpost
    cases outcome with
    | ok ids => rw [hpost.1]; rfl
    | error e => exact absurd rfl hpost.2

end DocumentM

end DocCite
