import DocCite.Proofs.Document.Loading
import DocCite.Proofs.Document.Rearranging
import Mathlib.Data.List.Sort

/-!
# Outlines of documents

The citations of a flow divide it: some text comes first, and then every citation has the text of
its mark and the text behind it, up to the next citation. The outline of a flow
(`Document.outline`) is read off the marks. Where marks keep apart, and do not even touch each other,
an arrangement of the document is put together from the outlines of its flows
(`exists_follows`), and in turn the outlines of a document are those that its arrangement follows
(`outline_eq`).
-/

namespace DocCite

/-- Sorting gives the one order of the elements that is strict. -/
theorem mergeSort_eq_of_perm {α : Type} {le : α → α → Bool} {l sorted : List α}
    (trans : ∀ a b c, le a b → le b c → le a c) (total : ∀ a b, le a b || le b a)
    (hperm : l.Perm sorted) (hsorted : sorted.Pairwise fun a b => le a b ∧ ¬ le b a) :
    l.mergeSort le = sorted := by
  have hall := (List.mergeSort_perm l le).trans hperm
  have hsymm : Std.Symm fun a b => ¬ (le a b = true ∧ le b a = true) := ⟨fun _ _ h h' => h h'.symm⟩
  have hstrict : sorted.Pairwise fun a b => ¬ (le a b = true ∧ le b a = true) :=
    hsorted.imp fun h h' => h.2 h'.2
  refine hall.eq_of_pairwise ?_
    (List.pairwise_mergeSort trans total l) (hsorted.imp And.left)
  intro a b ha hb hab hba
  by_contra hne
  exact hstrict.forall (hall.mem_iff.mp ha) hb hne ⟨hab, hba⟩

/-- A citation in a flow, with the text in its mark and the text behind it, up to the next
citation. -/
structure Passage where
  group : CitationGroup
  inside : List Char
  after : List Letter
  deriving DecidableEq, Repr

/-- A flow as its citations divide it. -/
structure Outline where
  /-- The text before the first citation. -/
  lead : List Letter
  passages : List Passage
  deriving DecidableEq, Repr

namespace CitationGroup

variable {name : String} {kind : CitationKind} {keys : List String} {pageInfo : Option String}

@[simp] theorem id_new : (new name kind keys pageInfo).id = name := rfl

@[simp] theorem kind_new : (new name kind keys pageInfo).kind = kind := rfl

@[simp] theorem pageInfo_new :
    (new name kind keys pageInfo).pageInfo = normalizePageInfo pageInfo := rfl

@[simp] theorem keys_new : (new name kind keys pageInfo).keys = keys := by
  rw [CitationGroup.keys, new, List.map_map]
  exact List.map_id _

end CitationGroup

namespace Passage

variable {p : Passage} {ps qs : List Passage}

/-- The pieces of a passage. -/
def pieces (p : Passage) : List Piece := .mark p.group.id p.inside :: p.after.map .letter

/-- The letters of a passage. -/
def letters (p : Passage) : List Letter := Piece.plain p.inside ++ p.after

/-- The pieces of passages. -/
def allPieces (ps : List Passage) : List Piece := ps.flatMap pieces

@[simp] theorem allPieces_nil : allPieces [] = [] := rfl

@[simp] theorem allPieces_cons :
    allPieces (p :: ps) = .mark p.group.id p.inside :: (p.after.map .letter ++ allPieces ps) := rfl

@[simp] theorem allPieces_append : allPieces (ps ++ qs) = allPieces ps ++ allPieces qs :=
  List.flatMap_append

@[simp] theorem spell_allPieces : Piece.spell (allPieces ps) = ps.flatMap letters := by
  induction ps with
  | nil => rfl
  | cons p ps ih => simp [ih, letters, Piece.letters]

@[simp] theorem width_allPieces : Piece.width (allPieces ps) = (ps.flatMap letters).length := by
  rw [Piece.width, spell_allPieces]

@[simp] theorem names_allPieces : Piece.names (allPieces ps) = ps.map fun p => p.group.id := by
  induction ps with
  | nil => rfl
  | cons p ps ih => simp [ih]

/-- Every passage but the last one has text behind its citation. -/
def Spaced (ps : List Passage) : Prop := ps.IsChain fun p _ => p.after ≠ []

/-- Passages stay spaced when others with the same text behind them come in the place of some. -/
theorem Spaced.exchange {before init init' behind : List Passage} {last last' : Passage}
    (h : Spaced (before ++ (init ++ [last]) ++ behind)) (h' : Spaced (init' ++ [last']))
    (hafter : last'.after = last.after) : Spaced (before ++ (init' ++ [last']) ++ behind) := by
  obtain ⟨hfirst, hbehind, hjoin⟩ := List.isChain_append.mp h
  obtain ⟨hbefore, -, hstart⟩ := List.isChain_append.mp hfirst
  refine List.isChain_append.mpr ⟨List.isChain_append.mpr ⟨hbefore, h', ?_⟩, hbehind, ?_⟩
  · intro x hx y _
    cases init with
    | nil => exact hstart x hx last rfl
    | cons first init => exact hstart x hx first rfl
  · intro x hx y hy
    rw [← List.append_assoc, List.getLast?_concat, Option.mem_some_iff] at hx
    rw [← hx, hafter]
    exact hjoin last (by simp) y hy

/-- Before a spaced passage pieces end open. -/
theorem endsOpen_of_spaced {lead : List Letter} (h : Spaced (ps ++ p :: qs)) :
    Piece.EndsOpen (lead.map .letter ++ allPieces ps) := by
  rcases List.eq_nil_or_concat ps with rfl | ⟨init, last, rfl⟩
  · rw [allPieces_nil, List.append_nil]
    exact Piece.endsOpen_nil.append_letters lead
  · rw [List.concat_eq_append, List.append_assoc, List.singleton_append] at h
    have hlast : last.after ≠ [] := (List.isChain_append_cons_cons.mp h).2.1
    have hopen : Piece.EndsOpen (lead.map .letter ++
        (allPieces init ++ [.mark last.group.id last.inside]) ++ last.after.map .letter) :=
      Piece.endsOpen_append_of_ne_nil hlast
    simpa using hopen

/-- The ranges of the citations of passages that start at a place. -/
def rangesFrom (flow : Flow) : Nat → List Passage → List (CitationGroup × TextRange)
  | _, [] => []
  | i, p :: ps =>
    (p.group, .new flow i (i + p.inside.length)) ::
      rangesFrom flow (i + p.inside.length + p.after.length) ps

theorem marksFrom_allPieces (flow : Flow) (i : Nat) (ps : List Passage) :
    Piece.marksFrom flow i (allPieces ps) = (rangesFrom flow i ps).map fun c => (c.1.id, c.2) := by
  induction ps generalizing i with
  | nil => rfl
  | cons p ps ih =>
    simp only [allPieces_cons, Piece.marksFrom, rangesFrom, List.map_cons,
      Piece.marksFrom_append, Piece.marksFrom_map_letter, List.nil_append, Piece.width_map_letter,
      ih]

/-- The ranges of passages lie behind their start. -/
theorem le_start_of_mem_rangesFrom {flow : Flow} {i : Nat} {c : CitationGroup × TextRange}
    (h : c ∈ rangesFrom flow i ps) : i ≤ c.2.start := by
  induction ps generalizing i with
  | nil => cases h
  | cons p ps ih =>
    rcases List.mem_cons.mp h with rfl | hrest
    · simp
    · exact Nat.le_trans (by omega) (ih hrest)

/-- The ranges are of the groups of the passages, in the flow. -/
theorem of_mem_rangesFrom {flow : Flow} {i : Nat} {c : CitationGroup × TextRange}
    (h : c ∈ rangesFrom flow i ps) : c.2.flow = flow ∧ ∃ p ∈ ps, p.group = c.1 := by
  induction ps generalizing i with
  | nil => cases h
  | cons p ps ih =>
    rcases List.mem_cons.mp h with rfl | hrest
    · exact ⟨rfl, p, List.mem_cons_self, rfl⟩
    · obtain ⟨hflow, q, hq, hgroup⟩ := ih hrest
      exact ⟨hflow, q, List.mem_cons_of_mem _ hq, hgroup⟩

/-- Spaced passages have their citations at different places, one after another. -/
theorem pairwise_rangesFrom (hspaced : Spaced ps) (flow : Flow) (i : Nat) :
    (rangesFrom flow i ps).Pairwise fun a b => a.2.start < b.2.start := by
  induction ps generalizing i with
  | nil => exact List.Pairwise.nil
  | cons p ps ih =>
    refine List.pairwise_cons.mpr ⟨fun c hc => ?_, ih hspaced.of_cons _⟩
    cases ps with
    | nil => cases hc
    | cons q ps =>
      have hafter : 0 < p.after.length :=
        List.length_pos_iff.mpr (List.isChain_cons_cons.mp hspaced).1
      have hle := le_start_of_mem_rangesFrom hc
      simp only [TextRange.start_new]
      omega

/-! ## Cutting letters into passages -/

/-- Where the first of some citations starts, or the end of the text if there is none. -/
def nextStart (letters : List Letter) : List (CitationGroup × TextRange) → Nat
  | [] => letters.length
  | c :: _ => c.2.start

/-- The passages of letters for citations in the order of the text. -/
def cut (letters : List Letter) : List (CitationGroup × TextRange) → List Passage
  | [] => []
  | c :: rest =>
    { group := c.1
      inside := ((letters.take c.2.stop).drop c.2.start).map Letter.char
      after := (letters.take (nextStart letters rest)).drop c.2.stop } :: cut letters rest

theorem nextStart_rangesFrom (flow : Flow) (before : List Letter) (ps : List Passage) :
    nextStart (before ++ ps.flatMap letters) (rangesFrom flow before.length ps) = before.length := by
  cases ps with
  | nil => simp [rangesFrom, nextStart]
  | cons p ps => simp [rangesFrom, nextStart]

/-- Passages are cut from their letters. -/
theorem cut_rangesFrom (flow : Flow) (before : List Letter) (ps : List Passage) :
    cut (before ++ ps.flatMap letters) (rangesFrom flow before.length ps) = ps := by
  induction ps generalizing before with
  | nil => rfl
  | cons p ps ih =>
    have hbehind : before ++ (p :: ps).flatMap letters =
        (before ++ p.letters) ++ ps.flatMap letters := by simp
    have hplace : (before ++ p.letters).length =
        before.length + p.inside.length + p.after.length := by
      simp [letters, Nat.add_assoc]
    have hrest := ih (before ++ p.letters)
    have hnext := nextStart_rangesFrom flow (before ++ p.letters) ps
    rw [hplace] at hrest hnext
    rw [hbehind, rangesFrom, cut, hrest, hnext]
    have hinside : (((before ++ p.letters ++ ps.flatMap letters).take
        (before.length + p.inside.length)).drop before.length).map Letter.char = p.inside := by
      rw [letters, ← List.append_assoc, List.append_assoc (before ++ _),
        List.take_left' (by simp), List.drop_left' rfl, Piece.map_char_plain]
    have hafter : (((before ++ p.letters ++ ps.flatMap letters).take
        (before.length + p.inside.length + p.after.length)).drop
          (before.length + p.inside.length)) = p.after := by
      rw [List.take_left' hplace, letters, ← List.append_assoc, List.drop_left' (by simp)]
    simp only [TextRange.start_new, TextRange.stop_new, Nat.min_eq_left (Nat.le_add_right _ _),
      Nat.max_eq_right (Nat.le_add_right _ _), hinside, hafter]

/-- Citations with their ranges can be cut out of letters when the ranges are inside, in order, do
not touch, and hold no anchors. -/
structure Cuttable (letters : List Letter) (flow : Flow) (cs : List (CitationGroup × TextRange)) :
    Prop where
  apart : cs.Pairwise fun a b => a.2.stop < b.2.start
  inside : ∀ c ∈ cs, c.2.flow = flow ∧ c.2.stop ≤ letters.length
  unanchored : ∀ c ∈ cs, ∀ l ∈ (letters.take c.2.stop).drop c.2.start, l.footnote = none

namespace Cuttable

variable {ls : List Letter} {flow : Flow} {c : CitationGroup × TextRange}
  {cs : List (CitationGroup × TextRange)}

theorem of_cons (h : Cuttable ls flow (c :: cs)) : Cuttable ls flow cs where
  apart := (List.pairwise_cons.mp h.apart).2
  inside c' hc' := h.inside c' (List.mem_cons_of_mem _ hc')
  unanchored c' hc' := h.unanchored c' (List.mem_cons_of_mem _ hc')

theorem nextStart_le (h : Cuttable ls flow cs) : nextStart ls cs ≤ ls.length := by
  cases cs with
  | nil => exact Nat.le_refl _
  | cons c cs =>
    exact Nat.le_trans c.2.start_le_stop (h.inside c List.mem_cons_self).2

/-- The next citation starts strictly behind, unless there is none. -/
theorem stop_le_nextStart (h : Cuttable ls flow (c :: cs)) :
    c.2.stop ≤ nextStart ls cs ∧ (cs ≠ [] → c.2.stop < nextStart ls cs) := by
  cases cs with
  | nil => exact ⟨(h.inside c List.mem_cons_self).2, fun hne => absurd rfl hne⟩
  | cons c' cs =>
    have hlt : c.2.stop < c'.2.start := (List.pairwise_cons.mp h.apart).1 c' List.mem_cons_self
    exact ⟨Nat.le_of_lt hlt, fun _ => hlt⟩

/-- What is cut out of letters is all of them from the first citation on. -/
theorem flatMap_letters_cut (h : Cuttable ls flow cs) :
    (cut ls cs).flatMap letters = ls.drop (nextStart ls cs) := by
  induction cs with
  | nil => simp [cut, nextStart]
  | cons c cs ih =>
    obtain ⟨hstop, -⟩ := h.stop_le_nextStart
    have hnext := h.of_cons.nextStart_le
    have hstart := c.2.start_le_stop
    have hplain : Piece.plain (((ls.take c.2.stop).drop c.2.start).map Letter.char) =
        (ls.take c.2.stop).drop c.2.start := by
      rw [Piece.plain, List.map_map]
      refine (List.map_congr_left fun l hl => ?_).trans (List.map_id _)
      have hnone := h.unanchored c List.mem_cons_self l hl
      cases l
      exact congrArg (Letter.mk _) hnone.symm
    have hjoin {a b : Nat} (hab : a ≤ b) (hb : b ≤ ls.length) :
        (ls.take b).drop a ++ ls.drop b = ls.drop a := by
      rw [← List.drop_append_of_le_length (by rw [List.length_take]; omega),
        List.take_append_drop]
    rw [cut, List.flatMap_cons, ih h.of_cons, letters, hplain, List.append_assoc,
      hjoin hstop hnext, hjoin hstart (by omega), nextStart]

/-- The citations stand in the passages where they were cut out. -/
theorem rangesFrom_cut (h : Cuttable ls flow cs) :
    rangesFrom flow (nextStart ls cs) (cut ls cs) = cs := by
  induction cs with
  | nil => rfl
  | cons c cs ih =>
    obtain ⟨hstop, -⟩ := h.stop_le_nextStart
    have hnext := h.of_cons.nextStart_le
    obtain ⟨hflow, -⟩ := h.inside c List.mem_cons_self
    have hstart := c.2.start_le_stop
    have hinside : c.2.start + (((ls.take c.2.stop).drop c.2.start).map Letter.char).length =
        c.2.stop := by
      rw [List.length_map, List.length_drop, List.length_take]
      omega
    have hafter : c.2.stop + ((ls.take (nextStart ls cs)).drop c.2.stop).length =
        nextStart ls cs := by
      rw [List.length_drop, List.length_take]
      omega
    have hrange : TextRange.new flow c.2.start c.2.stop = c.2 := by
      refine TextRange.eq_of_ends hflow.symm ?_ ?_ <;> simp [hstart]
    have hrest := ih h.of_cons
    rw [show nextStart ls (c :: cs) = c.2.start from rfl]
    simp only [cut, rangesFrom, hinside, hafter, hrange, hrest]

theorem spaced_cut (h : Cuttable ls flow cs) : Spaced (cut ls cs) := by
  induction cs with
  | nil => exact List.IsChain.nil
  | cons c cs ih =>
    cases cs with
    | nil => exact List.isChain_singleton _
    | cons c' cs =>
      have hlt := h.stop_le_nextStart.2 (List.cons_ne_nil _ _)
      have hnext := h.of_cons.nextStart_le
      refine List.isChain_cons_cons.mpr ⟨List.ne_nil_of_length_pos ?_, ih h.of_cons⟩
      rw [List.length_drop, List.length_take]
      omega

theorem group_mem_of_mem_cut {p : Passage} (h : p ∈ cut ls cs) : ∃ c ∈ cs, c.1 = p.group := by
  induction cs with
  | nil => cases h
  | cons c cs ih =>
    rcases List.mem_cons.mp h with rfl | hrest
    · exact ⟨c, List.mem_cons_self, rfl⟩
    · obtain ⟨c', hc', hgroup⟩ := ih hrest
      exact ⟨c', List.mem_cons_of_mem _ hc', hgroup⟩

end Cuttable

end Passage

namespace Outline

/-- The pieces of a flow. -/
def pieces (o : Outline) : List Piece := o.lead.map .letter ++ Passage.allPieces o.passages

end Outline

/-! ## Outlines that an arrangement follows -/

namespace Arrangement

open Passage

/-- The group that an arrangement has under a name. -/
def group? (L : Arrangement) (name : String) : Option CitationGroup :=
  (MarkName.parse? name).map fun n => CitationGroup.new name n.kind n.keys (L.property name)

/-- **An arrangement follows outlines**: its pieces are theirs, with the groups that they tell, and
no two marks touch. -/
structure Follows (L : Arrangement) (O : Flow → Outline) : Prop where
  pieces_eq : ∀ flow, L.pieces flow = (O flow).pieces
  group_eq : ∀ flow, ∀ p ∈ (O flow).passages, L.group? p.group.id = some p.group
  spaced : ∀ flow, Spaced (O flow).passages

variable {L : Arrangement} {O : Flow → Outline} {d : Document} {flow : Flow}

theorem id_of_group? {name : String} {g : CitationGroup} (h : L.group? name = some g) :
    g.id = name ∧ MarkedText.isCitation name = true := by
  obtain ⟨n, hn, rfl⟩ := Option.map_eq_some_iff.mp h
  exact ⟨rfl, by rw [MarkedText.isCitation, hn]; rfl⟩

/-- The groups of an arrangement are those of the documents that it describes. -/
theorem Describes.group?_eq (h : L.Describes d) (name : String) :
    L.group? name = CitationGroup.named? d.properties name := by
  rw [group?, CitationGroup.named?]
  cases hn : MarkName.parse? name with
  | none => rfl
  | some n => rw [h.property_eq name (by rw [MarkedText.isCitation, hn]; rfl)]

theorem Follows.marksIn_eq (h : L.Follows O) (flow : Flow) :
    L.marksIn flow =
      (rangesFrom flow (O flow).lead.length (O flow).passages).map fun c => (c.1.id, c.2) := by
  rw [marksIn, h.pieces_eq, Outline.pieces, Piece.marksFrom_append, Piece.marksFrom_map_letter,
    List.nil_append, marksFrom_allPieces, Piece.width_map_letter, Nat.zero_add]

end Arrangement

/-! ## The outlines of a document -/

namespace Document

open Passage

/-- The letters of a flow. -/
def letters (d : Document) (flow : Flow) : List Letter := ((d.cells? flow).getD []).map Cell.letter

/-- The group of a mark in a flow, with the range of the mark. -/
def citationIn? (d : Document) (flow : Flow) (m : String × TextRange) :
    Option (CitationGroup × TextRange) :=
  if m.2.flow = flow then (CitationGroup.named? d.properties m.1).map (·, m.2) else none

/-- The citations of a flow with the ranges of their marks, in the order of the text. -/
def citationsIn (d : Document) (flow : Flow) : List (CitationGroup × TextRange) :=
  (d.marks.filterMap (d.citationIn? flow)).mergeSort fun a b => a.2.start ≤ b.2.start

/-- The outline of a flow. -/
def outline (d : Document) (flow : Flow) : Outline where
  lead := (d.letters flow).take (nextStart (d.letters flow) (d.citationsIn flow))
  passages := cut (d.letters flow) (d.citationsIn flow)

variable {d : Document} {flow : Flow}

theorem citationIn?_eq_some_iff {m : String × TextRange} {c : CitationGroup × TextRange} :
    d.citationIn? flow m = some c ↔
      m.2.flow = flow ∧ CitationGroup.named? d.properties m.1 = some c.1 ∧ m.2 = c.2 := by
  unfold citationIn?
  split_ifs with hflow
  · rw [Option.map_eq_some_iff]
    constructor
    · rintro ⟨g, hg, rfl⟩
      exact ⟨hflow, hg, rfl⟩
    · rintro ⟨-, hg, hr⟩
      exact ⟨c.1, hg, by rw [hr]⟩
  · simp [hflow]

/-- No citation is there twice. -/
theorem nodup_citationsIn (hd : d.WellFormed) (flow : Flow) : (d.citationsIn flow).Nodup := by
  refine (List.mergeSort_perm _ _).nodup_iff.mpr ?_
  refine hd.marks_nodup.of_map.filterMap fun m m' c hc hc' => ?_
  obtain ⟨-, hg, hr⟩ := citationIn?_eq_some_iff.mp hc
  obtain ⟨-, hg', hr'⟩ := citationIn?_eq_some_iff.mp hc'
  have hname := (CitationGroup.id_of_named? hg).1
  have hname' := (CitationGroup.id_of_named? hg').1
  exact Prod.ext (hname.symm.trans hname') (hr.trans hr'.symm)

/-- The citations of a flow are those of its marks that name one. -/
theorem mem_citationsIn_iff {c : CitationGroup × TextRange} :
    c ∈ d.citationsIn flow ↔
      (c.1.id, c.2) ∈ d.marks ∧ c.2.flow = flow ∧
        CitationGroup.named? d.properties c.1.id = some c.1 := by
  rw [citationsIn, List.mem_mergeSort, List.mem_filterMap]
  constructor
  · rintro ⟨m, hm, hc⟩
    obtain ⟨hflow, hg, hr⟩ := citationIn?_eq_some_iff.mp hc
    have hid := (CitationGroup.id_of_named? hg).1
    rw [← hr, hid]
    exact ⟨hm, hflow, hg⟩
  · rintro ⟨hm, hflow, hg⟩
    exact ⟨_, hm, citationIn?_eq_some_iff.mpr ⟨hflow, hg, rfl⟩⟩

/-- A mark has one citation. -/
theorem eq_of_id_eq (hd : d.WellFormed) {a b : CitationGroup × TextRange}
    (ha : a ∈ d.citationsIn flow) (hb : b ∈ d.citationsIn flow) (hid : a.1.id = b.1.id) :
    a = b := by
  obtain ⟨hma, -, hga⟩ := mem_citationsIn_iff.mp ha
  obtain ⟨hmb, -, hgb⟩ := mem_citationsIn_iff.mp hb
  rw [← hid] at hmb hgb
  have hra := (Keyed.get?_eq_some_iff hd.marks_nodup).mpr hma
  have hrb := (Keyed.get?_eq_some_iff hd.marks_nodup).mpr hmb
  exact Prod.ext (Option.some.inj (hga.symm.trans hgb)) (Option.some.inj (hra.symm.trans hrb))

end Document

namespace Arrangement

open Passage Document

variable {L : Arrangement} {O : Flow → Outline} {d : Document}

/-- The citations of a flow are found where the passages have them. -/
theorem Follows.citationsIn_eq (h : L.Follows O) (hL : L.Describes d) (flow : Flow) :
    d.citationsIn flow = rangesFrom flow (O flow).lead.length (O flow).passages := by
  have hd := hL.wellFormed
  have hstrict := pairwise_rangesFrom (h.spaced flow) flow (O flow).lead.length
  have hmem (c : CitationGroup × TextRange) :
      c ∈ d.marks.filterMap (d.citationIn? flow) ↔
        c ∈ rangesFrom flow (O flow).lead.length (O flow).passages := by
    rw [← List.mem_mergeSort]
    refine mem_citationsIn_iff.trans ⟨?_, fun hc => ?_⟩
    · rintro ⟨hm, hflow, hg⟩
      have hin : (c.1.id, c.2) ∈ L.marksIn c.2.flow :=
        (hL.mem_marksIn c.1.id c.2).mpr ⟨(CitationGroup.id_of_named? hg).2,
          (Keyed.get?_eq_some_iff hd.marks_nodup).mpr hm⟩
      rw [hflow, h.marksIn_eq] at hin
      obtain ⟨c', hc', heq⟩ := List.mem_map.mp hin
      obtain ⟨hid, hr⟩ := Prod.mk.inj heq
      obtain ⟨-, p, hp, hgroup⟩ := of_mem_rangesFrom hc'
      have hpg := h.group_eq flow p hp
      rw [hL.group?_eq, hgroup, hid, hg, Option.some.injEq] at hpg
      rwa [show c = c' from Prod.ext hpg hr.symm]
    · obtain ⟨hflow, p, hp, hgroup⟩ := of_mem_rangesFrom hc
      have hin : (c.1.id, c.2) ∈ L.marksIn c.2.flow := by
        rw [hflow, h.marksIn_eq]
        exact List.mem_map_of_mem (f := fun c => (c.1.id, c.2)) hc
      have hget := ((hL.mem_marksIn c.1.id c.2).mp hin).2
      refine ⟨(Keyed.get?_eq_some_iff hd.marks_nodup).mp hget, hflow, ?_⟩
      rw [← hL.group?_eq, ← hgroup]
      exact h.group_eq flow p hp
  refine mergeSort_eq_of_perm (fun a b c => ?_) (fun a b => ?_) ?_ (hstrict.imp fun hlt => ?_)
  · simp only [decide_eq_true_eq]
    exact Nat.le_trans
  · simpa using Nat.le_total a.2.start b.2.start
  · refine (List.perm_ext_iff_of_nodup ?_ ?_).mpr hmem
    · exact (List.mergeSort_perm _ _).nodup_iff.mp (nodup_citationsIn hd flow)
    · exact hstrict.imp fun hlt heq => absurd (heq ▸ hlt) (Nat.lt_irrefl _)
  · simp only [decide_eq_true_eq]
    omega

/-- **The outlines of a document** are those that its arrangement follows. -/
theorem Follows.outline_eq (h : L.Follows O) (hL : L.Describes d) (flow : Flow) :
    d.outline flow = O flow := by
  have hletters : d.letters flow = (O flow).lead ++ (O flow).passages.flatMap Passage.letters := by
    rw [Document.letters, ← hL.spell_eq, h.pieces_eq, Outline.pieces]
    simp
  have hcut := cut_rangesFrom flow (O flow).lead (O flow).passages
  have hnext := nextStart_rangesFrom flow (O flow).lead (O flow).passages
  rw [Document.outline, h.citationsIn_eq hL, hletters, hcut, hnext, List.take_left' rfl]

end Arrangement

/-! ## Documents whose citations keep apart -/

namespace Document

open Passage

variable {d : Document}

/-- **The citation marks of a document are separate** when no two of them overlap or touch, and no
footnote is anchored in one. -/
structure Separated (d : Document) : Prop where
  apart : ∀ m ∈ d.marks, ∀ m' ∈ d.marks, MarkedText.isCitation m.1 = true →
    MarkedText.isCitation m'.1 = true → m.1 ≠ m'.1 → m.2.flow = m'.2.flow →
      m.2.stop < m'.2.start ∨ m'.2.stop < m.2.start
  unanchored : ∀ m ∈ d.marks, MarkedText.isCitation m.1 = true →
    ∀ c ∈ Cells.slice ((d.cells? m.2.flow).getD []) m.2.start m.2.stop, c.isAnchor = false

/-- The arrangement of a document by its outlines. -/
def arrangement (d : Document) : Arrangement where
  pieces flow := (d.outline flow).pieces
  property := d.properties.get?

theorem cuttable_citationsIn (hd : d.WellFormed) (hsep : d.Separated) (flow : Flow) :
    Cuttable (d.letters flow) flow (d.citationsIn flow) := by
  have hmem {c : CitationGroup × TextRange} (hc : c ∈ d.citationsIn flow) :=
    mem_citationsIn_iff.mp hc
  constructor
  case apart =>
    have hsorted : (d.citationsIn flow).Pairwise fun a b =>
        decide (a.2.start ≤ b.2.start) = true := by
      refine List.pairwise_mergeSort (fun a b c => ?_) (fun a b => ?_) _
      · simp only [decide_eq_true_eq]
        exact Nat.le_trans
      · simpa using Nat.le_total a.2.start b.2.start
    refine (hsorted.and (nodup_citationsIn hd flow)).imp_of_mem fun {a b} ha hb hab => ?_
    obtain ⟨hle, hne⟩ := hab
    obtain ⟨hma, hfa, hga⟩ := hmem ha
    obtain ⟨hmb, hfb, hgb⟩ := hmem hb
    have hids : a.1.id ≠ b.1.id := fun hid => hne (eq_of_id_eq hd ha hb hid)
    have hapart : a.2.stop < b.2.start ∨ b.2.stop < a.2.start :=
      hsep.apart _ hma _ hmb (CitationGroup.id_of_named? hga).2
        (CitationGroup.id_of_named? hgb).2 hids (hfa.trans hfb.symm)
    have hstop := b.2.start_le_stop
    simp only [decide_eq_true_eq] at hle
    omega
  case inside =>
    intro c hc
    obtain ⟨hm, hflow, -⟩ := hmem hc
    obtain ⟨cells, hcells, hstop⟩ := hd.marks_inside _ hm
    refine ⟨hflow, ?_⟩
    rw [letters, ← hflow, hcells, Option.getD_some, List.length_map]
    exact hstop
  case unanchored =>
    intro c hc l hl
    obtain ⟨hm, hflow, hg⟩ := hmem hc
    rw [letters, ← hflow, ← List.map_take, ← List.map_drop] at hl
    obtain ⟨cell, hcell, rfl⟩ := List.mem_map.mp hl
    exact Cell.footnote_letter (hsep.unanchored _ hm (CitationGroup.id_of_named? hg).2 cell hcell)

/-- **Where citations are separate, outlines make an arrangement** of the document. -/
theorem describes_arrangement (hd : d.WellFormed) (hsep : d.Separated)
    (hnone : d.bookmarks.get? MarkName.bibliographyBookmark = none) :
    d.arrangement.Describes d := by
  have hcut := cuttable_citationsIn hd hsep
  have hpieces (flow : Flow) : d.arrangement.pieces flow = (d.outline flow).pieces := rfl
  have hmarks (flow : Flow) : d.arrangement.marksIn flow =
      (d.citationsIn flow).map fun c => (c.1.id, c.2) := by
    rw [Arrangement.marksIn, hpieces, Outline.pieces, Piece.marksFrom_append,
      Piece.marksFrom_map_letter, List.nil_append, marksFrom_allPieces, Piece.width_map_letter,
      Nat.zero_add, outline, List.length_take, Nat.min_eq_left (hcut flow).nextStart_le,
      (hcut flow).rangesFrom_cut]
  constructor
  case wellFormed => exact hd
  case spell_eq =>
    intro flow
    rw [hpieces, Outline.pieces, Piece.spell_append, Piece.spell_map_letter,
      spell_allPieces, outline, (hcut flow).flatMap_letters_cut, List.take_append_drop]
    rfl
  case mem_marksIn =>
    intro name r
    rw [hmarks, List.mem_map, Keyed.get?_eq_some_iff hd.marks_nodup]
    constructor
    · rintro ⟨c, hc, heq⟩
      obtain ⟨rfl, rfl⟩ := Prod.mk.inj heq
      obtain ⟨hm, -, hg⟩ := mem_citationsIn_iff.mp hc
      exact ⟨(CitationGroup.id_of_named? hg).2, hm⟩
    · rintro ⟨hname, hm⟩
      obtain ⟨n, hn⟩ := Option.isSome_iff_exists.mp hname
      refine ⟨(CitationGroup.new name n.kind n.keys (d.properties.get? name), r),
        mem_citationsIn_iff.mpr ⟨hm, rfl, ?_⟩, rfl⟩
      simp [CitationGroup.named?, CitationGroup.new, hn]
  case nodup =>
    intro flow
    rw [hmarks, List.map_map]
    exact (nodup_citationsIn hd flow).map_on fun a ha b hb hid => eq_of_id_eq hd ha hb hid
  case property_eq => exact fun _ _ => rfl
  case noBibliography => exact hnone

theorem follows_arrangement (hd : d.WellFormed) (hsep : d.Separated)
    (hnone : d.bookmarks.get? MarkName.bibliographyBookmark = none) :
    d.arrangement.Follows d.outline where
  pieces_eq _ := rfl
  group_eq flow p hp := by
    obtain ⟨c, hc, hgroup⟩ := Cuttable.group_mem_of_mem_cut hp
    rw [(describes_arrangement hd hsep hnone).group?_eq, ← hgroup]
    exact (mem_citationsIn_iff.mp hc).2.2
  spaced flow := (cuttable_citationsIn hd hsep flow).spaced_cut

end Document

end DocCite
