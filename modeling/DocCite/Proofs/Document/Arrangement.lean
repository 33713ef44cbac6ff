import DocCite.Proofs.Document.Filling
import DocCite.Proofs.Document.Outside
import DocCite.Proofs.Keyed
import Mathlib.Logic.Function.Basic

/-!
# Arrangements of documents

Where citations are joined and separated, whole marks come and go, and what counts is the order of
marks and text in each flow. An `Arrangement` spells each flow out in pieces, letters and citation marks,
and an edit of the document is an edit of a list of pieces: text is replaced between marks
(`Describes.replaceLetters`) or in one (`Describes.replaceInside`), and a mark comes
(`Describes.createMark`) or goes (`Describes.removeMark`) in its place. No place has to be counted
again after an edit, as places follow from the pieces before them.
-/

namespace DocCite

/-- A character of a text, with the footnote that it anchors. -/
structure Letter where
  char : Char
  footnote : Option Nat := none
  deriving DecidableEq, Repr

/-- The letter of a character of a document. -/
def Cell.letter (c : Cell) : Letter where
  char := c.char
  footnote :=
    match c.role with
    | .anchor n => some n
    | _ => none

theorem Cell.footnote_letter_eq_some_iff {c : Cell} {n : Nat} :
    c.letter.footnote = some n ↔ c.role = .anchor n := by
  cases hrole : c.role <;> simp [letter, hrole]

theorem Cell.footnote_letter {c : Cell} (h : c.isAnchor = false) : c.letter.footnote = none := by
  rw [Option.eq_none_iff_forall_ne_some]
  intro n hn
  rw [isAnchor, footnote_letter_eq_some_iff.mp hn] at h
  cases h

/-- A piece of a flow: a letter outside of citation marks, or a citation mark with its text, in
which nothing is anchored. -/
inductive Piece
  | letter (l : Letter)
  | mark (name : String) (inside : List Char)
  deriving DecidableEq, Repr

namespace Piece

/-- Characters that anchor nothing. -/
def plain (s : List Char) : List Letter := s.map fun c => { char := c }

/-- Pieces of plain text, as it is typed. -/
def typed (s : List Char) : List Piece := (plain s).map letter

/-- The letters of a piece. -/
def letters : Piece → List Letter
  | letter l => [l]
  | mark _ inside => plain inside

/-- The letters of pieces. -/
def spell (ps : List Piece) : List Letter := ps.flatMap letters

/-- How many characters pieces have. -/
def width (ps : List Piece) : Nat := (spell ps).length

/-- The ranges of the marks among pieces that start at a place of a flow. -/
def marksFrom (flow : Flow) : Nat → List Piece → List (String × TextRange)
  | _, [] => []
  | p, letter _ :: ps => marksFrom flow (p + 1) ps
  | p, mark name inside :: ps =>
    (name, .new flow p (p + inside.length)) :: marksFrom flow (p + inside.length) ps

/-- The names of the marks among pieces. -/
def names (ps : List Piece) : List String :=
  ps.filterMap fun a =>
    match a with
    | letter _ => none
    | mark name _ => some name

/-- No mark is the last of the pieces, so that none takes in what is typed behind them. -/
def EndsOpen (ps : List Piece) : Prop := ∀ name inside, ps.getLast? ≠ some (mark name inside)

variable {ps qs : List Piece} {s t : List Char} {flow : Flow} {p : Nat}

@[simp] theorem length_plain : (plain s).length = s.length := List.length_map _

@[simp] theorem plain_nil : plain [] = [] := rfl

@[simp] theorem plain_append : plain (s ++ t) = plain s ++ plain t := List.map_append

@[simp] theorem map_char_plain : (plain s).map Letter.char = s := by
  rw [plain, List.map_map]
  exact List.map_id _

@[simp] theorem spell_append : spell (ps ++ qs) = spell ps ++ spell qs := List.flatMap_append

@[simp] theorem spell_nil : spell [] = [] := rfl

@[simp] theorem spell_cons (a : Piece) : spell (a :: ps) = a.letters ++ spell ps := rfl

@[simp] theorem spell_map_letter (ls : List Letter) : spell (ls.map letter) = ls := by
  induction ls with
  | nil => rfl
  | cons l ls ih => rw [List.map_cons, spell_cons, ih]; rfl

@[simp] theorem spell_typed : spell (typed s) = plain s := spell_map_letter _

@[simp] theorem width_append : width (ps ++ qs) = width ps + width qs := by
  simp [width]

@[simp] theorem width_nil : width [] = 0 := rfl

@[simp] theorem width_cons_mark (name : String) :
    width (mark name s :: ps) = s.length + width ps := by
  simp [width, letters]

@[simp] theorem width_cons_letter (l : Letter) : width (letter l :: ps) = 1 + width ps := by
  simp [width, letters]
  omega

@[simp] theorem width_map_letter (ls : List Letter) : width (ls.map letter) = ls.length := by
  simp [width]

@[simp] theorem width_typed : width (typed s) = s.length := by
  simp [width]

@[simp] theorem typed_append : typed (s ++ t) = typed s ++ typed t := by
  simp [typed]

@[simp] theorem typed_nil : typed [] = [] := rfl

@[simp] theorem names_append : names (ps ++ qs) = names ps ++ names qs := List.filterMap_append

@[simp] theorem names_cons_mark (name : String) : names (mark name s :: ps) = name :: names ps := rfl

@[simp] theorem names_map_letter (ls : List Letter) : names (ls.map letter) = [] := by
  rw [names, List.filterMap_map]
  exact List.filterMap_eq_nil_iff.mpr fun _ _ => rfl

@[simp] theorem names_typed : names (typed s) = [] := names_map_letter _

theorem marksFrom_append :
    marksFrom flow p (ps ++ qs) = marksFrom flow p ps ++ marksFrom flow (p + width ps) qs := by
  induction ps generalizing p with
  | nil => rfl
  | cons a ps ih =>
    cases a with
    | letter l => simp only [List.cons_append, marksFrom, ih, width_cons_letter, Nat.add_assoc]
    | mark name inside =>
      simp only [List.cons_append, marksFrom, ih, width_cons_mark, Nat.add_assoc]

@[simp] theorem marksFrom_map_letter (ls : List Letter) : marksFrom flow p (ls.map letter) = [] := by
  induction ls generalizing p with
  | nil => rfl
  | cons l ls ih => exact ih

@[simp] theorem marksFrom_typed : marksFrom flow p (typed s) = [] := marksFrom_map_letter _

/-- The names of marks do not depend on where the pieces start. -/
theorem map_fst_marksFrom (flow : Flow) (p : Nat) (ps : List Piece) :
    (marksFrom flow p ps).map Prod.fst = names ps := by
  induction ps generalizing p with
  | nil => rfl
  | cons a ps ih =>
    cases a with
    | letter l => exact ih (p + 1)
    | mark name inside => exact congrArg (name :: ·) (ih _)

/-- A mark over a text is one more mark, and the others are where they are without it. -/
theorem perm_marksFrom_mark (flow : Flow) (p : Nat) (A B : List Piece) (name : String)
    (s : List Char) :
    (marksFrom flow p (A ++ mark name s :: B)).Perm
      ((name, .new flow (p + width A) (p + width A + s.length)) ::
        marksFrom flow p (A ++ typed s ++ B)) := by
  simp only [marksFrom_append, marksFrom, marksFrom_typed, List.append_nil, width_append,
    width_typed, ← Nat.add_assoc]
  exact List.perm_middle

/-- Nor does a mark change the text. -/
theorem spell_mark (A B : List Piece) (name : String) (s : List Char) :
    spell (A ++ mark name s :: B) = spell (A ++ typed s ++ B) := by
  simp [letters]

/-- Marks lie within their pieces. -/
theorem bounds_of_mem_marksFrom {m : String × TextRange} (h : m ∈ marksFrom flow p ps) :
    m.2.flow = flow ∧ p ≤ m.2.start ∧ m.2.stop ≤ p + width ps := by
  induction ps generalizing p with
  | nil => exact absurd h List.not_mem_nil
  | cons a ps ih =>
    cases a with
    | letter l =>
      obtain ⟨hflow, hstart, hstop⟩ := ih h
      rw [width_cons_letter]
      exact ⟨hflow, by omega, by omega⟩
    | mark name inside =>
      rw [width_cons_mark]
      rcases List.mem_cons.mp h with rfl | hrest
      · refine ⟨rfl, ?_, ?_⟩ <;> simp only [TextRange.start_new, TextRange.stop_new] <;> omega
      · obtain ⟨hflow, hstart, hstop⟩ := ih hrest
        exact ⟨hflow, by omega, by omega⟩

/-- Marks end before the end of pieces that end open. -/
theorem stop_lt_of_endsOpen (hopen : EndsOpen ps) {m : String × TextRange}
    (h : m ∈ marksFrom flow p ps) : m.2.stop < p + width ps := by
  rcases List.eq_nil_or_concat ps with rfl | ⟨init, a, rfl⟩
  · exact absurd h List.not_mem_nil
  · cases a with
    | mark name inside => exact absurd (by simp) (hopen name inside)
    | letter l =>
      rw [List.concat_eq_append, marksFrom_append, show marksFrom flow (p + width init) [letter l] = []
        from rfl, List.append_nil] at h
      have hstop := (bounds_of_mem_marksFrom h).2.2
      simp only [List.concat_eq_append, width_append, width_cons_letter, width_nil]
      omega

theorem endsOpen_nil : EndsOpen [] := fun _ _ => by simp

theorem endsOpen_append_letter (l : Letter) : EndsOpen (ps ++ [letter l]) := fun _ _ => by simp

theorem endsOpen_append_of_ne_nil {ls : List Letter} (h : ls ≠ []) :
    EndsOpen (ps ++ ls.map letter) := by
  rcases List.eq_nil_or_concat ls with rfl | ⟨init, l, rfl⟩
  · exact absurd rfl h
  · rw [List.concat_eq_append, List.map_append, ← List.append_assoc]
    exact endsOpen_append_letter l

/-- Text behind pieces leaves them open. -/
theorem EndsOpen.append_letters (h : EndsOpen ps) (ls : List Letter) :
    EndsOpen (ps ++ ls.map letter) := by
  by_cases hls : ls = []
  · simpa [hls] using h
  · exact endsOpen_append_of_ne_nil hls

end Piece

/-! ## Marks around a replacement -/

namespace Piece

variable {r : TextRange} {new : List Char} {flow : Flow}

/-- The marks before replaced text stay. -/
theorem marksFrom_before {A : List Piece} (hflow : r.flow = flow) {p : Nat}
    (h : ∀ m ∈ marksFrom flow p A, m.2.stop < r.start ∨ m.2.stop ≤ r.start ∧ new = []) :
    (marksFrom flow p A).map (fun m => (m.1, m.2.afterReplacing .mark r new)) =
      marksFrom flow p A := by
  refine (List.map_congr_left fun m hm => ?_).trans (List.map_id _)
  have hsame : m.2.flow = r.flow := (bounds_of_mem_marksFrom hm).1.trans hflow.symm
  refine Prod.ext rfl (TextRange.afterReplacing_before hsame ?_ fun heq => ?_)
  · rcases h m hm with hlt | ⟨hle, -⟩
    · exact Nat.le_of_lt hlt
    · exact hle
  · rcases h m hm with hlt | ⟨-, hnil⟩
    · omega
    · exact Or.inl hnil

/-- The marks behind replaced text move along with it. -/
theorem marksFrom_behind {p : Nat} (hflow : r.flow = flow) (hp : r.stop ≤ p) (B : List Piece) :
    (marksFrom flow p B).map (fun m => (m.1, m.2.afterReplacing .mark r new)) =
      marksFrom flow (r.start + new.length + (p - r.stop)) B := by
  induction B generalizing p with
  | nil => rfl
  | cons a B ih =>
    cases a with
    | letter l =>
      have hnext := ih (p := p + 1) (by omega)
      rw [show p + 1 - r.stop = p - r.stop + 1 by omega, ← Nat.add_assoc] at hnext
      exact hnext
    | mark name inside =>
      have hnext := ih (p := p + inside.length) (by omega)
      rw [show p + inside.length - r.stop = p - r.stop + inside.length by omega,
        ← Nat.add_assoc] at hnext
      simp only [marksFrom, List.map_cons, hnext, List.cons.injEq, Prod.mk.injEq, true_and,
        and_true]
      have hbehind : r.stop ≤ (TextRange.new flow p (p + inside.length)).start := by
        rw [TextRange.start_new]
        omega
      obtain ⟨hstart, hstop⟩ := TextRange.ends_afterReplacing_behind (x := .new flow p _)
        hflow.symm hbehind new
      refine TextRange.eq_of_ends (TextRange.flow_afterReplacing _ _ _ _) (hstart.trans ?_)
        (hstop.trans ?_)
      · simp only [TextRange.start_new]
        omega
      · simp only [TextRange.stop_new]
        omega

end Piece

/-! ## Arrangements -/

/-- The pieces of every flow, and what is stored under names of citation marks. -/
structure Arrangement where
  pieces : Flow → List Piece
  property : String → Option String

namespace Arrangement

open Piece

/-- The arrangement with one flow in other pieces. -/
def set (L : Arrangement) (flow : Flow) (ps : List Piece) : Arrangement :=
  { L with pieces := Function.update L.pieces flow ps }

/-- The arrangement with something else stored under a name. -/
def store (L : Arrangement) (name : String) (value : Option String) : Arrangement :=
  { L with property := Function.update L.property name value }

/-- The ranges of the citation marks of a flow. -/
def marksIn (L : Arrangement) (flow : Flow) : List (String × TextRange) :=
  marksFrom flow 0 (L.pieces flow)

variable {L : Arrangement} {flow flow' : Flow} {ps qs : List Piece}

@[simp] theorem pieces_set : (L.set flow ps).pieces flow = ps := Function.update_self _ _ _

theorem pieces_set_of_ne (h : flow' ≠ flow) : (L.set flow ps).pieces flow' = L.pieces flow' :=
  Function.update_of_ne h _ _

theorem marksIn_set_of_ne (h : flow' ≠ flow) :
    (L.set flow ps).marksIn flow' = L.marksIn flow' := by
  rw [marksIn, pieces_set_of_ne h, marksIn]

/-- Other pieces with the same text leave the text of all flows. -/
theorem spell_set (h : spell ps = spell (L.pieces flow)) (flow' : Flow) :
    spell ((L.set flow ps).pieces flow') = spell (L.pieces flow') := by
  by_cases hflow : flow' = flow
  · subst hflow
    rw [pieces_set, h]
  · rw [pieces_set_of_ne hflow]

@[simp] theorem property_set : (L.set flow ps).property = L.property := rfl

@[simp] theorem pieces_store (name : String) (value : Option String) :
    (L.store name value).pieces = L.pieces := rfl

@[simp] theorem set_set : (L.set flow ps).set flow qs = L.set flow qs := by
  simp [set]

@[simp] theorem set_pieces : L.set flow (L.pieces flow) = L := by
  simp [set]

@[simp] theorem store_set (name : String) (value : Option String) :
    (L.store name value).set flow ps = (L.set flow ps).store name value := rfl

/-- **An arrangement describes a document**: it spells every flow, its marks are the citation marks of
the document where they are, and the page info of citations is what is stored under their names.
The document is well formed and has no bibliography. -/
structure Describes (L : Arrangement) (d : Document) : Prop where
  wellFormed : d.WellFormed
  spell_eq : ∀ flow, spell (L.pieces flow) = ((d.cells? flow).getD []).map Cell.letter
  mem_marksIn : ∀ name r, (name, r) ∈ L.marksIn r.flow ↔
    MarkedText.isCitation name = true ∧ d.marks.get? name = some r
  nodup : ∀ flow, ((L.marksIn flow).map Prod.fst).Nodup
  property_eq : ∀ name, MarkedText.isCitation name = true →
    L.property name = d.properties.get? name
  noBibliography : d.bookmarks.get? MarkName.bibliographyBookmark = none

variable {d d' : Document}

theorem Describes.of_same (h : L.Describes d) (hsame : SameDocument d d') : L.Describes d' where
  wellFormed := h.wellFormed.of_same hsame
  spell_eq flow := by
    rw [h.spell_eq]
    rcases flow with _ | _ | n
    · exact congrArg (List.map Cell.letter) hsame.body
    · rfl
    · exact congrArg (fun notes : List (List Cell) => (notes[n]?.getD []).map Cell.letter)
        hsame.footnotes
  mem_marksIn name r := by rw [h.mem_marksIn, hsame.marks]
  nodup := h.nodup
  property_eq name hname := by rw [h.property_eq name hname, hsame.properties]
  noBibliography := hsame.bookmarks ▸ h.noBibliography

/-- A mark among the pieces of a flow is where they put it. -/
theorem Describes.get?_of_mem (h : L.Describes d) {m : String × TextRange}
    (hm : m ∈ L.marksIn flow) : d.marks.get? m.1 = some m.2 := by
  have hflow : m.2.flow = flow := (bounds_of_mem_marksFrom hm).1
  exact ((h.mem_marksIn m.1 m.2).mp (by rwa [hflow])).2

theorem Describes.isCitation_of_mem (h : L.Describes d) {m : String × TextRange}
    (hm : m ∈ L.marksIn flow) : MarkedText.isCitation m.1 = true := by
  have hflow : m.2.flow = flow := (bounds_of_mem_marksFrom hm).1
  exact ((h.mem_marksIn m.1 m.2).mp (by rwa [hflow])).1

/-! ## Edits -/

/-- What a replacement does to the letters of a flow. -/
theorem map_letter_typedOver (cells : List Cell) (r : TextRange) (new : List Char) :
    (Document.typedOver cells r new).map Cell.letter =
      (cells.map Cell.letter).take r.start ++ plain new ++ (cells.map Cell.letter).drop r.stop := by
  have htyped : (Cells.typed (Cells.cut cells r.start r.stop) r.start new).map Cell.letter =
      plain new := by
    rw [Cells.typed, List.map_map]
    rfl
  simp only [Document.typedOver, List.map_append, List.map_take, List.map_drop, htyped]

/-- **A replacement is described** by pieces that spell the new text and have the marks where they
have moved to. -/
theorem Describes.replaceText (h : L.Describes d) {r : TextRange} {new : String}
    (hr : d.Inside r) {ps : List Piece}
    (hspell : spell ps = (spell (L.pieces r.flow)).take r.start ++ plain new.toList ++
      (spell (L.pieces r.flow)).drop r.stop)
    (hmarks : marksFrom r.flow 0 ps =
      (L.marksIn r.flow).map fun m => (m.1, m.2.afterReplacing .mark r new.toList)) :
    (L.set r.flow ps).Describes (d.replaceText r new) := by
  obtain ⟨cells, hcells, hstop⟩ := hr
  have hall (flow : Flow) : (L.set r.flow ps).marksIn flow =
      (L.marksIn flow).map fun m => (m.1, m.2.afterReplacing .mark r new.toList) := by
    by_cases hflow : flow = r.flow
    · subst hflow
      rw [marksIn, pieces_set, hmarks]
    · rw [marksIn_set_of_ne hflow]
      refine ((List.map_congr_left fun m hm => ?_).trans (List.map_id _)).symm
      have hne : m.2.flow ≠ r.flow := (bounds_of_mem_marksFrom hm).1 ▸ hflow
      exact Prod.ext rfl (if_neg hne)
  constructor
  case wellFormed => exact allowsMarking_wellFormed.replaceText new hcells hstop h.wellFormed
  case spell_eq =>
    intro flow
    rw [Document.cells?_replaceText]
    by_cases hflow : flow = r.flow
    · subst hflow
      rw [pieces_set, if_pos rfl, hspell, h.spell_eq, hcells]
      exact (map_letter_typedOver cells r new.toList).symm
    · rw [pieces_set_of_ne hflow, if_neg hflow, h.spell_eq]
  case mem_marksIn =>
    intro name x
    rw [hall, Document.marks_replaceText,
      Keyed.get?_map d.marks (fun y => y.afterReplacing .mark r new.toList) name,
      Option.map_eq_some_iff, List.mem_map]
    constructor
    · rintro ⟨m, hm, heq⟩
      obtain ⟨rfl, rfl⟩ := Prod.mk.inj heq
      exact ⟨h.isCitation_of_mem hm, m.2, h.get?_of_mem hm, rfl⟩
    · rintro ⟨hname, y, hy, rfl⟩
      refine ⟨(name, y), ?_, rfl⟩
      rw [TextRange.flow_afterReplacing]
      exact (h.mem_marksIn name y).mpr ⟨hname, hy⟩
  case nodup =>
    intro flow
    rw [hall, List.map_map]
    exact h.nodup flow
  case property_eq =>
    intro name hname
    rw [Document.replaceText_eq]
    exact h.property_eq name hname
  case noBibliography =>
    rw [Document.bookmarks_replaceText, Keyed.get?_eq_none_iff, List.map_map]
    have hnone := Keyed.get?_eq_none_iff.mp h.noBibliography
    intro hmem
    obtain ⟨b, hb, hname⟩ := List.mem_map.mp hmem
    exact hnone (List.mem_map.mpr ⟨b, (List.mem_filter.mp hb).1, hname⟩)

/-- Replacing the middle of three parts. -/
theorem take_append_drop_of_parts {α : Type} (a x b new : List α) {i j : Nat} (hi : i = a.length)
    (hj : j = a.length + x.length) :
    (a ++ x ++ b).take i ++ new ++ (a ++ x ++ b).drop j = a ++ new ++ b := by
  subst hi hj
  rw [List.drop_left' List.length_append, List.append_assoc a x, List.take_left' rfl]

variable {A B : List Piece} {r : TextRange} {new : String}

/-- **Text between marks is replaced.** What is typed must not touch a mark before it. -/
theorem Describes.replaceLetters (h : L.Describes d) (hr : d.Inside r)
    {X : List Letter} (hpieces : L.pieces r.flow = A ++ X.map letter ++ B)
    (hstart : r.start = width A) (hstop : r.stop = width A + X.length)
    (hopen : new.toList = [] ∨ EndsOpen A) :
    (L.set r.flow (A ++ typed new.toList ++ B)).Describes (d.replaceText r new) := by
  refine h.replaceText hr ?_ ?_
  · rw [hpieces]
    simp only [spell_append, spell_map_letter, spell_typed]
    exact (take_append_drop_of_parts _ X _ _ hstart hstop).symm
  · have hbefore : ∀ m ∈ marksFrom r.flow 0 A,
        m.2.stop < r.start ∨ m.2.stop ≤ r.start ∧ new.toList = [] := by
      intro m hm
      rcases hopen with hnil | hopen
      · have hle := (bounds_of_mem_marksFrom hm).2.2
        exact Or.inr ⟨by omega, hnil⟩
      · have hlt := stop_lt_of_endsOpen hopen hm
        exact Or.inl (by omega)
    rw [marksIn, hpieces]
    simp only [marksFrom_append, marksFrom_map_letter, marksFrom_typed, List.append_nil,
      List.map_append, width_append, width_map_letter, width_typed, Nat.zero_add]
    rw [marksFrom_before rfl hbefore, marksFrom_behind rfl (by omega), hstart, hstop]
    simp

/-- **Text in a mark is replaced.** What is typed must be strictly inside. -/
theorem Describes.replaceInside (h : L.Describes d) (hr : d.Inside r)
    {name : String} {u x v : List Char}
    (hpieces : L.pieces r.flow = A ++ mark name (u ++ x ++ v) :: B)
    (hstart : r.start = width A + u.length) (hstop : r.stop = width A + u.length + x.length)
    (hopen : new.toList = [] ∨ u ≠ [] ∧ v ≠ []) :
    (L.set r.flow (A ++ mark name (u ++ new.toList ++ v) :: B)).Describes
      (d.replaceText r new) := by
  refine h.replaceText hr ?_ ?_
  · have hparts (y : List Char) : spell (A ++ mark name (u ++ y ++ v) :: B) =
        (spell A ++ plain u) ++ plain y ++ (plain v ++ spell B) := by
      simp [letters]
    rw [hpieces, hparts, hparts]
    refine (take_append_drop_of_parts _ (plain x) _ _ ?_ ?_).symm
    · simpa [width] using hstart
    · simpa [width, Nat.add_assoc] using hstop
  · have hbefore : ∀ m ∈ marksFrom r.flow 0 A,
        m.2.stop < r.start ∨ m.2.stop ≤ r.start ∧ new.toList = [] := by
      intro m hm
      have hle := (bounds_of_mem_marksFrom hm).2.2
      rcases hopen with hnil | ⟨hu, -⟩
      · exact Or.inr ⟨by omega, hnil⟩
      · have hpos := List.length_pos_iff.mpr hu
        exact Or.inl (by omega)
    have hown : (TextRange.new r.flow (width A)
          (width A + (u ++ x ++ v).length)).afterReplacing .mark r new.toList =
        .new r.flow (width A) (width A + (u ++ new.toList ++ v).length) := by
      have hinside : new.toList = [] ∨
          width A < r.start ∧ r.stop < width A + (u ++ x ++ v).length := by
        rcases hopen with hnil | ⟨hu, hv⟩
        · exact Or.inl hnil
        · have hu := List.length_pos_iff.mpr hu
          have hv := List.length_pos_iff.mpr hv
          simp only [List.length_append]
          exact Or.inr (by omega)
      simp only [List.length_append] at hinside ⊢
      rw [TextRange.afterReplacing_around (show (TextRange.new r.flow _ _).flow = r.flow from rfl)]
      · simp only [TextRange.flow_new, TextRange.start_new, TextRange.stop_new]
        congr 1 <;> omega
      · rw [TextRange.start_new]; omega
      · rw [TextRange.stop_new]; omega
      · rw [TextRange.start_new, TextRange.stop_new, Nat.min_eq_left (by omega),
          Nat.max_eq_right (by omega)]
        exact hinside
    rw [marksIn, hpieces]
    simp only [marksFrom_append, marksFrom, List.map_append, List.map_cons, Nat.zero_add]
    rw [marksFrom_before rfl hbefore, marksFrom_behind rfl
      (by simp only [List.length_append]; omega), hown]
    congr 3
    simp only [List.length_append]
    omega

/-- What changes attributes only is described as before. -/
theorem Describes.modifyCells (h : L.Describes d) (r : TextRange) {f : Cell → Cell}
    (hf : ∀ c, (f c).letter = c.letter) : L.Describes (d.modifyCells r f) := by
  have hletters (cells : List Cell) :
      (Cells.modify f cells r.start r.stop).map Cell.letter = cells.map Cell.letter := by
    have hmap (part : List Cell) : (part.map f).map Cell.letter = part.map Cell.letter := by
      rw [List.map_map]
      exact List.map_congr_left fun c _ => hf c
    have hid := Cells.modify_id cells r.start_le_stop
    simp only [Cells.modify, List.map_id] at hid
    simp only [Cells.modify, List.map_append, hmap]
    rw [← List.map_append, ← List.map_append, hid]
  have hrest := Document.modifyCells_eq d r f
  constructor
  case wellFormed => exact allowsMarking_wellFormed.modifyCells r f h.wellFormed
  case spell_eq =>
    intro flow
    rw [h.spell_eq, Document.cells?_modifyCells]
    split_ifs
    · cases d.cells? flow with
      | none => rfl
      | some cells => exact (hletters cells).symm
    · rfl
  case mem_marksIn =>
    rw [hrest]
    exact h.mem_marksIn
  case nodup => exact h.nodup
  case property_eq =>
    rw [hrest]
    exact h.property_eq
  case noBibliography =>
    rw [hrest]
    exact h.noBibliography

/-- **A mark is created** over plain text. -/
theorem Describes.createMark (h : L.Describes d) {name : String} {s : List Char}
    (hname : MarkedText.isCitation name = true) (hnew : d.marks.get? name = none)
    (hr : d.Inside (.new flow (width A) (width A + s.length)))
    (hpieces : L.pieces flow = A ++ typed s ++ B) :
    (L.set flow (A ++ mark name s :: B)).Describes
      { d with marks := d.marks.put name (.new flow (width A) (width A + s.length)) } := by
  have hperm : ((L.set flow (A ++ mark name s :: B)).marksIn flow).Perm
      ((name, .new flow (width A) (width A + s.length)) :: L.marksIn flow) := by
    have hperm := perm_marksFrom_mark flow 0 A B name s
    rw [Nat.zero_add, ← hpieces] at hperm
    rwa [marksIn, pieces_set]
  constructor
  case wellFormed =>
    obtain ⟨cells, hcells, hstop⟩ := hr
    exact allowsMarking_wellFormed.putMark hcells hstop hnew h.wellFormed
  case spell_eq =>
    intro flow'
    rw [spell_set (by rw [hpieces, spell_mark])]
    exact h.spell_eq flow'
  case mem_marksIn =>
    intro name' x
    have hmem : (name', x) ∈ (L.set flow (A ++ mark name s :: B)).marksIn x.flow ↔
        (name', x) ∈ L.marksIn x.flow ∨
          (name', x) = (name, .new flow (width A) (width A + s.length)) := by
      by_cases hflow : x.flow = flow
      · rw [hflow, hperm.mem_iff, List.mem_cons, or_comm]
      · rw [marksIn_set_of_ne hflow, or_iff_left]
        rintro heq
        rw [(Prod.mk.inj heq).2] at hflow
        exact hflow rfl
    rw [hmem, h.mem_marksIn, Keyed.get?_put]
    split_ifs with hsame
    · subst hsame
      simp only [hnew, reduceCtorEq, and_false, Option.some.injEq, false_or, Prod.mk.injEq,
        true_and, hname]
      exact eq_comm
    · simp only [Prod.mk.injEq, Ne.symm hsame, false_and, or_false]
  case nodup =>
    intro flow'
    by_cases hflow : flow' = flow
    · subst hflow
      rw [(hperm.map Prod.fst).nodup_iff, List.map_cons, List.nodup_cons]
      refine ⟨fun hin => ?_, h.nodup flow'⟩
      obtain ⟨m, hm, rfl⟩ := List.mem_map.mp hin
      rw [h.get?_of_mem hm] at hnew
      cases hnew
    · rw [marksIn_set_of_ne hflow]
      exact h.nodup flow'
  case property_eq => exact h.property_eq
  case noBibliography => exact h.noBibliography

/-- **A mark is removed**; its text stays. -/
theorem Describes.removeMark (h : L.Describes d) {name : String} {s : List Char}
    (hpieces : L.pieces flow = A ++ mark name s :: B) :
    (L.set flow (A ++ typed s ++ B)).Describes { d with marks := d.marks.erase name } := by
  have hperm : (L.marksIn flow).Perm ((name, .new flow (width A) (width A + s.length)) ::
      (L.set flow (A ++ typed s ++ B)).marksIn flow) := by
    have hperm := perm_marksFrom_mark flow 0 A B name s
    rw [Nat.zero_add, ← hpieces] at hperm
    rwa [marksIn, marksIn, pieces_set]
  have hget := h.get?_of_mem (hperm.mem_iff.mpr List.mem_cons_self)
  have hnodup := h.nodup flow
  rw [(hperm.map Prod.fst).nodup_iff, List.map_cons, List.nodup_cons] at hnodup
  constructor
  case wellFormed => exact allowsMarking_wellFormed.eraseMark name h.wellFormed
  case spell_eq =>
    intro flow'
    rw [spell_set (by rw [hpieces, spell_mark])]
    exact h.spell_eq flow'
  case mem_marksIn =>
    intro name' x
    have hmem : (name', x) ∈ (L.set flow (A ++ typed s ++ B)).marksIn x.flow ↔
        (name', x) ∈ L.marksIn x.flow ∧ name' ≠ name := by
      by_cases hflow : x.flow = flow
      · rw [hflow, hperm.mem_iff, List.mem_cons]
        constructor
        · exact fun hm => ⟨Or.inr hm, fun heq => hnodup.1 (List.mem_map.mpr ⟨_, hm, heq⟩)⟩
        · exact fun hm => hm.1.resolve_left fun heq => hm.2 (Prod.mk.inj heq).1
      · rw [marksIn_set_of_ne hflow, iff_self_and]
        rintro hm rfl
        rw [h.get?_of_mem hm, Option.some.injEq] at hget
        exact hflow (congrArg TextRange.flow hget)
    rw [hmem, h.mem_marksIn]
    by_cases hsame : name' = name
    · subst hsame
      simp [Keyed.get?_erase_self]
    · rw [Keyed.get?_erase_of_ne _ hsame]
      simp [hsame]
  case nodup =>
    intro flow'
    by_cases hflow : flow' = flow
    · subst hflow
      exact hnodup.2
    · rw [marksIn_set_of_ne hflow]
      exact h.nodup flow'
  case property_eq => exact h.property_eq
  case noBibliography => exact h.noBibliography

/-- **A property is set** or removed. -/
theorem Describes.setProperties (h : L.Describes d) {name : String} {value : Option String}
    {properties : Keyed String String}
    (hproperties : ∀ name', properties.get? name' =
      if name = name' then value else d.properties.get? name') :
    (L.store name value).Describes { d with properties := properties } where
  wellFormed := allowsMarking_wellFormed.setProperties properties h.wellFormed
  spell_eq := h.spell_eq
  mem_marksIn := h.mem_marksIn
  nodup := h.nodup
  property_eq name' hname' := by
    rw [hproperties, ← h.property_eq name' hname']
    by_cases hsame : name = name'
    · rw [if_pos hsame, ← hsame]
      exact Function.update_self _ _ _
    · rw [if_neg hsame]
      exact Function.update_of_ne (Ne.symm hsame) _ _
  noBibliography := h.noBibliography

end Arrangement

end DocCite
