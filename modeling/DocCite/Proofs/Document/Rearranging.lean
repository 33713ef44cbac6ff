import DocCite.Proofs.Citation.MarkName
import DocCite.Proofs.Citation.PageInfo
import DocCite.Proofs.Document.Arrangement

/-!
# Actions that rearrange a document

From a document that an arrangement describes, an action leads to a result and to a document that
another arrangement describes, if it succeeds (`Rearranges`). Here are the operations of a document
read so, and the actions that put marks and groups into a text and take them out.
-/

namespace DocCite.DocumentM

open Piece

variable {α β : Type} {L : Arrangement}

/-- **An action rearranges a document**: if it succeeds, its result and an arrangement of the
document that it leaves are as told. -/
def Rearranges (L : Arrangement) (x : DocumentM α) (Q : α → Arrangement → Prop) : Prop :=
  Triple L.Describes x (fun a d => ∃ L', Q a L' ∧ L'.Describes d) fun _ _ => True

namespace Rearranges

variable {x : DocumentM α} {Q Q' : α → Arrangement → Prop} {R : β → Arrangement → Prop}

theorem of_ok (h : Rearranges L x Q) {d d' : Document} {a : α} (hd : L.Describes d)
    (hrun : x.run d = (.ok a, d')) : ∃ L', Q a L' ∧ L'.Describes d' :=
  Triple.of_ok h hd hrun

theorem pure {a : α} (h : Q a L) : Rearranges L (Pure.pure a) Q :=
  Triple.pure fun _ hd => ⟨L, h, hd⟩

theorem throw (e : DocumentError) : Rearranges L (throw e : DocumentM α) Q :=
  Triple.throw fun _ _ => trivial

theorem bind {f : α → DocumentM β} (hx : Rearranges L x Q)
    (hf : ∀ a L', Q a L' → Rearranges L' (f a) R) : Rearranges L (x >>= f) R := by
  refine Triple.bind hx fun a => .exists fun L' => .assume fun hQ => ?_
  exact hf a L' hQ

theorem liftExcept {outcome : Except DocumentError α} (h : ∀ a, outcome = .ok a → Q a L) :
    Rearranges L (liftExcept outcome) Q :=
  Triple.liftExcept (fun a ha _ hd => ⟨L, h a ha, hd⟩) fun _ _ _ _ => trivial

theorem weaken (h : Rearranges L x Q) (hQ : ∀ a L', Q a L' → Q' a L') : Rearranges L x Q' :=
  Triple.weaken h (fun _ hd => hd) (fun a _ ⟨L', hL', hd⟩ => ⟨L', hQ a L' hL', hd⟩)
    fun _ _ _ => trivial

/-- A loop keeps what each of its steps keeps. -/
theorem forM {γ : Type} {I : Arrangement → Prop} {f : γ → DocumentM PUnit} {l : List γ}
    (h : ∀ c ∈ l, ∀ L, I L → Rearranges L (f c) fun _ => I) (hL : I L) :
    Rearranges L (l.forM f) fun _ => I := by
  induction l generalizing L with
  | nil => exact .pure hL
  | cons c l ih =>
    refine .bind (h c List.mem_cons_self L hL) fun _ L' hL' => ?_
    exact ih (fun c' hc' => h c' (List.mem_cons_of_mem _ hc')) hL'

/-- What describing a document says of an arrangement can be used. -/
theorem of_described (h : ∀ d, L.Describes d → Rearranges L x Q) : Rearranges L x Q :=
  fun d hd => h d hd d hd

end Rearranges

/-- The contract that a document is described by an arrangement; it may fail in any way. -/
def described (L : Arrangement) : Contract where
  Holds := L.Describes
  Fails _ _ := True
  holds_of_step h hd := hd.of_same h.toSameDocument
  fails_of_same _ _ := trivial
  fails_of_internal _ _ := trivial

/-- What keeps a document described rearranges nothing. -/
theorem Rearranges.of_keeps {x : DocumentM α} (h : Keeps (described L) x) :
    Rearranges L x fun _ L' => L' = L :=
  Triple.weaken h (fun _ hd => hd) (fun _ _ hd => ⟨L, rfl, hd⟩) fun _ _ _ => trivial

/-- What rearranges nothing keeps a document described. -/
theorem Rearranges.keeps {x : DocumentM α} (h : Rearranges L x fun _ L' => L' = L) :
    Keeps (described L) x :=
  Triple.weaken h (fun _ hd => hd) (fun _ _ ⟨_, heq, hd⟩ => heq ▸ hd) fun _ _ _ => trivial

/-- A closing action that every contract allows rearranges nothing. -/
theorem Rearranges.closing {x : DocumentM α} {close : DocumentM Unit}
    {Q : α → Arrangement → Prop} (hx : Rearranges L x Q) (hclose : ∀ C, Keeps C close) :
    Rearranges L (closing x close) Q := by
  refine Triple.closing hx (fun a => .exists fun L' => .assume fun hQ => ?_) fun _ _ _ => trivial
  exact Triple.weaken (hclose (described L')) (fun _ hd => hd) (fun _ _ hd => ⟨L', hQ, hd⟩)
    fun _ _ h => h

theorem Rearranges.withLockedScreen {x : DocumentM α} {Q : α → Arrangement → Prop}
    (hx : Rearranges L x Q) : Rearranges L (withLockedScreen x) Q := by
  refine (Rearranges.of_keeps keeps_lockScreen).bind ?_
  rintro - L rfl
  exact hx.closing fun _ => keeps_unlockScreen

/-! ## Operations -/

section Operations

variable {flow : Flow} {A B : List Piece}

/-- A call with a result that the arrangement tells, if it succeeds. -/
theorem Rearranges.call {f : Document → Except DocumentError (α × Document)}
    {Q : α → Arrangement → Prop}
    (h : ∀ d, L.Describes d → ∀ a d', f d = .ok (a, d') → ∃ L', Q a L' ∧ L'.Describes d') :
    Rearranges L (call f) Q := by
  refine Triple.call (fun d c hc hd => hd.of_same (sameDocument_connection hc))
    (fun d hd => ?_) fun _ _ _ => trivial
  have hresult := h d hd
  cases hrun : f d with
  | error e => trivial
  | ok r => exact hresult r.1 r.2 hrun

/-- A call that changes a document around a range, if the range is inside. -/
theorem Rearranges.call_around {r : TextRange} {f : Document → α × Document}
    {Q : α → Arrangement → Prop}
    (h : ∀ d, L.Describes d → d.Inside r →
      ∃ L', Q (f d).1 L' ∧ L'.Describes (f d).2) :
    Rearranges L (DocumentM.call fun d => do
      let _ ← d.cellsAround r
      return f d) Q := by
  refine .call fun d hd a d' hrun => ?_
  obtain ⟨cells, hflow, hstop, hcells⟩ | ⟨reason, hcells⟩ := d.cellsAround_eq_ok_or r
  · rw [hcells] at hrun
    have heq : f d = (a, d') := Except.ok.inj hrun
    have hresult := h d hd ⟨cells, hflow, hstop⟩
    rwa [heq] at hresult
  · rw [hcells] at hrun
    cases hrun

theorem Rearranges.see {f : Document → α} {a : α} (h : ∀ d, L.Describes d → f d = a) :
    Rearranges L (DocumentM.see f) fun b L' => b = a ∧ L' = L := by
  unfold DocumentM.see look
  refine Rearranges.call fun d hd b d' hrun => ?_
  cases hrun
  exact ⟨L, ⟨h d hd, rfl⟩, hd⟩

/-- Replacing text between marks. -/
theorem rearranges_replace {r : TextRange} {X : List Letter} (new : String)
    (hpieces : L.pieces r.flow = A ++ X.map letter ++ B) (hstart : r.start = width A)
    (hstop : r.stop = width A + X.length) (hopen : new.toList = [] ∨ EndsOpen A) :
    Rearranges L (replace r new) fun written L' =>
      written = Document.typedRange r new ∧ L' = L.set r.flow (A ++ typed new.toList ++ B) :=
  .call_around fun _ hd hr =>
    ⟨_, ⟨rfl, rfl⟩, hd.replaceLetters hr hpieces hstart hstop hopen⟩

/-- Replacing text in a mark. -/
theorem rearranges_replace_inside {r : TextRange} {name : String} {u x v : List Char}
    (new : String) (hpieces : L.pieces r.flow = A ++ mark name (u ++ x ++ v) :: B)
    (hstart : r.start = width A + u.length) (hstop : r.stop = width A + u.length + x.length)
    (hopen : new.toList = [] ∨ u ≠ [] ∧ v ≠ []) :
    Rearranges L (replace r new) fun written L' =>
      written = Document.typedRange r new ∧
        L' = L.set r.flow (A ++ mark name (u ++ new.toList ++ v) :: B) :=
  .call_around fun _ hd hr =>
    ⟨_, ⟨rfl, rfl⟩, hd.replaceInside hr hpieces hstart hstop hopen⟩

theorem rearranges_modifyCells (r : TextRange) {f : Cell → Cell}
    (hf : ∀ c, (f c).letter = c.letter) :
    Rearranges L (modifyCells r f) fun _ L' => L' = L :=
  .call_around fun _ hd _ => ⟨L, rfl, hd.modifyCells r hf⟩

theorem rearranges_setCharacterStyle (r : TextRange) (style : String) :
    Rearranges L (setCharacterStyle r style) fun _ L' => L' = L := by
  refine .call fun d hd a d' hrun => ?_
  cases hstyle : d.characterStyles.contains style with
  | false =>
    simp only [hstyle, Bool.not_false, if_true] at hrun
    cases hrun
  | true =>
    simp only [hstyle, Bool.not_true, Bool.false_eq_true, if_false] at hrun
    obtain ⟨cells, -, -, hcells⟩ | ⟨reason, hcells⟩ := d.cellsAround_eq_ok_or r
    · rw [hcells] at hrun
      cases hrun
      exact ⟨L, rfl, hd.modifyCells r fun _ => rfl⟩
    · rw [hcells] at hrun
      cases hrun

/-- The text under the mark of a citation. -/
theorem rearranges_text_mark {name : String} {s : List Char}
    (hpieces : L.pieces flow = A ++ mark name s :: B) :
    Rearranges L (DocumentM.text (.new flow (width A) (width A + s.length))) fun t L' =>
      t = String.ofList s ∧ L' = L := by
  unfold DocumentM.text look
  refine .call fun d hd t d' hrun => ?_
  simp only [Document.textUnder] at hrun
  obtain ⟨cells, hflow, hstop, hcells⟩ | ⟨reason, hcells⟩ :=
    d.cellsAround_eq_ok_or (.new flow (width A) (width A + s.length))
  · rw [hcells] at hrun
    cases hrun
    refine ⟨L, ⟨?_, rfl⟩, hd⟩
    have hspell := hd.spell_eq flow
    rw [hpieces, show d.cells? flow = some cells from hflow, spell_append, spell_cons] at hspell
    have hchars : Cells.chars cells =
        (spell A).map Letter.char ++ s ++ (spell B).map Letter.char := by
      have hmap := congrArg (List.map Letter.char) hspell
      rw [Option.getD_some, List.map_map] at hmap
      rw [show Cells.chars cells = cells.map (Letter.char ∘ Cell.letter) from rfl, ← hmap]
      simp [letters]
    rw [Cells.text, Cells.chars, Cells.slice, List.map_drop, List.map_take]
    rw [Cells.chars] at hchars
    rw [hchars, TextRange.start_new, TextRange.stop_new, Nat.min_eq_left (Nat.le_add_right _ _),
      Nat.max_eq_right (Nat.le_add_right _ _), List.take_left' (by simp [width]),
      List.drop_left' (by simp [width])]
  · rw [hcells] at hrun
    cases hrun

/-- The range of a citation mark. -/
theorem rearranges_markRange? {name : String} {s : List Char}
    (hpieces : L.pieces flow = A ++ mark name s :: B) :
    Rearranges L (markRange? name) fun r L' =>
      r = some (.new flow (width A) (width A + s.length)) ∧ L' = L := by
  refine .see fun d hd => ?_
  have hmem : (name, TextRange.new flow (width A) (width A + s.length)) ∈ L.marksIn flow := by
    rw [Arrangement.marksIn, hpieces, marksFrom_append, Nat.zero_add]
    exact List.mem_append_right _ List.mem_cons_self
  exact hd.get?_of_mem hmem

theorem rearranges_groupRange {name : String} {s : List Char}
    (hpieces : L.pieces flow = A ++ mark name s :: B) :
    Rearranges L (groupRange name) fun r L' =>
      r = .new flow (width A) (width A + s.length) ∧ L' = L := by
  refine (rearranges_markRange? hpieces).bind ?_
  rintro _ _ ⟨rfl, rfl⟩
  exact .pure ⟨rfl, rfl⟩

/-- Creating a mark over plain text, if its name is free. -/
theorem rearranges_createMark {name : String} {s : List Char} {r : TextRange}
    (hname : MarkedText.isCitation name = true) (hpieces : L.pieces flow = A ++ typed s ++ B)
    (hr : r = .new flow (width A) (width A + s.length)) :
    Rearranges L (createMark name r) fun _ L' =>
      L' = L.set flow (A ++ mark name s :: B) ∧ ∀ flow', name ∉ names (L.pieces flow') := by
  refine .call fun d hd a d' hrun => ?_
  obtain ⟨cells, hflow, hstop, hcells⟩ | ⟨reason, hcells⟩ := d.cellsAround_eq_ok_or r
  · rw [hcells] at hrun
    cases hused : d.marks.get? name with
    | some x =>
      simp only [bind, Except.bind, hused, Option.isSome_some, if_true] at hrun
      cases hrun
    | none =>
      simp only [bind, Except.bind, hused, Option.isSome_none, Bool.false_eq_true, if_false] at hrun
      cases hrun
      refine ⟨_, ⟨rfl, fun flow' hmem => ?_⟩, hr ▸ hd.createMark hname hused (hr ▸ ⟨cells, hflow, hstop⟩) hpieces⟩
      rw [← map_fst_marksFrom flow' 0] at hmem
      obtain ⟨m, hm, rfl⟩ := List.mem_map.mp hmem
      rw [hd.get?_of_mem hm] at hused
      cases hused
  · rw [hcells] at hrun
    cases hrun

theorem rearranges_removeMark {name : String} {s : List Char}
    (hpieces : L.pieces flow = A ++ mark name s :: B) :
    Rearranges L (removeMark name) fun _ L' => L' = L.set flow (A ++ typed s ++ B) := by
  refine .call fun d hd a d' hrun => ?_
  split at hrun
  · cases hrun
  · cases hrun
    exact ⟨_, rfl, hd.removeMark hpieces⟩

theorem rearranges_removeProperty (name : String) :
    Rearranges L (removeProperty name) fun _ L' => L' = L.store name none := by
  unfold removeProperty change
  refine .call fun d hd a d' hrun => ?_
  cases hrun
  refine ⟨_, rfl, hd.setProperties fun name' => ?_⟩
  split_ifs with hsame
  · rw [← hsame, Keyed.get?_erase_self]
  · rw [Keyed.get?_erase_of_ne _ (Ne.symm hsame)]

theorem rearranges_setPageInfo (name : String) (pageInfo : Option String) :
    Rearranges L (setPageInfo name pageInfo) fun _ L' =>
      L' = L.store name (normalizePageInfo pageInfo) := by
  unfold setPageInfo
  cases normalizePageInfo pageInfo with
  | none => exact rearranges_removeProperty name
  | some info =>
    unfold setProperty change
    refine .call fun d hd a d' hrun => ?_
    cases hrun
    exact ⟨_, rfl, hd.setProperties fun name' => Keyed.get?_put _ _ _ _⟩

end Operations

/-! ## Placing marks -/

section Placing

variable {A B : List Piece} {place : TextRange}

/-- **Spaces are typed** into text. -/
theorem rearranges_insertSpaces (hpieces : L.pieces place.flow = A ++ B)
    (hstart : place.start = width A) (hopen : EndsOpen A) (count : Nat) :
    Rearranges L (insertSpaces place count) fun _ L' =>
      L' = L.set place.flow (A ++ typed (List.replicate count ' ') ++ B) := by
  have hbreak : EndsOpen (A ++ typed ['\n']) := endsOpen_append_letter _
  have hspaces : (String.ofList (List.replicate count ' ')).toList = List.replicate count ' ' :=
    String.toList_ofList
  unfold insertSpaces
  simp only
  refine (rearranges_replace (r := place.startPoint) (A := A) (B := B) (X := []) "\n\n" ?_ hstart
    hstart (Or.inr hopen)).bind ?_
  · simpa [TextRange.startPoint] using hpieces
  rintro - _ ⟨-, rfl⟩
  refine (rearranges_replace (A := A ++ typed ['\n']) (B := typed ['\n'] ++ B) (X := []) _ ?_ ?_ ?_
    (Or.inr hbreak)).bind ?_
  · simp [typed, plain, TextRange.startPoint]
  · simp [hstart]
  · simp [hstart]
  rintro - _ ⟨-, rfl⟩
  refine (rearranges_replace (A := A ++ typed ('\n' :: List.replicate count ' ')) (B := B)
    (X := plain ['\n']) _ ?_ ?_ ?_ (Or.inl rfl)).bind ?_
  · simp [typed, plain, TextRange.startPoint]
  · simp [hstart]; omega
  · simp [hstart]; omega
  rintro - _ ⟨-, rfl⟩
  refine (rearranges_replace (A := A) (B := typed (List.replicate count ' ') ++ B)
    (X := plain ['\n']) _ ?_ ?_ ?_ (Or.inl rfl)).bind ?_
  · simp [typed, plain, TextRange.startPoint]
  · simp [hstart]
  · simp [hstart]
  rintro - _ ⟨-, rfl⟩
  exact .pure (by simp [TextRange.startPoint])

/-- **A mark is placed** into text, and takes in nothing of it. -/
theorem rearranges_placeMark {name : String} (hname : MarkedText.isCitation name = true)
    (hpieces : L.pieces place.flow = A ++ B) (hstart : place.start = width A) (hopen : EndsOpen A)
    (spaceAfter : Bool) :
    Rearranges L (placeMark name place spaceAfter false) fun r L' =>
      r = .new place.flow (width A) (width A + placeholders.length) ∧
        L' = L.set place.flow
          (A ++ mark name placeholders.toList :: ((if spaceAfter then typed [' '] else []) ++ B)) ∧
        ∀ flow, name ∉ names (L.pieces flow) := by
  have hspace : EndsOpen (A ++ typed [' ']) := endsOpen_append_letter _
  have hwidth : width (A ++ typed [' ']) = width A + 1 := by simp
  unfold placeMark
  simp only [Bool.false_eq_true, if_false]
  refine (rearranges_insertSpaces hpieces hstart hopen 2).bind ?_
  rintro - _ rfl
  refine (rearranges_replace (A := A ++ typed [' ']) (B := typed [' '] ++ B) (X := []) placeholders
    ?_ ?_ ?_ (Or.inr hspace)).bind ?_
  · simp [typed, plain]
  · simp [hstart]
  · simp [hstart]
  rintro _ _ ⟨rfl, rfl⟩
  refine (rearranges_createMark hname (show Arrangement.pieces _ place.flow =
    A ++ typed [' '] ++ typed placeholders.toList ++ (typed [' '] ++ B) by simp) ?_).bind ?_
  · simp [Document.typedRange, hwidth, hstart, String.length_toList]
  rintro - _ ⟨rfl, hfresh⟩
  have hfree : ∀ flow, name ∉ names (L.pieces flow) := by
    intro flow hmem
    by_cases hflow : flow = place.flow
    · subst hflow
      have hnot := hfresh place.flow
      rw [hpieces] at hmem
      simp at hnot hmem
      tauto
    · have hnot := hfresh flow
      simp [Arrangement.pieces_set_of_ne hflow] at hnot
      exact hnot hmem
  refine (rearranges_replace (A := A) (B := mark name placeholders.toList :: typed [' '] ++ B)
    (X := plain [' ']) "" ?_ ?_ ?_ (Or.inl rfl)).bind ?_
  · simp [typed]
  · simp [hstart]
  · simp [hstart]
  rintro - _ ⟨-, rfl⟩
  cases spaceAfter with
  | true =>
    refine (rearranges_markRange? (show Arrangement.pieces _ place.flow =
      A ++ mark name placeholders.toList :: (typed [' '] ++ B) by simp)).bind ?_
    rintro _ _ ⟨rfl, rfl⟩
    exact .pure ⟨by rw [String.length_toList], by simp, hfree⟩
  | false =>
    refine (rearranges_replace (A := A ++ [mark name placeholders.toList]) (B := B)
      (X := plain [' ']) "" ?_ ?_ ?_ (Or.inl rfl)).bind ?_
    · simp [typed]
    · simp [hstart, Document.typedRange, TextRange.length, String.length_toList]
    · simp [hstart, Document.typedRange, TextRange.length, String.length_toList]
    rintro - _ ⟨-, rfl⟩
    refine (rearranges_markRange? (show Arrangement.pieces _ place.flow =
      A ++ mark name placeholders.toList :: B by simp)).bind ?_
    rintro _ _ ⟨rfl, rfl⟩
    exact .pure ⟨by rw [String.length_toList], by simp, hfree⟩

/-- **A group is created** in a text, under a name that says its kind and its keys and that no mark
has yet. -/
theorem rearranges_createGroup {keys : List String} (hkeys : ∀ key ∈ keys, MarkName.IsWritable key)
    (pageInfo : Option String) (kind : CitationKind) (hpieces : L.pieces place.flow = A ++ B)
    (hstart : place.start = width A) (hopen : EndsOpen A) (spaceAfter : Bool) :
    Rearranges L (createGroup keys pageInfo kind place spaceAfter false) fun created L' =>
      ∃ name, (∃ serial, MarkName.parse? name = some ⟨serial, kind, keys⟩) ∧
        (∀ flow, name ∉ names (L.pieces flow)) ∧
        created = (CitationGroup.new name kind keys pageInfo,
          .new place.flow (width A) (width A + placeholders.length)) ∧
        L' = (L.set place.flow (A ++ mark name placeholders.toList ::
          ((if spaceAfter then typed [' '] else []) ++ B))).store name
            (normalizePageInfo pageInfo) := by
  unfold createGroup
  cases keys with
  | nil => exact .throw _
  | cons key rest =>
    simp only [List.isEmpty_cons, Bool.false_eq_true, if_false]
    refine (Rearranges.of_keeps (x := markNames) (keeps_see _)).bind ?_
    rintro used _ rfl
    have hparse := MarkName.parse?_fresh (List.cons_ne_nil key rest) hkeys kind used
    generalize MarkName.fresh (key :: rest) kind used = name at hparse ⊢
    have hname : MarkedText.isCitation name = true := by
      obtain ⟨serial, hserial⟩ := hparse
      rw [MarkedText.isCitation, hserial]
      rfl
    refine (rearranges_placeMark hname hpieces hstart hopen spaceAfter).bind ?_
    rintro _ _ ⟨rfl, rfl, hfree⟩
    refine (rearranges_setPageInfo name _).bind ?_
    rintro - _ rfl
    refine .pure ⟨name, hparse, hfree, rfl, ?_⟩
    simp [CitationGroup.new]

/-- **A group is removed**; its text stays. -/
theorem rearranges_removeGroup {name : String} {s : List Char} {flow : Flow}
    (hpieces : L.pieces flow = A ++ mark name s :: B) :
    Rearranges L (removeGroup name) fun _ L' =>
      L' = (L.set flow (A ++ typed s ++ B)).store name none := by
  refine (rearranges_removeMark hpieces).bind ?_
  rintro - _ rfl
  exact (rearranges_removeProperty name).weaken fun _ _ h => h

end Placing

end DocCite.DocumentM
