import DocCite.Proofs.Document.CitationsRead
import DocCite.Proofs.Document.Redrawing

/-!
# Changes of citations as one action

A change of the citations of a document checks that it may begin, runs as one action that can be
undone, and ends in a refresh. What it does to the outlines is what its own edits do, up to the
texts in the marks (`exists_redrawn_of_mutate`).
-/

namespace DocCite.DocumentM

open Arrangement

variable {α β : Type} {d d' : Document} {preferences : Preferences}

/-- **A change that succeeds runs its action**, and does nothing else to the document, nor to the
selection. -/
theorem exists_run_of_mutate {label : String} {x : DocumentM α} {a : α}
    (hrun : (mutate preferences label x).run d = (.ok a, d')) :
    ∃ d₁ d₂, x.run d₁ = (.ok a, d₂) ∧ (SameDocument d d₁ ∧ SameDocument d₂ d') ∧
      d.selection = d₁.selection ∧ d₂.selection = d'.selection := by
  obtain ⟨checked, d₁, hcheck, hrun⟩ := run_bind_eq_ok_iff.mp hrun
  obtain ⟨entered, d₂, henter, hclosing⟩ := run_bind_eq_ok_iff.mp hrun
  have hchecked : SameDocument d d₁ ∧ d.selection = d₁.selection := by
    obtain ⟨recording, c₁, hrecording, hcheck⟩ := run_bind_eq_ok_iff.mp hcheck
    obtain ⟨redlines, c₂, hredlines, hcheck⟩ := run_bind_eq_ok_iff.mp hcheck
    unfold isRecording see look at hrecording
    unfold redlineCount see look at hredlines
    obtain ⟨rest₁, hspend₁, hf₁⟩ := run_call_eq_ok_iff.mp hrecording
    obtain ⟨rest₂, hspend₂, hf₂⟩ := run_call_eq_ok_iff.mp hredlines
    cases hf₁
    cases hf₂
    split at hcheck
    · cases hcheck
    · cases hcheck
      exact ⟨(sameDocument_connection (Connection.steady_iff_of_spend? hspend₁)).trans
        (sameDocument_connection (Connection.steady_iff_of_spend? hspend₂)), rfl⟩
  have hentered := sameDocument_of_keeps (fun C => keeps_enterUndo (C := C) label) d₁
  rw [henter] at hentered
  unfold enterUndo change at henter
  obtain ⟨rest, -, hf⟩ := run_call_eq_ok_iff.mp henter
  cases hf
  rw [run_closing] at hclosing
  cases hx : x.run _ with
  | mk outcome d₃ =>
    rw [hx] at hclosing
    cases outcome with
    | error e => cases hclosing
    | ok b =>
      have hleft := sameDocument_of_keeps (fun C => keeps_leaveUndo (C := C)) d₃
      cases hleave : leaveUndo.run d₃ with
      | mk closed d₄ =>
        rw [hleave] at hleft
        simp only [hleave] at hclosing
        cases closed with
        | error e => cases hclosing
        | ok u =>
          unfold leaveUndo change at hleave
          obtain ⟨rest', -, hf'⟩ := run_call_eq_ok_iff.mp hleave
          have hselection : d₃.selection = d₄.selection := by
            cases hf'
            dsimp only
            split <;> rfl
          cases hclosing
          exact ⟨_, d₃, hx, ⟨hchecked.1.trans hentered, hleft⟩, hchecked.2, hselection⟩

/-- The groups and ranges that are loaded are those of the document. -/
theorem loaded_of_loadApart (hd : d.WellFormed) {loaded : CitationGroups × List (TextRange × String)}
    (hrun : (loadApart preferences).run d = (.ok loaded, d')) :
    Loaded d loaded.1 loaded.2 ∧ SameDocument d d' := by
  have hsame : SameDocument d d' := by
    refine Triple.of_ok (P := SameDocument d) (Q := fun _ => SameDocument d)
      (keeps_loadApart (C := sameAs d) preferences fun _ _ hd => hd) (SameDocument.refl d) hrun
  refine ⟨?_, hsame⟩
  obtain ⟨gs, d₁, hgs, hrun⟩ := run_bind_eq_ok_iff.mp hrun
  obtain ⟨ranges, d₂, hranges, hrun⟩ := run_bind_eq_ok_iff.mp hrun
  obtain ⟨u, d₃, -, hpure⟩ := run_bind_eq_ok_iff.mp hrun
  cases hpure
  have hloaded : gs.groups = CitationGroups.named d.properties (d.marks.map Prod.fst) := by
    rw [((Makes.loadGroups (o := d) (v := d.markedText)).of_ok (shows_self d) hgs).1]
    exact CitationGroups.groups_ofList_named hd.marks_nodup
  have hload := sameDocument_of_keeps (fun C => keeps_loadGroups (C := C)) d
  rw [hgs] at hload
  exact ⟨hloaded, ((triple_groupRanges d gs).of_ok hload hranges).1⟩

/-- **A change redraws what its edits leave**: the outlines after it are those after its edits, with
other texts in the marks. -/
theorem exists_redrawn_of_mutate {label : String} {x : DocumentM β} {databases : List Database}
    {style : Style} {unresolved : List String} {Q : (Flow → Outline) → Prop}
    (hrun : (mutate preferences label do
      let _ ← x
      refresh databases style preferences .ifPresent).run d = (.ok unresolved, d'))
    (hx : ∀ d₁ a d₂, SameDocument d d₁ → x.run d₁ = (.ok a, d₂) →
      ∃ (L : Arrangement) (O : Flow → Outline), L.Describes d₂ ∧ L.Follows O ∧ Q O) :
    ∃ (L : Arrangement) (O : Flow → Outline) (inside : Passage → List Char), Q O ∧
      L.Describes d' ∧ L.Follows d'.outline ∧ (fun flow => (O flow).redraw inside) = d'.outline := by
  obtain ⟨d₁, d₂, hrun, ⟨hbefore, hafter⟩, -⟩ := exists_run_of_mutate hrun
  obtain ⟨a, d₃, hedit, hrefresh⟩ := run_bind_eq_ok_iff.mp hrun
  obtain ⟨L, O, hL, hO, hQ⟩ := hx d₁ a d₃ hbefore hedit
  obtain ⟨L', inside, hL', hO'⟩ := exists_follows_of_refresh hL hO hrefresh
  have hd' := hL'.of_same hafter
  have houtline : (fun flow => (O flow).redraw inside) = d'.outline :=
    funext fun flow => (hO'.outline_eq hd' flow).symm
  exact ⟨L', O, inside, hQ, hd', houtline ▸ hO', houtline⟩

end DocCite.DocumentM
