import DocCite.Proofs.Document.Rewriting
import DocCite.Proofs.Document.Standing

/-!
# Marks that stand beside a section

Marks are carried along while the section of a bibliography is rewritten. One that is beside the
section afterwards suits the rewriting, so other marks stay settled in it, and the marker that was
written into it stands (`stands_of_rewritten`).
-/

namespace DocCite

namespace TextRange

variable {x y r whole : TextRange} {title entries s : List Char}

/-- The ends of marks are carried along when text is replaced. -/
theorem carried_afterReplacing (hflow : x.flow = r.flow) (s : List Char) :
    Carried r s.length x.start (x.afterReplacing .mark r s).start ∧
      Carried r s.length x.stop (x.afterReplacing .mark r s).stop := by
  have hr := r.start_le_stop
  obtain ⟨hstart, hstop⟩ := ends_afterReplacing hflow s
  have ha := placeAfterDeleting_cases hr x.start
  have hb := placeAfterDeleting_cases hr x.stop
  rw [hstart, hstop]
  unfold Carried
  constructor
  · split_ifs <;> omega
  · split_ifs <;> omega

/-- The ends of marks are carried along when a section is rewritten. -/
theorem carried_afterRewriting (hflow : x.flow = whole.flow) (title : List Char)
    (hentries : entries = [] ∨ '\n' ∈ entries) :
    Carried whole (title.length + entries.length) x.start
        (x.afterRewriting whole title entries).start ∧
      Carried whole (title.length + entries.length) x.stop
        (x.afterRewriting whole title entries).stop := by
  have hr := whole.start_le_stop
  obtain ⟨hstart, hstop⟩ := ends_afterRewriting hflow title hentries rfl rfl
  have ha := placeAfterDeleting_cases hr x.start
  have hb := placeAfterDeleting_cases hr x.stop
  rw [hstart, hstop]
  unfold Carried
  constructor
  · split_ifs <;> omega
  · split_ifs <;> omega

/-- A mark beside a section is not inside of it. -/
theorem Beside.not_isWithin (h : x.Beside whole) : ¬ x.IsWithin whole := by
  intro hwithin
  obtain ⟨hflow, hstart, hstop, -⟩ := isWithin_iff.mp hwithin
  have hx := x.start_le_stop
  have hside := h hflow
  omega

/-- **A mark that is beside the section afterwards** suits its rewriting. -/
theorem suits_of_beside (hentries : entries = [] ∨ '\n' ∈ entries)
    (h : (x.afterRewriting whole title entries).Beside (whole.rewritten title entries)) :
    x.Suits whole title entries := by
  by_cases hflow : x.flow = whole.flow
  · have hx := x.start_le_stop
    have hwhole := whole.start_le_stop
    obtain ⟨hstart, hstop⟩ := ends_afterRewriting hflow title hentries rfl rfl
    have ha := placeAfterDeleting_cases hwhole x.start
    have hb := placeAfterDeleting_cases hwhole x.stop
    have hside := h (by simpa using hflow)
    rw [start_rewritten, stop_rewritten] at hside
    have hclear : x.stop < whole.start ∨ whole.stop < x.start := by
      split_ifs at hstart hstop <;> omega
    refine ⟨fun _ => by omega, fun _ hend => ?_, fun _ _ hat => ?_⟩
    · omega
    · omega
  · exact ⟨fun hf => absurd hf hflow, fun hf => absurd hf hflow, fun hf => absurd hf hflow⟩

/-- Marks stay settled in one that suits the rewriting of a section. -/
theorem Settled.afterRewriting (h : x.Settled y) (hentries : entries = [] ∨ '\n' ∈ entries)
    (hy : y.Suits whole title entries) :
    (x.afterRewriting whole title entries).Settled (y.afterRewriting whole title entries) := by
  intro hflow
  rw [flow_afterRewriting, flow_afterRewriting] at hflow
  by_cases hr : y.flow = whole.flow
  · obtain ⟨hstart, hstop⟩ := carried_afterRewriting (hflow.trans hr) title hentries
    refine h.of_carried (flow_afterRewriting _ _ _ _) (flow_afterRewriting _ _ _ _) hstart hstop ?_
      (by simpa using hflow)
    have hends := hy.ends hr hentries
    rw [stop_rewritten, Nat.add_assoc] at hends
    exact hends.imp_right Or.inl
  · have hsame {z : TextRange} (hz : z.flow = y.flow) : z.afterRewriting whole title entries = z := by
      have hne : z.flow ≠ whole.flow := hz ▸ hr
      rw [TextRange.afterRewriting, TextRange.afterReplacing, if_neg (by simpa using hne)]
      exact if_neg hne
    rw [hsame rfl, hsame hflow]
    exact h hflow

/-- Marks stay settled in one that ends no later than where a section is created. -/
theorem Settled.afterBreak (h : x.Settled y) {p : Nat} (hy : y.flow = .body → y.stop ≤ p)
    (hs : s = [] ∨ '\n' ∈ s) :
    (x.afterReplacing .mark (.collapsed .body p) s).Settled
      (y.afterReplacing .mark (.collapsed .body p) s) := by
  intro hflow
  rw [flow_afterReplacing, flow_afterReplacing] at hflow
  by_cases hr : y.flow = .body
  · have hyle := y.start_le_stop
    obtain ⟨hstart, hstop⟩ := carried_afterReplacing (r := .collapsed .body p) (hflow.trans hr) s
    refine h.of_carried (flow_afterReplacing _ _ _ _) (flow_afterReplacing _ _ _ _) hstart hstop ?_
      (by simpa using hflow)
    obtain ⟨hstart', hstop'⟩ := ends_afterReplacing_collapsed hr p s
    unfold GoesAlong
    rw [start_collapsed, stop_collapsed]
    rcases hs with rfl | hbreak
    · rw [afterReplacing_collapsed_nil]
      exact Or.inl ⟨hy hr, rfl, rfl⟩
    · have hle := hy hr
      simp only [hbreak, not_true_eq_false, or_false] at hstop'
      split_ifs at hstart' hstop' <;> omega
  · have hsame {z : TextRange} (hz : z.flow = y.flow) :
        z.afterReplacing .mark (.collapsed .body p) s = z := if_neg (hz ▸ hr)
    rw [hsame rfl, hsame hflow]
    exact h hflow

end TextRange

namespace Progress

open MarkedText

variable {d₀ d₁ d' : Document} {marker : CitationGroup → List Char} {written : List CitationGroup}
  {title entries : List Char} {g : CitationGroup}

/-- **A marker that was written stands** when the bibliography was rewritten beside its mark, and no
footnote is anchored in the mark. -/
theorem stands_of_rewritten (h : Progress d₀ marker written d₁.markedText) (hg : g ∈ written)
    (hcitation : isCitation g.id = true)
    (hlength : (marker g).length = 0 ∨ 2 ≤ (marker g).length)
    (hwhole : d₁.sectionedText.Inside d₁.sectionRange)
    (hentries : entries = [] ∨ '\n' ∈ entries) (hd' : d₁.Rewritten title entries d')
    (hbeside : ∀ r, d'.marks.get? g.id = some r → r.Beside d'.sectionRange)
    (hanchors : ∀ r, d'.marks.get? g.id = some r → r.flow = .body →
      ∀ a ∈ (d'.anchors.take r.stop).drop r.start, a = none) :
    ∃ r, Stands d' g.id (marker g) r := by
  obtain ⟨x, hx, hunder⟩ := h.written g hg
  have hinside := h.inside g.id x hcitation hx
  have hbody := d₁.flow_sectionRange
  have hmark : d'.marks.get? g.id =
      some ((d₁.besideSection x).afterRewriting d₁.sectionRange title entries) := by
    rw [hd'.get?_marks, show d₁.marks.get? g.id = some x from hx, Option.map_some]
  have hclear := hbeside _ hmark
  rw [hd'.sectionRange] at hclear
  have hsuits := TextRange.suits_of_beside hentries hclear
  have hsectioned := Document.inside_besideSection (Document.inside_markedText_iff.mp hinside)
  refine ⟨_, {
    mark := hmark
    inside := ?inside
    under := ?under
    length := hlength
    settled := ?settled
    unanchored := hanchors _ hmark
    beside := ?beside }⟩
  case inside =>
    rw [hd'.markedText, rewrite, TextRange.afterRewriting, hbody]
    exact (inside_titled hbody hwhole title).replace (hwhole.replace hsectioned title) entries
  case under =>
    rw [hd'.markedText, under?_rewrite_of_suits hbody hwhole hentries hsuits,
      Document.under?_besideSection (Document.inside_markedText_iff.mp hinside), hunder]
  case settled =>
    intro name y' hy'
    have hy' : d'.marks.get? name = some y' := hy'
    rw [hd'.get?_marks] at hy'
    obtain ⟨y, hy, rfl⟩ := Option.map_eq_some_iff.mp hy'
    refine TextRange.Settled.afterRewriting ?_ hentries hsuits
    refine (h.settled g hg x hx name y hy).afterBreak (fun hflow => ?_) d₁.addedBreak_cases
    obtain ⟨cells, hcells, hstop⟩ := Document.inside_markedText_iff.mp hinside
    rw [hflow] at hcells
    obtain rfl : d₁.body = cells := Option.some.inj hcells
    exact hstop
  case beside =>
    intro name hname y hy hflow
    have hside := hclear (hflow.symm.trans ?_)
    · rw [TextRange.start_rewritten] at hside
      have hle := (d₁.sectionRange.rewritten title entries).start_le_stop
      rw [TextRange.start_rewritten] at hle
      rcases List.mem_cons.mp hname with rfl | hname
      · rw [hd'.bookmark, Option.some.injEq] at hy
        rw [← hy, TextRange.start_rewritten]
        omega
      · rw [List.mem_singleton.mp hname, hd'.endBookmark, Option.some.injEq] at hy
        rw [← hy, TextRange.start_collapsed, TextRange.stop_collapsed]
        omega
    · rcases List.mem_cons.mp hname with rfl | hname
      · rw [hd'.bookmark, Option.some.injEq] at hy
        rw [← hy]
      · rw [List.mem_singleton.mp hname, hd'.endBookmark, Option.some.injEq] at hy
        rw [← hy, TextRange.flow_rewritten, hbody]
        rfl

end Progress

end DocCite
