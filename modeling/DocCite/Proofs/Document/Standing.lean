import DocCite.Proofs.Document.Beside
import DocCite.Proofs.Document.Refreshing

/-!
# Markers that stand

Where a mark holds the marker of its group already, with nothing else ending or being anchored
inside of it and the bibliography beside it, writing the marker once more changes nothing that can
be seen (`triple_writeGroup_of_stands`). So all markers can be written again
(`triple_writeMarkers_of_stand`).
-/

namespace DocCite

/-- The names of the bookmarks of the bibliography. -/
def sectionBookmarks : List String :=
  [MarkName.bibliographyBookmark, MarkName.bibliographyEndBookmark]

/-- **The marker of a group stands** in its mark: the mark holds it, all marks are settled there, no
footnote is anchored in it, and the bookmarks of the bibliography are beside it. -/
structure Stands (d : Document) (id : String) (marker : List Char) (r : TextRange) : Prop where
  mark : d.marks.get? id = some r
  inside : d.markedText.Inside r
  under : d.markedText.under? r = some marker
  length : marker.length = 0 ∨ 2 ≤ marker.length
  settled : d.markedText.SettledIn r
  unanchored : r.flow = .body → ∀ a ∈ (d.anchors.take r.stop).drop r.start, a = none
  beside : ∀ name ∈ sectionBookmarks, ∀ x, d.bookmarks.get? name = some x → x.Beside r

/-- **A document is unmoved**: its text reads the same, with all marks in the same places, the same
footnotes anchored, and the same bookmarks of the bibliography. -/
structure Unmoved (d₀ d : Document) : Prop where
  alike : d₀.markedText.Alike d.markedText
  anchors : d.anchors = d₀.anchors
  bookmarks : ∀ name ∈ sectionBookmarks, d.bookmarks.get? name = d₀.bookmarks.get? name

/-- **A document is undisturbed**: it is unmoved, and has kept its properties and its styles. -/
structure Undisturbed (d₀ d : Document) : Prop extends Unmoved d₀ d where
  shows : Shows d₀ d.markedText d

variable {d₀ d d' : Document} {id : String} {marker : List Char} {r : TextRange}

theorem Unmoved.refl (d : Document) : Unmoved d d := ⟨.refl _, rfl, fun _ _ => rfl⟩

theorem Unmoved.trans (h : Unmoved d₀ d) (h' : Unmoved d d') : Unmoved d₀ d' where
  alike := h.alike.trans h'.alike
  anchors := h'.anchors.trans h.anchors
  bookmarks name hname := (h'.bookmarks name hname).trans (h.bookmarks name hname)

/-- Documents with the same content read the same. -/
theorem SameContent.markedText (h : SameContent d d') : d.markedText = d'.markedText := by
  refine MarkedText.ext' (fun flow => ?_) h.marks
  rcases flow with _ | _ | n
  · exact congrArg (fun cells => some (Cells.chars cells)) h.body
  · rfl
  · exact congrArg (fun footnotes : List (List Cell) => footnotes[n]?.map Cells.chars) h.footnotes

theorem Unmoved.of_content (h : SameContent d d') : Unmoved d d' where
  alike := h.markedText ▸ .refl _
  anchors := by rw [Document.anchors, Document.anchors, h.body]
  bookmarks _ _ := by rw [h.bookmarks]

theorem Undisturbed.refl (d : Document) : Undisturbed d d := ⟨.refl d, shows_self d⟩

theorem Undisturbed.of_same (h : Undisturbed d₀ d) (hsame : SameDocument d d') :
    Undisturbed d₀ d' := by
  have hshows := h.shows.of_same hsame
  have htext := hshows.markedText
  exact ⟨h.toUnmoved.trans (.of_content hsame.toSameContent), htext.symm ▸ hshows⟩

theorem Stands.of_unmoved (h : Stands d₀ id marker r) (hd : Unmoved d₀ d) :
    Stands d id marker r where
  mark := (hd.alike.marks id).symm.trans h.mark
  inside := hd.alike.inside h.inside
  under := (hd.alike.under? r).trans h.under
  length := h.length
  settled := hd.alike.settledIn h.settled
  unanchored := by
    rw [hd.anchors]
    exact h.unanchored
  beside name hname := by
    rw [hd.bookmarks name hname]
    exact h.beside name hname

theorem Stands.length_eq (h : Stands d id marker r) : r.length = marker.length := by
  rw [TextRange.length, MarkedText.length_of_under? h.inside h.under, Nat.add_sub_cancel_left]

/-- No footnote is anchored in a mark that stands. -/
theorem Stands.anchorsFilled (h : Stands d id marker r) :
    anchorsFilled d.anchors r marker.length = d.anchors := by
  unfold DocCite.anchorsFilled
  split_ifs with hflow
  · obtain ⟨text, htext, hstop⟩ := h.inside
    rw [hflow] at htext
    have hle := r.start_le_stop
    have hanchors : r.stop ≤ d.anchors.length := by
      rw [Document.anchors, List.length_map, ← List.length_map (f := Cell.char)]
      rwa [← Option.some.inj htext] at hstop
    have hnone : (d.anchors.take r.stop).drop r.start = List.replicate marker.length none := by
      refine List.eq_replicate_iff.mpr ⟨?_, h.unanchored hflow⟩
      rw [List.length_drop, List.length_take_of_le hanchors,
        MarkedText.length_of_under? h.inside h.under, Nat.add_sub_cancel_left]
    have htake : d.anchors.take r.start = (d.anchors.take r.stop).take r.start := by
      rw [List.take_take, Nat.min_eq_left hle]
    rw [← hnone, htake, List.take_append_drop, List.take_append_drop]
  · rfl

/-- What is around a mark that stands is where it is. -/
theorem Stands.holdsAround (h : Stands d id marker r) : HoldsAround d r marker d where
  text := (MarkedText.filled_of_under? h.under).symm
  anchors := h.anchorsFilled.symm
  bookmarks name hbeside := by
    rw [← h.length_eq]
    cases hx : d.bookmarks.get? name with
    | none => rfl
    | some x => exact congrArg some (hbeside x hx).afterFilling_length.symm

/-- Writing a marker that stands disturbs nothing. -/
theorem Stands.undisturbed (h : Stands d id marker r) (hd : Undisturbed d₀ d)
    (hshows : Shows d₀ (d.markedText.withMarker id r marker) d')
    (hafter : ∃ s, HoldsAround d r s d') : Undisturbed d₀ d' := by
  obtain ⟨s, hafter⟩ := hafter
  have hwritten : d'.markedText.text = d.markedText.filled r marker := by
    rw [hshows.markedText, MarkedText.text_withMarker h.inside]
  obtain rfl : s = marker :=
    MarkedText.filled_injective h.inside (hafter.text.symm.trans hwritten)
  have halike := MarkedText.alike_withMarker h.mark h.inside h.under h.length h.settled
  rw [← hshows.markedText] at halike hshows
  refine ⟨⟨hd.alike.trans halike.symm, ?_, fun name hname => ?_⟩, hshows⟩
  · rw [hafter.anchors, h.anchorsFilled, hd.anchors]
  · rw [← hd.bookmarks name hname, hafter.bookmarks name (h.beside name hname), ← h.length_eq]
    cases hx : d.bookmarks.get? name with
    | none => rfl
    | some x => exact congrArg some (h.beside name hname x hx).afterFilling_length

namespace DocumentM

variable {style : Style} {produced : CitationMarkers}

/-- Whether there is a bibliography does not change. -/
theorem triple_hasBibliography (d₀ : Document) :
    Triple (Undisturbed d₀) hasBibliography
      (fun there d => there = (d₀.bookmarks.get? MarkName.bibliographyBookmark).isSome ∧
        Undisturbed d₀ d) fun e _ => d₀.Breaks e := by
  have hlook : Triple (Undisturbed d₀) (bookmarkRange? MarkName.bibliographyBookmark)
      (fun covered d => covered = d₀.bookmarks.get? MarkName.bibliographyBookmark ∧
        Undisturbed d₀ d) fun e _ => d₀.Breaks e := by
    unfold bookmarkRange? see look
    refine Triple.call (fun d c hc hd => hd.of_same (sameDocument_connection hc)) (fun d hd => ?_)
      fun d hbroken hd => ⟨rfl, fun h => hbroken (hd.shows.steady.mp h)⟩
    exact ⟨hd.bookmarks _ List.mem_cons_self, hd⟩
  refine Triple.bind hlook fun covered => .assume fun hcovered => Triple.pure fun d hd => ?_
  exact ⟨congrArg Option.isSome hcovered, hd⟩

/-- **Writing a marker that stands** disturbs nothing. -/
theorem triple_writeGroup_of_stands {g : CitationGroup}
    (hstands : Stands d₀ g.id (produced.closedMarker g) r)
    (hstyle : style.formatCitations = true → style.citationCharacterFormat ∈ d₀.characterStyles)
    {checked : Bool}
    (hchecked : checked = (d₀.bookmarks.get? MarkName.bibliographyBookmark).isSome) :
    Triple (Undisturbed d₀) (writeGroup produced style checked g) (fun _ => Undisturbed d₀)
      fun e _ => d₀.Breaks e := by
  refine Triple.bind (Q := fun _ => Undisturbed d₀) (Triple.of_each fun d hd => ?_) fun _ => ?_
  · have hthere := hstands.of_unmoved hd.toUnmoved
    have hwrite : MakesWithin (fun d' => ∃ s, HoldsAround d r s d') d₀ d.markedText
        (writeMarker g.id g.kind (CitationMarkers.markerOf produced g.id) style) ()
        (d.markedText.withMarker g.id r (produced.closedMarker g)) :=
      MakesWithin.writeMarker (surrounds_around hthere.inside) hthere.inside hthere.mark hstyle
    refine Triple.weaken hwrite (fun d₁ hd₁ => ?_) (fun _ d₁ hd₁ => ?_) fun _ _ he => he
    · exact ⟨hd.shows.of_same hd₁, _, hthere.holdsAround.of_same hd₁⟩
    · exact hthere.undisturbed hd hd₁.2.1 hd₁.2.2
  · cases checked with
    | false => exact Triple.pure fun d hd => hd
    | true =>
      refine Triple.bind (triple_hasBibliography d₀) fun there => .assume fun hthere => ?_
      rw [hthere, ← hchecked]
      exact Triple.pure fun d hd => hd

/-- **Writing markers that stand** disturbs nothing. -/
theorem triple_writeMarkers_of_stand {gs : CitationGroups}
    (hstand : ∀ g ∈ gs.groups, ∃ r, Stands d₀ g.id (produced.closedMarker g) r)
    (hstyle : gs.groups ≠ [] → style.formatCitations = true →
      style.citationCharacterFormat ∈ d₀.characterStyles) :
    Triple (Undisturbed d₀) (writeMarkers gs produced style) (fun _ => Undisturbed d₀)
      fun e _ => d₀.Breaks e := by
  rw [writeMarkers_eq]
  refine Triple.bind (triple_hasBibliography d₀) fun checked => .assume fun hchecked => ?_
  refine Triple.forM fun g hg => ?_
  obtain ⟨r, hr⟩ := hstand g hg
  exact triple_writeGroup_of_stands hr (hstyle (List.ne_nil_of_mem hg)) hchecked

end DocumentM

end DocCite
