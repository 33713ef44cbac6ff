import DocCite.Proofs.Document.Changing

/-!
# What inserting a citation does

A citation is inserted at the end of the selection: its marker under a new mark, and a space behind
it (`MarkedText.placed`). The mark is placed over placeholders and then filled, the page info of its
group is stored, and the cursor goes behind the space. A call that succeeds has done just this
(`isInsertion_of_insertCitation`).
-/

namespace DocCite

namespace MarkedText

variable {v w : MarkedText} {id : String} {flow : Flow} {p : Nat} {s : List Char}

/-- **The text with a new mark** over other text, and with a space behind it. -/
def placed (v : MarkedText) (id : String) (flow : Flow) (p : Nat) (s : List Char) : MarkedText :=
  (v.inserted flow p (s ++ [' '])).mark id (.new flow p (p + s.length))

theorem get?_placed_self (hid : v.marks.get? id = none) :
    (v.placed id flow p s).marks.get? id = some (.new flow p (p + s.length)) := by
  refine get?_mark_self ?_ _
  rw [get?_inserted, hid, Option.map_none]

theorem get?_placed_of_ne {name : String} (hne : name ≠ id) :
    (v.placed id flow p s).marks.get? name =
      (v.marks.get? name).map fun x => x.afterInserting flow p (s.length + 1) := by
  rw [placed, get?_mark_of_ne _ hne, get?_inserted, List.length_append, List.length_singleton]

theorem inside_placed (hp : v.Inside (.collapsed flow p)) :
    (v.placed id flow p s).Inside (.new flow p (p + s.length)) :=
  inside_inserted (i := 0) (s := s ++ [' ']) hp (Nat.zero_le _) (by simp)

theorem fill_mark (w : MarkedText) (id : String) (x r : TextRange) (s : List Char) :
    (w.mark id x).fill r s = (w.fill r s).mark id (x.afterFilling r s.length) :=
  ext' (fun _ => rfl) (by simp [mark, fill])

/-- **Writing into a new mark** comes to placing it over what is written. -/
theorem withMarker_placed (hp : v.Inside (.collapsed flow p)) (hs : 2 ≤ s.length)
    (t : List Char) :
    (v.placed id flow p s).withMarker id (.new flow p (p + s.length)) t =
      v.placed id flow p t := by
  have hlength : ¬ (TextRange.new flow p (p + s.length)).length < 2 := by
    rw [TextRange.length, TextRange.start_new, TextRange.stop_new]
    omega
  have hself : (TextRange.new flow p (p + s.length)).afterFilling (.new flow p (p + s.length))
      t.length = .new flow p (p + t.length) := by
    have hlt : (TextRange.new flow p (p + s.length)).start <
        (TextRange.new flow p (p + s.length)).stop := by
      rw [TextRange.start_new, TextRange.stop_new]
      omega
    rw [TextRange.afterFilling_self _ (Or.inl hlt), TextRange.flow_new, TextRange.start_new,
      Nat.min_eq_left (Nat.le_add_right _ _)]
  rw [withMarker, opened, if_neg hlength, TextRange.opened, if_neg hlength, placed, fill_mark,
    inserted_fill hp (List.cons_ne_nil _ _), hself, placed]

end MarkedText

/-- A marker is written into a new mark. -/
theorem Makes.writeMarker_placed {o : Document} {v : MarkedText} {id : String} {flow : Flow}
    {p : Nat} {s : List Char} {kind : CitationKind} {marker : String} {style : Style}
    (hp : v.Inside (.collapsed flow p)) (hid : v.marks.get? id = none) (hs : 2 ≤ s.length)
    (hstyle : style.formatCitations = true → style.citationCharacterFormat ∈ o.characterStyles) :
    Makes o (v.placed id flow p s) (DocumentM.writeMarker id kind marker style) ()
      (v.placed id flow p
        (closedText (kind = .invisible) (Markup.plainChars marker.toList))) := by
  have hwritten : Makes o (v.placed id flow p s) (DocumentM.writeMarker id kind marker style) ()
      ((v.placed id flow p s).withMarker id (.new flow p (p + s.length))
        (closedText (kind = .invisible) (Markup.plainChars marker.toList))) :=
    writeMarker (MarkedText.get?_placed_self hid) (MarkedText.inside_placed hp) hstyle
  rwa [MarkedText.withMarker_placed hp hs] at hwritten

/-- The document with the page info of a group stored, where there is any. -/
def Document.withPageInfo (d : Document) (name : String) (pageInfo : Option String) : Document :=
  { d with
    properties := ((normalizePageInfo pageInfo).map fun info => d.properties.put name info).getD
      (d.properties.erase name) }

theorem Document.withPageInfo_normalizePageInfo (d : Document) (name : String)
    (pageInfo : Option String) :
    d.withPageInfo name (normalizePageInfo pageInfo) = d.withPageInfo name pageInfo := by
  rw [withPageInfo, normalizePageInfo_normalizePageInfo, withPageInfo]

/-- Where the cursor is; with nothing selected it goes to the start of the body. -/
def Document.cursor? (d : Document) : Option TextRange :=
  match d.selection with
  | .text r => some r
  | .nothing => some (.collapsed .body 0)
  | .comment => none

namespace DocumentM

open MarkedText

variable {o d d' : Document} {v : MarkedText} {request : CitationRequest} {flow : Flow} {p : Nat}
  {databases : List Database} {style : Style} {preferences : Preferences}

/-! ## Creating the mark -/

/-- A replacement that succeeds was made inside the text. -/
theorem inside_of_replace {r written : TextRange} {new : String} (hd : Shows o v d)
    (hrun : (replace r new).run d = (.ok written, d')) : v.Inside r := by
  have hinside := ((triple_replace d r new).of_ok (SameDocument.refl d) hrun).2.1
  rwa [← Document.inside_markedText_iff, hd.markedText] at hinside

/-- A mark that is created has a name that was free. -/
theorem get?_eq_none_of_createMark {name : String} {r : TextRange} {u : Unit} (hd : Shows o v d)
    (hrun : (createMark name r).run d = (.ok u, d')) : v.marks.get? name = none := by
  have htriple : Triple (Shows o v) (createMark name r)
      (fun _ _ => v.marks.get? name = none) fun _ _ => True := by
    refine Triple.call (fun d c hc hd => hd.of_same (sameDocument_connection hc))
      (fun d hd => ?_) fun _ _ _ => trivial
    obtain ⟨cells, -, -, hcells⟩ | ⟨reason, hcells⟩ := d.cellsAround_eq_ok_or r
    · rw [← hd.markedText, hcells]
      cases hget : d.marks.get? name with
      | none => exact hget
      | some x => exact trivial
    · rw [hcells]
      trivial
  exact htriple.of_ok hd hrun

/-- **A mark that is placed** has a free name and a place inside the text. -/
theorem placeable_of_placeMark {name : String} {r : TextRange} {spaceAfter bare : Bool}
    (hd : Shows o v d)
    (hrun : (placeMark name (.collapsed flow p) spaceAfter bare).run d = (.ok r, d')) :
    v.Inside (.collapsed flow p) ∧ v.marks.get? name = none := by
  obtain ⟨spaces, d₁, hspaces, hrest⟩ := run_bind_eq_ok_iff.mp hrun
  obtain ⟨written, d₂, hwrite, hrest⟩ := run_bind_eq_ok_iff.mp hrest
  obtain ⟨u, d₃, hcreate, -⟩ := run_bind_eq_ok_iff.mp hrest
  -- the first edit checks the place, and creating the mark checks the name
  obtain ⟨first, d₄, hfirst, -⟩ := run_bind_eq_ok_iff.mp hspaces
  have hinside := inside_of_replace hd hfirst
  obtain ⟨-, hd₁⟩ := (Makes.insertSpaces hinside 2).of_ok hd hspaces
  obtain ⟨-, hd₂⟩ := (Makes.replace (inside_of_replace hd₁ hwrite) _).of_ok hd₁ hwrite
  have hnone := get?_eq_none_of_createMark hd₂ hcreate
  rw [get?_replace, Option.map_eq_none_iff, get?_inserted, Option.map_eq_none_iff] at hnone
  exact ⟨hinside, hnone⟩

/-- Storing page info changes nothing else. -/
theorem triple_setPageInfo (name : String) (pageInfo : Option String) :
    Triple (Shows o v) (setPageInfo name pageInfo)
      (fun _ => Shows (o.withPageInfo name pageInfo) v) fun _ _ => True := by
  unfold setPageInfo Document.withPageInfo
  cases normalizePageInfo pageInfo with
  | none =>
    unfold removeProperty change
    refine Triple.call (fun d c hc hd => hd.of_same (sameDocument_connection hc))
      (fun d hd => ?_) fun _ _ _ => trivial
    exact ⟨hd.markedText, congrArg (Keyed.erase · name) hd.properties, hd.characterStyles,
      hd.steady⟩
  | some info =>
    unfold setProperty change
    refine Triple.call (fun d c hc hd => hd.of_same (sameDocument_connection hc))
      (fun d hd => ?_) fun _ _ _ => trivial
    exact ⟨hd.markedText, congrArg (Keyed.put · name info) hd.properties, hd.characterStyles,
      hd.steady⟩

/-- **A group that is created** has a fresh name, over placeholders with a space behind them. -/
theorem shows_of_createGroup {keys : List String} {pageInfo : Option String} {kind : CitationKind}
    {created : CitationGroup × TextRange} (hd : Shows o v d)
    (hrun : (createGroup keys pageInfo kind (.collapsed flow p) true false).run d =
      (.ok created, d')) :
    ∃ g, g = .new (MarkName.fresh keys kind (v.marks.map Prod.fst)) kind keys pageInfo ∧
      keys ≠ [] ∧ v.Inside (.collapsed flow p) ∧ v.marks.get? g.id = none ∧
      created = (g, .new flow p (p + 2)) ∧
      Shows (o.withPageInfo g.id pageInfo) (v.placed g.id flow p [placeholder, placeholder]) d' := by
  unfold createGroup at hrun
  split at hrun
  · cases hrun
  · next hkeys =>
    obtain ⟨names, d₁, hnames, hrest⟩ := run_bind_eq_ok_iff.mp hrun
    obtain ⟨r, d₂, hplace, hrest⟩ := run_bind_eq_ok_iff.mp hrest
    obtain ⟨u, d₃, hstore, hpure⟩ := run_bind_eq_ok_iff.mp hrest
    cases hpure
    have hsee : Makes o v markNames (v.marks.map Prod.fst) v :=
      Makes.see fun d hd => by rw [← hd.markedText]; rfl
    obtain ⟨rfl, hd₁⟩ := hsee.of_ok hd hnames
    obtain ⟨hinside, hnone⟩ := placeable_of_placeMark hd₁ hplace
    obtain ⟨rfl, hd₂⟩ := (Makes.placeMark hinside hnone true).of_ok hd₁ hplace
    have hd₃ := (triple_setPageInfo _ _).of_ok hd₂ hstore
    rw [CitationGroup.pageInfo_new, Document.withPageInfo_normalizePageInfo] at hd₃
    exact ⟨_, rfl, by simpa using hkeys, hinside, hnone, rfl, hd₃⟩

/-! ## Writing the marker -/

/-- Setting the cursor changes nothing else. -/
theorem selection_of_setViewCursor {r : TextRange} {u : Unit} (hd : Shows o v d)
    (hrun : (setViewCursor r).run d = (.ok u, d')) : Shows o v d' ∧ d'.selection = .text r := by
  have htriple : Triple (Shows o v) (setViewCursor r)
      (fun _ d => Shows o v d ∧ d.selection = .text r) fun _ _ => True := by
    refine Triple.call (fun d c hc hd => hd.of_same (sameDocument_connection hc))
      (fun d hd => ?_) fun _ _ _ => trivial
    obtain ⟨cells, -, -, hcells⟩ | ⟨reason, hcells⟩ := d.cellsAround_eq_ok_or r
    · rw [hcells]
      exact ⟨hd.of_same (sameDocument_selection d _), rfl⟩
    · rw [hcells]
      trivial
  exact htriple.of_ok hd hrun

/-- What the mark of a new group holds: its preliminary marker. -/
def preliminaryText (style : Style) (databases : List Database) (g : CitationGroup) : List Char :=
  closedText (g.kind = .invisible) (Markup.plainChars (preliminaryMarker style databases g).toList)

/-- **What inserting a citation at a place does** to a document. -/
structure IsInsertion (d : Document) (request : CitationRequest) (flow : Flow) (p : Nat)
    (g : CitationGroup) (content : List Char) (d' : Document) : Prop where
  keys_ne_nil : request.keys ≠ []
  group_eq : g = .new (MarkName.fresh request.keys request.kind (d.marks.map Prod.fst))
    request.kind request.keys request.pageInfo
  inside : d.markedText.Inside (.collapsed flow p)
  new_name : d.marks.get? g.id = none
  markedText_eq : d'.markedText = d.markedText.placed g.id flow p content
  properties_eq : d'.properties = (d.withPageInfo g.id request.pageInfo).properties
  selection_eq : d'.selection = .text (.collapsed flow (p + content.length + 1))

/-- The marks are the former ones, which have moved along, and the new one. -/
theorem IsInsertion.marks_eq {g : CitationGroup} {content : List Char}
    (h : IsInsertion d request flow p g content d') :
    d'.marks = (d.marks.map fun m => (m.1, m.2.afterInserting flow p (content.length + 1))) ++
      [(g.id, .new flow p (p + content.length))] := by
  have hmarks := congrArg MarkedText.marks h.markedText_eq
  rw [placed, mark, inserted, List.length_append, List.length_singleton] at hmarks
  exact hmarks

/-- Where the styles are defined, a citation is inserted with its preliminary marker. -/
theorem isInsertion_of_insertAt {u : Unit}
    (hstyle : style.formatCitations = true → style.citationCharacterFormat ∈ d.characterStyles)
    (hrun : (insertAt (.collapsed flow p) request databases style).run d = (.ok u, d')) :
    ∃ g, IsInsertion d request flow p g (preliminaryText style databases g) d' := by
  obtain ⟨created, d₁, hcreate, hrest⟩ := run_bind_eq_ok_iff.mp hrun
  obtain ⟨g, hg, hkeys, hinside, hnone, rfl, hd₁⟩ := shows_of_createGroup (shows_self d) hcreate
  obtain ⟨u₁, d₂, hwrite, hrest⟩ := run_bind_eq_ok_iff.mp hrest
  have hmarker : Makes (d.withPageInfo g.id request.pageInfo)
      (d.markedText.placed g.id flow p [placeholder, placeholder])
      (writeMarker g.id g.kind (preliminaryMarker style databases g) style) ()
      (d.markedText.placed g.id flow p (preliminaryText style databases g)) :=
    Makes.writeMarker_placed hinside hnone (Nat.le_refl 2) hstyle
  obtain ⟨-, hd₂⟩ := hmarker.of_ok hd₁ hwrite
  obtain ⟨r, d₃, hrange, hcursor⟩ := run_bind_eq_ok_iff.mp hrest
  obtain ⟨rfl, hd₃⟩ := (Makes.groupRange (get?_placed_self hnone)).of_ok hd₂ hrange
  obtain ⟨hd', hselection⟩ := selection_of_setViewCursor hd₃ hcursor
  refine ⟨g, hkeys, hg, hinside, hnone, hd'.markedText, hd'.properties, ?_⟩
  rw [hselection, TextRange.flow_new, TextRange.stop_new, Nat.max_eq_right (Nat.le_add_right _ _)]

/-! ## The cursor -/

/-- The cursor is where the selection has it. -/
theorem cursor?_of_requireViewCursor {cursor : TextRange}
    (hrun : requireViewCursor.run d = (.ok cursor, d')) : d.cursor? = some cursor := by
  obtain ⟨found, d₁, hview, hrest⟩ := run_bind_eq_ok_iff.mp hrun
  unfold viewCursor? see look at hview
  obtain ⟨c, -, hf⟩ := run_call_eq_ok_iff.mp hview
  cases hf
  cases hselection : d.selection with
  | text r =>
    simp only [hselection] at hrest
    cases hrest
    rw [Document.cursor?, hselection]
  | nothing =>
    -- the selection is put back to the start, and looked up once more
    simp only [hselection] at hrest
    obtain ⟨restored, d₂, hrestore, hrest⟩ := run_bind_eq_ok_iff.mp hrest
    unfold restoreSelection at hrestore
    obtain ⟨c', -, hf'⟩ := run_call_eq_ok_iff.mp hrestore
    simp only at hf'
    cases hf'
    obtain ⟨found, d₃, hview', hrest⟩ := run_bind_eq_ok_iff.mp hrest
    unfold viewCursor? see look at hview'
    obtain ⟨c'', -, hf''⟩ := run_call_eq_ok_iff.mp hview'
    cases hf''
    cases hrest
    rw [Document.cursor?, hselection]
  | comment =>
    simp only [hselection] at hrest
    obtain ⟨restored, d₂, hrestore, hrest⟩ := run_bind_eq_ok_iff.mp hrest
    unfold restoreSelection at hrestore
    obtain ⟨c', -, hf'⟩ := run_call_eq_ok_iff.mp hrestore
    simp only at hf'
    cases hf'
    cases hrest

/-- What a document holds is all that counts for what an insertion does to it. -/
theorem IsInsertion.of_same {d₁ d₂ : Document} {g : CitationGroup} {content : List Char}
    (h : IsInsertion d₁ request flow p g content d₂) (hbefore : SameDocument d d₁)
    (hafter : SameDocument d₂ d') (hselection : d₂.selection = d'.selection) :
    IsInsertion d request flow p g content d' := by
  have htext := ((shows_self d).of_same hbefore).markedText
  have htext' := ((shows_self d₂).of_same hafter).markedText
  refine ⟨h.keys_ne_nil, ?_, htext ▸ h.inside, hbefore.marks ▸ h.new_name, ?_, ?_, ?_⟩
  · rw [hbefore.marks]
    exact h.group_eq
  · rw [htext', h.markedText_eq, htext]
  · rw [← hafter.properties, h.properties_eq, Document.withPageInfo, Document.withPageInfo,
      hbefore.properties]
  · rw [← hselection, h.selection_eq]

/-- The citation is inserted at the end of the selection. -/
theorem isInsertion_of_insertGroup {u : Unit}
    (hrun : (insertGroup request databases style).run d = (.ok u, d')) :
    ∃ cursor g, d.cursor? = some cursor ∧
      IsInsertion d request cursor.flow cursor.stop g (preliminaryText style databases g) d' := by
  obtain ⟨cursor, d₁, hcursor, hrest⟩ := run_bind_eq_ok_iff.mp hrun
  have hsame : SameDocument d d₁ := by
    have hkeeps : Keeps (sameAs d) requireViewCursor :=
      keeps_requireViewCursor fun _ _ hd => hd
    exact hkeeps.of_ok (SameDocument.refl d) hcursor
  have hfound := cursor?_of_requireViewCursor hcursor
  by_cases hformat : style.formatCitations = true
  · -- the style is tried on a character that is deleted again
    simp only [hformat, if_true] at hrest
    obtain ⟨u₁, d₂, hcheck, hinsert⟩ := run_bind_eq_ok_iff.mp hrest
    obtain ⟨hstyle, hchecked⟩ :=
      (triple_checkCharacterStyle d₁ cursor.endPoint _).of_ok (SameDocument.refl d₁) hcheck
    obtain ⟨g, hg⟩ := isInsertion_of_insertAt (fun _ => hchecked.characterStyles ▸ hstyle) hinsert
    exact ⟨cursor, g, hfound, hg.of_same (hsame.trans hchecked) (SameDocument.refl d') rfl⟩
  · simp only [hformat, Bool.false_eq_true, if_false] at hrest
    obtain ⟨g, hg⟩ := isInsertion_of_insertAt (fun hformat' => absurd hformat' hformat) hrest
    exact ⟨cursor, g, hfound, hg.of_same hsame (SameDocument.refl d') rfl⟩

/-- **A call that inserts a citation**, and does not refresh the document, has done just this. -/
theorem isInsertion_of_insertCitation {unresolved : List String} (hsync : request.sync = false)
    (hrun : (insertCitation preferences request databases style).run d = (.ok unresolved, d')) :
    ∃ cursor g, d.cursor? = some cursor ∧
      IsInsertion d request cursor.flow cursor.stop g (preliminaryText style databases g) d' := by
  obtain ⟨d₁, d₂, hrun, ⟨hbefore, hafter⟩, hselection, hselection'⟩ := exists_run_of_mutate hrun
  obtain ⟨u, d₃, hinsert, hrest⟩ := run_bind_eq_ok_iff.mp hrun
  rw [hsync] at hrest
  cases hrest
  obtain ⟨cursor, g, hcursor, hg⟩ := isInsertion_of_insertGroup hinsert
  refine ⟨cursor, g, ?_, hg.of_same hbefore hafter hselection'⟩
  rw [← hcursor, Document.cursor?, Document.cursor?, hselection]

end DocumentM

end DocCite
