import DocCite.Proofs.Document.Checks

/-!
# Errors of preconditions

Inserting, joining and separating citations edit the document before they refresh it. With the
error of a precondition they leave the content as it was, except where the editing went through
and changed something: then it is the refresh that failed, in a document that has been changed
(`sameContent_iff_not_editsFirst`).
-/

namespace DocCite

namespace DocumentM

/-! ## The names of the marks -/

/-- The contract that the names of the marks are certain ones, in any order. -/
def named (names : List String) : Contract where
  Holds d := (d.marks.map Prod.fst).Perm names
  Fails _ _ := True
  holds_of_step h hd := by rwa [← h.marks]
  fails_of_same _ _ := trivial
  fails_of_internal _ _ := trivial

theorem allowsWriting_named (names : List String) : (named names).AllowsWriting where
  replaceText {d r cells} new _ _ hd := by
    change ((d.replaceText r new).marks.map Prod.fst).Perm names
    rw [d.marks_replaceText, List.map_map]
    exact hd
  modifyCells {d} r f hd := by
    change ((d.modifyCells r f).marks.map Prod.fst).Perm names
    rw [d.modifyCells_eq]
    exact hd
  putBookmark _ _ _ hd := hd
  eraseBookmark _ hd := hd
  setProperties _ hd := hd

theorem triple_createMark (names : List String) (name : String) (r : TextRange) :
    Triple (named names).Holds (createMark name r)
      (fun _ d => name ∉ names ∧ (named (name :: names)).Holds d) (fun _ _ => True) := by
  refine Triple.call (fun d c _ hd => hd) (fun d hd => ?_) fun d _ hd => trivial
  obtain ⟨cells, -, -, hcells⟩ | ⟨reason, hcells⟩ := d.cellsAround_eq_ok_or r
  · rw [hcells]
    cases hname : d.marks.get? name with
    | some r' => simp [bind, Except.bind, throw, throwThe, MonadExceptOf.throw]
    | none =>
      have hnew : name ∉ d.marks.map Prod.fst := Keyed.get?_eq_none_iff.mp hname
      have hperm : ((d.marks.put name r).map Prod.fst).Perm (name :: names) := by
        rw [Keyed.map_fst_put, if_neg (by simpa using hnew)]
        exact (List.perm_append_singleton _ _).trans (hd.cons name)
      simpa [bind, Except.bind, hname, named, pure, Except.pure] using
        ⟨fun hmem => hnew (hd.mem_iff.mpr hmem), hperm⟩
  · rw [hcells]
    trivial

theorem triple_removeMark (names : List String) (name : String) :
    Triple (named names).Holds (removeMark name)
      (fun _ d => name ∈ names ∧ (named (names.filter (· ≠ name))).Holds d)
      (fun _ _ => True) := by
  refine Triple.call (fun d c _ hd => hd) (fun d hd => ?_) fun d _ hd => trivial
  cases hname : (d.marks.get? name).isNone with
  | true => trivial
  | false =>
    have hold : name ∈ d.marks.map Prod.fst := by
      by_contra hnot
      rw [Keyed.get?_eq_none_iff.mpr hnot] at hname
      cases hname
    refine ⟨hd.mem_iff.mp hold, ?_⟩
    change ((d.marks.erase name).map Prod.fst).Perm _
    rw [Keyed.map_fst_erase]
    exact hd.filter _

theorem triple_placeMark (names : List String) (name : String) (place : TextRange)
    (spaceAfter bare : Bool) :
    Triple (named names).Holds (placeMark name place spaceAfter bare)
      (fun _ d => name ∉ names ∧ (named (name :: names)).Holds d) (fun _ _ => True) := by
  have hW (names : List String) := allowsWriting_named names
  refine Triple.bind (keeps_insertSpaces (hW names) _ _) fun _ =>
    Triple.bind (keeps_replace (hW names) _ _) fun inserted =>
    (triple_createMark names name inserted).bind fun _ => .assume fun hnew => ?_
  refine (keeps_afterCreation (hW (name :: names)) name _ _ spaceAfter).weaken (fun _ hd => hd)
    (fun _ _ hd => ⟨hnew, hd⟩) fun _ _ _ => trivial

/-- Names stay the same, up to their order, while a mark is made ready. -/
theorem keeps_prepareMark_named {names : List String} (hnodup : names.Nodup) (id : String) :
    Keeps (named names) (prepareMark id) := by
  have hW := allowsWriting_named names
  refine (keeps_groupRange id).bind fun r => ?_
  split
  · have hremoved (place : TextRange) : Triple (named names).Holds (do
        removeMark id
        let _ ← placeMark id place false false
        return (none : Option TextRange)) (fun _ => (named names).Holds) (fun _ _ => True) := by
      refine (triple_removeMark names id).bind fun _ => .assume fun hmem => ?_
      refine (triple_placeMark _ id place false false).bind fun _ => .assume fun _ => ?_
      refine Triple.pure fun d hd => ?_
      have herase : names.erase id = names.filter (· ≠ id) :=
        (hnodup.erase_eq_filter id).trans (List.filter_congr fun k _ => by
          by_cases h : k = id <;> simp [h])
      rw [← herase] at hd
      exact List.Perm.trans hd (List.perm_cons_erase hmem).symm
    exact Triple.bind (keeps_replace hW r "") fun _ => hremoved r.startPoint
  · exact keeps_emptyMark hW id r

/-- A group that is created has a new name. -/
theorem triple_createGroup (names : List String) (keys : List String) (pageInfo : Option String)
    (kind : CitationKind) (place : TextRange) (spaceAfter bare : Bool) :
    Triple (named names).Holds (createGroup keys pageInfo kind place spaceAfter bare)
      (fun made d => made.1.id ∉ names ∧ (named (made.1.id :: names)).Holds d)
      (fun _ _ => True) := by
  unfold createGroup
  split
  · exact Triple.throw fun _ _ => trivial
  · refine Triple.bind (keeps_see _) fun used =>
      (triple_placeMark names _ place spaceAfter bare).bind fun r => .assume fun hnew => ?_
    refine Triple.bind (keeps_setPageInfo (allowsWriting_named _) _ _) fun _ => ?_
    exact Triple.pure fun d hd => ⟨hnew, hd⟩

theorem triple_removeGroup (names : List String) (id : String) :
    Triple (named names).Holds (removeGroup id)
      (fun _ d => id ∈ names ∧ (named (names.filter (· ≠ id))).Holds d) (fun _ _ => True) := by
  refine (triple_removeMark names id).bind fun _ => .assume fun hmem => ?_
  have hproperty : Keeps (named (names.filter (· ≠ id))) (removeProperty id) :=
    keeps_change fun _ hd => hd
  exact hproperty.weaken (fun _ hd => hd) (fun _ _ hd => ⟨hmem, hd⟩) fun _ _ _ => trivial

/-! ## Phases of editing -/

theorem named_of_same {d₀ d : Document} (h : SameDocument d₀ d) :
    (named (d₀.marks.map Prod.fst)).Holds d := by
  change (d.marks.map Prod.fst).Perm _
  rw [h.marks]

theorem length_marks_of_named {names : List String} {d : Document} (h : (named names).Holds d) :
    d.marks.length = names.length := by
  rw [← List.length_map Prod.fst]
  exact h.length_eq

/-- Once the style is known, inserting at a place adds a mark, and nothing fails for a
precondition. -/
theorem triple_insertAt {d₀ : Document} (hd₀ : d₀.WellFormed) (request : CitationRequest)
    (databases : List Database) {style : Style}
    (hstyle : style.formatCitations = true →
      style.citationCharacterFormat ∈ d₀.characterStyles) (place : TextRange) :
    Triple (SameDocument d₀) (insertAt place request databases style)
      (fun _ d => d.marks.length = d₀.marks.length + 1) (untouched d₀).Fails := by
  have hS := allowsMarking_styled d₀
  have hstyled : Keeps (styled d₀) (insertAt place request databases style) := by
    refine (keeps_createGroup hS _ _ _ _ _ _).bind fun made => ?_
    have hmarker : Keeps (styled d₀) (writeMarker made.1.id made.1.kind
        (preliminaryMarker style databases made.1) style) :=
      keeps_writeMarker hS.toAllowsWriting (keeps_fillCursor (keeps_prepareMark hS _)) _ _
        fun hformat d hd hnot => absurd (hd.1 ▸ hstyle hformat) hnot
    exact hmarker.bind fun _ => (keeps_groupRange _).bind fun _ => keeps_setViewCursor _
  have hnamed : Triple (named (d₀.marks.map Prod.fst)).Holds
      (insertAt place request databases style)
      (fun _ d => d.marks.length = d₀.marks.length + 1) (fun _ _ => True) := by
    refine (triple_createGroup _ _ _ _ _ _ _).bind fun made => .assume fun hnew => ?_
    have hnodup := List.nodup_cons.mpr ⟨hnew, hd₀.marks_nodup⟩
    have hmarker : Keeps (named (made.1.id :: d₀.marks.map Prod.fst)) (writeMarker made.1.id
        made.1.kind (preliminaryMarker style databases made.1) style) :=
      keeps_writeMarker (allowsWriting_named _)
        (keeps_fillCursor (keeps_prepareMark_named hnodup _)) _ _ fun _ _ _ _ => trivial
    refine Triple.bind hmarker fun _ => Triple.bind (keeps_groupRange _) fun _ => ?_
    refine Triple.weaken (keeps_setViewCursor _) (fun _ hd => hd) (fun _ d hd => ?_)
      fun _ _ _ => trivial
    rw [length_marks_of_named hd, List.length_cons, List.length_map]
  exact (hstyled.and hnamed).weaken
    (fun d hd => ⟨⟨hd.characterStyles, hd.paragraphStyles⟩, named_of_same hd⟩)
    (fun _ _ hd => hd.2) fun _ _ he h => absurd h he.1

/-- **Inserting a citation** adds a mark, or fails for a precondition before it changes
anything. -/
theorem triple_insertGroup {d₀ : Document} (hd₀ : d₀.WellFormed) (request : CitationRequest)
    (databases : List Database) (style : Style) :
    Triple (SameDocument d₀) (insertGroup request databases style)
      (fun _ d => d.marks.length = d₀.marks.length + 1) (untouched d₀).Fails := by
  have hS := allowsMarking_styled d₀
  have hcursor : Keeps (untouched d₀) requireViewCursor :=
    keeps_requireViewCursor fun d _ hd _ => hd
  refine Triple.bind hcursor fun cursor => ?_
  have hrest (hstyle : style.formatCitations = true →
      style.citationCharacterFormat ∈ d₀.characterStyles) :=
    triple_insertAt hd₀ request databases hstyle cursor.endPoint
  split
  · exact (triple_checkCharacterStyle d₀ _ _).bind fun _ => .assume fun hstyle =>
      hrest fun _ => hstyle
  · next hnot => exact hrest fun hformat => absurd hformat hnot

/-! ## Counting marks -/

/-- The contract that there are so many marks, all of different names. -/
def marked (count : Nat) : Contract where
  Holds d := (d.marks.map Prod.fst).Nodup ∧ d.marks.length = count
  Fails _ _ := True
  holds_of_step h hd := by rwa [← h.marks]
  fails_of_same _ _ := trivial
  fails_of_internal _ _ := trivial

theorem allowsWriting_marked (count : Nat) : (marked count).AllowsWriting where
  replaceText {d r cells} new _ _ hd := by
    change ((d.replaceText r new).marks.map Prod.fst).Nodup ∧ (d.replaceText r new).marks.length = _
    rw [d.marks_replaceText, List.map_map, List.length_map]
    exact hd
  modifyCells {d} r f hd := by
    change ((d.modifyCells r f).marks.map Prod.fst).Nodup ∧ (d.modifyCells r f).marks.length = _
    rw [d.modifyCells_eq]
    exact hd
  putBookmark _ _ _ hd := hd
  eraseBookmark _ hd := hd
  setProperties _ hd := hd

/-- What is shown for all names holds for all counts. -/
theorem triple_marked {α : Type} {x : DocumentM α} {count : Nat} {Q : α → Document → Prop}
    {E : DocumentError → Document → Prop}
    (h : ∀ names : List String, names.Nodup → names.length = count →
      Triple (named names).Holds x Q E) : Triple (marked count).Holds x Q E := by
  intro d hd
  exact h (d.marks.map Prod.fst) hd.1 ((List.length_map _).trans hd.2) d (List.Perm.refl _)

theorem marked_of_named {names : List String} {d : Document} (h : (named names).Holds d)
    (hnodup : names.Nodup) : (marked names.length).Holds d :=
  ⟨h.nodup_iff.mpr hnodup, length_marks_of_named h⟩

theorem createGroup_marked (count : Nat) (keys : List String) (pageInfo : Option String)
    (kind : CitationKind) (place : TextRange) (spaceAfter bare : Bool) :
    Triple (marked count).Holds (createGroup keys pageInfo kind place spaceAfter bare)
      (fun _ => (marked (count + 1)).Holds) (fun _ _ => True) := by
  refine triple_marked fun names hnodup hcount => ?_
  refine (triple_createGroup names _ _ _ _ _ _).weaken (fun _ hd => hd) (fun made d hd => ?_)
    fun _ _ h => h
  rw [← hcount]
  exact marked_of_named hd.2 (List.nodup_cons.mpr ⟨hd.1, hnodup⟩)

theorem removeGroup_marked (count : Nat) (id : String) :
    Triple (marked count).Holds (removeGroup id)
      (fun _ d => ∃ left, left + 1 = count ∧ (marked left).Holds d) (fun _ _ => True) := by
  refine triple_marked fun names hnodup hcount => ?_
  refine (triple_removeGroup names id).weaken (fun _ hd => hd) (fun made d hd => ?_)
    fun _ _ h => h
  refine ⟨_, ?_, marked_of_named hd.2 (hnodup.filter _)⟩
  have hperm := (List.perm_cons_erase hd.1).length_eq
  rw [List.length_cons, hnodup.erase_eq_filter, hcount] at hperm
  rw [hperm]
  simp [bne, beq_eq_decide]

/-- Removing groups takes one mark away for each of them. -/
theorem removeGroups_marked (groups : List CitationGroup) (count : Nat) :
    Triple (marked count).Holds (groups.forM fun g => removeGroup g.id)
      (fun _ d => ∃ left, left + groups.length = count ∧ (marked left).Holds d)
      (fun _ _ => True) := by
  induction groups generalizing count with
  | nil => exact Triple.pure fun d hd => ⟨count, rfl, hd⟩
  | cons g groups ih =>
    refine (removeGroup_marked count g.id).bind fun _ => .exists fun left => .assume fun hleft => ?_
    refine (ih left).weaken (fun _ hd => hd) (fun _ d hd => ?_) fun _ _ h => h
    obtain ⟨rest, hrest, hd⟩ := hd
    exact ⟨rest, by rw [List.length_cons]; omega, hd⟩

/-- Joining a run leaves one mark of all. -/
theorem joinRun_marked (first : CitationGroup) (rest : List CitationGroup) (count : Nat) :
    Triple (marked count).Holds (joinRun first rest)
      (fun _ d => ∃ left, left + rest.length = count ∧ (marked left).Holds d)
      (fun _ _ => True) := by
  refine Triple.bind (keeps_groupRange _) fun start => Triple.bind (keeps_groupRange _) fun stop =>
    Triple.bind (Triple.liftExcept (fun _ _ _ hd => hd) fun _ _ _ _ => trivial) fun span => ?_
  refine (removeGroups_marked (first :: rest) count).bind fun _ => .exists fun left =>
    .assume fun hleft => ?_
  refine Triple.bind (keeps_replace (allowsWriting_marked left) _ _) fun _ =>
    (createGroup_marked left _ _ _ _ _ _).bind fun _ => Triple.pure fun d hd => ?_
  exact ⟨left + 1, by rw [List.length_cons] at hleft; omega, hd⟩

/-- Separating keys adds a mark for each of them. -/
theorem splitInto_marked (kind : CitationKind) (pageInfo : Option String) (place : TextRange)
    (keys : List String) (count : Nat) :
    Triple (marked count).Holds (splitInto kind pageInfo place keys)
      (fun _ => (marked (count + keys.length)).Holds) (fun _ _ => True) := by
  fun_induction splitInto kind pageInfo place keys generalizing count with
  | case1 => exact Triple.pure fun d hd => hd
  | case2 place key =>
    exact (createGroup_marked count _ _ _ _ _ _).bind fun _ => Triple.pure fun d hd => hd
  | case3 place key rest _ ih =>
    refine (createGroup_marked count _ _ _ _ _ _).bind fun created => ?_
    refine (ih created.2 (count + 1)).weaken (fun _ hd => hd) (fun _ d hd => ?_) fun _ _ h => h
    rwa [List.length_cons, Nat.add_comm rest.length, ← Nat.add_assoc]

theorem splitGroup_marked (g : CitationGroup) (count : Nat) :
    Triple (marked count).Holds (splitGroup g)
      (fun _ d => ∃ left, left + 1 = count ∧ (marked (left + g.citations.length)).Holds d)
      (fun _ _ => True) := by
  refine Triple.bind (keeps_groupRange _) fun r => (removeGroup_marked count g.id).bind fun _ =>
    .exists fun left => .assume fun hleft => ?_
  refine Triple.bind (keeps_replace (allowsWriting_marked left) _ _) fun _ => ?_
  refine (splitInto_marked g.kind g.pageInfo _ g.keys left).weaken (fun _ hd => hd)
    (fun _ d hd => ⟨left, hleft, ?_⟩) fun _ _ h => h
  rwa [CitationGroup.keys, List.length_map] at hd

/-- The lock of the screen does not change how many marks there are. -/
theorem withLockedScreen_marked {x : DocumentM Unit} {count : Nat} {good : Nat → Prop}
    (h : Triple (marked count).Holds x (fun _ d => ∃ n, good n ∧ (marked n).Holds d)
      fun _ _ => True) :
    Triple (marked count).Holds (withLockedScreen x)
      (fun _ d => ∃ n, good n ∧ (marked n).Holds d) (fun _ _ => True) := by
  refine Triple.bind keeps_lockScreen fun _ => Triple.closing h (fun _ => ?_) fun _ _ h => h
  refine .exists fun n => .assume fun hgood => ?_
  have hunlock : Keeps (marked n) unlockScreen := keeps_unlockScreen
  exact hunlock.weaken (fun _ hd => hd) (fun _ _ hd => ⟨n, hgood, hd⟩) fun _ _ h => h

/-! ## Joining and separating -/

/-- Joins the runs one after another. -/
def joinRuns (runs : List (List CitationGroup)) : DocumentM Unit :=
  runs.forM fun run =>
    match run with
    | [] => return
    | first :: rest => joinRun first rest

theorem joinRuns_marked {runs : List (List CitationGroup)} (hruns : ∀ run ∈ runs, 1 < run.length)
    (count : Nat) :
    Triple (marked count).Holds (joinRuns runs)
      (fun _ d => ∃ n, n + runs.length ≤ count ∧ (marked n).Holds d) (fun _ _ => True) := by
  induction runs generalizing count with
  | nil => exact Triple.pure fun d hd => ⟨count, Nat.le_refl _, hd⟩
  | cons run runs ih =>
    have hlong := hruns run List.mem_cons_self
    have hrest := fun run' h => hruns run' (List.mem_cons_of_mem _ h)
    cases run with
    | nil => cases hlong
    | cons first rest =>
      refine (joinRun_marked first rest count).bind fun _ => .exists fun left =>
        .assume fun hleft => ?_
      refine (ih hrest left).weaken (fun _ hd => hd) (fun _ d hd => ?_) fun _ _ h => h
      obtain ⟨n, hn, hd⟩ := hd
      rw [List.length_cons] at hlong
      exact ⟨n, by rw [List.length_cons]; omega, hd⟩

theorem splitGroups_marked {groups : List CitationGroup}
    (hgroups : ∀ g ∈ groups, 1 < g.citations.length) (count : Nat) :
    Triple (marked count).Holds (groups.forM splitGroup)
      (fun _ d => ∃ n, count + groups.length ≤ n ∧ (marked n).Holds d) (fun _ _ => True) := by
  induction groups generalizing count with
  | nil => exact Triple.pure fun d hd => ⟨count, Nat.le_refl _, hd⟩
  | cons g groups ih =>
    have hlong := hgroups g List.mem_cons_self
    refine (splitGroup_marked g count).bind fun _ => .exists fun left => .assume fun hleft => ?_
    refine (ih (fun g' h => hgroups g' (List.mem_cons_of_mem _ h)) _).weaken (fun _ hd => hd)
      (fun _ d hd => ?_) fun _ _ h => h
    obtain ⟨n, hn, hd⟩ := hd
    exact ⟨n, by rw [List.length_cons]; omega, hd⟩

/-- What an editing phase promises: that nothing was changed, or that there are more marks or
fewer, as it tells; and that it fails for a precondition only before it changes anything. -/
def EditsOrNot (d₀ : Document) (phase : DocumentM Bool) : Prop :=
  Triple (SameDocument d₀) phase
    (fun edited d => if edited then d.marks.length ≠ d₀.marks.length else SameDocument d₀ d)
    (untouched d₀).Fails

/-- A phase that writes with the screen locked, if there is something to do. -/
theorem triple_lockedPhase {d₀ : Document} (hd₀ : d₀.WellFormed) {x : DocumentM Unit}
    {idle : Bool} {good : Nat → Prop} (hgood : idle = false → ¬ good d₀.marks.length)
    (hidle : idle = true → x = pure ()) (hstyled : Keeps (styled d₀) x)
    (hmarked : idle = false → Triple (marked d₀.marks.length).Holds x
      (fun _ d => ∃ n, good n ∧ (marked n).Holds d) fun _ _ => True) :
    EditsOrNot d₀ (do
      withLockedScreen x
      return !idle) := by
  cases idle with
  | true =>
    rw [hidle rfl]
    have hkeeps : Keeps (untouched d₀) (withLockedScreen (pure ())) :=
      keeps_lockScreen.bind fun _ => (Keeps.pure ()).closing fun _ => keeps_unlockScreen
    exact Triple.bind hkeeps fun _ => Triple.pure fun d hd => hd
  | false =>
    have hlocked : Keeps (styled d₀) (withLockedScreen x) :=
      keeps_lockScreen.bind fun _ => hstyled.closing fun _ => keeps_unlockScreen
    have hboth := hlocked.and (withLockedScreen_marked (hmarked rfl))
    refine Triple.bind (hboth.weaken
      (fun d hd => ⟨⟨hd.characterStyles, hd.paragraphStyles⟩, ?_⟩)
      (fun _ _ hd => hd.2) fun _ _ he h => absurd h he.1) fun _ => Triple.pure fun d hd => ?_
    · exact ⟨hd.marks ▸ hd₀.marks_nodup, congrArg List.length hd.marks.symm⟩
    · obtain ⟨n, hn, -, hlength⟩ := hd
      intro heq
      rw [← hlength, heq] at hn
      exact hgood rfl hn

/-- A run to be joined has at least two groups. -/
theorem triple_joinableRuns (d₀ : Document) (ordered : List (CitationGroup × TextRange)) :
    Triple (SameDocument d₀) (joinableRuns ordered)
      (fun runs d => (∀ run ∈ runs, 1 < run.length) ∧ SameDocument d₀ d) (untouched d₀).Fails := by
  cases ordered with
  | nil => exact Triple.pure fun d hd => ⟨by simp, hd⟩
  | cons first rest =>
    have hruns : Keeps (untouched d₀) (runsFrom first rest) := keeps_runsFrom first rest
    refine Triple.bind hruns fun runs => Triple.pure fun d hd => ⟨fun run hrun => ?_, hd⟩
    obtain ⟨run', hrun', rfl⟩ := List.mem_map.mp hrun
    rw [List.length_map]
    simpa using (List.mem_filter.mp hrun').2

theorem joinAll_editsOrNot {d₀ : Document} (hd₀ : d₀.WellFormed) (preferences : Preferences) :
    EditsOrNot d₀ (joinAll preferences) := by
  have hload : Keeps (untouched d₀) (loadApart preferences) :=
    keeps_loadApart preferences fun d _ hd _ => hd
  refine Triple.bind hload fun loaded => ?_
  have horder : Keeps (untouched d₀) (readingOrder loaded.2) :=
    keeps_readingOrder loaded.2 fun d _ hd _ => hd
  refine Triple.bind horder fun ids => ?_
  refine (triple_joinableRuns d₀ _).bind fun runs => .assume fun hlong => ?_
  refine triple_lockedPhase hd₀ (x := joinRuns runs) (fun hidle hle => ?_) (fun hidle => ?_) ?_
    fun _ => joinRuns_marked hlong _
  · have hpos := List.length_pos_iff.mpr fun hnil : runs = [] => by simp [hnil] at hidle
    omega
  · rw [List.isEmpty_iff.mp hidle]
    rfl
  · refine Keeps.forM fun run _ => ?_
    cases run with
    | nil => exact .pure _
    | cons first rest => exact keeps_joinRun (allowsMarking_styled d₀) first rest

theorem splitAll_editsOrNot {d₀ : Document} (hd₀ : d₀.WellFormed) (preferences : Preferences) :
    EditsOrNot d₀ (splitAll preferences) := by
  have hload : Keeps (untouched d₀) (loadApart preferences) :=
    keeps_loadApart preferences fun d _ hd _ => hd
  refine Triple.bind hload fun loaded => ?_
  obtain ⟨several, hseveral⟩ : ∃ several, several =
    loaded.1.groups.filter fun g => 1 < g.citations.length := ⟨_, rfl⟩
  have hlong : ∀ g ∈ several, 1 < g.citations.length := by
    intro g hg
    rw [hseveral] at hg
    simpa using (List.mem_filter.mp hg).2
  have hphase : EditsOrNot d₀ (do
      withLockedScreen (several.forM splitGroup)
      return !several.isEmpty) := by
    refine triple_lockedPhase hd₀ (fun hidle hle => ?_) (fun hidle => ?_) ?_
      fun _ => splitGroups_marked hlong _
    · have hpos := List.length_pos_iff.mpr fun hnil : several = [] => by simp [hnil] at hidle
      omega
    · rw [List.isEmpty_iff.mp hidle]
      rfl
    · exact Keeps.forM fun g _ => keeps_splitGroup (allowsMarking_styled d₀) g
  rw [hseveral] at hphase
  exact hphase

end DocumentM

/-! ## Calls -/

/-- The calls that change citations and refresh the document. -/
inductive CitingCall
  | insert (request : CitationRequest)
  | refresh
  | merge
  | split

namespace CitingCall

open DocumentM

/-- What a call does to a document. -/
def run (preferences : Preferences) (databases : List Database) (style : Style) :
    CitingCall → DocumentM (List String)
  | insert request => insertCitation preferences request databases style
  | refresh => refreshAll preferences databases style
  | merge => DocumentM.merge preferences databases style
  | split => DocumentM.split preferences databases style

/-- The name under which a call can be undone. -/
def label : CitingCall → String
  | insert _ => "Insert citation"
  | refresh => "Refresh citations and bibliography"
  | merge => "Merge citations"
  | split => "Separate citations"

/-- The phase of a call that edits citations. Tells whether it edited any. -/
def edit (preferences : Preferences) (databases : List Database) (style : Style) :
    CitingCall → DocumentM Bool
  | insert request => do
    insertGroup request databases style
    return true
  | refresh => return false
  | merge => joinAll preferences
  | split => splitAll preferences

/-- The phase of a call that refreshes the document. -/
def conclude (preferences : Preferences) (databases : List Database) (style : Style) :
    CitingCall → DocumentM (List String)
  | insert request =>
    if request.sync then DocumentM.refresh databases style preferences .always else return []
  | refresh => DocumentM.refresh databases style preferences .always
  | merge => DocumentM.refresh databases style preferences .ifPresent
  | split => DocumentM.refresh databases style preferences .ifPresent

/-- Every call edits first and refreshes then. -/
theorem run_eq (call : CitingCall) (preferences : Preferences) (databases : List Database)
    (style : Style) :
    call.run preferences databases style = mutate preferences call.label (do
      let _ ← call.edit preferences databases style
      call.conclude preferences databases style) := by
  cases call with
  | insert request => simp [run, label, edit, conclude, insertCitation]
  | refresh => simp [run, label, edit, conclude, refreshAll]
  | merge => rfl
  | split => rfl

theorem edit_editsOrNot {d₀ : Document} (hd₀ : d₀.WellFormed) (call : CitingCall)
    (preferences : Preferences) (databases : List Database) (style : Style) :
    EditsOrNot d₀ (call.edit preferences databases style) := by
  cases call with
  | insert request =>
    refine (triple_insertGroup hd₀ request databases style).bind fun _ => Triple.pure fun d hd => ?_
    simp only [if_true, hd]
    omega
  | refresh => exact Triple.pure fun d hd => hd
  | merge => exact joinAll_editsOrNot hd₀ preferences
  | split => exact splitAll_editsOrNot hd₀ preferences

theorem conclude_untouched (d₀ : Document) (call : CitingCall) (preferences : Preferences)
    (databases : List Database) (style : Style) :
    Triple (SameDocument d₀) (call.conclude preferences databases style) (fun _ _ => True)
      (untouched d₀).Fails := by
  cases call with
  | insert request =>
    simp only [conclude]
    split
    · exact refresh_untouched d₀ databases style preferences _
    · exact Triple.pure fun _ _ => trivial
  | refresh => exact refresh_untouched d₀ databases style preferences _
  | merge => exact refresh_untouched d₀ databases style preferences _
  | split => exact refresh_untouched d₀ databases style preferences _

/-- How a change begins: changes must not be recorded, and an action opens. -/
def begin (call : CitingCall) (preferences : Preferences) : DocumentM Unit := do
  checkChangeTracking preferences
  enterUndo call.label

/-- A call has edited citations when it comes to refreshing the document. -/
def EditsFirst (call : CitingCall) (preferences : Preferences) (databases : List Database)
    (style : Style) (d : Document) : Prop :=
  ∃ d₁ d₂, (call.begin preferences).run d = (.ok (), d₁) ∧
    (call.edit preferences databases style).run d₁ = (.ok true, d₂)

theorem keeps_begin (d₀ : Document) (call : CitingCall) (preferences : Preferences) :
    Keeps (untouched d₀) (call.begin preferences) := by
  have hcheck : Keeps (untouched d₀) (checkChangeTracking preferences) := by
    refine (keeps_see _).bind fun recording => (keeps_see _).bind fun redlines => ?_
    split
    · exact Triple.throw fun d hd _ => hd
    · exact .pure _
  exact hcheck.bind fun _ => keeps_enterUndo _

theorem mutate_eq {α : Type} (call : CitingCall) (preferences : Preferences)
    (action : DocumentM α) :
    mutate preferences call.label action =
      call.begin preferences >>= fun _ => closing action leaveUndo := by
  simp [mutate, inUndoGroup, begin]

/-- Where a call stops when it fails for a precondition: at its beginning, while it edits, or
while it refreshes the document; what closes it makes no difference. -/
theorem run_eq_error {call : CitingCall} {preferences : Preferences} {databases : List Database}
    {style : Style} {d d' : Document} {e : DocumentError}
    (hrun : (call.run preferences databases style).run d = (.error e, d'))
    (he : e.IsPrecondition) :
    (call.begin preferences).run d = (.error e, d') ∨
      ∃ d₁ d₂, (call.begin preferences).run d = (.ok (), d₁) ∧ SameDocument d₂ d' ∧
        ((call.edit preferences databases style).run d₁ = (.error e, d₂) ∨
          ∃ edited d₃, (call.edit preferences databases style).run d₁ = (.ok edited, d₃) ∧
            (call.conclude preferences databases style).run d₃ = (.error e, d₂)) := by
  rw [run_eq, mutate_eq, run_bind_eq_error_iff] at hrun
  rcases hrun with hbegin | ⟨u, d₁, hbegin, hclosing⟩
  · exact Or.inl hbegin
  refine Or.inr ⟨d₁, ?_⟩
  rw [run_closing] at hclosing
  cases hbody : (do
      let _ ← call.edit preferences databases style
      call.conclude preferences databases style : DocumentM (List String)).run d₁ with
  | mk outcome d₂ =>
    rw [hbody] at hclosing
    cases outcome with
    | error e' =>
      cases hclosing
      refine ⟨d₂, hbegin, sameDocument_of_keeps (fun _ => keeps_leaveUndo) d₂, ?_⟩
      rw [run_bind_eq_error_iff] at hbody
      exact hbody
    | ok unresolved =>
      -- only the closing action can have failed, and not for a precondition
      cases hleave : leaveUndo.run d₂ with
      | mk closed d₃ =>
        simp only [hleave] at hclosing
        cases closed with
        | ok u => cases hclosing
        | error e' =>
          cases hclosing
          exact absurd he (isInternal_of_keeps (fun _ => keeps_leaveUndo) hleave).not_isPrecondition

/-- **A call that fails for a precondition leaves the content as it was, except where it has
edited citations before it refreshes the document.** -/
theorem sameContent_iff_not_editsFirst (call : CitingCall) (preferences : Preferences)
    (databases : List Database) (style : Style) {d d' : Document} {e : DocumentError}
    (hd : d.WellFormed) (hrun : (call.run preferences databases style).run d = (.error e, d'))
    (he : e.IsPrecondition) :
    SameContent d d' ↔ ¬ call.EditsFirst preferences databases style d := by
  have hsame := SameDocument.refl d
  rcases run_eq_error hrun he with hbegin | ⟨d₁, d₂, hbegin, hclosed, hrest⟩
  · have hnot : ¬ call.EditsFirst preferences databases style d := by
      rintro ⟨d₁, d₂, hok, -⟩
      rw [hbegin] at hok
      cases hok
    exact iff_of_true ((keeps_begin d call preferences).of_error hsame hbegin he).toSameContent hnot
  have h₁ := (keeps_begin d call preferences).of_ok hsame hbegin
  have hedits := edit_editsOrNot (hd.of_same h₁) call preferences databases style
  rcases hrest with hedit | ⟨edited, d₃, hedit, hconclude⟩
  · have hnot : ¬ call.EditsFirst preferences databases style d := by
      rintro ⟨d₁', d₂', hok, hok'⟩
      rw [hbegin] at hok
      cases hok
      rw [hedit] at hok'
      cases hok'
    have h₂ := hedits.of_error (SameDocument.refl d₁) hedit he
    exact iff_of_true ((h₁.trans h₂).trans hclosed).toSameContent hnot
  have h₂ := (conclude_untouched d₃ call preferences databases style).of_error
    (SameDocument.refl d₃) hconclude he
  have hphase := hedits.of_ok (SameDocument.refl d₁) hedit
  cases edited with
  | false =>
    have hnot : ¬ call.EditsFirst preferences databases style d := by
      rintro ⟨d₁', d₂', hok, hok'⟩
      rw [hbegin] at hok
      cases hok
      rw [hedit] at hok'
      cases hok'
    have h₃ : SameDocument d₁ d₃ := hphase
    exact iff_of_true (((h₁.trans h₃).trans h₂).trans hclosed).toSameContent hnot
  | true =>
    have hlength : d₃.marks.length ≠ d₁.marks.length := hphase
    refine iff_of_false (fun hcontent => hlength ?_) fun hnot => hnot ⟨d₁, d₃, hbegin, hedit⟩
    rw [h₂.marks, hclosed.marks, ← hcontent.marks, h₁.marks]

/-! ### A style that is not defined

Only the refresh looks for the paragraph styles of the bibliography, and by then a citation has been
inserted. -/

/-- An inserted citation that is to be refreshed at once. -/
def sampleInsertion : CitingCall := .insert { keys := ["oak"], sync := true }

/-- A style with a paragraph style of its own. -/
def sampleStyle : Style :=
  { Style.blank with
    properties := Style.defaultProperties.put "ReferenceParagraphFormat" (.text "Fancy") }

/-- What the insertion does to an empty document. -/
def sampleRun : Except DocumentError (List String) × Document :=
  (sampleInsertion.run {} [] sampleStyle).run { title := "Paper" }

/-- The error of a run, if it failed. -/
def failure? {α : Type} : Except DocumentError α × Document → Option DocumentError
  | (.error e, _) => some e
  | _ => none

theorem sampleRun_eq :
    sampleRun = (.error (.undefinedParagraphFormat "Fancy"), sampleRun.2) := by
  have hfailure : failure? sampleRun = some (.undefinedParagraphFormat "Fancy") := by
    decide +kernel
  rcases hrun : sampleRun with ⟨outcome, d⟩
  rw [hrun] at hfailure
  cases outcome with
  | ok a => cases hfailure
  | error e =>
    cases hfailure
    rfl

/-- The insertion fails for a precondition, and the citation stays. -/
theorem not_sameContent_insertion :
    ∃ d', (sampleInsertion.run {} [] sampleStyle).run { title := "Paper" } =
        (.error (.undefinedParagraphFormat "Fancy"), d') ∧
      (DocumentError.undefinedParagraphFormat "Fancy").IsPrecondition ∧
      ¬ SameContent { title := "Paper" } d' := by
  have hmarks : sampleRun.2.marks ≠ [] := by decide +kernel
  exact ⟨sampleRun.2, sampleRun_eq, trivial, fun h => hmarks h.marks.symm⟩

theorem sameContent_iff_not_editsFirst_insertion :
    ∃ d', Document.WellFormed { title := "Paper" } ∧
      (sampleInsertion.run {} [] sampleStyle).run { title := "Paper" } =
        (.error (.undefinedParagraphFormat "Fancy"), d') ∧
      (DocumentError.undefinedParagraphFormat "Fancy").IsPrecondition ∧
      (SameContent { title := "Paper" } d' ↔
        ¬ sampleInsertion.EditsFirst {} [] sampleStyle { title := "Paper" }) := by
  have hwell : Document.WellFormed { title := "Paper" } :=
    ⟨List.nodup_nil, by simp, List.nodup_nil, by simp⟩
  exact ⟨sampleRun.2, hwell, sampleRun_eq, trivial,
    sameContent_iff_not_editsFirst sampleInsertion {} [] sampleStyle hwell sampleRun_eq trivial⟩

end CitingCall

end DocCite
