import DocCite.Proofs.Document.Adding
import DocCite.Proofs.Document.Frames
import DocCite.Proofs.Document.Preconditions

/-!
# What actions that succeed leave alone

An empty mark is made ready for writing by taking it away and creating it anew, and citations are
joined and separated by removing groups and creating others. Meanwhile marks are missing, so that
such actions are within no frame that sees marks. They stay within it when they succeed
(`Completes`).
-/

namespace DocCite

variable {α β γ : Type}

/-- A reference mark of a name is there. -/
def Document.HasMark (d : Document) (name : String) : Prop := name ∈ d.marks.map Prod.fst

/-- The same marks are there, and the same properties. -/
structure SameHolders (d d' : Document) : Prop where
  hasMark_iff : ∀ name, d'.HasMark name ↔ d.HasMark name
  properties : d'.properties = d.properties

/-- A mark of a new name has come to the others, and its page info to the properties. -/
structure GainsGroup (name : String) (pageInfo : Option String) (d d' : Document) : Prop where
  new_name : ¬ d.HasMark name
  hasMark_iff : ∀ other, d'.HasMark other ↔ d.HasMark other ∨ other = name
  properties : d'.properties = (d.withPageInfo name pageInfo).properties

/-- A mark has gone, and its page info with it. -/
structure LosesGroup (name : String) (d d' : Document) : Prop where
  hasMark_iff : ∀ other, d'.HasMark other ↔ d.HasMark other ∧ other ≠ name
  properties : d'.properties = d.properties.erase name

/-- Frames that see nothing but which marks are there, and the properties. -/
class Frame.OfHolders (F : Frame) : Prop where
  rel_of_same : ∀ {d d'}, SameHolders d d' → F.Rel d d'

/-- Frames that groups can come to. -/
class Frame.AllowsGaining (F : Frame) : Prop extends F.OfHolders where
  rel_of_gain : ∀ {name pageInfo d d'}, GainsGroup name pageInfo d d' → F.Rel d d'

/-- Frames that groups can also go from. -/
class Frame.AllowsLosing (F : Frame) : Prop extends F.AllowsGaining where
  rel_of_loss : ∀ {name d d'}, LosesGroup name d d' → F.Rel d d'

theorem SameHolders.of_eq {d d' : Document} (hnames : d'.marks.map Prod.fst = d.marks.map Prod.fst)
    (hproperties : d'.properties = d.properties) : SameHolders d d' :=
  ⟨fun name => by rw [Document.HasMark, Document.HasMark, hnames], hproperties⟩

instance (F : Frame) [F.OfHolders] : F.AllowsTyping where
  rel_of_typing h := Frame.OfHolders.rel_of_same (.of_eq h.names h.properties)

/-- **An action that succeeds only within a frame.** -/
class Completes (F : Frame) (x : DocumentM α) : Prop where
  rel : ∀ {d a d'}, x.run d = (.ok a, d') → F.Rel d d'

namespace Completes

open DocumentM

variable {F : Frame}

/-! ## Ways of putting actions together -/

instance (priority := low) (x : DocumentM α) [hx : Within F x] : Completes F x where
  rel {d a d'} hrun := by
    have hrel := hx.rel d
    rwa [hrun] at hrel

theorem bind {x : DocumentM α} {f : α → DocumentM β} (hx : Completes F x)
    (hf : ∀ a, Completes F (f a)) : Completes F (x >>= f) where
  rel hrun := by
    obtain ⟨a, d', hfirst, hrest⟩ := run_bind_eq_ok_iff.mp hrun
    exact F.trans (hx.rel hfirst) ((hf a).rel hrest)

instance (x : DocumentM α) (f : α → DocumentM β) [hx : Completes F x]
    [hf : ∀ a, Completes F (f a)] : Completes F (x >>= f) :=
  bind hx hf

instance (p : Prop) [Decidable p] (x y : DocumentM α) [Completes F x] [Completes F y] :
    Completes F (if p then x else y) := by
  split <;> infer_instance

instance (x : DocumentM α) (close : DocumentM Unit) [hx : Completes F x]
    [hclose : Completes F close] : Completes F (closing x close) where
  rel hrun := by
    obtain ⟨d', u, hfirst, hlast⟩ := run_closing_eq_ok_iff.mp hrun
    exact F.trans (hx.rel hfirst) (hclose.rel hlast)

instance (f : γ → DocumentM PUnit) (l : List γ) [∀ c, Completes F (f c)] :
    Completes F (l.forM f) := by
  induction l with
  | nil => exact inferInstanceAs (Completes F (pure _))
  | cons c l ih => exact inferInstanceAs (Completes F (f c >>= fun _ => l.forM f))

/-! ## Operations -/

section Record

variable [F.OfHolders]

instance : Within F lockScreen :=
  .of_change fun _ => Frame.OfHolders.rel_of_same (.of_eq rfl rfl)

instance : Within F unlockScreen :=
  .of_change fun _ => Frame.OfHolders.rel_of_same (.of_eq rfl rfl)

instance (label : String) : Within F (enterUndo label) :=
  .of_change fun _ => Frame.OfHolders.rel_of_same (.of_eq rfl rfl)

instance : Within F leaveUndo :=
  .of_change fun _ => Frame.OfHolders.rel_of_same (by split <;> exact .of_eq rfl rfl)

instance (x : DocumentM α) [Completes F x] : Completes F (withLockedScreen x) := by
  unfold withLockedScreen
  infer_instance

instance (preferences : Preferences) (label : String) (x : DocumentM α) [Completes F x] :
    Completes F (mutate preferences label x) := by
  unfold mutate inUndoGroup
  infer_instance

end Record

/-! ## Marks that come and go -/

/-- Properties stay as they are. -/
def propertiesFrame : Frame where
  Rel d d' := d'.properties = d.properties
  refl _ := rfl
  trans h h' := h'.trans h
  spend _ := rfl
  lose _ := rfl

instance : propertiesFrame.AllowsMarking where
  rel_of_marking h := h.properties

variable {d d' : Document}

theorem properties_eq {x : DocumentM α} [Within propertiesFrame x] {a : α}
    (hrun : x.run d = (.ok a, d')) : d'.properties = d.properties :=
  Completes.rel (F := propertiesFrame) hrun

/-- The names of the marks, known up to their order, tell which marks are there. -/
theorem hasMark_iff_of_named {names : List String} (h : (named names).Holds d) (name : String) :
    d.HasMark name ↔ name ∈ names :=
  List.Perm.mem_iff h

theorem named_self (d : Document) : (named (d.marks.map Prod.fst)).Holds d := List.Perm.refl _

/-- **A mark that is made ready stays there.** -/
theorem sameHolders_of_prepareMark {id : String} {cursor : Option TextRange}
    (hrun : (prepareMark id).run d = (.ok cursor, d')) : SameHolders d d' := by
  refine ⟨fun name => ?_, properties_eq hrun⟩
  have hW := allowsWriting_named (d.marks.map Prod.fst)
  obtain ⟨r, d₁, hrange, hrun⟩ := run_bind_eq_ok_iff.mp hrun
  have h₁ := Triple.of_ok (keeps_groupRange id) (named_self d) hrange
  split at hrun
  · obtain ⟨written, d₂, hreplace, hrun⟩ := run_bind_eq_ok_iff.mp hrun
    obtain ⟨u, d₃, hremove, hrun⟩ := run_bind_eq_ok_iff.mp hrun
    obtain ⟨made, d₄, hplace, hdone⟩ := run_bind_eq_ok_iff.mp hrun
    cases hdone
    have h₂ := Triple.of_ok (keeps_replace hW r "") h₁ hreplace
    obtain ⟨hmem, h₃⟩ := (triple_removeMark _ id).of_ok h₂ hremove
    obtain ⟨-, h₄⟩ := (triple_placeMark _ id r.startPoint false false).of_ok h₃ hplace
    rw [hasMark_iff_of_named h₄, List.mem_cons, List.mem_filter, decide_eq_true_eq]
    -- the mark that was taken away is the one that was created
    constructor
    · rintro (rfl | ⟨hname, -⟩)
      · exact hmem
      · exact hname
    · intro hname
      by_cases heq : name = id
      · exact .inl heq
      · exact .inr ⟨hname, heq⟩
  · exact hasMark_iff_of_named (Triple.of_ok (keeps_emptyMark hW id r) h₁ hrun) name

/-- A change that succeeds does what it says. -/
theorem exists_of_change {f : Document → Document} {u : Unit}
    (hrun : (change f).run d = (.ok u, d')) : ∃ rest, f { d with connection := rest } = d' := by
  obtain ⟨rest, -, hf⟩ := run_call_eq_ok_iff.mp hrun
  exact ⟨rest, congrArg Prod.snd (Except.ok.inj hf)⟩

theorem properties_of_setPageInfo {id : String} {pageInfo : Option String} {u : Unit}
    (hrun : (setPageInfo id pageInfo).run d = (.ok u, d')) :
    d'.marks = d.marks ∧ d'.properties = (d.withPageInfo id pageInfo).properties := by
  unfold setPageInfo at hrun
  unfold Document.withPageInfo
  cases hinfo : normalizePageInfo pageInfo with
  | none =>
    rw [hinfo] at hrun
    obtain ⟨rest, rfl⟩ := exists_of_change hrun
    exact ⟨rfl, rfl⟩
  | some info =>
    rw [hinfo] at hrun
    obtain ⟨rest, rfl⟩ := exists_of_change hrun
    exact ⟨rfl, rfl⟩

/-- **A group that is created** comes to the others, with its page info. -/
theorem gainsGroup_of_createGroup {keys : List String} {pageInfo : Option String}
    {kind : CitationKind} {place : TextRange} {spaceAfter bare : Bool}
    {made : CitationGroup × TextRange}
    (hrun : (createGroup keys pageInfo kind place spaceAfter bare).run d = (.ok made, d')) :
    GainsGroup made.1.id pageInfo d d' := by
  have hnames := (triple_createGroup _ keys pageInfo kind place spaceAfter bare).of_ok
    (named_self d) hrun
  refine ⟨hnames.1, fun other => ?_, ?_⟩
  · rw [hasMark_iff_of_named hnames.2, List.mem_cons, or_comm]
    rfl
  · unfold createGroup at hrun
    split at hrun
    · cases hrun
    obtain ⟨used, d₁, hused, hrun⟩ := run_bind_eq_ok_iff.mp hrun
    obtain ⟨r, d₂, hplace, hrun⟩ := run_bind_eq_ok_iff.mp hrun
    obtain ⟨u, d₃, hstore, hdone⟩ := run_bind_eq_ok_iff.mp hrun
    cases hdone
    have hproperties : d₂.properties = d.properties :=
      (properties_eq hplace).trans (properties_eq hused)
    rw [(properties_of_setPageInfo hstore).2, CitationGroup.pageInfo_new,
      Document.withPageInfo_normalizePageInfo, Document.withPageInfo, hproperties]
    rfl

/-- **A group that is removed** goes with its page info. -/
theorem losesGroup_of_removeGroup {id : String} {u : Unit}
    (hrun : (removeGroup id).run d = (.ok u, d')) : LosesGroup id d d' := by
  have hnames := (triple_removeGroup _ id).of_ok (named_self d) hrun
  refine ⟨fun other => ?_, ?_⟩
  · rw [hasMark_iff_of_named hnames.2, List.mem_filter, decide_eq_true_eq]
    rfl
  · obtain ⟨u, d₁, hremove, hproperty⟩ := run_bind_eq_ok_iff.mp hrun
    have hsame : d₁.properties = d.properties := properties_eq hremove
    obtain ⟨rest, rfl⟩ := exists_of_change hproperty
    exact congrArg (Keyed.erase · id) hsame

/-! ## Composed actions -/

section Remarking

variable [F.OfHolders]

instance (id : String) : Completes F (prepareMark id) where
  rel hrun := Frame.OfHolders.rel_of_same (sameHolders_of_prepareMark hrun)

instance (id : String) : Completes F (fillCursor id) := by
  unfold fillCursor
  refine bind inferInstance fun cursor => ?_
  cases cursor with
  | some cursor => infer_instance
  | none =>
    refine bind inferInstance fun cursor => ?_
    cases cursor <;> infer_instance

instance (id : String) (kind : CitationKind) (marker : String) (style : Style) :
    Completes F (writeMarker id kind marker style) := by
  unfold writeMarker
  infer_instance

instance (gs : CitationGroups) (produced : CitationMarkers) (style : Style) :
    Completes F (writeMarkers gs produced style) := by
  unfold writeMarkers
  infer_instance

instance (plan : RefreshPlan) (databases : List Database) (style : Style)
    (preferences : Preferences) : Completes F (writeRefresh plan databases style preferences) := by
  unfold writeRefresh
  infer_instance

instance (databases : List Database) (style : Style) (preferences : Preferences)
    (update : BibliographyUpdate) :
    Completes F (DocumentM.refresh databases style preferences update) := by
  unfold DocumentM.refresh
  infer_instance

instance (preferences : Preferences) (databases : List Database) (style : Style) :
    Completes F (refreshAll preferences databases style) := by
  unfold refreshAll
  infer_instance

end Remarking

section Gaining

variable [F.AllowsGaining]

instance (keys : List String) (pageInfo : Option String) (kind : CitationKind) (place : TextRange)
    (spaceAfter bare : Bool) :
    Completes F (createGroup keys pageInfo kind place spaceAfter bare) where
  rel hrun := Frame.AllowsGaining.rel_of_gain (gainsGroup_of_createGroup hrun)

instance (place : TextRange) (request : CitationRequest) (databases : List Database)
    (style : Style) : Completes F (insertAt place request databases style) := by
  unfold insertAt
  infer_instance

instance (request : CitationRequest) (databases : List Database) (style : Style) :
    Completes F (insertGroup request databases style) := by
  unfold insertGroup
  infer_instance

instance (preferences : Preferences) (request : CitationRequest) (databases : List Database)
    (style : Style) : Completes F (insertCitation preferences request databases style) := by
  unfold insertCitation
  infer_instance

instance (kind : CitationKind) (pageInfo : Option String) (place : TextRange)
    (keys : List String) : Completes F (splitInto kind pageInfo place keys) := by
  induction keys generalizing place with
  | nil =>
    unfold splitInto
    infer_instance
  | cons key rest ih =>
    cases rest with
    | nil =>
      unfold splitInto
      infer_instance
    | cons next rest =>
      unfold splitInto
      infer_instance

end Gaining

section Losing

variable [F.AllowsLosing]

instance (id : String) : Completes F (removeGroup id) where
  rel hrun := Frame.AllowsLosing.rel_of_loss (losesGroup_of_removeGroup hrun)

instance (first : CitationGroup) (rest : List CitationGroup) :
    Completes F (joinRun first rest) := by
  unfold joinRun
  refine bind inferInstance fun start => bind inferInstance fun stop => ?_
  infer_instance

instance (g : CitationGroup) : Completes F (splitGroup g) := by
  unfold splitGroup
  infer_instance

instance (preferences : Preferences) : Completes F (joinAll preferences) := by
  unfold joinAll
  have hrun (run : List CitationGroup) : Completes F (match run with
      | [] => return
      | first :: rest => joinRun first rest : DocumentM PUnit) := by
    cases run <;> infer_instance
  infer_instance

instance (preferences : Preferences) : Completes F (splitAll preferences) := by
  unfold splitAll
  infer_instance

instance (preferences : Preferences) (databases : List Database) (style : Style) :
    Completes F (merge preferences databases style) := by
  unfold merge
  infer_instance

instance (preferences : Preferences) (databases : List Database) (style : Style) :
    Completes F (split preferences databases style) := by
  unfold DocumentM.split
  infer_instance

end Losing

end Completes

end DocCite
