import DocCite.Proofs.Document.Frames
import DocCite.Proofs.Lists
import DocCite.Session

/-!
# What a call leaves open

Every change runs as one action that can be undone, and suspends screen updates while it writes.
Whatever its outcome, and wherever it fails on the way, both are released again, unless the
connection has broken: then nothing can be released any more, and the session lets go of the
document (`concluded_run`).
-/

namespace DocCite

namespace DocumentM

variable {α : Type} {d : Document}

/-! ## Actions that leave nothing open -/

/-- **What is open stays as it is**, as long as the connection holds. -/
def settledFrame : Frame where
  Rel d d' := d'.connection ≠ .lost → d.connection ≠ .lost ∧ d'.openActions = d.openActions ∧
    d'.undoHistory = d.undoHistory ∧ d'.lockDepth = d.lockDepth
  refl _ h := ⟨h, rfl, rfl, rfl⟩
  trans h h' hlast := by
    obtain ⟨hmiddle, hopen', hhistory', hlocks'⟩ := h' hlast
    obtain ⟨hfirst, hopen, hhistory, hlocks⟩ := h hmiddle
    exact ⟨hfirst, hopen'.trans hopen, hhistory'.trans hhistory, hlocks'.trans hlocks⟩
  spend {d rest} h _ := by
    refine ⟨fun hlost => ?_, rfl, rfl, rfl⟩
    rw [hlost] at h
    cases h
  lose _ h := absurd rfl h

instance : settledFrame.AllowsStoring where
  rel_of_storing h hlast := ⟨h.connection ▸ hlast, h.openActions, h.undoHistory, h.lockDepth⟩

/-- A change that does not lose the connection gets through. -/
theorem run_change_of_connected {f : Document → Document}
    (h : ((change f).run d).2.connection ≠ .lost) :
    ∃ rest, d.connection.spend? = some rest ∧
      (change f).run d = (.ok (), f { d with connection := rest }) := by
  cases hspend : d.connection.spend? with
  | none =>
    refine absurd ?_ h
    simp only [change, call, ExceptT.run, hspend]
  | some rest =>
    refine ⟨rest, rfl, ?_⟩
    simp only [change, call, ExceptT.run, hspend]

/-- The closing action runs on what the first one leaves. -/
theorem snd_run_closing (x : DocumentM α) (close : DocumentM Unit) (d : Document) :
    ((closing x close).run d).2 = (close.run (x.run d).2).2 := by
  rw [run_closing]
  rcases x.run d with ⟨_ | a, d'⟩
  · rfl
  · simp only
    rcases close.run d' with ⟨_ | u, d''⟩ <;> rfl

/-- **Opening, running, closing.** If the connection still holds after all of it, all three got
through, and what is closed is what was opened. -/
theorem exists_of_opened (first last : Document → Document) {x : DocumentM α}
    (hx : Within settledFrame x) (hlast : ∀ d, (last d).connection = d.connection) (d' : Document)
    (hrun : ((change first >>= fun _ => closing x (change last)).run d).2 = d')
    (h : d'.connection ≠ .lost) :
    ∃ rest left, d.connection.spend? = some rest ∧
      settledFrame.Rel (first { d with connection := rest }) left ∧ left.connection ≠ .lost ∧
      d' = last left := by
  subst hrun
  cases hfirst : (change first).run d with
  | mk outcome opened =>
    rw [run_bind, hfirst] at h ⊢
    cases outcome with
    | error e =>
      -- an opening that fails has lost the connection
      have hthrough := run_change_of_connected (f := first) (d := d) (by rw [hfirst]; exact h)
      obtain ⟨rest, -, hok⟩ := hthrough
      rw [hfirst] at hok
      cases hok
    | ok u =>
      simp only [snd_run_closing] at h ⊢
      obtain ⟨rest', hspend', hclose⟩ := run_change_of_connected h
      have hrel := settledFrame.trans (hx.rel opened) (settledFrame.spend hspend')
      have hleft : rest' ≠ .lost := by
        rw [hclose, hlast] at h
        exact h
      have hopened : ((change first).run d).2.connection ≠ .lost := by
        rw [hfirst]
        exact (hrel hleft).1
      obtain ⟨rest, hspend, hopen⟩ := run_change_of_connected hopened
      rw [hfirst] at hopen
      cases hopen
      exact ⟨rest, _, hspend, hrel, hleft, congrArg Prod.snd hclose⟩

/-- **Screen updates that were suspended meanwhile go on as before.** -/
instance : settledFrame.AllowsLocking where
  within_locked x hx := by
    refine ⟨fun d hconnected => ?_⟩
    obtain ⟨rest, left, hspend, hrel, hleft, hd'⟩ :=
      exists_of_opened (fun d => { d with lockDepth := d.lockDepth + 1 })
        (fun d => { d with lockDepth := d.lockDepth - 1 }) hx (fun _ => rfl)
        ((withLockedScreen x).run d).2 rfl hconnected
    obtain ⟨-, hopen, hhistory, hlocks⟩ := hrel hleft
    rw [hd']
    refine ⟨fun hlost => ?_, hopen, hhistory, ?_⟩
    · rw [hlost] at hspend
      cases hspend
    · rw [hlocks, Nat.add_sub_cancel]

/-! ## Changes -/

/-- Whether a document refuses to be changed: changes are recorded in it, or some are still open,
and the preferences say so. -/
def Refuses (preferences : Preferences) (d : Document) : Prop :=
  (d.isRecording = true ∨ d.redlines ≠ 0) ∧ preferences.changeTracking = .refuse

instance (preferences : Preferences) (d : Document) : Decidable (Refuses preferences d) :=
  inferInstanceAs (Decidable (_ ∧ _))

/-- **What is left of a change** that has come to its end: nothing of its own is open, and it can be
undone under its label if it began and is inside no other action. -/
structure Concluded (label : String) (began : Prop) [Decidable began] (d d' : Document) : Prop where
  openActions_eq : d'.openActions = d.openActions
  lockDepth_eq : d'.lockDepth = d.lockDepth
  undoHistory_eq : d'.undoHistory =
    d.undoHistory ++ if began ∧ d.openActions = [] then [label] else []

theorem run_see (f : Document → α) (d : Document) :
    (see f).run d =
      match d.connection.spend? with
      | none => (.error .connectionLost, { d with connection := .lost })
      | some rest => (.ok (f { d with connection := rest }), { d with connection := rest }) := by
  simp only [see, look, call, ExceptT.run]
  cases d.connection.spend? <;> rfl

/-- The check of change tracking, over a connection that holds. -/
theorem run_checkChangeTracking (preferences : Preferences)
    (h : ((checkChangeTracking preferences).run d).2.connection ≠ .lost) :
    ∃ rest, rest ≠ .lost ∧
      (checkChangeTracking preferences).run d =
        (if Refuses preferences d then .error (.changeTracking d.isRecording d.redlines) else .ok (),
          { d with connection := rest }) := by
  unfold checkChangeTracking isRecording redlineCount at h ⊢
  rw [run_bind, run_see] at h ⊢
  cases hspend : d.connection.spend? with
  | none =>
    rw [hspend] at h
    exact absurd rfl h
  | some first =>
    simp only [hspend] at h ⊢
    rw [run_bind, run_see] at h ⊢
    cases hspend' : first.spend? with
    | none =>
      simp only [hspend'] at h
      exact absurd rfl h
    | some rest =>
      simp only [hspend'] at h ⊢
      have hrefuses : ((d.isRecording || d.redlines != 0) &&
          preferences.changeTracking == .refuse) = true ↔ Refuses preferences d := by
        simp [Refuses]
      by_cases hr : Refuses preferences d
      · rw [if_pos (hrefuses.mpr hr)] at h ⊢
        exact ⟨rest, h, (if_pos hr).symm ▸ rfl⟩
      · rw [if_neg (mt hrefuses.mp hr)] at h ⊢
        exact ⟨rest, h, (if_neg hr).symm ▸ rfl⟩

theorem Concluded.of_iff {label : String} {p q : Prop} [Decidable p] [Decidable q] (hpq : p ↔ q)
    {d' : Document} (h : Concluded label p d d') : Concluded label q d d' where
  openActions_eq := h.openActions_eq
  lockDepth_eq := h.lockDepth_eq
  undoHistory_eq := by simpa only [hpq] using h.undoHistory_eq

/-- What is not begun concludes at once. -/
theorem Concluded.refl {label : String} {p : Prop} [Decidable p] (hp : ¬ p) (d : Document) :
    Concluded label p d d where
  openActions_eq := rfl
  lockDepth_eq := rfl
  undoHistory_eq := by simp only [hp, false_and, if_false, List.append_nil]

/-- An action that can be undone comes to its end. -/
theorem concluded_inUndoGroup (label : String) {x : DocumentM α} (hx : Within settledFrame x)
    (h : ((inUndoGroup label x).run d).2.connection ≠ .lost) :
    d.connection ≠ .lost ∧ Concluded label True d ((inUndoGroup label x).run d).2 := by
  obtain ⟨rest, left, hspend, hrel, hleft, hd'⟩ :=
    exists_of_opened (fun d => { d with openActions := label :: d.openActions }) _
      hx (fun d => by split <;> rfl) ((inUndoGroup label x).run d).2 rfl h
  refine ⟨fun hlost => ?_, ?_⟩
  · rw [hlost] at hspend
    cases hspend
  obtain ⟨-, hopen, hhistory, hlocks⟩ := hrel hleft
  rw [hd', hopen]
  -- the action is the innermost one again when it ends
  cases houter : d.openActions with
  | nil =>
    refine ⟨houter.symm, hlocks, ?_⟩
    simp only [houter, and_self, if_true, hhistory]
  | cons outer rest =>
    refine ⟨houter.symm, hlocks, ?_⟩
    simp only [houter, reduceCtorEq, and_false, if_false, List.append_nil, hhistory]

/-- **A change comes to its end**, whatever it does and however it fails. -/
theorem concluded_mutate (preferences : Preferences) (label : String) {x : DocumentM α}
    (hx : Within settledFrame x)
    (h : ((mutate preferences label x).run d).2.connection ≠ .lost) :
    Concluded label (¬ Refuses preferences d) d ((mutate preferences label x).run d).2 := by
  cases hcheck : (checkChangeTracking preferences).run d with
  | mk outcome checked =>
    have hthrough (hchecked : checked.connection ≠ .lost) :=
      run_checkChangeTracking (d := d) preferences (hcheck ▸ hchecked)
    rw [mutate, run_bind, hcheck] at h ⊢
    cases outcome with
    | error e =>
      obtain ⟨rest, -, hrun⟩ := hthrough h
      rw [hcheck, Prod.mk.injEq] at hrun
      obtain ⟨hrefused, rfl⟩ := hrun
      by_cases hr : Refuses preferences d
      · refine ⟨rfl, rfl, ?_⟩
        simp only [hr, not_true_eq_false, false_and, if_false, List.append_nil]
      · rw [if_neg hr] at hrefused
        cases hrefused
    | ok u =>
      obtain ⟨hconnected, hconcluded⟩ := concluded_inUndoGroup label hx h
      obtain ⟨rest, -, hrun⟩ := hthrough hconnected
      rw [hcheck, Prod.mk.injEq] at hrun
      obtain ⟨hbegan, rfl⟩ := hrun
      by_cases hr : Refuses preferences d
      · rw [if_pos hr] at hbegan
        cases hbegan
      · refine ⟨hconcluded.openActions_eq, hconcluded.lockDepth_eq, ?_⟩
        simpa only [hr, not_false_eq_true] using hconcluded.undoHistory_eq

end DocumentM

/-! ## Calls of a session -/

/-- The calls by which a user changes citations. -/
inductive SessionCall
  | insert (entries : List Entry) (kind : CitationKind) (pageInfo : Option String) (sync : Bool)
  | refresh
  | merge
  | split
  | editPageInfo (edits : List (String × Option String))

namespace SessionCall

open SessionM

/-- What a call gives. -/
abbrev Result : SessionCall → Type
  | editPageInfo _ => Unit
  | _ => List String

/-- What a call does in a session. -/
def run (databases : List Database) (style : Style) : (call : SessionCall) → SessionM call.Result
  | insert entries kind pageInfo sync => insertCitation entries kind pageInfo sync databases style
  | refresh => SessionM.refresh databases style
  | merge => SessionM.merge databases style
  | split => SessionM.split databases style
  | editPageInfo edits => SessionM.editPageInfo edits

/-- The name under which a call can be undone. -/
def label : SessionCall → String
  | insert .. => "Insert citation"
  | refresh => "Refresh citations and bibliography"
  | merge => "Merge citations"
  | split => "Separate citations"
  | editPageInfo _ => "Edit page info"

/-- Why the arguments of a call are refused; nothing if they are good. -/
def argumentError? : SessionCall → Option DocumentError
  | insert entries .. =>
    match keysToCite entries with
    | .ok _ => none
    | .error e => some e
  | _ => none

/-- **A call gets past its checks**: its arguments are good, and the document does not refuse to be
changed. -/
def Begins (call : SessionCall) (preferences : Preferences) (d : Document) : Prop :=
  call.argumentError? = none ∧ ¬ DocumentM.Refuses preferences d

instance (call : SessionCall) (preferences : Preferences) (d : Document) :
    Decidable (call.Begins preferences d) :=
  inferInstanceAs (Decidable (_ ∧ _))

end SessionCall

/-- **What is left of a call** on the document at a place: that document is another one, which has
nothing open but what was open before, unless its connection has broken; and with a broken
connection the session is connected to nothing. -/
structure SessionConcluded {α : Type} (call : SessionCall) (s : Session) (place : Nat)
    (d : Document) (outcome : Except DocumentError α) (s' : Session) : Prop where
  exists_document : ∃ d', s'.documents = s.documents.set place d' ∧
    (d'.connection ≠ .lost →
      DocumentM.Concluded call.label (call.Begins s.preferences d) d d')
  current_eq : s'.current = if SessionM.isLost outcome then none else s.current

namespace SessionCall

open DocumentM

variable {α : Type} {call : SessionCall} {s : Session} {place : Nat} {d : Document}

/-- An action on the connected document runs there, and a broken connection is let go of. -/
theorem run_onCurrent (action : Preferences → DocumentM α) (hcurrent : s.current = some place)
    (hd : s.documents[place]? = some d) :
    (SessionM.onCurrent action).run s =
      (((action s.preferences).run d).1,
        { s with
          documents := s.documents.set place ((action s.preferences).run d).2
          current :=
            if SessionM.isLost ((action s.preferences).run d).1 then none else s.current }) := by
  simp only [SessionM.onCurrent, SessionM.onDocument, ExceptT.run, hcurrent, hd]
  cases (action s.preferences) d with
  | mk outcome d' => cases hlost : SessionM.isLost outcome <;> simp [hlost]

/-- A change of the connected document. -/
theorem sessionConcluded_mutate (hcurrent : s.current = some place)
    (hd : s.documents[place]? = some d) (hargument : call.argumentError? = none)
    {x : Preferences → DocumentM α} (hx : Within settledFrame (x s.preferences)) :
    SessionConcluded call s place d
      ((SessionM.onCurrent fun p => mutate p call.label (x p)).run s).1
      ((SessionM.onCurrent fun p => mutate p call.label (x p)).run s).2 := by
  rw [run_onCurrent _ hcurrent hd]
  refine ⟨⟨_, rfl, fun hconnected => ?_⟩, rfl⟩
  refine (concluded_mutate s.preferences call.label hx hconnected).of_iff ?_
  rw [Begins, and_iff_right hargument]

/-- A call with bad arguments does nothing. -/
theorem sessionConcluded_of_argumentError {e : DocumentError} (hd : s.documents[place]? = some d)
    (hargument : call.argumentError? = some e) (he : e ≠ .connectionLost) :
    SessionConcluded (α := α) call s place d (.error e) s := by
  have hbegins : ¬ call.Begins s.preferences d := by
    rw [Begins, hargument]
    exact fun h => absurd h.1 (by simp)
  refine ⟨⟨d, ?_, fun _ => .refl hbegins d⟩, ?_⟩
  · obtain ⟨hplace, rfl⟩ := List.getElem?_eq_some_iff.mp hd
    exact (List.set_getElem_self hplace).symm
  · cases e <;> first | rfl | exact absurd rfl he

/-- Arguments are not refused for a connection. -/
theorem ne_connectionLost_of_keysToCite {entries : List Entry} {e : DocumentError}
    (h : keysToCite entries = .error e) : e ≠ .connectionLost := by
  unfold keysToCite at h
  split at h
  · cases h
    intro hlost
    cases hlost
  · obtain ⟨entry, -, hentry⟩ := exists_of_mapM_eq_error h
    split at hentry
    · cases hentry
    · cases hentry
      intro hlost
      cases hlost

/-- **Everything is released when a call is over**: for every document, over every connection, and
however the call comes out. -/
theorem concluded_run (call : SessionCall) (databases : List Database) (style : Style)
    (hcurrent : s.current = some place) (hd : s.documents[place]? = some d) :
    SessionConcluded call s place d ((call.run databases style).run s).1
      ((call.run databases style).run s).2 := by
  cases call with
  | insert entries kind pageInfo sync =>
    cases hkeys : keysToCite entries with
    | error e =>
      have hrun : ((insert entries kind pageInfo sync).run databases style).run s = (.error e, s) := by
        simp only [run, SessionM.insertCitation, hkeys]
        rfl
      rw [hrun]
      exact sessionConcluded_of_argumentError hd (by rw [argumentError?, hkeys])
        (ne_connectionLost_of_keysToCite hkeys)
    | ok keys =>
      have hrun : (insert entries kind pageInfo sync).run databases style =
          SessionM.onCurrent fun p => mutate p "Insert citation" do
            insertGroup ⟨keys, kind, pageInfo, sync⟩ databases style
            if sync then DocumentM.refresh databases style p .always else return [] := by
        simp only [run, SessionM.insertCitation, hkeys]
        rfl
      rw [hrun]
      exact sessionConcluded_mutate hcurrent hd (by rw [argumentError?, hkeys])
        (x := fun p => do
          insertGroup ⟨keys, kind, pageInfo, sync⟩ databases style
          if sync then DocumentM.refresh databases style p .always else return []) inferInstance
  | refresh =>
    exact sessionConcluded_mutate hcurrent hd rfl
      (x := fun p => DocumentM.refresh databases style p .always) inferInstance
  | merge =>
    exact sessionConcluded_mutate hcurrent hd rfl
      (x := fun p => do
        let _ ← joinAll p
        DocumentM.refresh databases style p .ifPresent) inferInstance
  | split =>
    exact sessionConcluded_mutate hcurrent hd rfl
      (x := fun p => do
        let _ ← splitAll p
        DocumentM.refresh databases style p .ifPresent) inferInstance
  | editPageInfo edits =>
    exact sessionConcluded_mutate hcurrent hd rfl (x := fun _ => setPageInfos edits) inferInstance

/-- A paper whose connection breaks after a hundred operations. -/
def brittlePaper : Document := { title := "Paper", connection := .failingAfter 100 }

/-- A session that is connected to it. -/
def brittleSession : Session := { documents := [brittlePaper], current := some 0 }

theorem concluded_run_brittlePaper :
    brittleSession.current = some 0 ∧ brittleSession.documents[0]? = some brittlePaper ∧
      SessionConcluded .refresh brittleSession 0 brittlePaper
        ((run [] Style.blank .refresh).run brittleSession).1
        ((run [] Style.blank .refresh).run brittleSession).2 :=
  ⟨rfl, rfl, concluded_run .refresh [] Style.blank rfl rfl⟩

/-- A refresh that fails in the middle can be undone all the same. -/
example : ((run [] { Style.blank with
      properties := Style.blank.properties.put "ReferenceParagraphFormat" (.text "Fancy") }
    .refresh).run brittleSession).2.documents.map Document.undoHistory =
      [["Refresh citations and bibliography"]] := by
  decide +kernel

end SessionCall

end DocCite
