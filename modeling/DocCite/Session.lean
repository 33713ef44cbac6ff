import DocCite.Document.Citing

/-!
# Sessions

A session is connected to one of the open documents, or to none. What the user does goes to that
document; when the connection breaks on the way, the session lets go of it.
-/

namespace DocCite

/-- The open documents, the one that is worked on, and the settings of the user. -/
structure Session where
  documents : List Document
  /-- The place of the connected document. -/
  current : Option Nat := none
  preferences : Preferences := {}
  deriving Repr

/-- An action in a session, which can fail on the way. -/
abbrev SessionM := ExceptT DocumentError (StateM Session)

namespace SessionM

variable {α : Type}

/-- Runs an action on one of the open documents, connected or not. -/
def onDocument (place : Nat) (action : DocumentM α) : SessionM α :=
  fun s =>
    match s.documents[place]? with
    | none => (.error .noDocument, s)
    | some d =>
      let (outcome, next) := action.run d
      (outcome, { s with documents := s.documents.set place next })

/-- Whether an action failed because the connection broke. -/
def isLost (outcome : Except DocumentError α) : Bool :=
  match outcome with
  | .error .connectionLost => true
  | _ => false

/-- Runs an action on the connected document, and lets go of it if the connection breaks. -/
def onCurrent (action : Preferences → DocumentM α) : SessionM α :=
  fun s =>
    match s.current with
    | none => (.error .noDocument, s)
    | some place =>
      let (outcome, next) := (onDocument place (action s.preferences)).run s
      (outcome, if isLost outcome then { next with current := none } else next)

/-! ## Choosing a document -/

/-- The titles among which the user is asked to choose: none if there is nothing to choose. -/
def titlesToChooseFrom (offered : List Nat) : SessionM (List String) :=
  if offered.length ≤ 1 then return [] else offered.mapM fun place => onDocument place DocumentM.title

/-- The place of the document to connect to: the only one, or the chosen one among several. -/
def chosenPlace? (offered : List Nat) (choice : Option Nat) : Option Nat :=
  match offered with
  | [only] => some only
  | _ => choice.bind fun i => offered[i]?

/-- Connects to a document among those offered. -/
def connect (offered : List Nat) (choice : Option Nat) : SessionM String := do
  match chosenPlace? offered choice with
  | none => throw .noDocument
  | some place =>
    let title ← onDocument place DocumentM.title
    modify fun s => { s with current := some place }
    return title

/-- Lets the user choose among the documents offered, and connects to the chosen one. Gives its
title and the titles that the user was asked to choose from. -/
def selectDocument (offered : List Nat) (choice : Option Nat) :
    SessionM (String × List String) := do
  let asked ← titlesToChooseFrom offered
  return (← connect offered choice, asked)

/-- Lets go of the document. -/
def disconnect : SessionM Unit := modify fun s => { s with current := none }

/-- The title of the connected document, as far as it can be had. -/
def currentTitle : SessionM (Option String) :=
  fun s =>
    match s.current with
    | none => (.ok none, s)
    | some place =>
      let (outcome, next) := (onDocument place DocumentM.title).run s
      (.ok outcome.toOption, next)

/-- The connected document. -/
def currentDocument : SessionM (Option Document) := do
  let s ← get
  return s.current.bind fun place => s.documents[place]?

/-! ## What the user does -/

/-- Inserts a citation of entries at the cursor. -/
def insertCitation (entries : List Entry) (kind : CitationKind) (pageInfo : Option String)
    (sync : Bool) (databases : List Database) (style : Style) : SessionM (List String) := do
  let keys ← liftExcept (keysToCite entries)
  onCurrent fun p => DocumentM.insertCitation p ⟨keys, kind, pageInfo, sync⟩ databases style

/-- Writes all markers and the bibliography anew. -/
def refresh (databases : List Database) (style : Style) : SessionM (List String) :=
  onCurrent fun p => DocumentM.refreshAll p databases style

/-- Joins citations that have only spaces between them. -/
def merge (databases : List Database) (style : Style) : SessionM (List String) :=
  onCurrent fun p => DocumentM.merge p databases style

/-- Separates citations of several keys. -/
def split (databases : List Database) (style : Style) : SessionM (List String) :=
  onCurrent fun p => DocumentM.split p databases style

/-- The cited entries as a database, and the keys that no database knows. -/
def exportCited (databases : List Database) : SessionM (Database × List String) :=
  onCurrent fun _ => DocumentM.exportCited databases

/-- All groups, as they are listed to the user. -/
def listCitations : SessionM (List DocumentM.CitationRow) :=
  onCurrent fun _ => DocumentM.listCitations

/-- Stores page info that the user edited. -/
def editPageInfo (edits : List (String × Option String)) : SessionM Unit :=
  onCurrent fun p => DocumentM.editPageInfo p edits

/-- What is left of citations that were deleted. -/
def health : SessionM HealthReport := onCurrent fun _ => DocumentM.health

end SessionM

end DocCite
