import DocCite.Citation.Group

/-!
# All citations of a document

The groups of a document, the order in which they stand in it, and the list of cited keys that
follows from both. A citation is addressed by its path: the place of its group among the stored
groups and its own place in the group.
-/

namespace DocCite

/-- The address of a citation. -/
structure CitationPath where
  group : Nat
  citation : Nat
  deriving DecidableEq, Repr

/-- A key and all its citations in the document. -/
structure CitedKey where
  key : String
  resolution : Resolution
  /-- The citations of the key, in the order of the document. -/
  occurrences : List CitationPath
  number : Option Nat := none
  letter : Option String := none
  /-- What tells whether two keys need letters. -/
  normalizedMarker : Option String := none
  deriving DecidableEq, Repr

/-- The groups of a document, stored in the order in which their marks are listed. -/
structure CitationGroups where
  groups : List CitationGroup := []
  /-- The places of the groups in the order of the document, once it is known. -/
  globalOrder : Option (List Nat) := none
  /-- The cited keys in the order of the bibliography, once there is one. -/
  bibliography : Option (List CitedKey) := none
  deriving DecidableEq, Repr

/-- Why a list of names is no order of the groups. -/
inductive GroupsError
  | unknownGroup (id : String)
  | orderMismatch (given expected : Nat)
  deriving DecidableEq, Repr

/-- The text of an error. -/
def GroupsError.message : GroupsError → String
  | unknownGroup id => "citation group `" ++ id ++ "` is not known"
  | orderMismatch given expected =>
    "global order lists " ++ toString given ++ " citation groups, expected " ++ toString expected

namespace CitationGroups

/-- The groups with given names; of several with one name the last counts, in the first place. -/
def ofList (groups : List CitationGroup) : CitationGroups :=
  { groups := (Keyed.putAll [] (groups.map fun g => (g.id, g))).map Prod.snd }

/-- The names of the groups as they are stored. -/
def ids (gs : CitationGroups) : List String := gs.groups.map CitationGroup.id

/-- The group with a name. -/
def get? (gs : CitationGroups) (id : String) : Option CitationGroup :=
  gs.groups.find? fun g => g.id = id

/-- Changes the group with a name. -/
def modify (gs : CitationGroups) (id : String) (f : CitationGroup → CitationGroup) :
    CitationGroups :=
  { gs with groups := gs.groups.map fun g => if g.id = id then f g else g }

/-- The citation at a path. -/
def citation? (gs : CitationGroups) (p : CitationPath) : Option Citation :=
  gs.groups[p.group]?.bind fun g => g.citations[p.citation]?

/-- Changes every citation, with its path at hand. -/
def mapCitations (f : CitationPath → Citation → Citation) (gs : CitationGroups) :
    CitationGroups :=
  { gs with
    groups := gs.groups.mapIdx fun i g =>
      { g with citations := g.citations.mapIdx fun j c => f ⟨i, j⟩ c } }

/-- Looks every cited key up. -/
def resolve (databases : List Database) (gs : CitationGroups) : CitationGroups :=
  gs.mapCitations fun _ c => { c with resolution := Resolution.lookup c.key databases }

/-- Sorts the order of presentation in every group. -/
def sortGroups (compare : Citation → Citation → Ordering) (gs : CitationGroups) :
    CitationGroups :=
  { gs with groups := gs.groups.map (CitationGroup.sortBy compare) }

/-! ## The order of the document -/

/-- The place of the group with a name, or the error that there is none. -/
def slotOf (gs : CitationGroups) (id : String) : Except GroupsError Nat :=
  match gs.groups.findIdx? fun g => g.id = id with
  | some slot => .ok slot
  | none => .error (.unknownGroup id)

/-- The slots of the groups with given names, if the names list every group once. -/
def slotsFor (gs : CitationGroups) (ids : List String) : Except GroupsError (List Nat) := do
  if ids.length ≠ gs.groups.length then
    throw (.orderMismatch ids.length gs.groups.length)
  let slots ← ids.mapM gs.slotOf
  if slots.eraseDups.length ≠ slots.length then
    throw (.orderMismatch slots.eraseDups.length gs.groups.length)
  return slots

/-- Notes the place in the order of the document for the group in a slot. -/
def place (gs : CitationGroups) (slot position : Nat) : CitationGroups :=
  { gs with groups := gs.groups.modify slot fun g => { g with position := some position } }

/-- Sets the order of the document, in which every group has to be listed once. -/
def setOrder (ids : List String) : ExceptT GroupsError (StateM CitationGroups) Unit := do
  let slots ← liftExcept ((← get).slotsFor ids)
  slots.zipIdx.forM fun (slot, position) =>
    modifyThe CitationGroups fun gs => gs.place slot position
  modifyThe CitationGroups fun gs => { gs with globalOrder := some slots }

/-- The groups in a new order of the document. -/
def imposeOrder (gs : CitationGroups) (ids : List String) : Except GroupsError CitationGroups :=
  match (setOrder ids).run gs with
  | (.ok (), ordered) => .ok ordered
  | (.error e, _) => .error e

/-- The places of the groups in the order of the document, or as stored if it is not known. -/
def slots (gs : CitationGroups) : List Nat :=
  gs.globalOrder.getD (List.range gs.groups.length)

/-- The groups in the order of the document. -/
def inOrder (gs : CitationGroups) : List CitationGroup := gs.slots.filterMap fun i => gs.groups[i]?

/-- The paths of all citations: groups in the order of the document, citations as presented. -/
def paths (gs : CitationGroups) : List CitationPath :=
  gs.slots.flatMap fun i =>
    match gs.groups[i]? with
    | some g => g.localOrder.map fun j => ⟨i, j⟩
    | none => []

/-! ## Cited keys -/

/-- Adds a citation to the cited keys before it. -/
def addOccurrence (cited : List CitedKey) (p : CitationPath) (c : Citation) : List CitedKey :=
  match cited with
  | [] => [{ key := c.key, resolution := c.resolution, occurrences := [p] }]
  | ck :: rest =>
    if ck.key = c.key then { ck with occurrences := ck.occurrences ++ [p] } :: rest
    else ck :: addOccurrence rest p c

/-- The cited keys in the order of their first citations. -/
def citedKeys (gs : CitationGroups) : List CitedKey :=
  gs.paths.foldl
    (fun cited p =>
      match gs.citation? p with
      | some c => addOccurrence cited p c
      | none => cited)
    []

/-- Cited keys sorted; those that compare equal stay as they were. -/
def sortCited (compare : CitedKey → CitedKey → Ordering) (cited : List CitedKey) :
    List CitedKey :=
  cited.mergeSort fun a b => compare a b != .gt

/-- Numbers the resolved keys in turn, from a number on. -/
def numberFrom : Nat → List CitedKey → List CitedKey
  | _, [] => []
  | n, ck :: rest =>
    if ck.resolution.isResolved then { ck with number := some n } :: numberFrom (n + 1) rest
    else { ck with number := none } :: numberFrom n rest

/-- The entry of the bibliography that a citation belongs to. -/
def citedAt? (gs : CitationGroups) (p : CitationPath) : Option CitedKey :=
  (gs.bibliography.getD []).find? fun ck => ck.occurrences.contains p

/-- Gives every citation the number of its key. -/
def distributeNumbers (gs : CitationGroups) : CitationGroups :=
  gs.mapCitations fun p c =>
    match gs.citedAt? p with
    | some ck => { c with number := ck.number }
    | none => c

/-- Gives every citation the letter of its key. -/
def distributeLetters (gs : CitationGroups) : CitationGroups :=
  gs.mapCitations fun p c =>
    match gs.citedAt? p with
    | some ck => { c with letter := ck.letter }
    | none => c

/-- Takes cited keys as the bibliography and numbers them, and with them their citations. -/
def numberAs (gs : CitationGroups) (cited : List CitedKey) : CitationGroups :=
  { gs with bibliography := some (numberFrom 1 cited) }.distributeNumbers

/-- Numbers the keys in the order of their first citations. -/
def numberByAppearance (gs : CitationGroups) : CitationGroups := gs.numberAs gs.citedKeys

/-- Numbers the keys in a given order. -/
def numberBy (compare : CitedKey → CitedKey → Ordering) (gs : CitationGroups) : CitationGroups :=
  gs.numberAs (sortCited compare gs.citedKeys)

/-- Tells of every citation whether it is the first of its key. -/
def markFirst (gs : CitationGroups) : CitationGroups :=
  gs.mapCitations fun p c =>
    { c with
      isFirst :=
        gs.paths.find? (fun q => (gs.citation? q).map Citation.key = some c.key) == some p }

/-- The keys that no database knows, in the order of their first citations. -/
def unresolvedKeys (gs : CitationGroups) : List String :=
  (gs.citedKeys.filter fun ck => !ck.resolution.isResolved).map CitedKey.key

end CitationGroups

end DocCite
