import DocCite.Datum.Yaml.Token
import DocCite.Keyed

/-!
# Nodes of YAML documents

What the tokens of a text form: scalars, lists and maps, with their tags, and aliases of nodes
that bear an anchor. A document is one node.

An anchor is known by a number, which is how many names had been given when it came. A name that
is given again gets another number, so a number may be shared; then it is the last node's.
-/

namespace DocCite.Yaml

/-- A node of a document. -/
inductive Node
  | alias (id : Nat)
  | scalar (anchor : Option Nat) (tag : Option String) (form : Form) (text : String)
  | list (anchor : Option Nat) (tag : Option String) (items : List Node)
  | map (anchor : Option Nat) (tag : Option String) (pairs : List (Node × Node))

/-- A scalar that is not there. -/
def Node.absent : Node := .scalar none none .plain ""

/-- The tokens that are left, the numbers of the anchors and what the handles of tags stand for. -/
structure Reader where
  tokens : List Token
  anchors : Keyed String Nat := []
  handles : Keyed String String := []

namespace Reader

/-- The reader without the next token. -/
def drop (r : Reader) : Reader := { r with tokens := r.tokens.drop 1 }

/-- Whether the next token is one of some tokens. -/
def at? (r : Reader) (ts : List Token) : Bool :=
  match r.tokens with
  | [] => false
  | t :: _ => ts.contains t

/-- Passes over the comma before an entry of a flow collection, which the first one lacks. -/
def comma? (r : Reader) (first : Bool) : Option Reader :=
  if first then some r else if r.at? [.comma] then some r.drop else none

end Reader

/-- What stands before a node: its anchor and its tag. -/
structure Properties where
  anchor : Option Nat := none
  tag : Option String := none

/-- Reads an anchor, if there is one. -/
def anchorOf (r : Reader) : Option Nat × Reader :=
  match r.tokens with
  | .anchor name :: rest =>
    let id := r.anchors.length
    (some id, { r with tokens := rest, anchors := r.anchors.put name id })
  | _ => (none, r)

/-- Reads a tag, if there is one; nothing if its handle stands for nothing. -/
def tagOf? (r : Reader) : Option (Option String × Reader) :=
  match r.tokens with
  | .tag handle suffix :: rest =>
    if handle.isEmpty then some (some suffix, { r with tokens := rest })
    else (r.handles.get? handle).map fun start => (some (start ++ suffix), { r with tokens := rest })
  | _ => some (none, r)

/-- Reads what stands before a node, in either order. -/
def properties? (r : Reader) : Option (Properties × Reader) :=
  match anchorOf r with
  | (some id, r) => do
    let (tag, r) ← tagOf? r
    some ({ anchor := some id, tag := tag }, r)
  | (none, r) => do
    let (tag, r) ← tagOf? r
    let (anchor, r) := if tag.isSome then anchorOf r else (none, r)
    some ({ anchor := anchor, tag := tag }, r)

mutual

/-- Reads a node. In block style it may be a collection in block style, and if `loose` holds a list
that is not set in further than its key. -/
def node? (block loose : Bool) : Nat → Reader → Option (Node × Reader)
  | 0, _ => none
  | n + 1, r =>
    match r.tokens with
    | .alias name :: _ => (r.anchors.get? name).map fun id => (.alias id, r.drop)
    | _ => do
      let (p, r) ← properties? r
      match r.tokens with
      | .scalar form text :: _ =>
        -- an exclamation mark alone is no tag of a scalar
        some (.scalar p.anchor (if p.tag = some "!" then none else p.tag) form text, r.drop)
      | .openList :: _ =>
        (listEntries? n true r.drop).map fun (items, r) => (.list p.anchor p.tag items, r)
      | .openMap :: _ =>
        (mapEntries? n true r.drop).map fun (pairs, r) => (.map p.anchor p.tag pairs, r)
      | t :: _ =>
        if t = .item && loose then
          (looseItems? n r).map fun (items, r) => (.list p.anchor p.tag items, r)
        else if t = .openItems && block then
          (blockItems? n r.drop).map fun (items, r) => (.list p.anchor p.tag items, r)
        else if t = .openPairs && block then
          (blockPairs? n r.drop).map fun (pairs, r) => (.map p.anchor p.tag pairs, r)
        else if p.anchor.isSome || p.tag.isSome then some (.scalar p.anchor p.tag .plain "", r)
        else none
      | [] =>
        if p.anchor.isSome || p.tag.isSome then some (.scalar p.anchor p.tag .plain "", r) else none

/-- Reads a node unless one of some tokens comes next, in front of which it is absent. -/
def nodeUnless? (stops : List Token) (block loose : Bool) :
    Nat → Reader → Option (Node × Reader)
  | 0, _ => none
  | n + 1, r => if r.at? stops then some (.absent, r) else node? block loose n r

/-- Reads the items of a list in block style up to its end. -/
def blockItems? : Nat → Reader → Option (List Node × Reader)
  | 0, _ => none
  | n + 1, r =>
    if r.at? [.item] then do
      let (d, r) ← nodeUnless? [.item, .close] true false n r.drop
      let (ds, r) ← blockItems? n r
      some (d :: ds, r)
    else if r.at? [.close] then some ([], r.drop)
    else none

/-- Reads the items of a list that has no end of its own. -/
def looseItems? : Nat → Reader → Option (List Node × Reader)
  | 0, _ => none
  | n + 1, r =>
    if r.at? [.item] then do
      let (d, r) ← nodeUnless? [.item, .key, .value, .close] true false n r.drop
      let (ds, r) ← looseItems? n r
      some (d :: ds, r)
    else some ([], r)

/-- Reads the pairs of a map in block style up to its end. -/
def blockPairs? : Nat → Reader → Option (List (Node × Node) × Reader)
  | 0, _ => none
  | n + 1, r =>
    if r.at? [.key] then do
      let (key, r) ← nodeUnless? [.key, .value, .close] true true n r.drop
      let (value, r) ←
        if r.at? [.value] then nodeUnless? [.key, .value, .close] true true n r.drop
        else some (.absent, r)
      let (pairs, r) ← blockPairs? n r
      some ((key, value) :: pairs, r)
    else if r.at? [.close] then some ([], r.drop)
    else none

/-- Reads the entries of a list in flow style up to its bracket. An entry that is a key with a value
is a map of one pair; if it has no key, the token after the sign of the key counts for nothing. -/
def listEntries? : Nat → Bool → Reader → Option (List Node × Reader)
  | 0, _, _ => none
  | n + 1, first, r =>
    if r.at? [.closeList] then some ([], r.drop)
    else do
      let r ← r.comma? first
      if r.at? [.closeList] then some ([], r.drop)
      else do
        let (d, r) ←
          if r.at? [.key] then do
            let r := r.drop
            let (key, r) ←
              if r.at? [.value, .comma, .closeList] then some (.absent, r.drop)
              else node? false false n r
            let (value, r) ←
              if r.at? [.value] then nodeUnless? [.comma, .closeList] false false n r.drop
              else some (.absent, r)
            some (.map none none [(key, value)], r)
          else node? false false n r
        let (ds, r) ← listEntries? n false r
        some (d :: ds, r)

/-- Reads the pairs of a map in flow style up to its brace. -/
def mapEntries? : Nat → Bool → Reader → Option (List (Node × Node) × Reader)
  | 0, _, _ => none
  | n + 1, first, r =>
    if r.at? [.closeMap] then some ([], r.drop)
    else do
      let r ← r.comma? first
      if r.at? [.closeMap] then some ([], r.drop)
      else do
        let (pair, r) ←
          if r.at? [.key] then do
            let (key, r) ← nodeUnless? [.value, .comma, .closeMap] false false n r.drop
            let (value, r) ←
              if r.at? [.value] then nodeUnless? [.comma, .closeMap] false false n r.drop
              else some (.absent, r)
            some ((key, value), r)
          else (node? false false n r).map fun (key, r) => ((key, .absent), r)
        let (pairs, r) ← mapEntries? n false r
        some (pair :: pairs, r)

end

/-! ## Documents -/

/-- The handles that every document knows. -/
def commonHandles : Keyed String String := [("!", "!"), ("!!", "tag:yaml.org,2002:")]

/-- Reads the directives before a document: at most one version, and each handle once. -/
def directives? (version : Bool) (handles : Keyed String String) :
    List Token → Option (Keyed String String × List Token)
  | .version major minor :: rest =>
    if version || major ≠ 1 || !(minor = 1 || minor = 2) then none
    else directives? true handles rest
  | .tagHandle handle start :: rest =>
    if (handles.get? handle).isSome then none
    else directives? version (handles.put handle start) rest
  | rest => some (handles, rest)

/-- Whether a token ends a document or starts another. -/
def isDocumentMark : Token → Bool
  | .version .. | .tagHandle .. | .documentStart | .documentEnd => true
  | _ => false

/-- The one document that tokens form, if there is one at all. Every step takes a token or goes one
level down, which it does at most four times in between. -/
def Node.ofTokens? (tokens : List Token) : Option (Option Node) := do
  let opened := match tokens with
    | t :: _ => isDocumentMark t && t ≠ .documentEnd
    | [] => false
  if tokens.isEmpty then some none
  else do
    let (handles, tokens) ← directives? false [] tokens
    let tokens ←
      if !opened then some tokens
      else
        match tokens with
        | .documentStart :: rest => some rest
        | _ => none
    let handles := handles ++ commonHandles
    let r : Reader := { tokens := tokens, handles := handles }
    let (root, r) ←
      if opened && (tokens.head?.map isDocumentMark).getD true then some (.absent, r)
      else node? true false (4 * tokens.length + 4) r
    if r.tokens.all (· = .documentEnd) then some (some root) else none

end DocCite.Yaml
