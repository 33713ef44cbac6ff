import DocCite.Datum.Yaml.Token

/-!
# Reading tokens

A reader of YAML text keeps the column of every collection in block style that is open: a token
further left closes it, a key or an item further right opens another. What a key is shows only at
the colon after it, so the reader remembers where the last token stood that may be one, and puts
the sign of a key there when the colon comes.
-/

namespace DocCite.Yaml

/-- A token that is a key if a colon follows it on its line. -/
structure PendingKey where
  /-- Nothing else than a key can stand there. -/
  required : Bool
  /-- The number of tokens before it. -/
  index : Nat
  place : Place

/-- The state of a reader. -/
structure Lexer where
  rest : List Char
  place : Place := {}
  /-- The tokens that have been read, the last one first. -/
  tokens : List Token := []
  /-- The column of the innermost collection in block style; `-1` outside of all. -/
  indent : Int := -1
  /-- The columns of the collections around it. -/
  indents : List Int := []
  /-- Whether a key may start at the next token. -/
  keyAllowed : Bool := true
  /-- The last token that may be a key, outside of all flow collections. -/
  key : Option PendingKey := none
  /-- The same for every flow collection that is open, with the innermost first. -/
  flowKeys : List (Option PendingKey) := []

namespace Lexer

/-- Whether the reader is in a flow collection. -/
def inFlow (l : Lexer) : Bool := !l.flowKeys.isEmpty

/-- The last token that may be a key, in the innermost collection. -/
def pending (l : Lexer) : Option PendingKey :=
  match l.flowKeys with
  | [] => l.key
  | key :: _ => key

/-- The reader with another last token that may be a key. -/
def setPending (l : Lexer) (key : Option PendingKey) : Lexer :=
  match l.flowKeys with
  | [] => { l with key := key }
  | _ :: rest => { l with flowKeys := key :: rest }

/-- The reader with one more token. -/
def emit (l : Lexer) (t : Token) : Lexer := { l with tokens := t :: l.tokens }

/-- The reader with a token put before those that came after the first `index`. -/
def emitAt (l : Lexer) (index : Nat) (t : Token) : Lexer :=
  let later := l.tokens.length - index
  { l with tokens := l.tokens.take later ++ t :: l.tokens.drop later }

/-- The reader after some characters of the line. -/
def advance (l : Lexer) (rest : List Char) : Lexer :=
  { l with rest := rest, place := l.place.after (l.rest.length - rest.length) }

/-! ## Keys -/

/-- Gives up the last token that may be a key; nothing if it had to be one. -/
def dropKey? (l : Lexer) : Option Lexer :=
  match l.pending with
  | none => some l
  | some key => if key.required then none else some (l.setPending none)

/-- Remembers the next token as one that may be a key. -/
def saveKey? (l : Lexer) : Option Lexer :=
  if l.keyAllowed then do
    let l' ← l.dropKey?
    some (l'.setPending (some
      { required := !l.inFlow && l.indent = l.place.column
        index := l.tokens.length
        place := l.place }))
  else some l

/-- Whether a token can still be a key: a key ends on its line, and has at most 1024 characters. -/
def isLive (l : Lexer) (key : PendingKey) : Bool :=
  !(key.place.line < l.place.line) && !(key.place.offset + 1024 < l.place.offset)

/-- Gives up every token that can no longer be a key; nothing if one of them had to be one. -/
def dropStale? (l : Lexer) : Option Lexer := do
  let keep (key : Option PendingKey) : Option (Option PendingKey) :=
    match key with
    | none => some none
    | some key =>
      if l.isLive key then some (some key) else if key.required then none else some none
  let key ← keep l.key
  let flowKeys ← l.flowKeys.mapM keep
  some { l with key := key, flowKeys := flowKeys }

/-! ## Indentation -/

/-- Opens a collection in block style at a column further right than the innermost one, with its
token at `index`. -/
def openBlock (l : Lexer) (column : Int) (index : Nat) (t : Token) : Lexer :=
  if !l.inFlow && l.indent < column then
    { l.emitAt index t with indent := column, indents := l.indent :: l.indents }
  else l

/-- Closes the collections in block style that stand further right than a column, given their
columns from the inside. -/
def closeTo (column : Int) (indent : Int) : List Int → List Token → Int × List Int × List Token
  | [], tokens => (indent, [], tokens)
  | outer :: more, tokens =>
    if column < indent then closeTo column outer more (.close :: tokens)
    else (indent, outer :: more, tokens)

/-- Closes the collections in block style that stand further right than a column. -/
def closeBlocks (l : Lexer) (column : Int) : Lexer :=
  if l.inFlow then l
  else
    let (indent, indents, tokens) := closeTo column l.indent l.indents l.tokens
    { l with indent := indent, indents := indents, tokens := tokens }

/-! ## Single tokens -/

/-- Passes over blanks, comments and line ends, and a mark of byte order at the start of a line.
A tab is no blank where a key may start in block style. -/
def skipFrom (flow keyAllowed comment : Bool) (p : Place) : List Char → Bool × Place × List Char
  | [] => (keyAllowed, p, [])
  | c :: rest =>
    if isHalfBreak c rest then skipFrom flow keyAllowed comment p.next rest
    else if isBreak c then skipFrom flow (keyAllowed || !flow) false p.nextLine rest
    else if comment || c = '#' then skipFrom flow keyAllowed true p.next rest
    else if (p.column = 0 && c = '\ufeff') || c = ' ' || (c = '\t' && (flow || !keyAllowed)) then
      skipFrom flow keyAllowed false p.next rest
    else (keyAllowed, p, c :: rest)

/-- The reader at the next token. -/
def skip (l : Lexer) : Lexer :=
  let (keyAllowed, place, rest) := skipFrom l.inFlow l.keyAllowed false l.place l.rest
  { l with keyAllowed := keyAllowed, place := place, rest := rest }

/-- Ends every collection in block style, for what stands outside of documents. -/
def endBlocks? (l : Lexer) : Option Lexer := do
  let l' ← (l.closeBlocks (-1)).dropKey?
  some { l' with keyAllowed := false }

/-- A token of some characters, after which a key may or may not start. -/
def sign (l : Lexer) (t : Token) (length : Nat) (keyAllowed : Bool) : Lexer :=
  { (l.emit t).advance (l.rest.drop length) with keyAllowed := keyAllowed }

/-- A token that is a key if a colon follows, given what is left after it. -/
def mayBeKey? (l : Lexer) (t : Token) (rest : List Char) : Option Lexer := do
  let l' ← l.saveKey?
  some { (l'.emit t).advance rest with keyAllowed := false }

/-- A scalar that has been read. -/
def scalar (l : Lexer) (form : Form) (r : Reading) : Lexer :=
  { l.emit (.scalar form (String.ofList r.text)) with
    rest := r.rest, place := r.place, keyAllowed := r.freshLine }

/-- Opens a flow collection. -/
def openFlow? (l : Lexer) (t : Token) : Option Lexer := do
  let l' ← l.saveKey?
  let l' := l'.sign t 1 true
  some { l' with flowKeys := none :: l'.flowKeys }

/-- Closes a flow collection. -/
def closeFlow? (l : Lexer) (t : Token) : Option Lexer := do
  let l' ← l.dropKey?
  some ({ l' with flowKeys := l'.flowKeys.drop 1 }.sign t 1 false)

/-- The sign before an item in block style, which opens a list if it stands further right. -/
def item? (l : Lexer) : Option Lexer :=
  if !l.inFlow && !l.keyAllowed then none
  else do
    let l' ← (l.openBlock l.place.column l.tokens.length .openItems).dropKey?
    some (l'.sign .item 1 true)

/-- The sign before a key, which opens a map if it stands further right. -/
def key? (l : Lexer) : Option Lexer :=
  if !l.inFlow && !l.keyAllowed then none
  else do
    let l' ← (l.openBlock l.place.column l.tokens.length .openPairs).dropKey?
    some (l'.sign .key 1 (!l.inFlow))

/-- The sign before a value. If a token stands before it that may be a key, it is one, and opens a
map if it stands further right than the innermost collection. -/
def value? (l : Lexer) : Option Lexer :=
  match l.pending with
  | some key =>
    let l' := (l.emitAt key.index .key).openBlock key.place.column key.index .openPairs
    some ((l'.setPending none).sign .value 1 false)
  | none =>
    if l.inFlow then some (l.sign .value 1 false)
    else if l.keyAllowed then
      some ((l.openBlock l.place.column l.tokens.length .openPairs).sign .value 1 true)
    else none

/-- Reads the next token, if one is left. -/
def next? (l : Lexer) : Option Lexer :=
  match l.rest with
  | [] => none
  | c :: rest =>
    if l.place.column = 0 && c = '%' then do
      let l' ← l.endBlocks?
      let (t, after) ← directive? rest
      let l' := (l'.emit t).advance after
      let (p, after) ← endOfLine? l'.place l'.rest
      some { l' with rest := after, place := p }
    else if atMarker l.place l.rest then do
      let l' ← l.endBlocks?
      some (l'.sign (if c = '-' then .documentStart else .documentEnd) 3 false)
    else if c = '[' then l.openFlow? .openList
    else if c = '{' then l.openFlow? .openMap
    else if c = ']' then l.closeFlow? .closeList
    else if c = '}' then l.closeFlow? .closeMap
    else if c = ',' then do
      let l' ← l.dropKey?
      some (l'.sign .comma 1 true)
    else if c = '-' && atGap rest then l.item?
    else if c = '?' && (l.inFlow || atGap rest) then l.key?
    else if c = ':' && (l.inFlow || atGap rest) then l.value?
    else if c = '*' then do
      let (name, after) ← anchorName? rest
      l.mayBeKey? (.alias (String.ofList name)) after
    else if c = '&' then do
      let (name, after) ← anchorName? rest
      l.mayBeKey? (.anchor (String.ofList name)) after
    else if c = '!' then do
      let (t, after) ← tag? l.inFlow rest
      l.mayBeKey? t after
    else if (c = '|' || c = '>') && !l.inFlow then do
      let l' ← l.dropKey?
      let r ← blockFrom (c = '>') l.indent l.place.next rest
      some (l'.scalar (if c = '|' then .literal else .text) r)
    else if c = '\'' then do
      let l' ← l.saveKey?
      let r ← singleFrom [] {} l.place.next rest
      some (l'.scalar .text r)
    else if c = '"' then do
      let l' ← l.saveKey?
      let r ← doubleFrom [] {} l.place.next rest
      some (l'.scalar .text r)
    else if startsPlain l.inFlow l.rest then do
      let l' ← l.saveKey?
      let r ← plainFrom l.inFlow (l.indent + 1) [] {} l.place l.rest
      some (l'.scalar .plain r)
    else none

/-- Reads all tokens; the first argument bounds their number. -/
def run : Nat → Lexer → Option (List Token)
  | 0, _ => none
  | n + 1, l => do
    let l' ← l.skip.dropStale?
    let l' := l'.closeBlocks l'.place.column
    if l'.rest.isEmpty then
      let l' ← { l' with place := l'.place.nextLine }.endBlocks?
      some l'.tokens.reverse
    else
      run n (← l'.next?)

end Lexer

/-- The tokens of a text. Every one takes a character, so the length of the text bounds their
number. -/
def tokens? (s : List Char) : Option (List Token) :=
  if s.all isAllowed then Lexer.run (s.length + 1) { rest := s } else none

end DocCite.Yaml
