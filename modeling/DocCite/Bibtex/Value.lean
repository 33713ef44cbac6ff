import DocCite.Text.Accent
import DocCite.Text.Blank

/-!
# Values in BibTeX files

What is stored for the text of a field: stretches of text and formulas. Blanks shrink, braces
disappear, hyphens become dashes, accents combine with their letter. Commands that are not known
stay as they are, with the argument read like a value of its own. In the fields that hold
addresses and file names a backslash starts no command and a dollar sign no formula.
-/

namespace DocCite.Bibtex

/-- A stretch of a value. -/
inductive Chunk
  | text (s : List Char)
  /-- What stands between two dollar signs. -/
  | formula (s : List Char)
  deriving Repr, DecidableEq

/-- The stretches of a value. -/
abbrev Content := List Chunk

namespace Content

/-- The text of a value, without its formulas. -/
def plain (content : Content) : List Char :=
  content.flatMap fun
    | .text s => s
    | .formula _ => []

/-- The text of a value, with its formulas between dollar signs. -/
def written (content : Content) : List Char :=
  content.flatMap fun
    | .text s => s
    | .formula s => ['$'] ++ s ++ ['$']

end Content

/-! ## Commands -/

/-- The combining mark of an accent command. -/
def accentMark? (command : List Char) : Option Char :=
  match command with
  | ['`'] => some '\u0300'
  | ['\''] => some '\u0301'
  | ['´'] => some '\u0301'
  | ['^'] => some '\u0302'
  | ['~'] => some '\u0303'
  | ['='] => some '\u0304'
  | ['u'] => some '\u0306'
  | ['.'] => some '\u0307'
  | ['"'] => some '\u0308'
  | ['r'] => some '\u030a'
  | ['H'] => some '\u030b'
  | ['v'] => some '\u030c'
  | ['d'] => some '\u0323'
  | ['c'] => some '\u0327'
  | ['k'] => some '\u0328'
  | ['b'] => some '\u0332'
  | ['t'] => some '\u0361'
  | _ => none

/-- The characters of a text that symbol commands stand for: letters without an accent, and the
symbols that every document has. A hyphenation point leaves nothing. -/
def symbols : List (String × String) :=
  [("-", ""), ("LaTeX", "LaTeX"), ("TeX", "TeX"),
   ("aa", "å"), ("AA", "Å"), ("ae", "æ"), ("AE", "Æ"), ("dh", "ð"), ("DH", "Ð"), ("dj", "đ"),
   ("DJ", "Đ"), ("i", "ı"), ("j", "ȷ"), ("l", "ł"), ("L", "Ł"), ("ng", "ŋ"), ("NG", "Ŋ"),
   ("o", "ø"), ("O", "Ø"), ("oe", "œ"), ("OE", "Œ"), ("ss", "ß"), ("SS", "ẞ"), ("th", "þ"),
   ("TH", "Þ"),
   ("copyright", "©"), ("dag", "†"), ("ddag", "‡"), ("dots", "…"), ("P", "¶"), ("pounds", "£"),
   ("S", "§"),
   ("textasciicircum", "^"), ("textasciitilde", "~"), ("textasteriskcentered", "∗"),
   ("textbackslash", "\\"), ("textbar", "|"), ("textbardbl", "‖"), ("textbigcircle", "◯"),
   ("textbraceleft", "\x7b"), ("textbraceright", "\x7d"), ("textbullet", "•"),
   ("textcopyright", "©"), ("textdagger", "†"), ("textdaggerdbl", "‡"), ("textdollar", "$"),
   ("textellipsis", "…"), ("textemdash", "—"), ("textendash", "–"), ("textexclamdown", "¡"),
   ("textgreater", ">"), ("textless", "<"), ("textordfeminine", "ª"), ("textordmasculine", "º"),
   ("textparagraph", "¶"), ("textperiodcentered", "·"), ("textquestiondown", "¿"),
   ("textquotedblleft", "“"), ("textquotedblright", "”"), ("textquoteleft", "‘"),
   ("textquoteright", "’"), ("textregistered", "®"), ("textsection", "§"),
   ("textsterling", "£"), ("texttrademark", "™"), ("textunderscore", "_"),
   ("textvisiblespace", "␣")]

/-- The characters that lose a backslash before them. -/
def isEscapable (verbatim : Bool) (c : Char) : Bool :=
  if verbatim then ['{', '}', '\\', ':'].contains c
  else ['{', '}', '\\', '#', '&', '%', '$', '_', ':'].contains c

/-- Whether a character controls the terminal rather than being written. -/
def isControl (c : Char) : Bool := c.toNat < 32 || (127 ≤ c.toNat && c.toNat ≤ 159)

/-- Whether a character can stand in a name. -/
def isNameChar (c : Char) : Bool :=
  !(['@', '{', '}', '"', '#', '\'', '(', ')', ',', '=', '%', '\\', '~'].contains c) &&
    !Text.isBlank c && !isControl c

/-- Whether a character can stand at the start of a name. -/
def startsName (c : Char) : Bool := isNameChar c && !([':', '<', '-', '>'].contains c)

/-- The name of a command after its backslash: a name, or one other character. The signs among
the accents are names of their own. -/
def commandName (s : List Char) : List Char × List Char :=
  match s with
  | [] => ([], [])
  | c :: rest =>
    if startsName c && !(['`', '´', '^', '.'].contains c) then
      (c :: rest.takeWhile isNameChar, rest.dropWhile isNameChar)
    else ([c], rest)

/-- What a command applies to. -/
inductive Argument
  | none
  /-- The character after an accent. -/
  | char (c : Char)
  /-- The text in braces right after a command. -/
  | braced (s : List Char)

/-- The text up to the brace that closes an argument in which `depth` braces are open, and what
follows that brace. -/
def braced? : Nat → List Char → Option (List Char × List Char)
  | _, [] => none
  | depth, c :: rest =>
    if c = '}' ∧ depth = 0 then some ([], rest)
    else
      (braced? (if c = '{' then depth + 1 else if c = '}' then depth - 1 else depth) rest).map
        fun (text, after) => (c :: text, after)

theorem length_of_braced? {depth : Nat} {s : List Char} {r : List Char × List Char}
    (h : braced? depth s = some r) : r.1.length + r.2.length < s.length := by
  fun_induction braced? depth s generalizing r with
  | case1 => simp at h
  | case2 depth c rest _ =>
    simp only [Option.some.injEq] at h
    subst h
    simp
  | case3 depth c rest _ ih =>
    obtain ⟨p, hp, rfl⟩ := Option.map_eq_some_iff.1 h
    have := ih hp
    simp only [List.length_cons]
    omega

/-- Reads what a command applies to; nothing if a brace is not closed. A blank before the brace
parts it from the command. -/
def argument? (isAccent blank : Bool) (s : List Char) : Option (Argument × List Char) :=
  match s with
  | [] => some (.none, [])
  | c :: rest =>
    if c = '{' then
      if blank then some (.none, s)
      else (braced? 0 rest).map fun (text, after) => (.braced text, after)
    else if isAccent then some (.char c, rest)
    else some (.none, s)

/-- Reads a command after its backslash: its name, what it applies to, and what follows. -/
def command? (s : List Char) : Option (List Char × Argument × List Char) :=
  let named := commandName s
  let start := named.2.dropWhile Text.isBlank
  (argument? (accentMark? named.1).isSome (start.length < named.2.length) start).map
    fun (arg, after) => (named.1, arg, after)

/-- The size of what a command applies to. -/
def Argument.length : Argument → Nat
  | .none => 0
  | .char _ => 1
  | .braced s => s.length

theorem length_of_argument? {isAccent blank : Bool} {s : List Char} {r : Argument × List Char}
    (h : argument? isAccent blank s = some r) : r.1.length + r.2.length ≤ s.length := by
  unfold argument? at h
  split at h
  · simp only [Option.some.injEq] at h
    subst h
    simp [Argument.length]
  · next c rest =>
    split at h
    · split at h
      · simp only [Option.some.injEq] at h
        subst h
        simp [Argument.length]
      · obtain ⟨p, hp, rfl⟩ := Option.map_eq_some_iff.1 h
        have := length_of_braced? hp
        simp only [Argument.length, List.length_cons]
        omega
    · split at h
      · simp only [Option.some.injEq] at h
        subst h
        simp only [Argument.length, List.length_cons]
        omega
      · simp only [Option.some.injEq] at h
        subst h
        simp [Argument.length]

theorem length_commandName (s : List Char) : (commandName s).2.length ≤ s.length := by
  unfold commandName
  split
  · simp
  · split
    · exact Nat.le_succ_of_le (List.dropWhile_sublist _).length_le
    · simp

theorem length_of_command? {s : List Char} {r : List Char × Argument × List Char}
    (h : command? s = some r) : r.2.1.length + r.2.2.length ≤ s.length := by
  unfold command? at h
  obtain ⟨p, hp, rfl⟩ := Option.map_eq_some_iff.1 h
  have h₁ := length_of_argument? hp
  have h₂ := (List.dropWhile_sublist (l := (commandName s).2) Text.isBlank).length_le
  have h₃ := length_commandName s
  simp only
  omega

/-- The letter that carries an accent: the dotless letters stand for their plain ones. -/
def underAccent (s : List Char) : List Char :=
  match s.getLast? with
  | some 'ı' => s.dropLast ++ ['i']
  | some 'ȷ' => s.dropLast ++ ['j']
  | _ => s

/-- What a command becomes, with its argument read. -/
def execute (name : List Char) (argument : Option (List Char)) : List Char :=
  match accentMark? name with
  | some mark =>
    if (name = ['^'] || name = ['~']) && (argument.getD []).isEmpty then name
    else Text.combineLast (underAccent (argument.getD [])) mark
  | none =>
    match symbols.lookup (String.ofList name) with
    | some text => text.toList
    | none =>
      match argument with
      | some text => ['\\'] ++ name ++ ['{'] ++ text ++ ['}']
      | none => ['\\'] ++ name ++ [' ']

/-! ## Text -/

/-- What a stretch of up to three hyphens becomes. -/
def dash : Nat → Char
  | 2 => '–'
  | 3 => '—'
  | _ => '-'

/-- The stretches of a value in which `depth` braces are open. Nothing if a brace is closed that
is not open, if a formula is not closed or if the argument of a command is not. -/
def content (verbatim : Bool) (depth : Nat) (s : List Char) : Option Content :=
  match s with
  | [] => some []
  | c :: rest =>
    if c = '\\' then
      match rest with
      | [] => some [.text ['\\']]
      | d :: more =>
        if isEscapable verbatim d then (content verbatim depth more).map (.text [d] :: ·)
        else if verbatim then (content verbatim depth (d :: more)).map (.text ['\\'] :: ·)
        else if Text.isBlank d || isControl d then
          (content verbatim depth (d :: more)).map (.text ['\\', d] :: ·)
        else
          match _h : command? (d :: more) with
          | none => none
          | some (name, .none, after) =>
            (content verbatim depth after).map (.text (execute name none) :: ·)
          | some (name, .char a, after) =>
            (content verbatim depth after).map (.text (execute name (some [a])) :: ·)
          | some (name, .braced arg, after) => do
            let inner ← content false 0 arg
            let outer ← content verbatim depth after
            some (.text (execute name (some inner.written)) :: outer)
    else if c = '{' then content verbatim (depth + 1) rest
    else if c = '}' then if depth = 0 then none else content verbatim (depth - 1) rest
    else if c = '$' ∧ !verbatim then
      let formula := rest.takeWhile (· ≠ '$')
      if formula.length < rest.length then
        (content verbatim depth (rest.drop (formula.length + 1))).map (.formula formula :: ·)
      else none
    else if c = '-' then
      let more := ((rest.take 2).takeWhile (· = '-')).length
      (content verbatim depth (rest.drop more)).map (.text [dash (more + 1)] :: ·)
    else if Text.isBlank c then
      (content verbatim depth (rest.dropWhile Text.isBlank)).map (.text [' '] :: ·)
    else (content verbatim depth rest).map (.text [c] :: ·)
termination_by s.length
decreasing_by
  · simp only [List.length_cons]; omega
  · simp
  · simp
  · have := length_of_command? _h
    simp only [Argument.length, List.length_cons] at this ⊢; omega
  · have := length_of_command? _h
    simp only [Argument.length, List.length_cons] at this ⊢; omega
  · have := length_of_command? _h
    simp only [Argument.length, List.length_cons] at this ⊢; omega
  · have := length_of_command? _h
    simp only [Argument.length, List.length_cons] at this ⊢; omega
  · simp
  · simp
  · simp only [List.length_drop, List.length_cons]; omega
  · simp only [List.length_drop, List.length_cons]; omega
  · have := (List.dropWhile_sublist (l := rest) Text.isBlank).length_le
    simp only [List.length_cons]; omega
  · simp

/-- The fields whose values are verbatim. -/
def verbatimFields : List String :=
  ["file", "doi", "uri", "eprint", "verba", "verbb", "verbc", "pdf", "url", "urlraw"]

/-- What is stored for a value of a field. -/
def fieldContent (field : String) (value : List Char) : Option Content :=
  content (verbatimFields.contains field) 0 value

end DocCite.Bibtex
