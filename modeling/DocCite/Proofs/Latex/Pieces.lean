import DocCite.Proofs.Markup.Nested

/-!
# The pieces of a field value

The markup of a field value is a text, and what was meant by it is no longer seen there. Here the
value is converted into pieces instead (`pieces`): characters, tags, and the signs that commands
leave as they are. Spelled out, the pieces are the markup (`spell_pieces`); the units they were
written for are told by `told`. Their tags nest (`nests_told`), and those that open are the font
commands of the value, one after another (`openings_told`).
-/

namespace DocCite.Latex

open Markup (Token openings Nests)

/-- One piece of the markup of a field value. -/
inductive Piece
  | char (c : Char)
  | accented (accent letter : Char)
  | less
  | greater
  | opening (a : Attribute)
  | closing (a : Attribute)
  deriving DecidableEq, Repr

namespace Piece

/-- A piece as it is written. Characters of the text are escaped; a letter under an accent and the
signs of tags that a command names are not. -/
def text : Piece → List Char
  | char c => Markup.escapeChar c
  | accented accent letter => [letter, combiningMark accent]
  | less => ['<']
  | greater => ['>']
  | opening a => openTag a
  | closing a => closeTag a

/-- The units a piece is written for. -/
def units : Piece → List Token
  | char c => [.char c]
  | accented accent letter => [.char letter, .char (combiningMark accent)]
  | less => [.char '<']
  | greater => [.char '>']
  | opening a => [.opening a]
  | closing a => [.closing a]

end Piece

/-- Pieces as they are written. -/
def spell (ps : List Piece) : List Char := ps.flatMap Piece.text

/-- The units that pieces are written for. -/
def told (ps : List Piece) : List Token := ps.flatMap Piece.units

@[simp] theorem spell_nil : spell [] = [] := rfl

@[simp] theorem spell_cons (p : Piece) (ps : List Piece) : spell (p :: ps) = p.text ++ spell ps :=
  List.flatMap_cons

@[simp] theorem spell_append (ps qs : List Piece) : spell (ps ++ qs) = spell ps ++ spell qs :=
  List.flatMap_append

@[simp] theorem told_cons (p : Piece) (ps : List Piece) : told (p :: ps) = p.units ++ told ps :=
  List.flatMap_cons

@[simp] theorem told_append (ps qs : List Piece) : told (ps ++ qs) = told ps ++ told qs :=
  List.flatMap_append

theorem spell_map_char (s : List Char) : spell (s.map .char) = Markup.escapeChars s :=
  List.flatMap_map ..

theorem told_map_char (s : List Char) : told (s.map .char) = s.map Token.char := by
  rw [told, List.flatMap_map, List.map_eq_flatMap]
  rfl

/-! ## Commands in pieces -/

/-- A letter under an accent. -/
def accentedPieces (accent : Char) : Option Char → List Piece
  | none => []
  | some letter =>
    match compose? accent letter with
    | some c => [.char c]
    | none => [.accented accent letter]

/-- The name of a command: the letters after its backslash. -/
def commandName (s : List Char) : String := String.ofList (s.takeWhile Text.isAsciiLetter)

/-- The attribute of the group that a command opens, if it opens one. -/
def openedBy (s : List Char) : Option Attribute :=
  if (s.dropWhile Text.isAsciiLetter).head? = some '{' then fontAttribute? (commandName s)
  else none

/-- The pieces of a command with a name. -/
def namedPieces (name : String) (rest : List Char) : List Piece :=
  match fontAttribute? name with
  | some a => if rest.head? = some '{' then [.opening a] else [.opening a, .closing a]
  | none =>
    if name = "c" then accentedPieces 'c' (accentArgument rest).1
    else ((symbol? name).getD "").toList.map .char

/-- The pieces of a command that is a single sign. -/
def signPieces (c : Char) (rest : List Char) : List Piece :=
  if isAccent c then accentedPieces c (accentArgument rest).1
  else if c = '\\' then [.char ' ']
  else if c = '<' then [.less]
  else if c = '>' then [.greater]
  else [.char c]

/-- The pieces of the command after a backslash. -/
def commandPieces : List Char → List Piece
  | [] => []
  | c :: rest =>
    if Text.isAsciiLetter c then
      namedPieces (commandName (c :: rest)) ((c :: rest).dropWhile Text.isAsciiLetter)
    else signPieces c rest

/-- A character that stands for a letter with its accent is in the table of these. -/
theorem exists_of_compose? {accent letter c : Char} (h : compose? accent letter = some c) :
    ∃ p ∈ precomposed, c ∈ p.2.2.toList := by
  have hlookup {α β : Type} [BEq α] [LawfulBEq α] {l : List (α × β)} {a : α} {b : β}
      (h : l.lookup a = some b) : (a, b) ∈ l := by
    obtain ⟨before, after, rfl, -⟩ := List.lookup_eq_some_iff.mp h
    exact List.mem_append_right _ List.mem_cons_self
  unfold compose? at h
  split at h
  · cases h
  · next letters results hfound =>
    exact ⟨_, hlookup hfound, (List.of_mem_zip (hlookup h)).2⟩

theorem spell_accentedPieces (accent : Char) (letter : Option Char) :
    spell (accentedPieces accent letter) = accented accent letter := by
  -- no character that stands for a letter with its accent is a sign of markup
  have hplain : ∀ p ∈ precomposed, p.2.2.toList.all fun c => Markup.escapeChar c == [c] := by
    decide
  cases letter with
  | none => rfl
  | some letter =>
    rw [accentedPieces, accented]
    cases hcompose : compose? accent letter with
    | none => rfl
    | some c =>
      obtain ⟨p, hp, hc⟩ := exists_of_compose? hcompose
      have hself := List.all_eq_true.mp (hplain p hp) c hc
      rw [spell_cons, Piece.text, eq_of_beq hself]
      rfl

/-- A font command before a group opens it. -/
theorem named_font_group {name : String} {a : Attribute} (h : fontAttribute? name = some a)
    (inner : List Char) :
    Command.named name ('{' :: inner) = ⟨openTag a, some (closeTag a), inner⟩ := by
  rw [Command.named, h]
  rfl

/-- A font command before anything else opens and closes its tag. -/
theorem named_font {name : String} {a : Attribute} (h : fontAttribute? name = some a)
    {rest : List Char} (hrest : rest.head? ≠ some '{') :
    Command.named name rest = ⟨openTag a ++ closeTag a, none, rest⟩ := by
  rw [Command.named, h]
  dsimp only
  split
  · exact absurd rfl hrest
  · rfl

theorem written_named (name : String) (rest : List Char) :
    (Command.named name rest).written = spell (namedPieces name rest) := by
  -- nor has any symbol one in its text
  have hsymbol {text : String} (h : symbol? name = some text) :
      Markup.escapeChars text.toList = text.toList := by
    unfold symbol? at h
    split at h <;> cases h <;> decide
  cases hfont : fontAttribute? name with
  | some a =>
    rw [namedPieces, hfont]
    by_cases hgroup : rest.head? = some '{'
    · obtain ⟨inner, rfl⟩ := List.head?_eq_some_iff.mp hgroup
      rw [named_font_group hfont]
      simp [Piece.text]
    · rw [named_font hfont hgroup]
      simp [hgroup, Piece.text]
  | none =>
    rw [Command.named, namedPieces, hfont]
    dsimp only
    split
    · exact (spell_accentedPieces _ _).symm
    · rw [spell_map_char]
      cases hname : symbol? name with
      | none => rfl
      | some text => exact (hsymbol hname).symm

theorem written_start (c : Char) (rest : List Char) :
    (Command.start c rest).written = spell (commandPieces (c :: rest)) := by
  rw [Command.start, commandPieces]
  split
  · exact written_named _ _
  rw [signPieces]
  split
  · exact (spell_accentedPieces _ _).symm
  split
  · rfl
  split
  · next hamp =>
    subst hamp
    rfl
  next hamp =>
  split
  · next hless =>
    subst hless
    rfl
  next hless =>
  split
  · next hgreater =>
    subst hgreater
    rfl
  next hgreater =>
  rw [spell_cons, Piece.text, Markup.escapeChar_of_ne hamp hless hgreater]
  rfl

/-- A command that is a sign has no name. -/
theorem commandName_of_sign {c : Char} (h : ¬ Text.isAsciiLetter c) (rest : List Char) :
    commandName (c :: rest) = "" := by
  rw [commandName, List.takeWhile_cons_of_neg h]

/-- A command that is a sign opens no group. -/
theorem openedBy_of_sign {c : Char} (h : ¬ Text.isAsciiLetter c) (rest : List Char) :
    openedBy (c :: rest) = none := by
  rw [openedBy, commandName_of_sign h]
  exact ite_self _

/-- What a command writes is what its pieces spell. -/
theorem written_read (s : List Char) : (Command.read s).written = spell (commandPieces s) := by
  cases s with
  | nil => rfl
  | cons c rest => exact written_start c rest

theorem owed_named (name : String) (rest : List Char) :
    (Command.named name rest).owed =
      (if rest.head? = some '{' then fontAttribute? name else none).map closeTag := by
  cases hfont : fontAttribute? name with
  | some a =>
    by_cases hgroup : rest.head? = some '{'
    · obtain ⟨inner, rfl⟩ := List.head?_eq_some_iff.mp hgroup
      rw [named_font_group hfont]
      rfl
    · rw [named_font hfont hgroup, if_neg hgroup]
      rfl
  | none =>
    rw [Command.named, hfont, ite_self]
    dsimp only
    split
    · rfl
    · split <;> rfl

/-- A command owes the tag that closes the group it opened. -/
theorem owed_read (s : List Char) : (Command.read s).owed = (openedBy s).map closeTag := by
  cases s with
  | nil => rfl
  | cons c rest =>
    rw [Command.read, Command.start]
    split
    · exact owed_named _ _
    · next hletter =>
      rw [openedBy_of_sign hletter]
      split
      · rfl
      · split
        · rfl
        · split <;> rfl

/-! ## Values in pieces -/

/-- The pieces that close a group. -/
def closed (group : Option Attribute) : List Piece := (group.map Piece.closing).toList

/-- The pieces of a value, with the attributes of the groups that are open. -/
def pieces (groups : List (Option Attribute)) : List Char → List Piece
  | [] => groups.flatMap closed
  | c :: rest =>
    if c = '\\' then
      commandPieces rest ++
        pieces ((openedBy rest).toList.map some ++ groups) (Command.read rest).rest
    else if c = '{' then pieces (none :: groups) rest
    else if c = '}' then closed (groups.headD none) ++ pieces groups.tail rest
    else if c = '$' then pieces groups rest
    else if c = '~' then .char '\u00a0' :: pieces groups rest
    else if c = '-' then
      (dashes (1 + (rest.takeWhile (· = '-')).length)).map .char ++
        pieces groups (rest.dropWhile (· = '-'))
    else .char c :: pieces groups rest
termination_by s => s.length
decreasing_by
  · have := Command.length_read rest
    simp; omega
  all_goals try simp
  have := (List.dropWhile_sublist (l := rest) (· = '-')).length_le
  simpa [Nat.lt_succ_iff] using this

theorem escapeChars_dashes (n : Nat) : Markup.escapeChars (dashes n) = dashes n := by
  have hreplicate (n : Nat) : Markup.escapeChars (List.replicate n '-') = List.replicate n '-' := by
    induction n with
    | zero => rfl
    | succ n ih => rw [List.replicate_succ, Markup.escapeChars_cons, ih]; rfl
  unfold dashes
  split
  · decide
  · decide
  · exact hreplicate _

/-- **The pieces of a value spell its markup.** -/
theorem spell_pieces (groups : List (Option Attribute)) (s : List Char) :
    spell (pieces groups s) = convert (groups.map fun group => spell (closed group)) s := by
  induction groups, s using pieces.induct with
  | case1 groups =>
    rw [pieces, convert, spell, List.flatMap_assoc]
    rfl
  | case2 groups rest ih =>
    have howed : (Command.read rest).owed.toList =
        ((openedBy rest).toList.map some).map fun group => spell (closed group) := by
      rw [owed_read]
      cases openedBy rest with
      | none => rfl
      | some a => simp [closed, Piece.text]
    rw [pieces, convert, if_pos rfl, if_pos rfl, spell_append, ih]
    dsimp only
    rw [written_read, howed, List.map_append]
  | case3 groups rest hslash ih =>
    rw [pieces, convert, if_neg hslash, if_neg hslash, if_pos rfl, if_pos rfl, ih]
    rfl
  | case4 groups rest hslash hopen ih =>
    rw [pieces, convert, if_neg hslash, if_neg hslash, if_neg hopen, if_neg hopen, if_pos rfl,
      if_pos rfl, spell_append, ih, List.map_tail]
    cases groups <;> rfl
  | case5 groups rest hslash hopen hclose ih =>
    rw [pieces, convert]
    simpa using ih
  | case6 groups rest hslash hopen hclose hdollar ih =>
    rw [pieces, convert]
    simpa [Piece.text, Markup.escapeChar] using ih
  | case7 groups rest hslash hopen hclose hdollar htilde ih =>
    rw [pieces, convert]
    simpa [spell_map_char, escapeChars_dashes] using ih
  | case8 groups c rest hslash hopen hclose hdollar htilde hdash ih =>
    rw [pieces, convert]
    simpa [hslash, hopen, hclose, hdollar, htilde, hdash, Piece.text] using ih

/-! ## The commands of a value -/

/-- The names of the commands that are read in a value. -/
def commands : List Char → List String
  | [] => []
  | c :: rest =>
    if c = '\\' then commandName rest :: commands (Command.read rest).rest
    else commands rest
termination_by s => s.length
decreasing_by
  · have := Command.length_read rest
    simp; omega
  · simp

/-- The attributes of the font commands of a value. -/
def fonts (s : List Char) : List Attribute := (commands s).filterMap fontAttribute?

/-- What commands there are: most tell characters, a font command opens its tag, and closes it at
once unless a group follows. -/
theorem commandPieces_cases (s : List Char) :
    (fontAttribute? (commandName s) = none ∧ openedBy s = none ∧
        ∃ text : List Char, told (commandPieces s) = text.map .char) ∨
      ∃ a, fontAttribute? (commandName s) = some a ∧
        (openedBy s = some a ∧ commandPieces s = [.opening a] ∨
          openedBy s = none ∧ commandPieces s = [.opening a, .closing a]) := by
  have haccented (accent : Char) (letter : Option Char) :
      ∃ text : List Char, told (accentedPieces accent letter) = text.map .char := by
    cases letter with
    | none => exact ⟨[], rfl⟩
    | some letter =>
      rw [accentedPieces]
      split
      · next c _ => exact ⟨[c], rfl⟩
      · exact ⟨[letter, combiningMark accent], rfl⟩
  have hsign (c : Char) (rest : List Char) :
      ∃ text : List Char, told (signPieces c rest) = text.map .char := by
    unfold signPieces
    split
    · exact haccented _ _
    · repeat' split
      · exact ⟨[' '], rfl⟩
      · exact ⟨['<'], rfl⟩
      · exact ⟨['>'], rfl⟩
      · exact ⟨[c], rfl⟩
  cases s with
  | nil => exact .inl ⟨rfl, rfl, [], rfl⟩
  | cons c rest =>
    by_cases hletter : Text.isAsciiLetter c
    · rw [commandPieces, if_pos hletter, openedBy]
      cases hfont : fontAttribute? (commandName (c :: rest)) with
      | some a =>
        refine .inr ⟨a, rfl, ?_⟩
        rw [namedPieces, hfont]
        by_cases hgroup : ((c :: rest).dropWhile Text.isAsciiLetter).head? = some '{'
        · exact .inl ⟨if_pos hgroup, if_pos hgroup⟩
        · exact .inr ⟨if_neg hgroup, if_neg hgroup⟩
      | none =>
        refine .inl ⟨rfl, ite_self _, ?_⟩
        rw [namedPieces, hfont]
        dsimp only
        split
        · exact haccented _ _
        · exact ⟨_, told_map_char _⟩
    · rw [commandPieces, if_neg hletter, openedBy_of_sign hletter, commandName_of_sign hletter]
      exact .inl ⟨rfl, rfl, hsign c rest⟩

/-- **The tags of a value nest.** -/
theorem nests_told (groups : List (Option Attribute)) (s : List Char) :
    Nests (groups.filterMap id) (told (pieces groups s)) := by
  induction groups, s using pieces.induct with
  | case1 groups =>
    rw [pieces]
    induction groups with
    | nil => exact .nil
    | cons group groups ih =>
      cases group with
      | none => exact ih
      | some a => exact ih.closing
  | case2 groups rest ih =>
    rw [pieces, if_pos rfl, told_append]
    rw [List.filterMap_append] at ih
    -- a command tells characters, or its tag stays open for the group, or is closed at once
    obtain ⟨-, hopened, text, htext⟩ | ⟨a, -, ⟨hopened, hpieces⟩ | ⟨hopened, hpieces⟩⟩ :=
      commandPieces_cases rest
    · rw [htext]
      rw [hopened] at ih ⊢
      exact ih.map_char_append text
    · rw [hpieces]
      rw [hopened] at ih ⊢
      exact ih.opening
    · rw [hpieces]
      rw [hopened] at ih ⊢
      exact ih.closing.opening
  | case3 groups rest hslash ih =>
    rw [pieces, if_neg hslash, if_pos rfl]
    exact ih
  | case4 groups rest hslash hopen ih =>
    rw [pieces, if_neg hslash, if_neg hopen, if_pos rfl, told_append]
    -- the brace closes the group that was opened last, which has a tag or not
    match groups with
    | [] => exact ih
    | none :: groups => exact ih
    | some a :: groups => exact ih.closing
  | case5 groups rest hslash hopen hclose ih =>
    rw [pieces]
    exact ih
  | case6 groups rest hslash hopen hclose hdollar ih =>
    rw [pieces]
    exact ih.char _
  | case7 groups rest hslash hopen hclose hdollar htilde ih =>
    rw [pieces]
    exact (told_append _ _ ▸ told_map_char _ ▸ ih.map_char_append _)
  | case8 groups c rest hslash hopen hclose hdollar htilde hdash ih =>
    rw [pieces, if_neg hslash, if_neg hopen, if_neg hclose, if_neg hdollar, if_neg htilde,
      if_neg hdash]
    exact ih.char c

theorem fonts_slash (rest : List Char) :
    fonts ('\\' :: rest) =
      (fontAttribute? (commandName rest)).toList ++ fonts (Command.read rest).rest := by
  rw [fonts, commands, if_pos rfl, List.filterMap_cons]
  cases fontAttribute? (commandName rest) <;> rfl

theorem fonts_of_ne {c : Char} (h : c ≠ '\\') (rest : List Char) :
    fonts (c :: rest) = fonts rest := by
  rw [fonts, commands, if_neg h, fonts]

theorem fonts_dropWhile (s : List Char) : fonts (s.dropWhile (· = '-')) = fonts s := by
  induction s with
  | nil => rfl
  | cons c s ih =>
    by_cases hdash : c = '-'
    · rw [List.dropWhile_cons_of_pos (by simpa using hdash), ih,
        fonts_of_ne (by rw [hdash]; decide)]
    · rw [List.dropWhile_cons_of_neg (by simpa using hdash)]

/-- **The tags that open** are those of the font commands. -/
theorem openings_told (groups : List (Option Attribute)) (s : List Char) :
    openings (told (pieces groups s)) = fonts s := by
  have hclosed (group : Option Attribute) : openings (told (closed group)) = [] := by
    cases group <;> rfl
  induction groups, s using pieces.induct with
  | case1 groups =>
    rw [pieces]
    induction groups with
    | nil =>
      rw [fonts, commands]
      rfl
    | cons group groups ih =>
      rw [List.flatMap_cons, told_append, Markup.openings_append, hclosed, ih, List.nil_append]
  | case2 groups rest ih =>
    rw [pieces, if_pos rfl, told_append, Markup.openings_append, ih, fonts_slash]
    obtain ⟨hfont, -, text, htext⟩ | ⟨a, hfont, ⟨-, hpieces⟩ | ⟨-, hpieces⟩⟩ :=
      commandPieces_cases rest
    · rw [htext, hfont, Markup.openings_map_char]
      rfl
    · rw [hpieces, hfont]
      rfl
    · rw [hpieces, hfont]
      rfl
  | case3 groups rest hslash ih =>
    rw [fonts_of_ne hslash, pieces]
    exact ih
  | case4 groups rest hslash hopen ih =>
    rw [fonts_of_ne hslash, pieces, if_neg hslash, if_neg hopen, if_pos rfl, told_append,
      Markup.openings_append, hclosed, ih, List.nil_append]
  | case5 groups rest hslash hopen hclose ih =>
    rw [fonts_of_ne hslash, pieces]
    exact ih
  | case6 groups rest hslash hopen hclose hdollar ih =>
    rw [fonts_of_ne hslash, pieces]
    exact ih
  | case7 groups rest hslash hopen hclose hdollar htilde ih =>
    -- all hyphens are taken at once, and no command starts among them
    have hdashes (n : Nat) : openings (told ((dashes n).map .char)) = [] := by
      rw [told_map_char, Markup.openings_map_char]
    rw [fonts_dropWhile] at ih
    rw [fonts_of_ne hslash, pieces, if_neg hslash, if_neg hopen, if_neg hclose, if_neg hdollar,
      if_neg htilde, if_pos rfl, told_append, Markup.openings_append, hdashes, ih, List.nil_append]
  | case8 groups c rest hslash hopen hclose hdollar htilde hdash ih =>
    rw [fonts_of_ne hslash, pieces, if_neg hslash, if_neg hopen, if_neg hclose, if_neg hdollar,
      if_neg htilde, if_neg hdash]
    exact ih

/-! ## Where commands stand -/

theorem accentArgument_suffix (s : List Char) : (accentArgument s).2 <:+ s := by
  fun_induction accentArgument s with
  | case1 => exact List.suffix_rfl
  | case2 rest =>
    exact ((List.drop_suffix 1 _).trans (List.dropWhile_suffix _)).trans (List.suffix_cons _ _)
  | case3 rest ih => exact ih.trans (List.suffix_cons _ _)
  | case4 c rest => exact List.suffix_cons _ _

/-- What a command leaves is the end of what it was read from. -/
theorem rest_suffix (s : List Char) : (Command.read s).rest <:+ s := by
  have hnamed (name : String) (rest : List Char) : (Command.named name rest).rest <:+ rest := by
    unfold Command.named
    split
    · split
      · exact List.suffix_cons _ _
      · exact List.suffix_rfl
    · split
      · exact accentArgument_suffix rest
      · split
        · dsimp only
          split
          · exact List.drop_suffix 1 rest
          · exact List.suffix_rfl
        · exact List.suffix_rfl
  cases s with
  | nil => exact List.suffix_rfl
  | cons c rest =>
    rw [Command.read, Command.start]
    split
    · exact (hnamed _ _).trans (List.dropWhile_suffix _)
    · refine List.IsSuffix.trans ?_ (List.suffix_cons c rest)
      split
      · exact accentArgument_suffix rest
      · repeat' split
        all_goals exact List.suffix_rfl

/-- **The commands of a value stand in its text.** -/
theorem infix_of_mem_commands {s : List Char} {name : String} (h : name ∈ commands s) :
    '\\' :: name.toList <:+: s := by
  induction s using commands.induct with
  | case1 =>
    rw [commands] at h
    cases h
  | case2 rest ih =>
    rw [commands, if_pos rfl] at h
    rcases List.mem_cons.mp h with rfl | h
    · rw [commandName, String.toList_ofList]
      exact ((List.prefix_cons_inj _).mpr (List.takeWhile_prefix _)).isInfix
    · exact (ih h).trans ((rest_suffix rest).trans (List.suffix_cons _ _)).isInfix
  | case3 c rest hslash ih =>
    rw [commands, if_neg hslash] at h
    exact (ih h).trans (List.suffix_cons _ _).isInfix

/-- Only the command of that sign writes a `<` as it is. -/
theorem head?_of_less_mem_commandPieces {s : List Char} (h : .less ∈ commandPieces s) :
    s.head? = some '<' := by
  have haccented (accent : Char) (letter : Option Char) :
      Piece.less ∉ accentedPieces accent letter := by
    cases letter with
    | none => exact List.not_mem_nil
    | some letter =>
      rw [accentedPieces]
      split <;> simp
  have hnamed (name : String) (rest : List Char) : Piece.less ∉ namedPieces name rest := by
    unfold namedPieces
    split
    · split <;> simp
    · split
      · exact haccented _ _
      · simp
  cases s with
  | nil => cases h
  | cons c rest =>
    rw [commandPieces] at h
    split at h
    · exact absurd h (hnamed _ _)
    · rw [signPieces] at h
      split at h
      · exact absurd h (haccented _ _)
      · repeat' split at h
        all_goals simp_all

/-- **A `<` is written as it is** only where the command of that sign stands. -/
theorem infix_of_less_mem_pieces {groups : List (Option Attribute)} {s : List Char}
    (h : .less ∈ pieces groups s) : ['\\', '<'] <:+: s := by
  have hclosed (group : Option Attribute) : Piece.less ∉ closed group := by
    cases group <;> simp [closed]
  induction groups, s using pieces.induct with
  | case1 groups =>
    rw [pieces] at h
    obtain ⟨group, -, hmem⟩ := List.mem_flatMap.mp h
    exact absurd hmem (hclosed group)
  | case2 groups rest ih =>
    rw [pieces, if_pos rfl] at h
    rcases List.mem_append.mp h with h | h
    · obtain ⟨after, rfl⟩ := List.head?_eq_some_iff.mp (head?_of_less_mem_commandPieces h)
      exact (List.prefix_append ['\\', '<'] after).isInfix
    · exact (ih h).trans ((rest_suffix rest).trans (List.suffix_cons _ _)).isInfix
  | case3 groups rest hslash ih =>
    rw [pieces, if_neg hslash, if_pos rfl] at h
    exact (ih h).trans (List.suffix_cons _ _).isInfix
  | case4 groups rest hslash hopen ih =>
    rw [pieces, if_neg hslash, if_neg hopen, if_pos rfl] at h
    have hrest := (List.mem_append.mp h).resolve_left (hclosed _)
    exact (ih hrest).trans (List.suffix_cons _ _).isInfix
  | case5 groups rest hslash hopen hclose ih =>
    rw [pieces] at h
    exact (ih h).trans (List.suffix_cons _ _).isInfix
  | case6 groups rest hslash hopen hclose hdollar ih =>
    rw [pieces] at h
    have hrest := (List.mem_cons.mp h).resolve_left Piece.noConfusion
    exact (ih hrest).trans (List.suffix_cons _ _).isInfix
  | case7 groups rest hslash hopen hclose hdollar htilde ih =>
    rw [pieces] at h
    have hrest := (List.mem_append.mp h).resolve_left (by simp)
    exact (ih hrest).trans ((List.dropWhile_suffix _).trans (List.suffix_cons _ _)).isInfix
  | case8 groups c rest hslash hopen hclose hdollar htilde hdash ih =>
    rw [pieces, if_neg hslash, if_neg hopen, if_neg hclose, if_neg hdollar, if_neg htilde,
      if_neg hdash] at h
    have hrest := (List.mem_cons.mp h).resolve_left Piece.noConfusion
    exact (ih hrest).trans (List.suffix_cons _ _).isInfix

end DocCite.Latex
