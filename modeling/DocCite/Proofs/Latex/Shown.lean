import DocCite.Proofs.Latex.Contained
import DocCite.Proofs.Text.Casing

/-!
# The visible text of a field value

Of the pieces of a value the tags are not visible, and nothing else of it depends on the groups that
are open (`flatMap_pieces`). So the visible text is read from left to right (`shown`). A value with
ordinary commands has it as the plain text of its markup (`Ordinary.plainChars_convert`), and a case
mapping acts on it if each command stays one for the text in the other case, but for what becomes of
capital sigmas (`shown_apply_iff`).
-/

namespace DocCite.Latex

open Markup (Token)
open Text (Casing IsSign)

variable {s t rest name : List Char} {c d : Char} {β : Type} {f : Piece → List β}

/-- The characters that are not shown as they are. -/
def specials : List Char := ['\\', '{', '}', '$', '~', '-']

theorem isSign_of_mem_specials : ∀ c ∈ specials, IsSign c :=
  List.all_iff_forall_prop.mp (by decide)

theorem not_mem_specials (hslash : c ≠ '\\') (hhidden : c ∉ ['{', '}', '$']) (htilde : c ≠ '~')
    (hhyphen : c ≠ '-') : c ∉ specials := by
  simp only [specials, List.mem_cons, List.not_mem_nil, or_false, not_or] at hhidden ⊢
  exact ⟨hslash, hhidden.1, hhidden.2.1, hhidden.2.2, htilde, hhyphen⟩

/-! ## Pieces without tags -/

/-- **The groups that are open** matter for nothing but the tags that close. -/
theorem flatMap_pieces (hf : ∀ a, f (.closing a) = []) (groups groups' : List (Option Attribute))
    (s : List Char) : (pieces groups s).flatMap f = (pieces groups' s).flatMap f := by
  have hclosed (group : Option Attribute) : (closed group).flatMap f = [] := by
    cases group with
    | none => rfl
    | some a => exact (List.append_nil _).trans (hf a)
  -- On the length, because a command and hyphens take more than one character.
  induction hn : s.length using Nat.strong_induction_on generalizing s groups groups' with
  | _ n ih =>
    subst hn
    cases s with
    | nil =>
      have hnil (groups : List (Option Attribute)) : (pieces groups []).flatMap f = [] := by
        rw [pieces, List.flatMap_assoc]
        exact List.flatMap_eq_nil_iff.mpr fun group _ => hclosed group
      rw [hnil, hnil]
    | cons c rest =>
      have hrest (groups groups' : List (Option Attribute)) :
          (pieces groups rest).flatMap f = (pieces groups' rest).flatMap f :=
        ih rest.length (Nat.lt_succ_self _) groups groups' rest rfl
      rw [pieces, pieces]
      split
      · have hle := Command.length_read rest
        have hlt : (Command.read rest).rest.length < (c :: rest).length := by
          rw [List.length_cons]
          omega
        rw [List.flatMap_append, List.flatMap_append, ih _ hlt _ _ _ rfl]
      split
      · exact hrest _ _
      split
      · rw [List.flatMap_append, List.flatMap_append, hclosed, hclosed, hrest]
      split
      · exact hrest _ _
      split
      · rw [List.flatMap_cons, List.flatMap_cons, hrest]
      split
      · have hle := (List.dropWhile_sublist (l := rest) (· = '-')).length_le
        have hlt : (rest.dropWhile (· = '-')).length < (c :: rest).length := by
          rw [List.length_cons]
          omega
        rw [List.flatMap_append, List.flatMap_append, ih _ hlt _ _ _ rfl]
      · rw [List.flatMap_cons, List.flatMap_cons, hrest]

/-- **What is seen of a value**, of each piece on its own. -/
def seen (f : Piece → List β) (s : List Char) : List β := (pieces [] s).flatMap f

/-- Nothing is seen of a tag. -/
def HidesTags (f : Piece → List β) : Prop := ∀ a, f (.opening a) = [] ∧ f (.closing a) = []

section

variable (hf : HidesTags f)

include hf

theorem flatMap_pieces_eq_seen (groups : List (Option Attribute)) (s : List Char) :
    (pieces groups s).flatMap f = seen f s := flatMap_pieces (fun a => (hf a).2) _ _ s

theorem seen_slash (rest : List Char) :
    seen f ('\\' :: rest) = (commandPieces rest).flatMap f ++ seen f (Command.read rest).rest := by
  rw [seen, pieces, if_pos rfl, List.flatMap_append, flatMap_pieces_eq_seen hf]

/-- Nothing is seen of braces and dollars. -/
theorem seen_hidden (hc : c ∈ ['{', '}', '$']) (rest : List Char) :
    seen f (c :: rest) = seen f rest := by
  simp only [List.mem_cons, List.not_mem_nil, or_false] at hc
  rcases hc with rfl | rfl | rfl
  · rw [seen, pieces, if_neg (by decide), if_pos rfl, flatMap_pieces_eq_seen hf]
  · rw [seen, pieces, if_neg (by decide), if_neg (by decide), if_pos rfl, List.flatMap_append,
      flatMap_pieces_eq_seen hf]
    rfl
  · rw [seen, pieces, if_neg (by decide), if_neg (by decide), if_neg (by decide), if_pos rfl,
      flatMap_pieces_eq_seen hf]

theorem seen_tilde (rest : List Char) :
    seen f ('~' :: rest) = f (.char '\u00a0') ++ seen f rest := by
  rw [seen, pieces, if_neg (by decide), if_neg (by decide), if_neg (by decide),
    if_neg (by decide), if_pos rfl, List.flatMap_cons, flatMap_pieces_eq_seen hf]

/-- Hyphens are read together. -/
theorem seen_hyphens (n : Nat) (h : rest.head? ≠ some '-') :
    seen f (List.replicate (n + 1) '-' ++ rest) =
      (dashes (n + 1)).flatMap (fun c => f (.char c)) ++ seen f rest := by
  have hall : ∀ c ∈ List.replicate n '-', decide (c = '-') = true := fun c hc =>
    decide_eq_true (List.eq_of_mem_replicate hc)
  have hstop : rest.takeWhile (fun c => decide (c = '-')) = [] ∧
      rest.dropWhile (fun c => decide (c = '-')) = rest := by
    cases rest with
    | nil => exact ⟨rfl, rfl⟩
    | cons c rest =>
      have hc : ¬ decide (c = '-') = true := by simpa using h
      exact ⟨List.takeWhile_cons_of_neg hc, List.dropWhile_cons_of_neg hc⟩
  have htake : (List.replicate n '-' ++ rest).takeWhile (fun c => decide (c = '-')) =
      List.replicate n '-' := by
    rw [List.takeWhile_append_of_pos hall, hstop.1, List.append_nil]
  have hdrop : (List.replicate n '-' ++ rest).dropWhile (fun c => decide (c = '-')) = rest := by
    rw [List.dropWhile_append_of_pos hall, hstop.2]
  rw [List.replicate_succ, List.cons_append, seen, pieces, if_neg (by decide),
    if_neg (by decide), if_neg (by decide), if_neg (by decide), if_neg (by decide), if_pos rfl,
    List.flatMap_append, flatMap_pieces_eq_seen hf, htake, hdrop, List.length_replicate,
    Nat.add_comm 1 n, List.flatMap_map]

/-- Any other character is read on its own. -/
theorem seen_char (hc : c ∉ specials) (rest : List Char) :
    seen f (c :: rest) = f (.char c) ++ seen f rest := by
  simp only [specials, List.mem_cons, List.not_mem_nil, or_false, not_or] at hc
  obtain ⟨hslash, hopen, hclose, hdollar, htilde, hhyphen⟩ := hc
  rw [seen, pieces, if_neg hslash, if_neg hopen, if_neg hclose, if_neg hdollar, if_neg htilde,
    if_neg hhyphen, List.flatMap_cons, flatMap_pieces_eq_seen hf]

end

/-! ## Ordinary commands -/

/-- The name of a command that is not the one for the cedilla. -/
structure IsCommandName (name : List Char) : Prop where
  ne_nil : name ≠ []
  letters : ∀ c ∈ name, Text.isAsciiLetter c = true
  ne_cedilla : name ≠ ['c']

/-- The symbol that a name of a command stands for. -/
def symbolNamed? (name : List Char) : Option String := symbol? (String.ofList name)

/-- The text that a name of a command stands for. -/
def nameText (name : List Char) : List Char := ((symbolNamed? name).getD "").toList

/-- What a sign behind a backslash stands for: itself, and a space for a break of the line. -/
def signText (c : Char) : Char := if c = '\\' then ' ' else c

/-- The letter under an accent stands behind it, or in braces, and may stand behind a space. The
cedilla is a letter itself, and no other letter is behind it at once. -/
def letterSpellings (accent letter : Char) : List (List Char) :=
  (if accent = 'c' then [] else [[letter]]) ++ [[' ', letter], ['{', letter, '}']]

/-- **A value with ordinary commands**: each is a sign other than `<`, or it puts an accent on a
letter, or it has a name that ends at a sign or with the value. A space behind a symbol is taken
with it, and a backslash at the end is a command without text. The names and the letters under
accents satisfy conditions. -/
inductive Ordinary (p : List Char → Prop) (q : Char → Char → Prop) : List Char → Prop
  | nil : Ordinary p q []
  | last : Ordinary p q ['\\']
  | sign {c : Char} {rest : List Char} : IsSign c → isAccent c = false → c ≠ '<' →
      Ordinary p q rest → Ordinary p q ('\\' :: c :: rest)
  | accent {a c : Char} {letter rest : List Char} : isAccent a = true ∨ a = 'c' →
      Text.isAsciiLetter c = true → letter ∈ letterSpellings a c → q a c →
      Ordinary p q rest → Ordinary p q ('\\' :: a :: (letter ++ rest))
  | named {name rest : List Char} : IsCommandName name → p name →
      (∀ c ∈ rest.head?, IsSign c) → symbolNamed? name = none ∨ rest.head? ≠ some ' ' →
      Ordinary p q rest → Ordinary p q ('\\' :: (name ++ rest))
  | symbol {name rest : List Char} : IsCommandName name → p name → symbolNamed? name ≠ none →
      Ordinary p q rest → Ordinary p q ('\\' :: (name ++ ' ' :: rest))
  | hyphens {rest : List Char} (n : Nat) : rest.head? ≠ some '-' → Ordinary p q rest →
      Ordinary p q (List.replicate (n + 1) '-' ++ rest)
  | char {c : Char} {rest : List Char} : c ≠ '\\' → c ≠ '-' → Ordinary p q rest →
      Ordinary p q (c :: rest)

theorem IsCommandName.ofList_ne (h : IsCommandName name) : String.ofList name ≠ "c" := by
  intro heq
  refine h.ne_cedilla ?_
  rw [← String.toList_ofList (l := name), heq]
  rfl

/-- A name is read up to the sign behind it. -/
theorem takeWhile_name (hname : ∀ c ∈ name, Text.isAsciiLetter c = true)
    (hend : ∀ c ∈ rest.head?, IsSign c) :
    (name ++ rest).takeWhile Text.isAsciiLetter = name ∧
      (name ++ rest).dropWhile Text.isAsciiLetter = rest := by
  have hstop : rest.takeWhile Text.isAsciiLetter = [] ∧
      rest.dropWhile Text.isAsciiLetter = rest := by
    cases rest with
    | nil => exact ⟨rfl, rfl⟩
    | cons c rest =>
      have hc : ¬ Text.isAsciiLetter c = true := by simp [(hend c rfl).2]
      exact ⟨List.takeWhile_cons_of_neg hc, List.dropWhile_cons_of_neg hc⟩
  rw [List.takeWhile_append_of_pos hname, List.dropWhile_append_of_pos hname, hstop.1, hstop.2,
    List.append_nil]
  exact ⟨rfl, rfl⟩

/-- A command with a name is read as that name, and what is behind it. -/
theorem read_named (hne : name ≠ []) (hname : ∀ c ∈ name, Text.isAsciiLetter c = true)
    (hend : ∀ c ∈ rest.head?, IsSign c) :
    commandPieces (name ++ rest) = namedPieces (String.ofList name) rest ∧
      Command.read (name ++ rest) = Command.named (String.ofList name) rest := by
  obtain ⟨htake, hdrop⟩ := takeWhile_name hname hend
  obtain ⟨c, more, hcons⟩ := List.exists_cons_of_ne_nil hne
  have hletter : Text.isAsciiLetter c = true := hname c (hcons ▸ List.mem_cons_self)
  rw [hcons, List.cons_append] at htake hdrop
  rw [hcons, List.cons_append, commandPieces, if_pos hletter, commandName, Command.read,
    Command.start, if_pos hletter, htake, hdrop]
  exact ⟨rfl, rfl⟩

theorem mem_letterSpellings {a : Char} (h : s ∈ letterSpellings a c) :
    s = [c] ∨ s = [' ', c] ∨ s = ['{', c, '}'] := by
  simp only [letterSpellings, List.mem_append, List.mem_cons, List.not_mem_nil, or_false] at h
  refine h.imp_left fun hbare => ?_
  split at hbare
  · cases hbare
  · exact List.mem_singleton.mp hbare

/-- A letter is read however it is written. -/
theorem accentArgument_append {a : Char} (hc : Text.isAsciiLetter c = true)
    (h : s ∈ letterSpellings a c) (rest : List Char) :
    accentArgument (s ++ rest) = (some c, rest) := by
  have hne {d : Char} (hd : Text.isAsciiLetter d = false) : c ≠ d := by
    rintro rfl
    rw [hc] at hd
    cases hd
  have hspace : c ≠ ' ' := hne (by decide)
  have hopen : c ≠ '{' := hne (by decide)
  have hclose : c ≠ '}' := hne (by decide)
  have hbare : accentArgument ([c] ++ rest) = (some c, rest) :=
    accentArgument.eq_4 c rest hopen hspace
  rcases mem_letterSpellings h with rfl | rfl | rfl
  · exact hbare
  · exact hbare
  · simp [accentArgument, hclose]

theorem isSign_of_isAccent {a : Char} (h : isAccent a = true) : IsSign a := by
  have hall : ∀ a ∈ ['"', '\'', '`', '^', '~', '=', '.'], IsSign a :=
    List.all_iff_forall_prop.mp (by decide)
  exact hall a (List.contains_iff_mem.mp h)

theorem symbol?_of_fontAttribute? {command : String} {a : Attribute}
    (h : fontAttribute? command = some a) : symbol? command = none := by
  unfold fontAttribute? at h
  split at h <;> first
    | rfl
    | cases h

section

variable (hf : HidesTags f)

include hf

theorem flatMap_namedPieces {command : String} (hne : command ≠ "c") (rest : List Char) :
    (namedPieces command rest).flatMap f =
      ((symbol? command).getD "").toList.flatMap fun c => f (.char c) := by
  rw [namedPieces]
  split
  · next a hfont =>
    rw [symbol?_of_fontAttribute? hfont]
    split
    · simp [(hf a).1]
    · simp [(hf a).1, (hf a).2]
  · rw [if_neg hne, List.flatMap_map]

/-- The space behind a symbol is taken with it; a brace that a font command opens is not seen. -/
theorem seen_rest_named {command : String} (hne : command ≠ "c") (rest : List Char) :
    seen f (Command.named command rest).rest =
      seen f (if symbol? command ≠ none ∧ rest.head? = some ' ' then rest.drop 1 else rest) := by
  cases hfont : fontAttribute? command with
  | some a =>
    rw [symbol?_of_fontAttribute? hfont, if_neg fun h => h.1 rfl]
    by_cases hgroup : rest.head? = some '{'
    · obtain ⟨inner, rfl⟩ := List.head?_eq_some_iff.mp hgroup
      rw [named_font_group hfont, seen_hidden hf (by decide)]
    · rw [named_font hfont hgroup]
  | none =>
    rw [Command.named, hfont]
    dsimp only
    rw [if_neg hne]
    cases hsymbol : symbol? command with
    | none => exact congrArg (seen f) (if_neg fun h => h.1 rfl).symm
    | some text => simp only [ne_eq, reduceCtorEq, not_false_eq_true, true_and]

/-- **A command with a name** gives what the text of its name does. -/
theorem seen_command (hname : IsCommandName name) (hend : ∀ c ∈ rest.head?, IsSign c) :
    seen f ('\\' :: (name ++ rest)) = (nameText name).flatMap (fun c => f (.char c)) ++
      seen f (if symbolNamed? name ≠ none ∧ rest.head? = some ' ' then rest.drop 1 else rest) := by
  obtain ⟨hpieces, hread⟩ := read_named hname.ne_nil hname.letters hend
  rw [seen_slash hf, hpieces, hread, flatMap_namedPieces hf hname.ofList_ne,
    seen_rest_named hf hname.ofList_ne]
  rfl

theorem seen_named (hname : IsCommandName name) (hend : ∀ c ∈ rest.head?, IsSign c)
    (hspace : symbolNamed? name = none ∨ rest.head? ≠ some ' ') :
    seen f ('\\' :: (name ++ rest)) =
      (nameText name).flatMap (fun c => f (.char c)) ++ seen f rest := by
  rw [seen_command hf hname hend, if_neg]
  rintro ⟨hsome, hhead⟩
  exact hspace.elim hsome fun hne => hne hhead

theorem seen_symbol (hname : IsCommandName name) (hsymbol : symbolNamed? name ≠ none)
    (rest : List Char) :
    seen f ('\\' :: (name ++ ' ' :: rest)) =
      (nameText name).flatMap (fun c => f (.char c)) ++ seen f rest := by
  have hend : ∀ c ∈ (' ' :: rest).head?, IsSign c := by
    rintro c hc
    cases hc
    decide
  rw [seen_command hf hname hend, if_pos ⟨hsymbol, rfl⟩]
  rfl

theorem seen_sign (hc : IsSign c) (haccent : isAccent c = false) (hless : c ≠ '<')
    (rest : List Char) :
    seen f ('\\' :: c :: rest) =
      f (if c = '>' then .greater else .char (signText c)) ++ seen f rest := by
  have hletter : ¬ Text.isAsciiLetter c = true := by simp [hc.2]
  have hpieces : commandPieces (c :: rest) =
      [if c = '>' then .greater else .char (signText c)] := by
    rw [commandPieces, if_neg hletter, signPieces, if_neg (by simp [haccent]), if_neg hless,
      signText]
    by_cases hslash : c = '\\'
    · subst hslash
      rfl
    · rw [if_neg hslash, if_neg hslash]
      split <;> rfl
  have hread : (Command.read (c :: rest)).rest = rest := by
    rw [Command.read, Command.start, if_neg hletter, if_neg (by simp [haccent])]
    split
    · rfl
    · split <;> rfl
  rw [seen_slash hf, hpieces, hread, List.flatMap_singleton]

theorem seen_accent {a : Char} (ha : isAccent a = true ∨ a = 'c')
    (hc : Text.isAsciiLetter c = true) (hs : s ∈ letterSpellings a c) (rest : List Char) :
    seen f ('\\' :: a :: (s ++ rest)) =
      (accentedPieces a (some c)).flatMap f ++ seen f rest := by
  have hargument := accentArgument_append hc hs rest
  have hread : commandPieces (a :: (s ++ rest)) = accentedPieces a (some c) ∧
      (Command.read (a :: (s ++ rest))).rest = rest := by
    by_cases hcedilla : a = 'c'
    · subst hcedilla
      have hend : ∀ d ∈ (s ++ rest).head?, IsSign d := by
        simp only [letterSpellings, if_true, List.nil_append, List.mem_cons, List.not_mem_nil,
          or_false] at hs
        rcases hs with rfl | rfl <;> rintro d ⟨⟩ <;> decide
      have hletter : ∀ d ∈ ['c'], Text.isAsciiLetter d = true := List.forall_mem_singleton.mpr rfl
      obtain ⟨hpieces, hrest⟩ := read_named (List.cons_ne_nil 'c' []) hletter hend
      have hfont : fontAttribute? (String.ofList ['c']) = none := rfl
      have hname : String.ofList ['c'] = "c" := rfl
      rw [List.singleton_append] at hpieces hrest
      rw [hpieces, hrest, namedPieces, Command.named, hfont]
      dsimp only
      rw [if_pos hname, if_pos hname, hargument]
      exact ⟨rfl, rfl⟩
    · have haccent := ha.resolve_right hcedilla
      have hletter : ¬ Text.isAsciiLetter a = true := by simp [(isSign_of_isAccent haccent).2]
      rw [commandPieces, if_neg hletter, signPieces, if_pos haccent, Command.read, Command.start,
        if_neg hletter, if_pos haccent, hargument]
      exact ⟨rfl, rfl⟩
  rw [seen_slash hf, hread.1, hread.2]

end

theorem seen_nil (f : Piece → List β) : seen f [] = [] := by rw [seen, pieces]; rfl

theorem seen_last (f : Piece → List β) : seen f ['\\'] = [] := by
  rw [seen, pieces, if_pos rfl, Command.read, pieces]
  rfl

/-! ## The visible text -/

/-- The visible characters of units. -/
def visible (ts : List Token) : List Char := ts.filterMap Token.char?

/-- **The visible text of a value.** -/
def shown (s : List Char) : List Char := seen (fun p => visible p.units) s

theorem hidesTags_visible : HidesTags fun p => visible p.units := fun _ => ⟨rfl, rfl⟩

theorem flatMap_visible_char (s : List Char) :
    s.flatMap (fun c => visible (Piece.char c).units) = s := List.flatMap_singleton' s

theorem flatMap_visible_accented (accent letter : Char) :
    (accentedPieces accent (some letter)).flatMap (fun p => visible p.units) =
      accented accent (some letter) := by
  rw [accentedPieces, accented]
  cases compose? accent letter <;> rfl

theorem shown_sign (hc : IsSign c) (haccent : isAccent c = false) (hless : c ≠ '<')
    (rest : List Char) : shown ('\\' :: c :: rest) = signText c :: shown rest := by
  rw [shown, seen_sign hidesTags_visible hc haccent hless]
  split
  · next hgreater =>
    subst hgreater
    rfl
  · rfl

theorem shown_accent {a : Char} (ha : isAccent a = true ∨ a = 'c')
    (hc : Text.isAsciiLetter c = true) (hs : s ∈ letterSpellings a c) (rest : List Char) :
    shown ('\\' :: a :: (s ++ rest)) = accented a (some c) ++ shown rest := by
  rw [shown, seen_accent hidesTags_visible ha hc hs, flatMap_visible_accented]
  rfl

theorem shown_named (hname : IsCommandName name) (hend : ∀ c ∈ rest.head?, IsSign c)
    (hspace : symbolNamed? name = none ∨ rest.head? ≠ some ' ') :
    shown ('\\' :: (name ++ rest)) = nameText name ++ shown rest := by
  rw [shown, seen_named hidesTags_visible hname hend hspace, flatMap_visible_char]
  rfl

theorem shown_symbol (hname : IsCommandName name) (hsymbol : symbolNamed? name ≠ none)
    (rest : List Char) :
    shown ('\\' :: (name ++ ' ' :: rest)) = nameText name ++ shown rest := by
  rw [shown, seen_symbol hidesTags_visible hname hsymbol, flatMap_visible_char]
  rfl

theorem shown_hyphens (n : Nat) (h : rest.head? ≠ some '-') :
    shown (List.replicate (n + 1) '-' ++ rest) = dashes (n + 1) ++ shown rest := by
  rw [shown, seen_hyphens hidesTags_visible n h, flatMap_visible_char]
  rfl

/-- What is no special sign is shown as it is. -/
theorem shown_append_of_ne (h : ∀ d ∈ s, d ∉ specials) (m : List Char) :
    shown (s ++ m) = s ++ shown m := by
  induction s with
  | nil => rfl
  | cons d s ih =>
    obtain ⟨hd, hrest⟩ := List.forall_mem_cons.mp h
    rw [List.cons_append, shown, seen_char hidesTags_visible hd, ← shown, ih hrest]
    rfl

/-- The signs `<` that are written as they are. -/
def lessOnly (p : Piece) : List Piece := if p = .less then [p] else []

theorem hidesTags_lessOnly : HidesTags lessOnly := fun _ => ⟨rfl, rfl⟩

variable {p : List Char → Prop} {q : Char → Char → Prop}

/-- **No sign of a tag** is written for a value with ordinary commands. -/
theorem Ordinary.seen_lessOnly (h : Ordinary p q s) : seen lessOnly s = [] := by
  have hf := hidesTags_lessOnly
  have hchars (text : List Char) : text.flatMap (fun c => lessOnly (.char c)) = [] :=
    List.flatMap_eq_nil_iff.mpr fun _ _ => rfl
  induction h with
  | nil => exact seen_nil _
  | last => exact seen_last _
  | @sign c rest hc haccent hless _ ih =>
    rw [seen_sign hf hc haccent hless, ih]
    split <;> rfl
  | accent ha hc hletter _ _ ih =>
    rw [seen_accent hf ha hc hletter, ih, accentedPieces]
    split <;> rfl
  | named hname _ hend hspace _ ih => rw [seen_named hf hname hend hspace, ih, hchars]; rfl
  | symbol hname _ hsymbol _ ih => rw [seen_symbol hf hname hsymbol, ih, hchars]; rfl
  | hyphens n hhead _ ih => rw [seen_hyphens hf n hhead, ih, hchars]; rfl
  | @char c rest hslash hhyphen _ ih =>
    by_cases hhidden : c ∈ ['{', '}', '$']
    · rw [seen_hidden hf hhidden, ih]
    by_cases htilde : c = '~'
    · rw [htilde, seen_tilde hf, ih]
      rfl
    · rw [seen_char hf (not_mem_specials hslash hhidden htilde hhyphen), ih]
      rfl

/-- **The plain text of a value with ordinary commands** is its visible text. -/
theorem Ordinary.plainChars_convert (h : Ordinary p q s) :
    Markup.plainChars (convert [] s) = shown s := by
  have hspell : spell (pieces [] s) = convert [] s := spell_pieces [] s
  have hnot : ¬ SpellsTag (pieces [] s) := by
    rintro ⟨before, after, heq, -⟩
    have hmem : Piece.less ∈ seen lessOnly s := by
      refine List.mem_flatMap.mpr ⟨.less, ?_, by decide⟩
      rw [heq]
      exact List.mem_append_right _ List.mem_cons_self
    rw [h.seen_lessOnly] at hmem
    cases hmem
  have htokens := tokens_spell hnot (m := []) List.not_mem_nil
  rw [List.append_nil, Markup.tokens_nil, List.append_nil, hspell] at htokens
  rw [Markup.plainChars_eq, htokens, told, List.filterMap_flatMap]
  rfl

/-! ## Values in another case -/

variable {k : Casing}

/-- **A name that is steady** leads to one for its text in the other case. -/
structure SteadyName (k : Casing) (name : List Char) : Prop where
  ne_cedilla : name.flatMap k.alone ≠ ['c']
  symbol_eq : (symbolNamed? (name.flatMap k.alone)).map String.toList =
    (symbolNamed? name).map fun text => text.toList.flatMap k.alone

theorem SteadyName.nameText_eq (h : SteadyName k name) :
    nameText (name.flatMap k.alone) = (nameText name).flatMap k.alone := by
  have hsymbol := h.symbol_eq
  rw [nameText, nameText]
  cases hname : symbolNamed? name with
  | none =>
    rw [hname, Option.map_none, Option.map_eq_none_iff] at hsymbol
    rw [hsymbol]
    rfl
  | some text =>
    rw [hname] at hsymbol
    obtain ⟨text', htext', heq⟩ := Option.map_eq_some_iff.mp hsymbol
    rw [htext']
    exact heq

theorem SteadyName.symbolNamed?_eq_none_iff (h : SteadyName k name) :
    symbolNamed? (name.flatMap k.alone) = none ↔ symbolNamed? name = none := by
  have hsymbol := congrArg Option.isNone h.symbol_eq
  rw [Option.isNone_map, Option.isNone_map, Bool.eq_iff_iff, Option.isNone_iff_eq_none,
    Option.isNone_iff_eq_none] at hsymbol
  exact hsymbol

theorem SteadyName.isCommandName (h : SteadyName k name) (hname : IsCommandName name) :
    IsCommandName (name.flatMap k.alone) where
  ne_nil := by
    obtain ⟨c, more, rfl⟩ := List.exists_cons_of_ne_nil hname.ne_nil
    rw [List.flatMap_cons]
    exact List.append_ne_nil_of_left_ne_nil (k.image_ne_nil [] c []) _
  letters := Casing.isAsciiLetter_of_mem_flatMap_alone hname.letters
  ne_cedilla := h.ne_cedilla

/-- **A letter under an accent is steady** if it is written as itself in the other case. -/
structure SteadyAccent (k : Casing) (accent letter : Char) : Prop where
  alone_eq : k.alone accent = [accent]
  accented_eq : accented accent (k.alone letter).head? =
    (accented accent (some letter)).flatMap k.alone

/-- **A value with steady commands.** -/
def IsSteady (k : Casing) (s : List Char) : Prop := Ordinary (SteadyName k) (SteadyAccent k) s

/-- A letter is spelled as it was, in the other case. -/
theorem flatMap_alone_mem_letterSpellings {accent : Char} (hs : s ∈ letterSpellings accent c)
    (hd : k.alone c = [d]) : s.flatMap k.alone ∈ letterSpellings accent d := by
  have hspace : k.alone ' ' = [' '] := Casing.alone_of_isSign (by decide)
  have hopen : k.alone '{' = ['{'] := Casing.alone_of_isSign (by decide)
  have hclose : k.alone '}' = ['}'] := Casing.alone_of_isSign (by decide)
  unfold letterSpellings at hs ⊢
  simp only [List.mem_append, List.mem_cons, List.not_mem_nil, or_false] at hs ⊢
  rcases hs with hbare | rfl | rfl
  · left
    split at hbare
    · cases hbare
    · next hcedilla =>
      rw [List.mem_singleton] at hbare
      subst hbare
      rw [if_neg hcedilla, List.flatMap_singleton, hd, List.mem_singleton]
  · exact .inr (.inl (by simp [hspace, hd]))
  · exact .inr (.inr (by simp [hopen, hclose, hd]))

/-- No letter under an accent is a capital sigma. -/
theorem sigma_not_mem_accented {accent : Char} (hc : Text.isAsciiLetter c = true) :
    'Σ' ∉ accented accent (some c) := by
  have hcomposed : ∀ p ∈ precomposed, 'Σ' ∉ p.2.2.toList := by decide
  have hmark : 'Σ' ≠ combiningMark accent := by
    unfold combiningMark
    split <;> decide
  have hletter : 'Σ' ≠ c := by
    rintro rfl
    exact absurd hc (by decide)
  rw [accented]
  cases hcompose : compose? accent c with
  | none => simp [hletter, hmark]
  | some d =>
    obtain ⟨p, hp, hd⟩ := exists_of_compose? hcompose
    rintro hmem
    exact hcomposed p hp (List.mem_singleton.mp hmem ▸ hd)

/-- Nor is there one in a command that puts an accent on a letter. -/
theorem sigma_not_mem_accent {accent : Char} (ha : isAccent accent = true ∨ accent = 'c')
    (hc : Text.isAsciiLetter c = true) (hs : s ∈ letterSpellings accent c) :
    'Σ' ∉ '\\' :: accent :: s := by
  have haccent : 'Σ' ≠ accent := by
    rintro rfl
    exact absurd ha (by decide)
  have hletter : 'Σ' ≠ c := by
    rintro rfl
    exact absurd hc (by decide)
  have hs : 'Σ' ∉ s := by
    rcases mem_letterSpellings hs with rfl | rfl | rfl <;> simp [hletter]
  simp [haccent, hs]

theorem sigma_not_mem_name (hname : IsCommandName name) : 'Σ' ∉ name := fun hmem =>
  absurd (hname.letters _ hmem) (by decide)

/-- No symbol is a capital sigma. -/
theorem sigma_not_mem_nameText (name : List Char) : 'Σ' ∉ nameText name := by
  have hsymbol {command text : String} (h : symbol? command = some text) : 'Σ' ∉ text.toList := by
    unfold symbol? at h
    split at h <;> cases h <;> decide
  rw [nameText]
  cases hname : symbolNamed? name with
  | none => exact List.not_mem_nil
  | some text => exact hsymbol hname

/-- What a text begins with in the other case. -/
theorem head?_apply (hend : ∀ c ∈ s.head?, IsSign c) (before : List Char) :
    (k.apply before s).head? = s.head? := by
  cases s with
  | nil => rfl
  | cons c s => rw [Casing.apply, k.image_of_isSign (hend c rfl)]; rfl

theorem apply_command (hname : IsCommandName name) (before rest : List Char) :
    k.apply before ('\\' :: (name ++ rest)) =
      '\\' :: (name.flatMap k.alone ++ k.apply (name.reverse ++ '\\' :: before) rest) := by
  rw [Casing.apply, k.image_of_isSign (by decide),
    Casing.apply_append_of_not_mem (sigma_not_mem_name hname)]
  rfl

theorem apply_accent {accent : Char} (ha : isAccent accent = true ∨ accent = 'c')
    (hc : Text.isAsciiLetter c = true) (hs : s ∈ letterSpellings accent c)
    (halone : k.alone accent = [accent]) (before rest : List Char) :
    k.apply before ('\\' :: accent :: (s ++ rest)) = '\\' :: accent ::
      (s.flatMap k.alone ++ k.apply (('\\' :: accent :: s).reverse ++ before) rest) := by
  have happly := Casing.apply_append_of_not_mem (k := k) (sigma_not_mem_accent ha hc hs) before rest
  rw [List.flatMap_cons, List.flatMap_cons, halone, Casing.alone_of_isSign (by decide)] at happly
  exact happly

theorem apply_hyphens (n : Nat) (before rest : List Char) :
    k.apply before (List.replicate n '-' ++ rest) =
      List.replicate n '-' ++ k.apply ((List.replicate n '-').reverse ++ before) rest := by
  have hsign : ∀ c ∈ List.replicate n '-', IsSign c := fun c hc =>
    List.eq_of_mem_replicate hc ▸ by decide
  have hsigma : 'Σ' ∉ List.replicate n '-' := fun hmem => absurd (hsign _ hmem) (by decide)
  rw [Casing.apply_append_of_not_mem hsigma, Casing.flatMap_alone_of_isSign hsign]

theorem Ordinary.append (hs : ∀ d ∈ s, d ≠ '\\' ∧ d ≠ '-') (ht : Ordinary p q t) :
    Ordinary p q (s ++ t) := by
  induction s with
  | nil => exact ht
  | cons d s ih =>
    obtain ⟨⟨hslash, hhyphen⟩, hrest⟩ := List.forall_mem_cons.mp hs
    exact (ih hrest).char hslash hhyphen

/-- What is no sign becomes none. -/
theorem ne_of_mem_image {before after : List Char} {d sign : Char} (hsign : IsSign sign)
    (hc : c ≠ sign) (hd : d ∈ k.image before c after) : d ≠ sign := by
  rintro rfl
  exact hc (k.eq_of_mem_image hd hsign).symm

/-- **Ordinary commands stay ordinary.** -/
theorem Ordinary.apply (h : IsSteady k s) (before : List Char) :
    Ordinary (fun _ => True) (fun _ _ => True) (k.apply before s) := by
  induction h generalizing before with
  | nil => exact .nil
  | last =>
    rw [Casing.apply, k.image_of_isSign (by decide)]
    exact .last
  | @sign c rest hc haccent hless _ ih =>
    rw [Casing.apply, k.image_of_isSign (by decide), Casing.apply, k.image_of_isSign hc]
    exact (ih _).sign hc haccent hless
  | @accent a c letter rest ha hc hletter hsteady _ ih =>
    obtain ⟨d, hd, hdletter⟩ := Casing.exists_alone_of_isAsciiLetter (k := k) hc
    rw [apply_accent ha hc hletter hsteady.alone_eq]
    exact (ih _).accent ha hdletter (flatMap_alone_mem_letterSpellings hletter hd) trivial
  | @named name rest hname hsteady hend hspace _ ih =>
    rw [apply_command hname]
    refine (ih _).named (hsteady.isCommandName hname) trivial ?_ ?_
    · rwa [head?_apply hend]
    · rwa [head?_apply hend, hsteady.symbolNamed?_eq_none_iff]
  | @symbol name rest hname hsteady hsymbol _ ih =>
    rw [apply_command hname, Casing.apply, k.image_of_isSign (by decide)]
    exact (ih _).symbol (hsteady.isCommandName hname) trivial
      (hsteady.symbolNamed?_eq_none_iff.not.mpr hsymbol)
  | @hyphens rest n hhead _ ih =>
    rw [apply_hyphens]
    exact (ih _).hyphens n (Casing.head?_apply_ne (by decide) hhead _)
  | @char c rest hslash hhyphen _ ih =>
    rw [Casing.apply]
    exact (ih _).append fun d hd =>
      ⟨ne_of_mem_image (by decide) hslash hd, ne_of_mem_image (by decide) hhyphen hd⟩

theorem head?_of_append {y z : List Char} (h : ∀ c ∈ (y ++ z).head?, IsSign c) :
    ∀ c ∈ y.head?, IsSign c := by
  cases y with
  | nil => exact fun c hc => nomatch hc
  | cons d y => exact h

theorem head?_ne_of_append {y z : List Char} {c : Char} (h : (y ++ z).head? ≠ some c) :
    y.head? ≠ some c := by
  cases y with
  | nil => exact fun hc => nomatch hc
  | cons d y => exact h

theorem mem_dashes {n : Nat} (h : c ∈ dashes n) : c = '-' ∨ c ∈ Text.marks := by
  unfold dashes at h
  split at h
  · exact .inr (List.mem_singleton.mp h ▸ by decide)
  · exact .inr (List.mem_singleton.mp h ▸ by decide)
  · exact .inl (List.eq_of_mem_replicate h)

theorem sigma_not_mem_dashes (n : Nat) : 'Σ' ∉ dashes n := fun hmem =>
  absurd (mem_dashes hmem) (by decide)

/-- What hyphens stand for stays. -/
theorem flatMap_alone_dashes (n : Nat) : (dashes n).flatMap k.alone = dashes n := by
  refine Casing.flatMap_alone_eq_self fun c hc => ?_
  rcases mem_dashes hc with rfl | hmark
  · exact Casing.alone_of_isSign (by decide)
  · exact k.image_of_mem_marks _ _ hmark

/-- A sign that stands for a text is shown as that text, in either case. -/
theorem shown_apply_sign_iff {before text : List Char} (hc : IsSign c) (ht : 'Σ' ∉ t)
    (htext : t.flatMap k.alone = t) (hread : ∀ m, shown ([c] ++ m) = t ++ shown m)
    (ih : shown (k.apply (c :: before) rest) = k.apply (t.reverse ++ text) (shown rest) ↔
      k.SameSigmas shown (c :: before) (t.reverse ++ text) rest) :
    shown (k.apply before (c :: rest)) = k.apply text (shown (c :: rest)) ↔
      k.SameSigmas shown before text (c :: rest) := by
  have hsigma : 'Σ' ∉ [c] := fun hmem => absurd (List.mem_singleton.mp hmem ▸ hc) (by decide)
  refine Casing.read_apply_append (s := [c]) hsigma ht (seen_nil _) (hread _)
    (fun x _ _ => hread x) ?_ ih
  rw [List.flatMap_singleton, Casing.alone_of_isSign hc, htext]
  exact hread _

/-- A character that begins no command is shown as itself, or is a sign that stands for a text. -/
theorem shown_apply_char_iff {before text : List Char} (hslash : c ≠ '\\') (hhyphen : c ≠ '-')
    (ih : ∀ before text, shown (k.apply before rest) = k.apply text (shown rest) ↔
      k.SameSigmas shown before text rest) :
    shown (k.apply before (c :: rest)) = k.apply text (shown (c :: rest)) ↔
      k.SameSigmas shown before text (c :: rest) := by
  by_cases hhidden : c ∈ ['{', '}', '$']
  · have hall : ∀ c ∈ ['{', '}', '$'], IsSign c := List.all_iff_forall_prop.mp (by decide)
    exact shown_apply_sign_iff (t := []) (hall c hhidden) List.not_mem_nil rfl
      (seen_hidden hidesTags_visible hhidden) (ih _ _)
  by_cases htilde : c = '~'
  · subst htilde
    have hspace : k.alone '\u00a0' = ['\u00a0'] := k.image_of_mem_marks _ _ (by decide)
    refine shown_apply_sign_iff (t := ['\u00a0']) (by decide) (by decide) ?_
      (seen_tilde hidesTags_visible) (ih _ _)
    rw [List.flatMap_singleton, hspace]
  by_cases hsigma : c = 'Σ'
  · subst hsigma
    refine Casing.read_apply_sigma (seen_nil _) (fun d x hd => ?_) (ih _ _)
    refine shown_append_of_ne (s := [d]) (List.forall_mem_singleton.mpr fun hmem => ?_) x
    have hlt := (isSign_of_mem_specials d hmem).1
    omega
  · have hc : c ∉ specials := not_mem_specials hslash hhidden htilde hhyphen
    have hread (m : List Char) : shown ([c] ++ m) = [c] ++ shown m :=
      shown_append_of_ne (List.forall_mem_singleton.mpr hc) m
    refine Casing.read_apply_append (s := [c]) (t := [c]) (by simpa using Ne.symm hsigma)
      (by simpa using Ne.symm hsigma) (seen_nil _) (hread _) (fun x _ _ => hread x) ?_ (ih _ _)
    rw [List.flatMap_singleton]
    -- The character may become another one, but none that is special.
    refine shown_append_of_ne (fun d hd hmem => ?_) _
    exact hc (k.eq_of_mem_image hd (isSign_of_mem_specials d hmem) ▸ hmem)

/-- **A case mapping acts on the visible text** of a value with steady commands, if and only if each
capital sigma becomes the same in it as in the value. -/
theorem shown_apply_iff (h : IsSteady k s) (before text : List Char) :
    shown (k.apply before s) = k.apply text (shown s) ↔ k.SameSigmas shown before text s := by
  have hnil : shown [] = [] := seen_nil _
  have hslash : IsSign '\\' := by decide
  have hsigma {c : Char} (hc : IsSign c) : 'Σ' ≠ c := by
    rintro rfl
    exact absurd hc (by decide)
  -- What stands before differs in the value and in its visible text, and a sigma looks back.
  induction h generalizing before text with
  | nil =>
    rw [Casing.apply, hnil]
    exact iff_of_true rfl Casing.sameSigmas_nil
  | last =>
    have hlast : shown ['\\'] = [] := seen_last _
    rw [Casing.apply, k.image_of_isSign hslash, Casing.apply, List.append_nil, hlast]
    exact iff_of_true rfl (Casing.sameSigmas_of_not_mem (by decide))
  | @sign c rest hc haccent hless _ ih =>
    have hsign : IsSign (signText c) := by
      unfold signText
      split
      · decide
      · exact hc
    refine Casing.read_apply_append (s := ['\\', c]) (t := [signText c])
      (by simpa using hsigma hc) (by simpa using hsigma hsign) hnil
      (shown_sign hc haccent hless rest) (fun x _ _ => shown_sign hc haccent hless x) ?_ (ih _ _)
    rw [Casing.flatMap_alone_of_isSign (by simpa using ⟨hslash, hc⟩),
      Casing.flatMap_alone_of_isSign (by simpa using hsign)]
    exact shown_sign hc haccent hless _
  | @accent a c letter rest ha hc hletter hsteady _ ih =>
    obtain ⟨d, hd, hdletter⟩ := Casing.exists_alone_of_isAsciiLetter (k := k) hc
    have htext : (accented a (some c)).flatMap k.alone = accented a (some d) := by
      rw [← hsteady.accented_eq, hd]
      rfl
    refine Casing.read_apply_append (s := '\\' :: a :: letter) (t := accented a (some c))
      (sigma_not_mem_accent ha hc hletter) (sigma_not_mem_accented hc) hnil
      (shown_accent ha hc hletter rest) (fun x _ _ => shown_accent ha hc hletter x) ?_ (ih _ _)
    rw [List.flatMap_cons, List.flatMap_cons, Casing.alone_of_isSign hslash, hsteady.alone_eq,
      htext]
    exact shown_accent ha hdletter (flatMap_alone_mem_letterSpellings hletter hd) _
  | @named name rest hname hsteady hend hspace _ ih =>
    refine Casing.read_apply_append (s := '\\' :: name) (t := nameText name)
      (by simpa using sigma_not_mem_name hname) (sigma_not_mem_nameText name) hnil
      (shown_named hname hend hspace) ?_ ?_ (ih _ _)
    · rintro x r rfl
      exact shown_named hname (head?_of_append hend) (hspace.imp_right head?_ne_of_append)
    · rw [List.flatMap_cons, Casing.alone_of_isSign hslash, ← hsteady.nameText_eq]
      refine shown_named (hsteady.isCommandName hname) ?_ ?_
      · rwa [head?_apply hend]
      · rw [head?_apply hend]
        exact hspace.imp_left hsteady.symbolNamed?_eq_none_iff.mpr
  | @symbol name rest hname hsteady hsymbol _ ih =>
    have hread {name : List Char} (hname : IsCommandName name)
        (hsymbol : symbolNamed? name ≠ none) (m : List Char) :
        shown (('\\' :: (name ++ [' '])) ++ m) = nameText name ++ shown m := by
      rw [List.cons_append, List.append_assoc]
      exact shown_symbol hname hsymbol m
    have heq : '\\' :: (name ++ ' ' :: rest) = ('\\' :: (name ++ [' '])) ++ rest := by simp
    rw [heq]
    refine Casing.read_apply_append (t := nameText name)
      (by simpa using sigma_not_mem_name hname) (sigma_not_mem_nameText name) hnil
      (hread hname hsymbol rest) (fun x _ _ => hread hname hsymbol x) ?_ (ih _ _)
    rw [List.flatMap_cons, List.flatMap_append, List.flatMap_singleton,
      Casing.alone_of_isSign hslash, Casing.alone_of_isSign (by decide), ← hsteady.nameText_eq]
    exact hread (hsteady.isCommandName hname) (hsteady.symbolNamed?_eq_none_iff.not.mpr hsymbol) _
  | @hyphens rest n hhead _ ih =>
    have hsign : ∀ c ∈ List.replicate (n + 1) '-', IsSign c := fun c hc =>
      List.eq_of_mem_replicate hc ▸ by decide
    refine Casing.read_apply_append (t := dashes (n + 1))
      (fun hmem => absurd (hsign _ hmem) (by decide)) (sigma_not_mem_dashes _) hnil
      (shown_hyphens n hhead) ?_ ?_ (ih _ _)
    · rintro x r rfl
      exact shown_hyphens n (head?_ne_of_append hhead)
    · rw [Casing.flatMap_alone_of_isSign hsign, flatMap_alone_dashes]
      exact shown_hyphens n (Casing.head?_apply_ne (by decide) hhead _)
  | char hslash hhyphen _ ih => exact shown_apply_char_iff hslash hhyphen ih

end DocCite.Latex
