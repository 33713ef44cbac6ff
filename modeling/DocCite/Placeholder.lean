import DocCite.Citation.Kind
import DocCite.Text.Blank
import DocCite.Text.Split

/-!
# Placeholders of citations

A text file marks its citations as `[@a; @b | p. 4]`, with `+` before the first `@` for one that
is part of the sentence and `!` for an invisible one. Placeholders are found from the left and do
not overlap.
-/

namespace DocCite

/-- A placeholder in a text: from before the character `start` to before the character `stop`. -/
structure Placeholder where
  start : Nat
  stop : Nat
  kind : CitationKind
  keys : List String
  pageInfo : Option String
  deriving DecidableEq, Repr

namespace Placeholder

/-! ## One placeholder -/

/-- What stands between the brackets of a placeholder. -/
structure Body where
  kind : CitationKind
  /-- The keys with what separates them, from the first `@` on. -/
  keys : List Char
  pageInfo : Option (List Char)
  deriving DecidableEq, Repr

/-- The kind that a sign stands for, and the text after it. -/
def readSign : List Char → CitationKind × List Char
  | '+' :: rest => (.inText, rest)
  | '!' :: rest => (.invisible, rest)
  | s => (.parenthetical, s)

theorem length_readSign_le (s : List Char) : (readSign s).2.length ≤ s.length := by
  unfold readSign
  split <;> simp

/-- The page info up to the closing bracket, and the text after it. -/
def readEnd : List Char → Option (Option (List Char) × List Char)
  | ']' :: rest => some (none, rest)
  | '|' :: rest =>
    match rest.dropWhile (· ≠ ']') with
    | [] => none
    | _ :: after => some (some (rest.takeWhile (· ≠ ']')), after)
  | _ => none

theorem length_of_readEnd {s : List Char} {r : Option (List Char) × List Char}
    (h : readEnd s = some r) : r.2.length < s.length := by
  unfold readEnd at h
  split at h
  · simp only [Option.some.injEq] at h; subst h; simp
  · next rest =>
    split at h
    · simp at h
    · next c after heq =>
      simp only [Option.some.injEq] at h
      subst h
      have hle : (rest.dropWhile (· ≠ ']')).length ≤ rest.length :=
        (List.dropWhile_sublist _).length_le
      rw [heq] at hle
      simp only [List.length_cons] at hle ⊢
      omega
  · simp at h

/-- Whether a character can be part of the keys. -/
def isKeyChar (c : Char) : Bool := c ≠ ']' && c ≠ '|'

/-- The placeholder that a text starts with, and the text after it. -/
def read? : List Char → Option (Body × List Char)
  | '[' :: s =>
    match (readSign s).2 with
    | '@' :: t =>
      if (t.takeWhile isKeyChar).isEmpty then none
      else
        (readEnd (t.dropWhile isKeyChar)).map fun r =>
          (⟨(readSign s).1, '@' :: t.takeWhile isKeyChar, r.1⟩, r.2)
    | _ => none
  | _ => none

theorem length_of_read? {s : List Char} {r : Body × List Char} (h : read? s = some r) :
    r.2.length < s.length := by
  unfold read? at h
  split at h
  · next s =>
    have hsign := length_readSign_le s
    split at h
    · next t heq =>
      split at h
      · simp at h
      · obtain ⟨e, he, rfl⟩ := Option.map_eq_some_iff.1 h
        have hend := length_of_readEnd he
        have hle : (t.dropWhile isKeyChar).length ≤ t.length :=
          (List.dropWhile_sublist _).length_le
        rw [heq] at hsign
        simp only [List.length_cons] at hsign ⊢
        omega
    · simp at h
  · simp at h

/-- The keys between semicolons, trimmed, and without the `@` before them. Empty ones are left
out. -/
def Body.keyList (b : Body) : List String :=
  (((Text.splitOn ';' b.keys).map fun part => (Text.trim part).dropWhile (· = '@')).filter
    fun key => !key.isEmpty).map String.ofList

/-- The page info, trimmed; none if it is blank. -/
def Body.info? (b : Body) : Option String := (b.pageInfo.map String.ofList).bind trimmed?

/-! ## All placeholders -/

/-- The placeholders of a text that starts at a place; those without keys are passed over. -/
def findFrom (place : Nat) (s : List Char) : List Placeholder :=
  match _found : read? s with
  | some (body, rest) =>
    let stop := place + (s.length - rest.length)
    let later := findFrom stop rest
    if body.keyList.isEmpty then later
    else ⟨place, stop, body.kind, body.keyList, body.info?⟩ :: later
  | none =>
    match s with
    | [] => []
    | _ :: rest => findFrom (place + 1) rest
termination_by s.length
decreasing_by
  · exact length_of_read? _found
  · simp

/-- The placeholders of a text, in order. -/
def findAll (text : String) : List Placeholder := findFrom 0 text.toList

end Placeholder

end DocCite
