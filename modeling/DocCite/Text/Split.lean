/-!
# Cutting texts apart

Splitting at a character, at a piece of text and at line ends. A text cut at a character is its
parts joined by that character again (`join_splitOn`), so cutting loses nothing.
-/

namespace DocCite.Text

/-- The parts of a text between the occurrences of a character; there is always one. -/
def splitOn (sep : Char) : List Char → List (List Char)
  | [] => [[]]
  | c :: rest =>
    if c = sep then [] :: splitOn sep rest
    else
      match splitOn sep rest with
      | [] => [[c]]
      | part :: parts => (c :: part) :: parts

theorem splitOn_ne_nil (sep : Char) (s : List Char) : splitOn sep s ≠ [] := by
  cases s with
  | nil => simp [splitOn]
  | cons c rest =>
    rw [splitOn]
    split
    · simp
    · split <;> simp

/-- Parts joined with a separator between neighbours. -/
def join (sep : List Char) : List (List Char) → List Char
  | [] => []
  | [part] => part
  | part :: parts => part ++ sep ++ join sep parts

theorem join_cons_of_ne_nil (sep part : List Char) {parts : List (List Char)} (h : parts ≠ []) :
    join sep (part :: parts) = part ++ sep ++ join sep parts := by
  cases parts with
  | nil => exact absurd rfl h
  | cons _ _ => rfl

/-- **Cutting loses nothing**: the parts joined by the separator are the text. -/
theorem join_splitOn (sep : Char) (s : List Char) : join [sep] (splitOn sep s) = s := by
  induction s with
  | nil => rfl
  | cons c rest ih =>
    rw [splitOn]
    split
    · next h => rw [join_cons_of_ne_nil _ _ (splitOn_ne_nil sep rest), ih, h]; rfl
    · cases hs : splitOn sep rest with
      | nil => exact absurd hs (splitOn_ne_nil sep rest)
      | cons part parts =>
        rw [hs] at ih
        cases parts with
        | nil => simpa [join] using ih
        | cons _ _ => simpa [join] using ih

/-- The text after a given start, if it starts so. -/
def after? : List Char → List Char → Option (List Char)
  | [], s => some s
  | _ :: _, [] => none
  | p :: ps, c :: s => if p = c then after? ps s else none

theorem length_of_after? {p s rest : List Char} (h : after? p s = some rest) :
    s.length = p.length + rest.length := by
  induction p generalizing s with
  | nil => simp [after?] at h; simp [h]
  | cons a p ih =>
    cases s with
    | nil => simp [after?] at h
    | cons c s =>
      rw [after?] at h
      split at h
      · have := ih h; simp; omega
      · simp at h

/-- The texts before and after the first occurrence of a piece, if there is one. -/
def breakOn? (piece : List Char) : List Char → Option (List Char × List Char)
  | [] => if piece.isEmpty then some ([], []) else none
  | c :: rest =>
    match after? piece (c :: rest) with
    | some tail => some ([], tail)
    | none => (breakOn? piece rest).map fun (before, tail) => (c :: before, tail)

/-- Whether a piece occurs in a text. -/
def occursIn (piece s : List Char) : Bool := (breakOn? piece s).isSome

/-- Cuts a text at the occurrences of a piece; `skip` characters of an occurrence are still to be
passed over, and `part` is the part read so far, in reverse. -/
def cutAtPiece (piece : List Char) (skip : Nat) (part : List Char) : List Char → List (List Char)
  | [] => [part.reverse]
  | c :: rest =>
    match skip with
    | n + 1 => cutAtPiece piece n part rest
    | 0 =>
      if (after? piece (c :: rest)).isSome then
        part.reverse :: cutAtPiece piece (piece.length - 1) [] rest
      else cutAtPiece piece 0 (c :: part) rest

/-- The parts of a text between the occurrences of a piece, from the left and without overlap. -/
def splitOnPiece (piece s : List Char) : List (List Char) :=
  if piece.isEmpty then [s] else cutAtPiece piece 0 [] s

theorem eq_append_of_after? {p s rest : List Char} (h : after? p s = some rest) :
    s = p ++ rest := by
  induction p generalizing s with
  | nil => simpa [after?] using h
  | cons a p ih =>
    cases s with
    | nil => simp [after?] at h
    | cons c s =>
      rw [after?] at h
      split at h
      · next heq => rw [heq, ih h, List.cons_append]
      · simp at h

theorem cutAtPiece_ne_nil (piece : List Char) (skip : Nat) (part s : List Char) :
    cutAtPiece piece skip part s ≠ [] := by
  induction s generalizing skip part with
  | nil => simp [cutAtPiece]
  | cons c rest ih =>
    cases skip with
    | zero =>
      simp only [cutAtPiece]
      split
      · simp
      · exact ih 0 _
    | succ n => exact ih n part

/-- What is cut at a piece is the rest of the text, behind what was read before. -/
theorem join_cutAtPiece {piece : List Char} (hpiece : piece ≠ []) (part : List Char) {skip : Nat}
    {s : List Char} (h : skip ≤ s.length) :
    join piece (cutAtPiece piece skip part s) = part.reverse ++ s.drop skip := by
  induction s generalizing skip part with
  | nil => simp [cutAtPiece, join]
  | cons c rest ih =>
    cases skip with
    | succ n => exact ih part (Nat.le_of_succ_le_succ h)
    | zero =>
      simp only [cutAtPiece]
      split
      · next hfound =>
        obtain ⟨tail, htail⟩ := Option.isSome_iff_exists.mp hfound
        have heq := eq_append_of_after? htail
        cases piece with
        | nil => exact absurd rfl hpiece
        | cons p ps =>
          rw [List.cons_append, List.cons.injEq] at heq
          obtain ⟨rfl, rfl⟩ := heq
          rw [join_cons_of_ne_nil _ _ (cutAtPiece_ne_nil _ _ _ _), ih [] (by simp)]
          simp
      · rw [ih (c :: part) (Nat.zero_le _)]
        simp

/-- **Cutting at a piece loses nothing**: the parts joined by the piece are the text. -/
theorem join_splitOnPiece (piece s : List Char) : join piece (splitOnPiece piece s) = s := by
  unfold splitOnPiece
  split
  · rfl
  · next h =>
    rw [join_cutAtPiece (fun hnil => h (by simp [hnil])) [] (Nat.zero_le _)]
    rfl

/-- The places at which parts end, each followed by a separator of a width; `place` is where the
first part starts. The last part is followed by nothing. -/
def endsOfParts (width : Nat) : Nat → List (List Char) → List Nat
  | _, [] => []
  | _, [_] => []
  | place, part :: rest =>
    (place + part.length) :: endsOfParts width (place + part.length + width) rest

/-- The places of the occurrences of a piece, from the left and without overlap. -/
def occurrences (piece s : List Char) : List Nat :=
  endsOfParts piece.length 0 (splitOnPiece piece s)

theorem endsOfParts_le {sep : List Char} {place i : Nat} {parts : List (List Char)}
    (h : i ∈ endsOfParts sep.length place parts) :
    i + sep.length ≤ place + (join sep parts).length := by
  induction parts generalizing place with
  | nil => simp [endsOfParts] at h
  | cons part rest ih =>
    cases rest with
    | nil => simp [endsOfParts] at h
    | cons next more =>
      rw [join_cons_of_ne_nil _ _ (by simp), List.length_append, List.length_append]
      rw [endsOfParts, List.mem_cons] at h
      · cases h with
        | inl heq => omega
        | inr hmem =>
          have := ih hmem
          omega
      · simp

/-- **An occurrence lies inside the text.** -/
theorem occurrences_le {piece s : List Char} {i : Nat} (h : i ∈ occurrences piece s) :
    i + piece.length ≤ s.length := by
  have hends := endsOfParts_le h
  rwa [Nat.zero_add, join_splitOnPiece] at hends

/-- The text with the occurrences of a piece replaced, from the left and without overlap. -/
def replaceAll (piece new s : List Char) : List Char := join new (splitOnPiece piece s)

/-- A line without the carriage return it may end in. -/
def dropReturn (line : List Char) : List Char :=
  if line.getLast? = some '\r' then line.dropLast else line

/-- The lines of a text. A line end closes a line, so none follows the last one; a carriage
return before a line end belongs to it. -/
def lines (s : List Char) : List (List Char) :=
  let parts := splitOn '\n' s
  let closed := parts.dropLast.map dropReturn
  match parts.getLast? with
  | none => []
  | some [] => closed
  | some last => closed ++ [last]

end DocCite.Text
