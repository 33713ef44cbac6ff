import DocCite.Proofs.Style.LayoutReading
import Mathlib.Data.Nat.Init
import Mathlib.Logic.Relation

/-!
# Where the reading of a layout stops

A layout is read in rounds, one part or one stray brace at a time. Nested bodies fail and give way
to other readings, but each round leaves an end of the text (`Round.suffix`), and one is possible
everywhere but at the end of the text and before a `\end` that closes nothing
(`not_round_iff`). So that is all that a layout is refused for (`parse_eq_error_iff`).
-/

namespace DocCite.LayoutNode

variable {s rest : List Char} {node : LayoutNode} {nodes : List LayoutNode}

/-! ## What is left is an end of the text -/

theorem eq_append_of_literal {start : List Char} {h : rest.length ≤ s.length}
    (hread : literal start s = some ⟨rest, h⟩) : s = start ++ rest := by
  unfold literal at hread
  split at hread
  · cases hread
  · next after hafter =>
    cases hread
    exact Text.eq_append_of_after? hafter

theorem suffix_of_literal {start : List Char} {h : rest.length ≤ s.length}
    (hread : literal start s = some ⟨rest, h⟩) : rest <:+ s :=
  eq_append_of_literal hread ▸ List.suffix_append start rest

theorem suffix_of_nameUpTo {closing : Char} {name : List Char} {h : rest.length < s.length}
    (hread : nameUpTo closing s = some (name, ⟨rest, h⟩)) : rest <:+ s := by
  have hdrop := List.dropWhile_suffix (l := s) isFieldChar
  unfold nameUpTo at hread
  dsimp only at hread
  split at hread
  · cases hread
  · next c after heq =>
    split at hread
    · cases hread
      exact (List.suffix_cons c rest).trans (heq ▸ hdrop)
    · cases hread

theorem afterFormatter_suffix (s : List Char) : afterFormatter s <:+ s :=
  (List.dropWhile_suffix _).trans ((List.dropWhile_suffix _).trans (List.dropWhile_suffix _))

theorem suffix_of_formatterNames {names : List (List Char)} {h : rest.length < s.length}
    (hread : formatterNames s = some (names, ⟨rest, h⟩)) : rest <:+ s := by
  induction hn : s.length using Nat.strong_induction_on generalizing s names with
  | _ n ih =>
    subst hn
    have hafter := afterFormatter_suffix s
    rw [formatterNames] at hread
    dsimp only at hread
    split at hread
    · cases hread
    · next c inside heq =>
      have hinside : inside <:+ s := (List.suffix_cons c inside).trans (heq ▸ hafter)
      have hshorter : inside.length < s.length := by
        have hle := (heq ▸ hafter).length_le
        simp only [List.length_cons] at hle
        omega
      split at hread
      · cases hread
      · split at hread
        · cases hread
          exact hinside
        · split at hread
          · split at hread
            · next names' after hnames =>
              cases hread
              exact (ih _ hshorter hnames rfl).trans hinside
            · cases hread
          · cases hread

theorem suffix_of_afterBackslash {h : rest.length ≤ s.length}
    (hread : afterBackslash s = some (node, ⟨rest, h⟩)) : rest <:+ s := by
  unfold afterBackslash at hread
  dsimp only at hread
  split at hread
  · cases hread
    exact List.dropWhile_suffix _
  · split at hread
    · next found hfound =>
      cases hread
      unfold escapedChar at hfound
      split at hfound <;> cases hfound <;> exact List.suffix_cons _ _
    · split at hread
      · cases hread
      · cases hread
        exact List.suffix_rfl

/-- What is left stands behind a body that was read inside the text. -/
def IsBehindBody (s rest : List Char) : Prop :=
  ∃ inside body stopped, inside <:+ s ∧ inside.length < s.length ∧
    ReadsMany inside body stopped ∧ rest <:+ stopped

theorem isBehindBody_of_readBlock {h : rest.length < s.length}
    (hread : readBlock s = some (node, ⟨rest, h⟩)) : IsBehindBody s rest := by
  rw [readBlock] at hread
  split at hread
  · cases hread
  next opened hle hopened =>
  split at hread
  · cases hread
  next name inside hlt hname =>
  split at hread
  next body stopped hle' hbody =>
  split at hread
  · cases hread
  next closing hle'' hclosing =>
  split at hread
  · cases hread
  next name' after hlt' hname' =>
  split at hread
  · cases hread
    exact ⟨inside, body, stopped, (suffix_of_nameUpTo hname).trans (suffix_of_literal hopened),
      by omega, ⟨hle', hbody⟩, (suffix_of_nameUpTo hname').trans (suffix_of_literal hclosing)⟩
  · cases hread

theorem isBehindBody_of_readFormat {h : rest.length < s.length}
    (hread : readFormat s = some (node, ⟨rest, h⟩)) : IsBehindBody s rest := by
  rw [readFormat] at hread
  split at hread
  · cases hread
  next opened hle hopened =>
  split at hread
  · cases hread
  next names called hlt hnames =>
  split at hread
  · cases hread
  next inside hle' hinside =>
  split at hread
  next body stopped hle'' hbody =>
  split at hread
  · cases hread
  next after hle''' hafter =>
    cases hread
    exact ⟨inside, body, stopped, (suffix_of_literal hinside).trans
      ((suffix_of_formatterNames hnames).trans (suffix_of_literal hopened)),
      by omega, ⟨hle'', hbody⟩, suffix_of_literal hafter⟩

/-- Parts leave an end of the text if each of them does. -/
theorem ReadsMany.suffix_of_one
    (hone : ∀ t : List Char, t.length ≤ s.length →
      ∀ node after, ReadsOne t node after → after <:+ t)
    (h : ReadsMany s nodes rest) : rest <:+ s := by
  induction nodes generalizing s with
  | nil => exact (readsMany_nil_iff.mp h).2 ▸ List.suffix_rfl
  | cons node nodes ih =>
    obtain ⟨after, hfirst, hmany⟩ := readsMany_cons_iff.mp h
    have hafter : after <:+ s := hone s (Nat.le_refl _) node after hfirst
    exact (ih (fun t ht => hone t (Nat.le_trans ht hafter.length_le)) hmany).trans hafter

/-- **A part leaves an end of the text**, whatever was tried before. -/
theorem ReadsOne.suffix (h : ReadsOne s node rest) : rest <:+ s := by
  -- a body is shorter than the text, so its parts leave ends of it
  induction hn : s.length using Nat.strong_induction_on generalizing s node rest with
  | _ n ih =>
    subst hn
    have hbody {t after : List Char} (ht : t.length < s.length) (h : IsBehindBody t after) :
        after <:+ t := by
      obtain ⟨inside, body, stopped, hinside, hlt, hmany, hafter⟩ := h
      have hstopped : stopped <:+ inside := hmany.suffix_of_one fun u hu node rest hread =>
        ih u.length (by omega) hread rfl
      exact hafter.trans (hstopped.trans hinside)
    obtain ⟨_, hread⟩ := h
    cases s with
    | nil =>
      rw [readOne] at hread
      cases hread
    | cons c tail =>
      have hshorter : tail.length < (c :: tail).length := Nat.lt_succ_self _
      refine List.IsSuffix.trans ?_ (List.suffix_cons c tail)
      rw [readOne] at hread
      -- what a block and a call fail on is read after the backslash alone
      split at hread
      · split at hread
        · next hblock =>
          cases hread
          exact hbody hshorter (isBehindBody_of_readBlock hblock)
        · split at hread
          · next hformat =>
            cases hread
            exact hbody hshorter (isBehindBody_of_readFormat hformat)
          · obtain ⟨⟨node', after, hle⟩, hbackslash, heq⟩ := Option.map_eq_some_iff.mp hread
            cases heq
            exact suffix_of_afterBackslash hbackslash
      · split at hread
        · cases hread
        · cases hread
          exact List.dropWhile_suffix _

/-! ## Where no part is read -/

/-- After a backslash something is read, but for the end of a block. -/
theorem exists_of_afterBackslash_eq_none (h : afterBackslash s = none) :
    ∃ rest, s = "end\x7b".toList ++ rest := by
  unfold afterBackslash at h
  dsimp only at h
  split at h
  · cases h
  · split at h
    · cases h
    · split at h
      · next hend =>
        obtain ⟨rest, hrest⟩ := Option.isSome_iff_exists.mp hend
        exact ⟨rest, Text.eq_append_of_after? hrest⟩
      · cases h

/-- **No part is read** exactly where the layout, a call or a block ends. -/
theorem readOne_eq_none_iff : readOne s = none ↔ Closes s := by
  refine ⟨fun h => ?_, Closes.readOne_eq_none⟩
  rw [readOne.eq_def] at h
  split at h
  · exact .nil
  next c tail =>
  split at h
  · next hslash =>
    subst hslash
    split at h
    · cases h
    · split at h
      · cases h
      · obtain ⟨rest, rfl⟩ := exists_of_afterBackslash_eq_none (Option.map_eq_none_iff.mp h)
        exact .ending rest
  · split at h
    · next hbrace =>
      subst hbrace
      exact .brace tail
    · cases h

/-! ## Rounds -/

/-- **One round** of the reading of a whole layout: a part is read, or a brace that closes nothing
is passed over. -/
inductive Round (s rest : List Char) : Prop
  | part (node : LayoutNode) (h : ReadsOne s node rest)
  | brace (h : s = '}' :: rest)

/-- The rounds of a layout stop before a rest of it, where there is no further one. -/
structure StopsBefore (s rest : List Char) : Prop where
  rounds : Relation.ReflTransGen Round s rest
  last : ∀ after, ¬ Round rest after

theorem Round.suffix (h : Round s rest) : rest <:+ s := by
  cases h with
  | part node h => exact h.suffix
  | brace h => exact h ▸ List.suffix_cons _ _

/-- **There is no round** at the end of the text and before the end of a block, and nowhere else. -/
theorem not_round_iff :
    (∀ rest, ¬ Round s rest) ↔ s = [] ∨ ∃ rest, s = "\\end\x7b".toList ++ rest := by
  constructor
  · intro h
    cases hone : readOne s with
    | some r => exact absurd (.part r.1 ⟨r.2.2, hone⟩) (h r.2.1)
    | none =>
      cases readOne_eq_none_iff.mp hone with
      | nil => exact .inl rfl
      | brace rest => exact absurd (.brace rfl) (h rest)
      | ending rest => exact .inr ⟨rest, rfl⟩
  · intro h rest hround
    have hcloses : Closes s := by
      rcases h with rfl | ⟨after, rfl⟩
      · exact .nil
      · exact .ending after
    cases hround with
    | part node hread =>
      obtain ⟨_, hread⟩ := hread
      rw [hcloses.readOne_eq_none] at hread
      cases hread
    | brace heq =>
      rcases h with rfl | ⟨after, rfl⟩
      · cases heq
      · exact absurd (List.cons.inj heq).1 (by decide)

/-- A round does not change where the reading of the whole layout stops. -/
theorem Round.readTop_eq (h : Round s rest) : (readTop s).2 = (readTop rest).2 := by
  cases h with
  | part node h =>
    obtain ⟨_, hread⟩ := h
    rw [readTop.eq_def s, hread]
  | brace h =>
    subst h
    rw [readTop.eq_def, (Closes.brace rest).readOne_eq_none]
    rfl

/-- Where no round is possible the reading stops. -/
theorem readTop_eq_self (h : ∀ after, ¬ Round s after) : (readTop s).2 = s := by
  rcases not_round_iff.mp h with rfl | ⟨rest, rfl⟩
  · rw [readTop.eq_def, Closes.nil.readOne_eq_none]
  · rw [readTop.eq_def, (Closes.ending rest).readOne_eq_none]
    rfl

/-- **The reading stops** where the rounds do. -/
theorem stopsBefore_iff : StopsBefore s rest ↔ (readTop s).2 = rest := by
  constructor
  · rintro ⟨hrounds, hlast⟩
    induction hrounds using Relation.ReflTransGen.head_induction_on with
    | refl => exact readTop_eq_self hlast
    | head hround _ ih => exact hround.readTop_eq.trans ih
  · rintro rfl
    -- the rest gets shorter in every round
    induction hn : s.length using Nat.strong_induction_on generalizing s with
    | _ n ih =>
      subst hn
      by_cases hround : ∃ after, Round s after
      · obtain ⟨after, hround⟩ := hround
        have hshorter : after.length < s.length := by
          cases hround with
          | part node h => exact h.1
          | brace h => rw [h]; exact Nat.lt_succ_self _
        obtain ⟨hrounds, hlast⟩ := ih after.length hshorter rfl
        rw [hround.readTop_eq]
        exact ⟨.head hround hrounds, hlast⟩
      · have hlast : ∀ after, ¬ Round s after := not_exists.mp hround
        rw [readTop_eq_self hlast]
        exact ⟨.refl, hlast⟩

theorem StopsBefore.suffix (h : StopsBefore s rest) : rest <:+ s := by
  obtain ⟨hrounds, -⟩ := h
  induction hrounds using Relation.ReflTransGen.head_induction_on with
  | refl => exact List.suffix_rfl
  | head hround _ ih => exact ih.trans hround.suffix

end DocCite.LayoutNode

namespace DocCite.Layout

open LayoutNode

/-- A layout is parsed if its rounds get to the end, and otherwise what they stop before is
reported. -/
theorem parse_of_stopsBefore {source : String} {rest : List Char}
    (h : StopsBefore source.toList rest) :
    (rest = [] → ∃ layout, parse source = .ok layout) ∧
      (rest ≠ [] → parse source = .error (report source rest)) := by
  have hstopped := stopsBefore_iff.mp h
  unfold parse
  split
  · next nodes heq =>
    rw [heq] at hstopped
    exact ⟨fun _ => ⟨_, rfl⟩, fun hne => absurd hstopped.symm hne⟩
  · next nodes stopped hne heq =>
    rw [heq] at hstopped
    subst hstopped
    exact ⟨fun hnil => absurd hnil hne, fun _ => rfl⟩

/-- **Only a stray end of a block is an error**: a layout is refused exactly if its rounds stop
before one. A text without any is a layout, whatever is unclosed or malformed in it. -/
theorem parse_eq_error_iff (source : String) :
    ((∃ message, parse source = .error message) ↔
        ∃ before rest, source.toList = before ++ ("\\end\x7b".toList ++ rest) ∧
          StopsBefore source.toList ("\\end\x7b".toList ++ rest)) ∧
      (¬ "\\end\x7b".toList <:+: source.toList → ∃ layout, parse source = .ok layout) := by
  obtain ⟨stopped, hstops⟩ : ∃ stopped, StopsBefore source.toList stopped :=
    ⟨_, stopsBefore_iff.mpr rfl⟩
  obtain ⟨hok, herror⟩ := parse_of_stopsBefore hstops
  obtain ⟨before, hbefore⟩ := hstops.suffix
  rcases not_round_iff.mp hstops.last with rfl | ⟨rest, rfl⟩
  · -- nothing is left, so nothing else can be where the rounds stop
    obtain ⟨layout, hlayout⟩ := hok rfl
    refine ⟨⟨fun ⟨message, hmessage⟩ => ?_, fun ⟨_, rest, _, hother⟩ => ?_⟩,
      fun _ => ⟨layout, hlayout⟩⟩
    · rw [hlayout] at hmessage
      cases hmessage
    · have heq := (stopsBefore_iff.mp hother).symm.trans (stopsBefore_iff.mp hstops)
      cases heq
  · have hmessage := herror (List.append_ne_nil_of_left_ne_nil (by decide) rest)
    refine ⟨⟨fun _ => ⟨before, rest, hbefore.symm, hstops⟩, fun _ => ⟨_, hmessage⟩⟩,
      fun hnot => ?_⟩
    exact absurd ⟨before, rest, by rw [List.append_assoc, hbefore]⟩ hnot

/-- A block that is not closed, a call without its bracket, a brace and a backslash. -/
theorem parse_eq_error_iff_unclosed :
    ¬ "\\end\x7b".toList <:+: "\\begin\x7btitle\x7d\\format[Upper\x7b\x7d\\".toList ∧
      ∃ layout, parse "\\begin\x7btitle\x7d\\format[Upper\x7b\x7d\\" = .ok layout := by
  have hnot : ¬ "\\end\x7b".toList <:+:
      "\\begin\x7btitle\x7d\\format[Upper\x7b\x7d\\".toList :=
    Text.occursIn_iff.not.mp (by decide)
  exact ⟨hnot, (parse_eq_error_iff _).2 hnot⟩

end DocCite.Layout
