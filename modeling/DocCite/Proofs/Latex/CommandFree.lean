import DocCite.Proofs.Latex.Contained
import Mathlib.Data.List.SplitBy

/-!
# Field values without commands

A value without backslash needs no stack of groups: it is cut where two neighbours are not both
hyphens, and each stretch has a text of its own (`typeset`). Its markup is that text, escaped, so
it is read as that text and nothing of it is formatted (`flat_of_commandFree`). Braces need not
balance, since the groups of such a value owe nothing when they close (`convert_eq_escapeChars`).
-/

namespace DocCite.Latex

variable {s t : List Char} {c : Char} {owed : List (List Char)}

/-! ## The text of a value -/

/-- What a stretch of a value stands for: braces and dollars for nothing, a tilde for a space that
does not break, two and three hyphens for dashes, and all else for itself. -/
def stretchText : List Char → List Char
  | ['{'] | ['}'] | ['$'] => []
  | ['~'] => ['\u00a0']
  | ['-', '-'] => ['\u2013']
  | ['-', '-', '-'] => ['\u2014']
  | stretch => stretch

/-- The stretches of a value: all hyphens that are next to each other, and single characters. -/
def hyphenStretches (s : List Char) : List (List Char) := s.splitBy fun a b => a = '-' ∧ b = '-'

/-- **The text that a value without commands stands for.** -/
def typeset (s : List Char) : List Char := (hyphenStretches s).flatMap stretchText

/-- **Texts are typeset apart** unless hyphens meet. -/
theorem typeset_append (h : s.getLast? ≠ some '-' ∨ t.head? ≠ some '-') :
    typeset (s ++ t) = typeset s ++ typeset t := by
  have hapart : ∀ a ∈ s.getLast?, ∀ b ∈ t.head?, decide (a = '-' ∧ b = '-') = false := by
    rintro a ha b hb
    refine decide_eq_false ?_
    rintro ⟨rfl, rfl⟩
    exact h.elim (fun hlast => hlast ha) fun hhead => hhead hb
  rw [typeset, hyphenStretches, List.splitBy_append hapart, List.flatMap_append]
  rfl

theorem typeset_cons (h : c ≠ '-') (s : List Char) :
    typeset (c :: s) = stretchText [c] ++ typeset s := by
  have hlast : [c].getLast? ≠ some '-' := fun heq => h (Option.some.inj heq)
  have hsingle : typeset [c] = stretchText [c] := List.append_nil _
  rw [← List.singleton_append, typeset_append (.inl hlast), hsingle]

/-- A stretch of hyphens is told by its length. -/
theorem stretchText_replicate (n : ℕ) :
    stretchText (List.replicate (n + 1) '-') = dashes (n + 1) := by
  match n with
  | 0 => rfl
  | 1 => rfl
  | 2 => rfl
  | n + 3 => rfl

theorem typeset_replicate (n : ℕ) :
    typeset (List.replicate (n + 1) '-') = dashes (n + 1) := by
  have hne : List.replicate (n + 1) '-' ≠ [] := List.cons_ne_nil _ _
  have hchain : (List.replicate (n + 1) '-').IsChain fun a b =>
      decide (a = '-' ∧ b = '-') = true := List.isChain_replicate_of_rel _ (by decide)
  rw [typeset, hyphenStretches, List.splitBy_of_isChain hne hchain, List.flatMap_singleton,
    stretchText_replicate]

/-- **Hyphens are typeset together**, up to the next character that is none. -/
theorem typeset_hyphen (rest : List Char) :
    typeset ('-' :: rest) = dashes (1 + (rest.takeWhile (· = '-')).length) ++
      typeset (rest.dropWhile (· = '-')) := by
  have htake : rest.takeWhile (· = '-') =
      List.replicate (rest.takeWhile (· = '-')).length '-' :=
    List.eq_replicate_iff.mpr ⟨rfl, fun c hc => by simpa using List.mem_takeWhile_imp hc⟩
  have hsplit : '-' :: rest = List.replicate ((rest.takeWhile (· = '-')).length + 1) '-' ++
      rest.dropWhile (· = '-') := by
    rw [List.replicate_succ, List.cons_append, ← htake, List.takeWhile_append_dropWhile]
  have hhead : (rest.dropWhile (· = '-')).head? ≠ some '-' := fun heq => by
    have hnot := List.head?_dropWhile_not (· = '-') rest
    rw [heq] at hnot
    exact absurd hnot (by decide)
  rw [hsplit, typeset_append (.inr hhead), typeset_replicate, Nat.add_comm 1]

/-- A character that is no special sign stands for itself. -/
theorem stretchText_singleton (hopen : c ≠ '{') (hclose : c ≠ '}') (hdollar : c ≠ '$')
    (htilde : c ≠ '~') : stretchText [c] = [c] := by
  unfold stretchText
  split <;> simp_all

/-! ## The markup of a value -/

/-- **The converter without commands**: whatever groups are open and whatever braces follow, the
markup is the text, escaped. -/
theorem convert_eq_escapeChars (howed : ∀ text ∈ owed, text = []) (hs : '\\' ∉ s) :
    convert owed s = Markup.escapeChars (typeset s) := by
  induction owed, s using convert.induct with
  | case1 owed =>
    rw [convert, List.flatten_eq_nil_iff.mpr howed]
    rfl
  | case2 owed rest => exact absurd List.mem_cons_self hs
  | case3 owed rest hslash ih =>
    have hgroups : ∀ text ∈ [] :: owed, text = [] := List.forall_mem_cons.mpr ⟨rfl, howed⟩
    rw [convert, if_neg hslash, if_pos rfl, ih hgroups (List.not_mem_of_not_mem_cons hs),
      typeset_cons (by decide)]
    rfl
  | case4 owed rest hslash hopen ih =>
    -- a brace that closes a group writes nothing, as one that closes none
    have hhead : owed.headD [] = [] := by
      cases owed with
      | nil => rfl
      | cons text owed => exact howed text List.mem_cons_self
    have htail : ∀ text ∈ owed.tail, text = [] := fun text htext =>
      howed text (List.mem_of_mem_tail htext)
    rw [convert, if_neg hslash, if_neg hopen, if_pos rfl, hhead,
      ih htail (List.not_mem_of_not_mem_cons hs), typeset_cons (by decide)]
    rfl
  | case5 owed rest hslash hopen hclose ih =>
    rw [convert, if_neg hslash, if_neg hopen, if_neg hclose, if_pos rfl,
      ih howed (List.not_mem_of_not_mem_cons hs), typeset_cons (by decide)]
    rfl
  | case6 owed rest hslash hopen hclose hdollar ih =>
    rw [convert, if_neg hslash, if_neg hopen, if_neg hclose, if_neg hdollar, if_pos rfl,
      ih howed (List.not_mem_of_not_mem_cons hs), typeset_cons (by decide)]
    rfl
  | case7 owed rest hslash hopen hclose hdollar htilde ih =>
    -- the converter goes on behind all hyphens that are next to each other
    have hrest : '\\' ∉ rest.dropWhile (· = '-') := fun hmem =>
      hs (List.mem_cons_of_mem _ ((List.dropWhile_sublist _).mem hmem))
    rw [convert, if_neg hslash, if_neg hopen, if_neg hclose, if_neg hdollar, if_neg htilde,
      if_pos rfl, ih howed hrest, typeset_hyphen, Markup.escapeChars_append, escapeChars_dashes]
  | case8 owed c rest hslash hopen hclose hdollar htilde hdash ih =>
    rw [convert, if_neg hslash, if_neg hopen, if_neg hclose, if_neg hdollar, if_neg htilde,
      if_neg hdash, ih howed (List.not_mem_of_not_mem_cons hs), typeset_cons hdash,
      stretchText_singleton hopen hclose hdollar htilde]
    rfl

/-- The text that a value without commands stands for. -/
def typesetText (value : String) : String := String.ofList (typeset value.toList)

/-- **A value without commands** is converted to its text, whatever braces it has: the markup is the
text, escaped, so it is read as the text, and nothing of it is formatted. -/
theorem flat_of_commandFree {value : String} (h : '\\' ∉ value.toList) :
    toMarkup value = Markup.escape (typesetText value) ∧ toPlain value = typesetText value ∧
      ∀ r ∈ Markup.runs (toMarkup value), r.format = .plain := by
  have hmarkup : toMarkup value = Markup.escape (typesetText value) := by
    rw [toMarkup, convert_eq_escapeChars (List.forall_mem_nil _) h, Markup.escape, typesetText,
      String.toList_ofList]
  have htokens : Markup.tokens (toMarkup value).toList = (typeset value.toList).map .char := by
    have hread := Markup.tokens_escapeChars (typeset value.toList) []
    rw [List.append_nil, Markup.tokens_nil, List.append_nil] at hread
    rw [hmarkup, Markup.escape, typesetText, String.toList_ofList, String.toList_ofList, hread]
  refine ⟨hmarkup, ?_, fun r hr => format_eq_plain_of_mem_runs ?_ hr⟩
  · rw [toPlain, hmarkup, Markup.plain_escape]
  · rw [htokens, Markup.openings_map_char]

/-- Braces that do not balance, hyphens on both sides of one, runs of each kind, signs of markup. -/
def unbalancedValue : String := "\x7d\x7d\x7b\x7bpp. 1--2\x7d--\x7b-\x7d-~$<i>$ a---b&----"

theorem flat_unbalancedValue :
    '\\' ∉ unbalancedValue.toList ∧
      toPlain unbalancedValue = "pp. 1\u20132\u2013--\u00a0<i> a\u2014b&----" ∧
      ∀ r ∈ Markup.runs (toMarkup unbalancedValue), r.format = .plain := by
  have hfree : '\\' ∉ unbalancedValue.toList := by decide
  obtain ⟨-, hplain, hruns⟩ := flat_of_commandFree hfree
  refine ⟨hfree, hplain.trans ?_, hruns⟩
  decide

end DocCite.Latex
