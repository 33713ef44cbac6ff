import DocCite.Proofs.Placeholder
import DocCite.Proofs.Text.Pieces
import DocCite.Proofs.Text.Trimming
import Mathlib.Data.List.Forall2

/-!
# Matches of placeholders

What a placeholder is spelled as is read, and nothing else (`read?_eq_some_iff`). So walking a text
finds its leftmost matches that do not overlap, of which there is one list only
(`LeftmostMatches.unique`), and the placeholders are what these matches say, those without keys
left out (`findAll_matches`).
-/

namespace DocCite.Placeholder

variable {s rest : List Char} {b : Body} {place : Nat}

/-! ## How placeholders are spelled -/

/-- The sign of a kind. -/
def sign : CitationKind → List Char
  | .parenthetical => []
  | .inText => ['+']
  | .invisible => ['!']

/-- The page info behind its bar, if there is one. -/
def barred : Option (List Char) → List Char
  | none => []
  | some page => '|' :: page

namespace Body

/-- What a placeholder is spelled as. -/
def spelled (b : Body) : List Char :=
  '[' :: (sign b.kind ++ b.keys ++ barred b.pageInfo ++ [']'])

/-- **The parts of a placeholder**: keys are an `@` and at least one more character, neither they
nor the page info close the brackets, and keys end at a bar. -/
structure IsWellFormed (b : Body) : Prop where
  exists_keys : ∃ keys, keys ≠ [] ∧ b.keys = '@' :: keys
  keys_open : ∀ c ∈ b.keys, c ≠ ']' ∧ c ≠ '|'
  page_open : ∀ page ∈ b.pageInfo, ']' ∉ page

end Body

theorem readSign_sign (kind : CitationKind) (s : List Char) :
    readSign (sign kind ++ '@' :: s) = (kind, '@' :: s) := by
  cases kind <;> rfl

theorem sign_append_of_readSign {kind : CitationKind} (h : readSign s = (kind, rest)) :
    s = sign kind ++ rest := by
  unfold readSign at h
  split at h <;> cases h <;> rfl

/-- The end of a placeholder is read as it is spelled. -/
theorem readEnd_eq_some_iff {info : Option (List Char)} :
    readEnd s = some (info, rest) ↔
      (∀ page ∈ info, ']' ∉ page) ∧ s = barred info ++ ']' :: rest := by
  constructor
  · intro h
    unfold readEnd at h
    split at h
    · cases h
      exact ⟨fun _ hpage => absurd hpage (Option.not_mem_none _), rfl⟩
    · next page =>
      split at h
      · cases h
      · next c after hafter =>
        cases h
        -- what stops the reading of the page info is the bracket
        have hstop : c = ']' := by
          have hhead := List.head?_dropWhile_not (· ≠ ']') page
          rw [hafter] at hhead
          simpa using hhead
        subst hstop
        refine ⟨fun info hinfo => ?_, ?_⟩
        · rw [Option.mem_some_iff] at hinfo
          subst hinfo
          exact fun hmem => by simpa using List.mem_takeWhile_imp hmem
        · rw [barred, List.cons_append, ← hafter, List.takeWhile_append_dropWhile]
    · cases h
  · rintro ⟨hopen, rfl⟩
    cases info with
    | none => rfl
    | some page =>
      have hopen' : ∀ c ∈ page, decide (c ≠ ']') = true := fun c hc =>
        decide_eq_true fun heq => hopen page rfl (heq ▸ hc)
      rw [barred, List.cons_append, readEnd, List.dropWhile_append_of_pos hopen',
        List.takeWhile_append_of_pos hopen']
      simp

/-- What a placeholder is spelled as, with any text behind it. -/
theorem spelled_append (b : Body) (rest : List Char) :
    b.spelled ++ rest = '[' :: (sign b.kind ++ (b.keys ++ (barred b.pageInfo ++ ']' :: rest))) := by
  simp only [Body.spelled, List.cons_append, List.append_assoc, List.nil_append]

/-- **What a placeholder is spelled as is read**, and nothing else is. -/
theorem read?_eq_some_iff : read? s = some (b, rest) ↔ b.IsWellFormed ∧ s = b.spelled ++ rest := by
  constructor
  · intro h
    unfold read? at h
    split at h
    · next s =>
      split at h
      · next t ht =>
        split at h
        · cases h
        · next hne =>
          obtain ⟨⟨info, after⟩, hend, hb⟩ := Option.map_eq_some_iff.mp h
          cases hb
          obtain ⟨hopen, hdrop⟩ := readEnd_eq_some_iff.mp hend
          have hsign : s = sign (readSign s).1 ++ '@' :: t :=
            sign_append_of_readSign (Prod.ext rfl ht)
          have hkeys : t = t.takeWhile isKeyChar ++ (barred info ++ ']' :: after) := by
            rw [← hdrop, List.takeWhile_append_dropWhile]
          refine ⟨⟨⟨_, List.isEmpty_iff.not.mp hne, rfl⟩, ?_, hopen⟩, ?_⟩
          · refine List.forall_mem_cons.mpr ⟨by decide, fun c hc => ?_⟩
            have hkey : isKeyChar c = true := List.mem_takeWhile_imp hc
            simpa [isKeyChar] using hkey
          · rw [spelled_append, List.cons_append, ← hkeys, ← hsign]
      · cases h
    · cases h
  · rintro ⟨⟨⟨keys, hne, hkeys⟩, hopen, hpage⟩, rfl⟩
    obtain ⟨kind, _, info⟩ := b
    subst hkeys
    have hkey : ∀ c ∈ keys, isKeyChar c = true := fun c hc => by
      simpa [isKeyChar] using hopen c (List.mem_cons_of_mem _ hc)
    -- keys end at the bar or at the bracket
    have hbehind : ∃ c more, barred info ++ ']' :: rest = c :: more ∧ isKeyChar c = false := by
      cases info with
      | none => exact ⟨']', rest, rfl, rfl⟩
      | some page => exact ⟨'|', _, rfl, rfl⟩
    obtain ⟨c, more, hmore, hc⟩ := hbehind
    have hend : readEnd (c :: more) = some (info, rest) :=
      readEnd_eq_some_iff.mpr ⟨hpage, hmore.symm⟩
    have htake : (keys ++ c :: more).takeWhile isKeyChar = keys := by
      rw [List.takeWhile_append_of_pos hkey, List.takeWhile_cons_of_neg (by simp [hc]),
        List.append_nil]
    have hdrop : (keys ++ c :: more).dropWhile isKeyChar = c :: more := by
      rw [List.dropWhile_append_of_pos hkey, List.dropWhile_cons_of_neg (by simp [hc])]
    rw [spelled_append, hmore, List.cons_append, read?, readSign_sign]
    simp only [htake, hdrop, hend, List.isEmpty_iff, if_neg hne, Option.map_some]

/-! ## Matches in a text -/

/-- A match of a text: where it starts and what it consists of. -/
structure Match where
  start : Nat
  body : Body

/-- Where a match ends. -/
def Match.stop (m : Match) : Nat := m.start + m.body.spelled.length

/-- **A match at a place** of a text: a placeholder is spelled there. -/
structure MatchesAt (s : List Char) (m : Match) : Prop where
  wellFormed : m.body.IsWellFormed
  spelled : m.body.spelled <+: s.drop m.start

/-- **The leftmost matches that do not overlap**, from a place of a text on: the first one is where
no other match starts before it, and the next ones are found in the same way from its end on. -/
inductive LeftmostMatches (s : List Char) : Nat → List Match → Prop
  | nil {place : Nat} :
      (∀ m, place ≤ m.start → ¬ MatchesAt s m) → LeftmostMatches s place []
  | cons {place : Nat} {m : Match} {later : List Match} :
      place ≤ m.start → MatchesAt s m →
      (∀ m', place ≤ m'.start → m'.start < m.start → ¬ MatchesAt s m') →
      LeftmostMatches s m.stop later → LeftmostMatches s place (m :: later)

theorem matchesAt_iff {m : Match} :
    MatchesAt s m ↔ ∃ rest, read? (s.drop m.start) = some (m.body, rest) := by
  constructor
  · rintro ⟨hwell, rest, hrest⟩
    exact ⟨rest, read?_eq_some_iff.mpr ⟨hwell, hrest.symm⟩⟩
  · rintro ⟨rest, hrest⟩
    obtain ⟨hwell, heq⟩ := read?_eq_some_iff.mp hrest
    exact ⟨hwell, rest, heq.symm⟩

/-- At one place there is one match. -/
theorem MatchesAt.unique {m m' : Match} (h : MatchesAt s m) (h' : MatchesAt s m')
    (hstart : m.start = m'.start) : m = m' := by
  obtain ⟨rest, hrest⟩ := matchesAt_iff.mp h
  obtain ⟨rest', hrest'⟩ := matchesAt_iff.mp h'
  rw [hstart, hrest', Option.some.injEq, Prod.mk.injEq] at hrest
  cases m
  cases m'
  cases hstart
  exact congrArg (Match.mk _) hrest.1.symm

/-- **There is one list of leftmost matches.** -/
theorem LeftmostMatches.unique {ms ms' : List Match} (h : LeftmostMatches s place ms)
    (h' : LeftmostMatches s place ms') : ms = ms' := by
  induction h generalizing ms' with
  | nil hnone =>
    cases h' with
    | nil => rfl
    | cons hle hmatch => exact absurd hmatch (hnone _ hle)
  | cons hle hmatch hbefore hlater ih =>
    cases h' with
    | nil hnone => exact absurd hmatch (hnone _ hle)
    | @cons _ m' later' hle' hmatch' hbefore' hlater' =>
      -- neither of the two first matches starts before the other one
      have hstart := Nat.le_antisymm
        (Nat.le_of_not_lt fun hlt => hbefore _ hle' hlt hmatch')
        (Nat.le_of_not_lt fun hlt => hbefore' _ hle hlt hmatch)
      obtain rfl := hmatch.unique hmatch' hstart
      rw [ih hlater']

/-- Where no match starts the search goes on. -/
theorem LeftmostMatches.of_succ {ms : List Match} (h : LeftmostMatches s (place + 1) ms)
    (hnone : ∀ m, m.start = place → ¬ MatchesAt s m) : LeftmostMatches s place ms := by
  have hskip {limit : Nat} (hlater : ∀ m : Match, place + 1 ≤ m.start → m.start < limit →
      ¬ MatchesAt s m) (m : Match) (hle : place ≤ m.start) (hlt : m.start < limit) :
      ¬ MatchesAt s m := by
    rcases Nat.eq_or_lt_of_le hle with heq | hplace
    · exact hnone m heq.symm
    · exact hlater m hplace hlt
  cases h with
  | nil h => exact .nil fun m hle => hskip (fun m' hle' _ => h m' hle') m hle (Nat.lt_succ_self _)
  | cons hle hmatch hbefore hlater =>
    exact .cons (Nat.le_of_succ_le hle) hmatch (hskip hbefore) hlater

/-! ## What a match says -/

/-- A key that a part of the keys lists: what is left of the part without the blanks around it and
without the `@`s that it then starts with. -/
def IsKeyOf (part key : List Char) : Prop :=
  (∃ n, Text.TrimsTo part (List.replicate n '@' ++ key)) ∧ key.head? ≠ some '@'

/-- **The keys that a text lists**: one for each part between its semicolons, the empty ones left
out. -/
def ListsKeys (text : List Char) (keys : List String) : Prop :=
  ∃ parts found : List (List Char), parts ≠ [] ∧ Text.join [';'] parts = text ∧
    (∀ part ∈ parts, ';' ∉ part) ∧ List.Forall₂ IsKeyOf parts found ∧
    keys = (found.filter (· ≠ [])).map String.ofList

/-- **The page info of a placeholder**: the text behind the bar without the blanks around it, unless
there is no bar or nothing is left. -/
def IsPageInfo (page : Option (List Char)) (info : Option String) : Prop :=
  ∀ text, info = some text ↔ text ≠ "" ∧ ∃ given ∈ page, Text.TrimsTo given text.toList

/-- **What a match says** is the placeholder that it stands for. -/
structure Match.Says (m : Match) (p : Placeholder) : Prop where
  start_eq : p.start = m.start
  stop_eq : p.stop = m.stop
  kind_eq : p.kind = m.body.kind
  listsKeys : ListsKeys m.body.keys p.keys
  isPageInfo : IsPageInfo m.body.pageInfo p.pageInfo

theorem isKeyOf_dropWhile (part : List Char) :
    IsKeyOf part ((Text.trim part).dropWhile (· = '@')) := by
  constructor
  · refine ⟨((Text.trim part).takeWhile (· = '@')).length, Text.trimsTo_iff.mpr ?_⟩
    have hsigns : (Text.trim part).takeWhile (· = '@') =
        List.replicate ((Text.trim part).takeWhile (· = '@')).length '@' :=
      List.eq_replicate_iff.mpr ⟨rfl, fun c hc => by simpa using List.mem_takeWhile_imp hc⟩
    rw [← hsigns, List.takeWhile_append_dropWhile]
  · intro hhead
    have hstop := List.head?_dropWhile_not (· = '@') (Text.trim part)
    rw [hhead] at hstop
    simp at hstop

theorem listsKeys_keyList (b : Body) : ListsKeys b.keys b.keyList := by
  refine ⟨Text.splitOn ';' b.keys, _, Text.splitOn_ne_nil _ _, Text.join_splitOn _ _,
    fun part hpart => (Text.not_mem_of_mem_splitOn hpart).1,
    List.forall₂_map_right_iff.mpr (List.forall₂_same.mpr fun part _ => isKeyOf_dropWhile part), ?_⟩
  rw [Body.keyList]
  refine congrArg (List.map String.ofList) (List.filter_congr fun key _ => ?_)
  cases key <;> rfl

theorem isPageInfo_info? (b : Body) : IsPageInfo b.pageInfo b.info? := by
  intro text
  rw [Body.info?]
  cases b.pageInfo with
  | none => simp
  | some given =>
    have htrimmed : trimmed? (String.ofList given) = some text ↔
        Text.isAllBlank given = false ∧ text.toList = Text.trim given := by
      rw [trimmed?, isBlankText, trimmed, String.toList_ofList]
      by_cases hblank : Text.isAllBlank given = true
      · simp [hblank]
      · rw [if_neg hblank, Option.some.injEq, ← String.toList_inj, String.toList_ofList,
          and_iff_right (eq_false_of_ne_true hblank)]
        exact eq_comm
    have hempty : text = "" ↔ text.toList = [] := by rw [← String.toList_inj, String.toList_empty]
    simp only [Option.map_some, Option.bind_some, htrimmed, Option.mem_some_iff, exists_eq_left',
      Text.trimsTo_iff, ne_eq, hempty, ← Bool.not_eq_true, ← Text.trim_eq_nil_iff_isAllBlank]
    exact and_congr_left fun heq => by rw [heq]

/-! ## Walking the text -/

/-- The placeholder that a match stands for. -/
def Match.placeholder (m : Match) : Placeholder :=
  ⟨m.start, m.stop, m.body.kind, m.body.keyList, m.body.info?⟩

theorem Match.says_placeholder (m : Match) : m.Says m.placeholder :=
  ⟨rfl, rfl, rfl, listsKeys_keyList m.body, isPageInfo_info? m.body⟩

/-- A match that is read where a text is left from a place on ends where the rest begins. -/
theorem stop_of_read? (h : read? (s.drop place) = some (b, rest)) :
    place + ((s.drop place).length - rest.length) = Match.stop ⟨place, b⟩ ∧
      s.drop (Match.stop ⟨place, b⟩) = rest := by
  obtain ⟨-, heq⟩ := read?_eq_some_iff.mp h
  constructor
  · rw [heq, List.length_append, Nat.add_sub_cancel]
    rfl
  · rw [Match.stop, ← List.drop_drop, heq, List.drop_left]

/-- The match at the place is the leftmost one. -/
theorem LeftmostMatches.cons_of_read? {ms : List Match}
    (h : read? (s.drop place) = some (b, rest))
    (hlater : LeftmostMatches s (Match.stop ⟨place, b⟩) ms) :
    LeftmostMatches s place (⟨place, b⟩ :: ms) :=
  .cons (Nat.le_refl _) (matchesAt_iff.mpr ⟨rest, h⟩)
    (fun _ hle hlt => absurd hlt (Nat.not_lt_of_le hle)) hlater

/-- **Walking a text finds its leftmost matches.** -/
theorem exists_leftmostMatches_findFrom (s : List Char) (place : Nat) :
    ∃ ms, LeftmostMatches s place ms ∧ findFrom place (s.drop place) =
      (ms.map Match.placeholder).filter fun p => p.keys ≠ [] := by
  generalize ht : s.drop place = t
  induction place, t using findFrom.induct with
  | case1 place t body rest hread stop hempty ih =>
    subst ht
    obtain ⟨hstop, hrest⟩ : stop = Match.stop ⟨place, body⟩ ∧ _ := stop_of_read? hread
    rw [← hstop] at hrest
    obtain ⟨ms, hms, hlater⟩ := ih hrest
    refine ⟨⟨place, body⟩ :: ms, .cons_of_read? hread (hstop ▸ hms), ?_⟩
    have hnone : body.keyList = [] := List.isEmpty_iff.mp hempty
    rw [findFrom_of_read? hread, if_pos hempty, hlater, List.map_cons,
      List.filter_cons_of_neg (by simp [Match.placeholder, hnone])]
  | case2 place t body rest hread stop hkeys ih =>
    subst ht
    obtain ⟨hstop, hrest⟩ : stop = Match.stop ⟨place, body⟩ ∧ _ := stop_of_read? hread
    rw [← hstop] at hrest
    obtain ⟨ms, hms, hlater⟩ := ih hrest
    refine ⟨⟨place, body⟩ :: ms, .cons_of_read? hread (hstop ▸ hms), ?_⟩
    have hsome : body.keyList ≠ [] := List.isEmpty_iff.not.mp hkeys
    rw [findFrom_of_read? hread, if_neg hkeys, hlater, List.map_cons,
      List.filter_cons_of_pos (by simp [Match.placeholder, hsome])]
    exact congrArg (fun stop => Placeholder.mk place stop _ _ _ :: _) hstop
  | case3 place hread =>
    refine ⟨[], .nil fun m hle hmatch => ?_, ?_⟩
    · obtain ⟨rest, hrest⟩ := matchesAt_iff.mp hmatch
      have hnil : s.drop m.start = [] :=
        List.drop_eq_nil_of_le (Nat.le_trans (List.drop_eq_nil_iff.mp ht) hle)
      rw [hnil, hread] at hrest
      cases hrest
    · rw [findFrom_of_read?_eq_none hread]
      rfl
  | case4 place c rest hread ih =>
    have hrest : s.drop (place + 1) = rest := by
      rw [← List.drop_drop, ht, List.drop_one, List.tail_cons]
    obtain ⟨ms, hms, hlater⟩ := ih hrest
    refine ⟨ms, hms.of_succ fun m hstart hmatch => ?_, ?_⟩
    · obtain ⟨rest', hrest'⟩ := matchesAt_iff.mp hmatch
      rw [hstart, ht, hread] at hrest'
      cases hrest'
    · rw [findFrom_of_read?_eq_none hread]
      exact hlater

/-- **Placeholders are found exactly**: those of a text are what its leftmost matches that do not
overlap say, without those that list no keys. They are one behind the other in the text. -/
theorem findAll_matches (text : String) :
    ∃ ms all, LeftmostMatches text.toList 0 ms ∧
      (∀ ms', LeftmostMatches text.toList 0 ms' → ms' = ms) ∧ List.Forall₂ Match.Says ms all ∧
      findAll text = all.filter (fun p => p.keys ≠ []) ∧
      Along text.toList.length 0 (findAll text) := by
  obtain ⟨ms, hleftmost, hfound⟩ := exists_leftmostMatches_findFrom text.toList 0
  refine ⟨ms, ms.map Match.placeholder, hleftmost, fun ms' h => h.unique hleftmost, ?_, hfound,
    along_findAll text⟩
  exact List.forall₂_map_right_iff.mpr (List.forall₂_same.mpr fun m _ => m.says_placeholder)

end DocCite.Placeholder
