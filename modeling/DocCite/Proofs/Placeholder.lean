import DocCite.Placeholder

/-!
# Texts with their placeholders replaced

The placeholders of a text stand one behind the other (`along_findAll`). They are replaced by other
texts with all else left as it is (`replaceFrom`), or so that a space follows on each replaced one,
typed where there is none (`spaceFrom`). Both are the same up to characters that do not count where
a space follows on every placeholder already, and only there (`filter_spaceFrom_eq_iff`).
-/

namespace DocCite.Placeholder

variable {s : List Char} {f : Placeholder → List Char} {limit place place' : Nat} {p : Placeholder}
  {ps : List Placeholder}

/-! ## Placeholders along a text -/

/-- **Placeholders one behind the other**, from a place on and up to another one. -/
inductive Along (limit : Nat) : Nat → List Placeholder → Prop
  | nil {place : Nat} : place ≤ limit → Along limit place []
  | cons {place : Nat} {p : Placeholder} {rest : List Placeholder} :
      place ≤ p.start → p.start < p.stop → Along limit p.stop rest → Along limit place (p :: rest)

theorem Along.le (h : Along limit place ps) : place ≤ limit := by
  induction h with
  | nil hle => exact hle
  | cons hstart hstop _ ih => omega

theorem Along.mono (h : Along limit place ps) (hle : place' ≤ place) : Along limit place' ps := by
  cases h with
  | nil hlimit => exact .nil (Nat.le_trans hle hlimit)
  | cons hstart hstop hrest => exact .cons (Nat.le_trans hle hstart) hstop hrest

theorem findFrom_of_read? {body : Body} {rest : List Char} (h : read? s = some (body, rest)) :
    findFrom place s =
      if body.keyList.isEmpty then findFrom (place + (s.length - rest.length)) rest
      else ⟨place, place + (s.length - rest.length), body.kind, body.keyList, body.info?⟩ ::
        findFrom (place + (s.length - rest.length)) rest := by
  rw [findFrom]
  split
  · next body' rest' h' =>
    rw [h, Option.some.injEq, Prod.mk.injEq] at h'
    obtain ⟨rfl, rfl⟩ := h'
    rfl
  · next h' => rw [h] at h'; cases h'

theorem findFrom_of_read?_eq_none (h : read? s = none) :
    findFrom place s =
      match s with
      | [] => []
      | _ :: rest => findFrom (place + 1) rest := by
  rw [findFrom]
  split
  · next h' => rw [h] at h'; cases h'
  · rfl

/-- Reading on from a place finds placeholders behind it. -/
theorem along_findFrom (place : Nat) (s : List Char) :
    Along (place + s.length) place (findFrom place s) := by
  induction place, s using findFrom.induct with
  | case1 place s body rest hread stop hempty ih =>
    have hlength : rest.length < s.length := length_of_read? hread
    have hend : stop + rest.length = place + s.length := by omega
    rw [findFrom_of_read? hread, if_pos hempty]
    exact (hend ▸ ih).mono (Nat.le_add_right _ _)
  | case2 place s body rest hread stop hkeys ih =>
    have hlength : rest.length < s.length := length_of_read? hread
    have hend : stop + rest.length = place + s.length := by omega
    rw [findFrom_of_read? hread, if_neg hkeys]
    exact .cons (Nat.le_refl _) (by simp only; omega) (hend ▸ ih)
  | case3 place hread =>
    rw [findFrom_of_read?_eq_none hread]
    exact .nil (Nat.le_refl _)
  | case4 place c rest hread ih =>
    have hend : place + 1 + rest.length = place + (c :: rest).length := by
      rw [List.length_cons]
      omega
    rw [findFrom_of_read?_eq_none hread]
    exact (hend ▸ ih).mono (Nat.le_add_right _ _)

/-- **The placeholders of a text stand one behind the other.** -/
theorem along_findAll (text : String) : Along text.toList.length 0 (findAll text) := by
  have hall := along_findFrom 0 text.toList
  rwa [Nat.zero_add] at hall

/-! ## Replaced placeholders -/

/-- A text from a place on, with other texts in the place of its placeholders. -/
def replaceFrom (s : List Char) (f : Placeholder → List Char) : Nat → List Placeholder → List Char
  | place, [] => s.drop place
  | place, p :: rest => (s.take p.start).drop place ++ f p ++ replaceFrom s f p.stop rest

/-- **A text with other texts in the place of its placeholders**, and all else as it is. -/
def replaceAll (f : Placeholder → List Char) (text : String) : String :=
  String.ofList (replaceFrom text.toList f 0 (findAll text))

/-- A text that starts with a space: the one that is there or one typed before it. -/
def spaced (s : List Char) : List Char := if s.head? = some ' ' then s else ' ' :: s

/-- A text from a place on, with other texts in the place of its placeholders and a space after
each of them. -/
def spaceFrom (s : List Char) (f : Placeholder → List Char) : Nat → List Placeholder → List Char
  | place, [] => s.drop place
  | place, p :: rest => (s.take p.start).drop place ++ f p ++ spaced (spaceFrom s f p.stop rest)

@[simp] theorem head?_spaced (s : List Char) : (spaced s).head? = some ' ' := by
  unfold spaced
  split
  · assumption
  · rfl

/-- What is between two places is read in two parts. -/
theorem drop_take_append {a b c : Nat} (hab : a ≤ b) (hbc : b ≤ c) (hb : b ≤ s.length) :
    (s.take c).drop a = (s.take b).drop a ++ (s.take c).drop b := by
  have htake : (s.take c).take b = s.take b := by rw [List.take_take, Nat.min_eq_left hbc]
  have hlength : a ≤ (s.take b).length := by rwa [List.length_take_of_le hb]
  rw [← List.drop_append_of_le_length hlength, ← htake, List.take_append_drop]

/-- Up to the first placeholder the text is as it was. -/
theorem spaceFrom_eq_append (h : Along s.length place' ps) (hle : place ≤ place') :
    spaceFrom s f place ps = (s.take place').drop place ++ spaceFrom s f place' ps := by
  have hlimit := h.le
  cases h with
  | nil _ =>
    have hall := drop_take_append (s := s) (c := s.length) hle hlimit hlimit
    rwa [List.take_length] at hall
  | cons hstart _ _ =>
    rw [spaceFrom, spaceFrom, drop_take_append hle hstart hlimit]
    simp only [List.append_assoc]

/-! ## Spaces after placeholders -/

/-- Whether a space follows on a placeholder, given the ones behind it: in the text, or at the
start of what replaces the one that stands there. What is empty is replaced with its space. -/
def SpaceFollows (s : List Char) (f : Placeholder → List Char) (p : Placeholder)
    (after : List Placeholder) : Prop :=
  match after with
  | [] => s[p.stop]? = some ' '
  | q :: _ => if q.start = p.stop then (f q).head?.getD ' ' = ' ' else s[p.stop]? = some ' '

theorem head?_spaceFrom_iff (h : Along s.length p.stop ps) :
    (spaceFrom s f p.stop ps).head? = some ' ' ↔ SpaceFollows s f p ps := by
  cases h with
  | nil hle => rw [spaceFrom, List.head?_drop, SpaceFollows]
  | @cons _ q rest hstart hstop hrest =>
    have hlimit := hrest.le
    rw [spaceFrom, SpaceFollows, List.append_assoc]
    split
    · next heq =>
      rw [heq, List.drop_take_self, List.nil_append, List.head?_append, head?_spaced]
      cases (f q).head? <;> simp
    · next hne =>
      have hlt : p.stop < q.start := Nat.lt_of_le_of_ne hstart (Ne.symm hne)
      rw [List.head?_append, List.head?_drop, List.getElem?_take_of_lt hlt,
        List.getElem?_eq_getElem (by omega), Option.some_or]

/-- Each placeholder with those behind it. -/
theorem forall_split_cons_iff {P : Placeholder → List Placeholder → Prop} :
    (∀ before q after, p :: ps = before ++ q :: after → P q after) ↔
      P p ps ∧ ∀ before q after, ps = before ++ q :: after → P q after := by
  constructor
  · intro h
    exact ⟨h [] p ps rfl, fun before q after hsplit =>
      h (p :: before) q after (congrArg (List.cons p) hsplit)⟩
  · rintro ⟨hp, hrest⟩ before q after hsplit
    cases before with
    | nil =>
      obtain ⟨rfl, rfl⟩ := List.cons.inj hsplit
      exact hp
    | cons r before => exact hrest before q after (List.cons.inj hsplit).2

section Counting

/-! Some characters of the texts that replace placeholders do not count. -/

variable {counts : Char → Bool} (hs : ∀ c ∈ s, counts c = true) (hspace : counts ' ' = true)

include hs

/-- What is left of the text counts. -/
theorem filter_spaceFrom_nil (place : Nat) :
    (spaceFrom s f place []).filter counts = s.drop place :=
  List.filter_eq_self.mpr fun c hc => hs c (List.mem_of_mem_drop hc)

theorem filter_spaceFrom_cons (place : Nat) :
    (spaceFrom s f place (p :: ps)).filter counts =
      (s.take p.start).drop place ++ (f p).filter counts ++
        (spaced (spaceFrom s f p.stop ps)).filter counts := by
  have hbetween : ((s.take p.start).drop place).filter counts = (s.take p.start).drop place :=
    List.filter_eq_self.mpr fun c hc => hs c (List.mem_of_mem_take (List.mem_of_mem_drop hc))
  rw [spaceFrom, List.filter_append, List.filter_append, hbetween]

include hspace

/-- Spaces only make the text longer. -/
theorem length_replaceFrom_le :
    (replaceFrom s (fun p => (f p).filter counts) place ps).length ≤
      ((spaceFrom s f place ps).filter counts).length := by
  induction ps generalizing place with
  | nil => exact Nat.le_of_eq (congrArg List.length (filter_spaceFrom_nil hs place).symm)
  | cons p ps ih =>
    have hrest : ((spaceFrom s f p.stop ps).filter counts).length ≤
        ((spaced (spaceFrom s f p.stop ps)).filter counts).length := by
      unfold spaced
      split
      · exact Nat.le_refl _
      · rw [List.filter_cons_of_pos hspace]
        exact Nat.le_succ _
    simp only [filter_spaceFrom_cons hs, replaceFrom, List.length_append]
    exact Nat.add_le_add_left (Nat.le_trans ih hrest) _

/-- **Nothing is typed just when a space follows on every placeholder.** -/
theorem filter_spaceFrom_eq_iff (h : Along s.length place ps) :
    (spaceFrom s f place ps).filter counts =
        replaceFrom s (fun p => (f p).filter counts) place ps ↔
      ∀ before p after, ps = before ++ p :: after → SpaceFollows s f p after := by
  induction h with
  | nil hle =>
    rw [filter_spaceFrom_nil hs, replaceFrom]
    refine iff_of_true rfl fun before p after hsplit => ?_
    cases before <;> cases hsplit
  | @cons place p ps hstart hstop hrest ih =>
    rw [filter_spaceFrom_cons hs, replaceFrom, List.append_cancel_left_eq, forall_split_cons_iff,
      ← head?_spaceFrom_iff hrest, ← ih, spaced]
    split
    · next hfollows => rw [and_iff_right hfollows]
    · next hmissing =>
      refine iff_of_false (fun heq => ?_) fun hboth => hmissing hboth.1
      have hlength := congrArg List.length heq
      have hle : (replaceFrom s (fun p => (f p).filter counts) p.stop ps).length ≤
          ((spaceFrom s f p.stop ps).filter counts).length := length_replaceFrom_le hs hspace
      rw [List.filter_cons_of_pos hspace, List.length_cons] at hlength
      omega

end Counting

end DocCite.Placeholder
