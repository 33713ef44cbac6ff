import DocCite.Proofs.Markup.Written

/-!
# Tags that nest

Tags nest if each closing tag closes the attribute that was opened last (`Nests`). Units whose tags
nest leave every depth as it was (`Nests.after_eq`), so what follows them has the format that it
would have without them.
-/

namespace DocCite.Markup

/-- The attribute that a unit opens. -/
def Token.opened? : Token → Option Attribute
  | opening a => some a
  | _ => none

/-- The attributes that are opened, one after another. -/
def openings (ts : List Token) : List Attribute := ts.filterMap Token.opened?

/-- How many units are tags. -/
def tagCount (ts : List Token) : Nat := ts.countP fun t => t matches .opening _ | .closing _

@[simp] theorem openings_append (ts us : List Token) :
    openings (ts ++ us) = openings ts ++ openings us := List.filterMap_append

@[simp] theorem openings_map_char (s : List Char) : openings (s.map Token.char) = [] := by
  rw [openings, List.filterMap_map]
  exact List.filterMap_eq_nil_iff.mpr fun _ _ => rfl

@[simp] theorem tagCount_append (ts us : List Token) :
    tagCount (ts ++ us) = tagCount ts + tagCount us := List.countP_append

@[simp] theorem tagCount_map_char (s : List Char) : tagCount (s.map Token.char) = 0 := by
  rw [tagCount, List.countP_map]
  exact List.countP_eq_zero.mpr fun _ _ => Bool.false_ne_true

/-- **Tags nest**, with the attributes that are open: each closing tag closes the one that was
opened last, and in the end all are closed. -/
inductive Nests : List Attribute → List Token → Prop
  | nil : Nests [] []
  | char {inner : List Attribute} {ts : List Token} (c : Char) (h : Nests inner ts) :
    Nests inner (.char c :: ts)
  | opening {inner : List Attribute} {ts : List Token} {a : Attribute} (h : Nests (a :: inner) ts) :
    Nests inner (.opening a :: ts)
  | closing {inner : List Attribute} {ts : List Token} {a : Attribute} (h : Nests inner ts) :
    Nests (a :: inner) (.closing a :: ts)

namespace Nests

variable {inner : List Attribute} {ts : List Token}

theorem map_char_append (h : Nests inner ts) (s : List Char) :
    Nests inner (s.map Token.char ++ ts) := by
  induction s with
  | nil => exact h
  | cons c s ih => exact ih.char c

/-- **Where tags nest, all is closed in the end** that was open before or is opened on the way. -/
theorem after_eq (h : Nests inner ts) {d e : Depths} (he : ∀ b, e b = d b + inner.count b) :
    e.after ts = d := by
  induction h generalizing e with
  | nil => exact funext he
  | char c _ ih => exact ih he
  | @opening inner ts a _ ih =>
    refine ih fun b => ?_
    rw [Depths.push, he b, List.count_cons]
    by_cases hab : b = a
    · simp only [hab, if_true, beq_self_eq_true, Nat.add_assoc]
    · simp only [hab, Ne.symm hab, if_false, beq_iff_eq, Nat.add_zero]
  | @closing inner ts a _ ih =>
    refine ih fun b => ?_
    rw [Depths.pop, he b, List.count_cons]
    by_cases hab : b = a
    · simp only [hab, if_true, beq_self_eq_true, Nat.add_sub_cancel, ← Nat.add_assoc]
    · simp only [hab, Ne.symm hab, if_false, beq_iff_eq, Nat.add_zero]

/-- As many tags close as were open or are opened. -/
theorem tagCount_eq (h : Nests inner ts) :
    tagCount ts = inner.length + 2 * (openings ts).length := by
  induction h with
  | nil => rfl
  | char c _ ih => exact ih
  | @opening inner ts a _ ih =>
    have htags : tagCount (.opening a :: ts) = tagCount ts + 1 :=
      List.countP_cons_of_pos rfl
    have hopenings : openings (.opening a :: ts) = a :: openings ts := rfl
    rw [htags, hopenings, ih, List.length_cons, List.length_cons]
    omega
  | @closing inner ts a _ ih =>
    have htags : tagCount (.closing a :: ts) = tagCount ts + 1 :=
      List.countP_cons_of_pos rfl
    have hopenings : openings (.closing a :: ts) = openings ts := rfl
    rw [htags, hopenings, ih, List.length_cons]
    omega

end Nests

/-- Where no tag opens, nothing is formatted. -/
theorem format_eq_plain_of_openings_eq_nil {ts : List Token} (h : openings ts = []) {g : Glyph}
    (hg : g ∈ glyphsOf Depths.zero ts) : g.format = .plain := by
  have hpop (a : Attribute) : Depths.zero.pop a = Depths.zero := by
    funext b
    simp [Depths.pop, Depths.zero]
  induction ts with
  | nil => cases hg
  | cons t ts ih =>
    cases t with
    | char c =>
      rcases List.mem_cons.mp hg with rfl | hg
      · exact Depths.format_zero
      · exact ih h hg
    | opening a => cases h
    | closing a =>
      rw [glyphsOf, hpop] at hg
      exact ih h hg

end DocCite.Markup
