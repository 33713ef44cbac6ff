import DocCite.Citation.EntryOrder
import Mathlib.Order.Compare

/-!
# The orders of entries are orders

Entries are compared by a list of texts, where what no database knows has no text at all, and then
by their citation keys. So each order of entries is one lexicographic comparison of lists of texts
(`compareResolved_eq`): any two keys are comparable, comparisons chain, and only a key itself
compares equal to it (`ordersKeys_compareResolved`).
-/

namespace DocCite.EntryOrder

/-- The texts a key is compared by: none for what no database knows. -/
def texts (o : EntryOrder) (databases : List Database) (r : Resolution) : List String :=
  if r.isResolved then o.parts (SortKey.of r databases) else []

theorem length_parts (o : EntryOrder) (k : SortKey) : (o.parts k).length = 3 := by
  cases o <;> rfl

/-- Lists of one length are compared like words. -/
theorem compareParts_eq {as bs : List String} (h : as.length = bs.length) :
    compareParts as bs = compare as bs := by
  induction as generalizing bs with
  | nil =>
    rw [List.eq_nil_of_length_eq_zero h.symm]
    rfl
  | cons a as ih =>
    obtain ⟨b, bs, rfl⟩ := List.exists_cons_of_length_eq_add_one h.symm
    rw [compareParts, ih (Nat.succ.inj h), List.compare_eq_compareLex, List.compareLex_cons_cons]

/-- What is unknown comes first, as the empty list does among lists. -/
theorem compareFound_eq (o : EntryOrder) (databases : List Database) (a b : Resolution) :
    o.compareFound databases a b = compare (o.texts databases a) (o.texts databases b) := by
  have hne (k : SortKey) : ∃ x xs, o.parts k = x :: xs := by
    cases o <;> exact ⟨_, _, rfl⟩
  have hlength := (o.length_parts (SortKey.of a databases)).trans
    (o.length_parts (SortKey.of b databases)).symm
  obtain ⟨x, xs, ha⟩ := hne (SortKey.of a databases)
  obtain ⟨y, ys, hb⟩ := hne (SortKey.of b databases)
  unfold compareFound texts
  cases a.isResolved <;> cases b.isResolved
  · rfl
  · simp only [hb, Bool.false_eq_true, if_false, if_true]
    rfl
  · simp only [ha, Bool.false_eq_true, if_false, if_true]
    rfl
  · exact compareParts_eq hlength

/-- **Keys are compared by their texts and then by themselves.** -/
theorem compareResolved_eq (o : EntryOrder) (databases : List Database) :
    o.compareResolved databases =
      compareLex (compareOn fun a => o.texts databases a.2) (compareOn Prod.fst) := by
  funext a b
  rw [compareResolved, compareFound_eq]
  rfl

variable {o : EntryOrder} {databases : List Database}

/-! ## Keys with what was found for them -/

section Resolved

variable {a b c : String × Resolution}

theorem compareResolved_self : o.compareResolved databases a a = .eq := by
  rw [compareResolved_eq]
  exact Std.ReflCmp.compare_self

/-- The other way round everything is compared the other way round. -/
theorem compareResolved_swap :
    (o.compareResolved databases a b).swap = o.compareResolved databases b a := by
  simp only [compareResolved_eq]
  exact Std.OrientedCmp.eq_swap.symm

theorem isLE_compareResolved_trans (hab : (o.compareResolved databases a b).isLE)
    (hbc : (o.compareResolved databases b c).isLE) : (o.compareResolved databases a c).isLE := by
  simp only [compareResolved_eq] at hab hbc ⊢
  exact Std.TransCmp.isLE_trans hab hbc

/-- What no database knows comes before what one knows. -/
theorem compareResolved_of_unresolved (ha : a.2.isResolved = false) (hb : b.2.isResolved = true) :
    o.compareResolved databases a b = .lt := by
  rw [compareResolved, compareFound, ha, hb]
  rfl

/-- Only a key itself compares equal to it. -/
theorem fst_eq_of_compareResolved (h : o.compareResolved databases a b = .eq) : a.1 = b.1 := by
  rw [compareResolved, Ordering.then_eq_eq] at h
  exact Std.LawfulEqCmp.eq_of_compare h.2

/-- Where the same is found for a key each time, it compares equal to itself only. -/
theorem compareResolved_eq_iff (ha : a.2 = .lookup a.1 databases)
    (hb : b.2 = .lookup b.1 databases) : o.compareResolved databases a b = .eq ↔ a.1 = b.1 := by
  refine ⟨fst_eq_of_compareResolved, fun hkey => ?_⟩
  have hab : a = b := Prod.ext hkey (by rw [ha, hb, hkey])
  rw [hab]
  exact compareResolved_self

end Resolved

/-- **A comparison of keys, with what was found for them, is a total order** that has the unknown
keys first and holds only one and the same key equal. -/
structure OrdersKeys (cmp : String × Resolution → String × Resolution → Ordering) : Prop where
  self : ∀ a, cmp a a = .eq
  swap : ∀ a b, (cmp a b).swap = cmp b a
  trans : ∀ a b c, (cmp a b).isLE → (cmp b c).isLE → (cmp a c).isLE
  unresolved_lt : ∀ a b, a.2.isResolved = false → b.2.isResolved = true → cmp a b = .lt
  key_eq : ∀ a b, cmp a b = .eq → a.1 = b.1

/-- **Both orders of entries are total orders**, whatever the databases hold, and citations and
cited keys that were looked up in these databases compare equal just when their keys are equal. -/
theorem ordersKeys_compareResolved (o : EntryOrder) (databases : List Database) :
    OrdersKeys (o.compareResolved databases) ∧
      (∀ a b : Citation, a.resolution = .lookup a.key databases →
        b.resolution = .lookup b.key databases →
          (o.compareCitations databases a b = .eq ↔ a.key = b.key)) ∧
      ∀ a b : CitedKey, a.resolution = .lookup a.key databases →
        b.resolution = .lookup b.key databases →
          (o.compareCited databases a b = .eq ↔ a.key = b.key) where
  left :=
    { self := fun _ => compareResolved_self
      swap := fun _ _ => compareResolved_swap
      trans := fun _ _ _ => isLE_compareResolved_trans
      unresolved_lt := fun _ _ => compareResolved_of_unresolved
      key_eq := fun _ _ => fst_eq_of_compareResolved }
  right :=
    ⟨fun a b => compareResolved_eq_iff (a := (a.key, a.resolution)) (b := (b.key, b.resolution)),
      fun a b => compareResolved_eq_iff (a := (a.key, a.resolution)) (b := (b.key, b.resolution))⟩

/-- Two books, of which the later one is by the author who comes first. -/
def twoBooks : Database :=
  .ofEntries .bibtex
    [(Entry.new "zed" "book").setFields [("author", "Zed, A."), ("year", "1990")],
      (Entry.new "abel" "book").setFields [("editor", "{Abel}, B."), ("year", "2000")]]

/-- A key with what is found for it in the two books. -/
def amongTwoBooks (key : String) : String × Resolution := (key, .lookup key [twoBooks])

/-- A key without a book comes before the editor, and the editor before the other author; by year it
is the other way round with these two. -/
theorem ordersKeys_compareResolved_twoBooks :
    (authorYearTitle.compareResolved [twoBooks] (amongTwoBooks "oak") (amongTwoBooks "zed")).isLE ∧
      yearAuthorTitle.compareResolved [twoBooks] (amongTwoBooks "oak") (amongTwoBooks "abel") =
        .lt ∧
      yearAuthorTitle.compareResolved [twoBooks] (amongTwoBooks "abel") (amongTwoBooks "zed") =
        .gt := by
  have hauthors := (ordersKeys_compareResolved authorYearTitle [twoBooks]).1
  have hyears := (ordersKeys_compareResolved yearAuthorTitle [twoBooks]).1
  refine ⟨hauthors.trans _ (amongTwoBooks "abel") _ (by decide +kernel) (by decide +kernel),
    hyears.unresolved_lt _ _ rfl (by decide +kernel), ?_⟩
  rw [← hyears.swap (amongTwoBooks "zed"),
    show yearAuthorTitle.compareResolved [twoBooks] (amongTwoBooks "zed") (amongTwoBooks "abel") =
      .lt by decide +kernel]
  rfl

/-! ## Cited keys -/

variable {a b c : CitedKey}

theorem isLE_compareCited_trans (hab : (o.compareCited databases a b).isLE)
    (hbc : (o.compareCited databases b c).isLE) : (o.compareCited databases a c).isLE :=
  isLE_compareResolved_trans hab hbc

theorem compareCited_swap : (o.compareCited databases a b).swap = o.compareCited databases b a :=
  compareResolved_swap

/-- Keys that compare equal are one key. -/
theorem key_eq_of_compareCited (h : o.compareCited databases a b = .eq) : a.key = b.key :=
  fst_eq_of_compareResolved h

end DocCite.EntryOrder
