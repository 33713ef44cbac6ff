import DocCite.Marker.Numeric
import DocCite.Proofs.Lists
import DocCite.Proofs.Markup.Canonical
import DocCite.Proofs.Stretches

/-!
# Ranges of numbers

A marker of numbers looks ahead from each number: it makes a range of those that follow where they
are enough, and otherwise starts again one place further on. So every maximal stretch of numbers
that follow one another becomes one range or stays as it is (`numericParts_eq_flatten`), and a
reader gets back from the parts which numbers are meant (`plain_numeric`).
-/

namespace DocCite.Marker

variable {least : Nat} {stretch rest : List NumericItem}

/-- **A number follows another** if it is the next one. -/
inductive Follows : NumericItem → NumericItem → Prop
  | succ (n : Nat) : Follows (.number n) (.number (n + 1))

/-- **How a stretch of numbers that follow one another is listed**: as a range if they are enough,
otherwise each by itself. -/
inductive ListedAs (least : Nat) : List NumericItem → List NumericPart → Prop
  | range {stretch : List NumericItem} {first last : Nat} (htwo : 2 ≤ least)
    (hleast : least ≤ stretch.length) (hfirst : stretch.head? = some (.number first))
    (hlast : stretch.getLast? = some (.number last)) : ListedAs least stretch [.range first last]
  | items {stretch : List NumericItem} (h : ¬ (2 ≤ least ∧ least ≤ stretch.length)) :
    ListedAs least stretch (stretch.map .item)

/-- The items that a part stands for. -/
def NumericPart.items : NumericPart → List NumericItem
  | .item i => [i]
  | .range first last => (List.range' first (last + 1 - first)).map .number

/-- An item as it is read in a marker. -/
def NumericItem.shown : NumericItem → String
  | .number n => toString n
  | .unresolved key => "Unresolved(" ++ key ++ ")"

/-- A part as it is read in a marker. -/
def NumericPart.shown (style : Style) : NumericPart → String
  | .item i => i.shown
  | .range first last => toString first ++ style.groupedNumbersSeparator ++ toString last

/-! ## Stretches of numbers -/

/-- In a stretch that begins with a number, the numbers are counted up from it. -/
theorem eq_range'_of_isChain {n : Nat} (h : (NumericItem.number n :: stretch).IsChain Follows) :
    NumericItem.number n :: stretch = (List.range' n (stretch.length + 1)).map .number := by
  induction stretch generalizing n with
  | nil => rfl
  | cons i stretch ih =>
    obtain ⟨hfollows, hrest⟩ := List.isChain_cons_cons.mp h
    cases hfollows
    have hcount : List.range' n (stretch.length + 2) =
        n :: List.range' (n + 1) (stretch.length + 1) := List.range'_succ
    rw [List.length_cons, hcount, List.map_cons, ← ih hrest]

/-- A stretch of two or more begins with a number. -/
theorem exists_number_of_isChain (h : stretch.IsChain Follows) (hlength : 2 ≤ stretch.length) :
    ∃ n s, stretch = .number n :: s := by
  obtain _ | ⟨i, _ | ⟨j, s⟩⟩ := stretch
  · exact absurd hlength (by decide)
  · exact absurd hlength (Nat.lt_irrefl 1)
  · obtain ⟨hfollows, -⟩ := List.isChain_cons_cons.mp h
    cases hfollows
    exact ⟨_, _, rfl⟩

theorem getLast?_of_isChain {n : Nat} (h : (NumericItem.number n :: stretch).IsChain Follows) :
    (NumericItem.number n :: stretch).getLast? = some (.number (n + stretch.length)) := by
  rw [eq_range'_of_isChain h, List.getLast?_map, List.getLast?_range', if_neg (by omega)]
  rfl

/-- **Every stretch is listed in some way.** -/
theorem exists_listedAs (least : Nat) (h : stretch.IsChain Follows) :
    ∃ parts, ListedAs least stretch parts := by
  by_cases hlong : 2 ≤ least ∧ least ≤ stretch.length
  · obtain ⟨n, s, rfl⟩ := exists_number_of_isChain h (hlong.1.trans hlong.2)
    exact ⟨_, .range hlong.1 hlong.2 rfl (getLast?_of_isChain h)⟩
  · exact ⟨_, .items hlong⟩

/-- **Parts stand for the stretch that they list.** -/
theorem ListedAs.flatMap_items {parts : List NumericPart} (h : ListedAs least stretch parts)
    (hchain : stretch.IsChain Follows) : parts.flatMap NumericPart.items = stretch := by
  cases h with
  | @range first last _ _ hfirst hlast =>
    obtain ⟨s, rfl⟩ := List.head?_eq_some_iff.mp hfirst
    rw [getLast?_of_isChain hchain, Option.some.injEq, NumericItem.number.injEq] at hlast
    have hcount : last + 1 - first = s.length + 1 := by omega
    rw [List.flatMap_singleton, NumericPart.items, hcount, eq_range'_of_isChain hchain]
  | items => rw [List.flatMap_map]; exact List.flatMap_singleton' _

/-! ## Looking ahead -/

/-- **Looking ahead stops where the stretch ends.** -/
theorem following_eq_length {n : Nat} (h : (NumericItem.number n :: stretch).IsChain Follows)
    (hends : ∀ a ∈ (NumericItem.number n :: stretch).getLast?, ∀ b ∈ rest.head?, ¬ Follows a b) :
    following n (stretch ++ rest) = stretch.length := by
  induction stretch generalizing n with
  | nil =>
    obtain _ | ⟨_ | _, rest⟩ := rest
    · rfl
    · next m =>
      have hne : m ≠ n + 1 := by
        rintro rfl
        exact hends _ rfl _ rfl (.succ n)
      exact if_neg hne
    · rfl
  | cons i stretch ih =>
    obtain ⟨hfollows, hrest⟩ := List.isChain_cons_cons.mp h
    cases hfollows
    rw [List.getLast?_cons_cons] at hends
    rw [List.cons_append, following, if_pos rfl, ih hrest hends, List.length_cons]

/-- Items that are in a range already are passed over. -/
theorem numericParts_eq_drop (least done : Nat) (items : List NumericItem) :
    numericParts least done items = numericParts least 0 (items.drop done) := by
  induction items generalizing done with
  | nil => cases done <;> rfl
  | cons i items ih =>
    cases done with
    | zero => rfl
    | succ done => exact ih done

/-- **One stretch**: enough numbers become a range; of fewer, none of those that are reached one
after another has enough behind it. -/
theorem numericParts_append {parts : List NumericPart} (hparts : ListedAs least stretch parts)
    (h : stretch.IsChain Follows)
    (hends : ∀ a ∈ stretch.getLast?, ∀ b ∈ rest.head?, ¬ Follows a b) :
    numericParts least 0 (stretch ++ rest) = parts ++ numericParts least 0 rest := by
  cases hparts with
  | @range first last htwo hleast hfirst hlast =>
    obtain ⟨s, rfl⟩ := List.head?_eq_some_iff.mp hfirst
    rw [getLast?_of_isChain h, Option.some.injEq, NumericItem.number.injEq] at hlast
    have hmore : following first (s ++ rest) = s.length := following_eq_length h hends
    rw [List.length_cons] at hleast
    simp only [List.cons_append, numericParts, hmore]
    rw [if_pos ⟨htwo, hleast⟩, numericParts_eq_drop, List.drop_left, hlast]
    rfl
  | items hshort =>
    induction stretch with
    | nil => rfl
    | cons i s ih =>
      rw [List.length_cons] at hshort
      have hshort' : ¬ (2 ≤ least ∧ least ≤ s.length) := by omega
      have hends' : ∀ a ∈ s.getLast?, ∀ b ∈ rest.head?, ¬ Follows a b := by
        intro a ha
        exact hends a (List.mem_getLast?_cons ha)
      have hrest := ih h.tail hends' hshort'
      cases i with
      | unresolved key =>
        rw [List.cons_append, numericParts, hrest]
        rfl
      | number n =>
        have hmore : following n (s ++ rest) = s.length := following_eq_length h hends
        simp only [List.cons_append, numericParts, hmore]
        rw [if_neg hshort, hrest]
        rfl

/-- **Stretch after stretch**, the parts are those of the stretches. -/
theorem numericParts_eq_flatten {items : List NumericItem} {stretches : List (List NumericItem)}
    {parts : List (List NumericPart)} (h : MaximalStretches Follows items stretches)
    (hparts : List.Forall₂ (ListedAs least) stretches parts) :
    numericParts least 0 items = parts.flatten := by
  induction hparts generalizing items with
  | nil =>
    rw [← h.flatten_eq]
    rfl
  | cons hlisted _ ih =>
    obtain ⟨rfl, _, hchain, hends, hrest⟩ := h.of_cons
    rw [numericParts_append hlisted hchain hends, ih hrest, List.flatten_cons]

example : numericParts 3 0 [.number 1, .number 2, .number 3, .number 5, .number 6] =
    [.range 1 3, .item (.number 5), .item (.number 6)] := by decide

/-- **The parts stand for the items.** -/
theorem flatMap_items_flatten {items : List NumericItem} {stretches : List (List NumericItem)}
    {parts : List (List NumericPart)} (h : MaximalStretches Follows items stretches)
    (hparts : List.Forall₂ (ListedAs least) stretches parts) :
    parts.flatten.flatMap NumericPart.items = items := by
  induction hparts generalizing items with
  | nil =>
    rw [← h.flatten_eq]
    rfl
  | cons hlisted _ ih =>
    obtain ⟨rfl, _, hchain, _, hrest⟩ := h.of_cons
    rw [List.flatten_cons, List.flatMap_append, hlisted.flatMap_items hchain, ih hrest]

/-! ## The text of a marker -/

/-- Digits are no signs of markup. -/
theorem escape_toString (n : Nat) : Markup.escape (toString n) = toString n := by
  have hdigits : ∀ c ∈ (toString n).toList, c ≠ '&' ∧ c ≠ '<' ∧ c ≠ '>' := by
    intro c hc
    rw [Nat.toString_eq_repr, Nat.toList_repr] at hc
    have hdigit : c.isDigit = true := Nat.isDigit_of_mem_toDigits (by decide) (by decide) hc
    refine ⟨?_, ?_, ?_⟩ <;> rintro rfl <;> exact absurd hdigit (by decide)
  rw [Markup.escape, Markup.escapeChars_eq_self hdigits, String.ofList_toList]

/-- An item is what is read, escaped. -/
theorem NumericItem.text_eq (i : NumericItem) : i.text = Markup.escape i.shown := by
  cases i with
  | number n => exact (escape_toString n).symm
  | unresolved key =>
    rw [shown, Markup.escape_append, Markup.escape_append]
    rfl

/-- A part is what is read, escaped. -/
theorem NumericPart.text_eq (style : Style) (part : NumericPart) :
    part.text style = Markup.escape (part.shown style) := by
  cases part with
  | item i => exact i.text_eq
  | range first last =>
    rw [shown, Markup.escape_append, Markup.escape_append, escape_toString, escape_toString]
    rfl

/-- **A marker of numbers tells which items are meant.** Its text is the brackets and, between them,
the parts of the maximal stretches of numbers that follow one another; the parts stand for the
items, each of them where it is first. -/
theorem plain_numeric (style : Style) (items : List NumericItem) (inList : Bool) :
    ∃ stretches parts, MaximalStretches Follows items.eraseDups stretches ∧
      List.Forall₂ (ListedAs style.minimumGroupingCount) stretches parts ∧
      parts.flatten.flatMap NumericPart.items = items.eraseDups ∧
      Markup.plain (numeric style items inList) =
        (if inList then style.bracketBeforeInList else style.bracketBefore) ++
          style.citationSeparator.intercalate (parts.flatten.map (NumericPart.shown style)) ++
          (if inList then style.bracketAfterInList else style.bracketAfter) := by
  obtain ⟨stretches, hstretches⟩ := MaximalStretches.exists_of Follows items.eraseDups
  obtain ⟨parts, hparts⟩ := exists_forall₂ fun stretch hstretch =>
    exists_listedAs style.minimumGroupingCount (hstretches.isChain stretch hstretch)
  refine ⟨stretches, parts, hstretches, hparts, flatMap_items_flatten hstretches hparts, ?_⟩
  have htexts : parts.flatten.map (NumericPart.text style) =
      (parts.flatten.map (NumericPart.shown style)).map Markup.escape := by
    rw [List.map_map]
    exact List.map_congr_left fun part _ => part.text_eq style
  rw [numeric, numericParts_eq_flatten hstretches hparts, htexts, Markup.intercalate_escape]
  cases inList with
  | false => simp only [Bool.false_eq_true, if_false, ← Markup.escape_append, Markup.plain_escape]
  | true => simp only [if_true, ← Markup.escape_append, Markup.plain_escape]

end DocCite.Marker
