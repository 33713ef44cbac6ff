import DocCite.Proofs.Text.Pieces
import DocCite.Proofs.Text.Trimming
import DocCite.Style.Sections

/-!
# Lines of the sections of a style file

A line of a style file stands in the section whose header was last before it, unless it is passed
over (`linesOf`). Lines of one section never touch what those of another one are read into: a style
file is read section by section (`parse_eq`), and so its lines in each section are all that matters
(`parse_congr`).
-/

namespace DocCite

namespace Text

variable {s : List Char}

/-- A line is what it is without its carriage return, or has one behind that. -/
theorem eq_dropReturn_or (line : List Char) :
    line = dropReturn line ∨ line = dropReturn line ++ ['\r'] := by
  unfold dropReturn
  split
  · next h => exact Or.inr (List.dropLast_append_getLast? _ h).symm
  · exact Or.inl rfl

theorem dropReturn_of_not_ends (h : s.getLast? ≠ some '\r') : dropReturn s = s := if_neg h

theorem dropReturn_append_return (s : List Char) : dropReturn (s ++ ['\r']) = s := by
  rw [dropReturn, if_pos List.getLast?_concat, List.dropLast_concat]

theorem trim_append_return (s : List Char) : trim (s ++ ['\r']) = trim s :=
  trim_append_of_blank (List.forall_mem_singleton.mpr (by decide))

end Text

namespace Style

variable {line rest : List Char} {current : Option Section} {kind : Section}

/-! ## Headers and lines that are passed over -/

/-- The header of a section. -/
def Section.header : Section → String
  | .name => "NAME"
  | .layout => "LAYOUT"
  | .properties => "PROPERTIES"
  | .citation => "CITATION"
  | .journals => "JOURNALS"

theorem Section.ofHeader?_eq_some_iff :
    Section.ofHeader? line = some kind ↔ line = kind.header.toList := by
  rw [← String.toList_ofList (l := line), String.toList_inj, String.toList_ofList]
  constructor
  · intro h
    unfold Section.ofHeader? at h
    split at h <;> cases h <;> assumption
  · intro h
    rw [Section.ofHeader?, h]
    cases kind <;> rfl

/-- The section that a line opens, whatever blanks are around its header. -/
def header? (line : List Char) : Option Section := Section.ofHeader? (Text.trim line)

/-- **A line that is a header**, with or without blanks around it. -/
def IsHeaderOf (kind : Section) (line : List Char) : Prop := Text.TrimsTo line kind.header.toList

theorem header?_eq_some_iff : header? line = some kind ↔ IsHeaderOf kind line := by
  rw [header?, Section.ofHeader?_eq_some_iff, IsHeaderOf, Text.trimsTo_iff]
  exact eq_comm

/-- Whether a line is passed over: it is blank or starts with `#`. -/
def isPassedOver (line : List Char) : Bool := Text.isAllBlank line || line.head? = some '#'

theorem header?_append_return (line : List Char) : header? (line ++ ['\r']) = header? line := by
  rw [header?, Text.trim_append_return]
  rfl

theorem isPassedOver_append_return (line : List Char) :
    isPassedOver (line ++ ['\r']) = isPassedOver line := by
  have hreturn : Text.isBlank '\r' = true := by decide
  cases line with
  | nil => rfl
  | cons c line => simp [isPassedOver, Text.isAllBlank, hreturn]

theorem header?_dropReturn (line : List Char) : header? (Text.dropReturn line) = header? line := by
  rcases Text.eq_dropReturn_or line with h | h
  · rw [← h]
  · conv_rhs => rw [h, header?_append_return]

theorem isPassedOver_dropReturn (line : List Char) :
    isPassedOver (Text.dropReturn line) = isPassedOver line := by
  rcases Text.eq_dropReturn_or line with h | h
  · rw [← h]
  · conv_rhs => rw [h, isPassedOver_append_return]

/-- A header is not passed over. -/
theorem isPassedOver_of_isHeaderOf (h : IsHeaderOf kind line) : isPassedOver line = false := by
  have htrim : kind.header.toList = Text.trim line := Text.trimsTo_iff.mp h
  have hword : kind.header.toList ≠ [] ∧ kind.header.toList.head? ≠ some '#' := by
    cases kind <;> decide
  rw [htrim] at hword
  rw [isPassedOver, Bool.or_eq_false_iff, decide_eq_false_iff_not, ← Bool.not_eq_true,
    ← Text.trim_eq_nil_iff_isAllBlank]
  refine ⟨hword.1, fun hhead => hword.2 ?_⟩
  obtain ⟨after, rfl⟩ := List.head?_eq_some_iff.mp hhead
  have hstart : Text.trimStart ('#' :: after) = '#' :: after :=
    List.dropWhile_cons_of_neg (by decide)
  rw [Text.trim, hstart]
  exact Text.head?_trimEnd rfl (by decide)

/-! ## Lines of a section -/

/-- The lines that stand in sections, each with its section and without the carriage return that it
may end in. -/
def contents : Option Section → List (List Char) → List (Section × List Char)
  | _, [] => []
  | current, line :: lines =>
    if isPassedOver line then contents current lines
    else
      match header? line with
      | some kind => contents (some kind) lines
      | none =>
        (current.map fun kind => (kind, Text.dropReturn line)).toList ++ contents current lines

/-- The lines of a section. -/
def linesIn (kind : Section) (lines : List (Section × List Char)) : List (List Char) :=
  (lines.filter fun l => l.1 = kind).map Prod.snd

/-- **The lines of a section of a style file**, in order and without those that are passed over. -/
def linesOf (source : String) (kind : Section) : List (List Char) :=
  linesIn kind (contents none (Text.splitOn '\n' source.toList))

/-! ## Reading line by line -/

namespace Progress

variable {p q : Progress}

/-- Reads a line into its section. -/
def addTo (p : Progress) (l : Section × List Char) : Except LoadError Progress :=
  addContent { p with current := some l.1 } l.2

theorem add_of_isPassedOver (p : Progress) (h : isPassedOver line = true) : p.add line = .ok p := by
  rw [add]
  exact if_pos ((isPassedOver_dropReturn line).trans h)

theorem add_of_not_isPassedOver (p : Progress) (h : isPassedOver line = false) :
    p.add line =
      match header? line with
      | some kind => .ok { p with current := some kind }
      | none => p.addContent (Text.dropReturn line) := by
  have hline : isPassedOver (Text.dropReturn line) = false := (isPassedOver_dropReturn line).trans h
  rw [add, ← header?_dropReturn]
  exact if_neg (by rw [← isPassedOver, hline]; exact Bool.false_ne_true)

theorem current_of_addLayout (h : p.addLayout line = .ok q) : q.current = p.current := by
  unfold addLayout at h
  split at h
  · cases h
    rfl
  · dsimp only at h
    split at h
    · cases h
    · split at h <;> cases h <;> rfl

/-- Reading a line leaves its section open. -/
theorem current_of_addTo {l : Section × List Char} (h : p.addTo l = .ok q) :
    q.current = some l.1 := by
  obtain ⟨kind, line⟩ := l
  cases kind with
  | layout => exact current_of_addLayout h
  | name | properties | citation | journals =>
    cases h
    rfl

/-- Which section is open does not matter to lines that say where they stand. -/
theorem foldlM_addTo_bind_finish_congr (p : Progress) (current : Option Section)
    (ls : List (Section × List Char)) :
    ls.foldlM addTo { p with current := current } >>= finish = ls.foldlM addTo p >>= finish := by
  cases ls <;> rfl

/-- **Lines are read into their sections.** -/
theorem foldlM_add_bind_finish (lines : List (List Char)) (p : Progress) :
    lines.foldlM add p >>= finish = (contents p.current lines).foldlM addTo p >>= finish := by
  induction lines generalizing p with
  | nil => rfl
  | cons line lines ih =>
    rw [List.foldlM_cons, contents]
    cases hpassed : isPassedOver line with
    | true =>
      rw [add_of_isPassedOver p hpassed, if_pos rfl]
      exact ih p
    | false =>
      rw [add_of_not_isPassedOver p hpassed, if_neg Bool.false_ne_true]
      cases header? line with
      | some kind =>
        exact (ih { p with current := some kind }).trans (foldlM_addTo_bind_finish_congr p _ _)
      | none =>
        dsimp only
        cases hcurrent : p.current with
        | none =>
          have hskip : p.addContent (Text.dropReturn line) = .ok p := by
            rw [addContent, hcurrent]
          have hrest := ih p
          rw [hcurrent] at hrest
          rw [hskip]
          exact hrest
        | some kind =>
          have hself : { p with current := some kind } = p := by rw [← hcurrent]
          have hread :
              p.addContent (Text.dropReturn line) = p.addTo (kind, Text.dropReturn line) := by
            rw [addTo, hself]
          rw [hread, Option.map_some, Option.toList_some, List.singleton_append, List.foldlM_cons,
            bind_assoc, bind_assoc]
          cases hq : p.addTo (kind, Text.dropReturn line) with
          | error e => rfl
          | ok q =>
            have hnext : q.current = some kind := current_of_addTo hq
            exact hnext ▸ ih q

/-! ## Reading section by section -/

/-- The same layouts, with all else as in other progress. -/
def withOthers (p q : Progress) : Progress :=
  { q with style := { q.style with layouts := p.style.layouts }, default? := p.default? }

/-- What the lines of the sections without layouts make of a style. -/
def fill (p : Progress) (lines : Section → List (List Char)) : Progress :=
  { p with
    style := { p.style with
      name := (lines .name).foldl (fun _ line => String.ofList (Text.trim line)) p.style.name
      properties := (lines .properties).foldl setOption p.style.properties
      citationOptions := (lines .citation).foldl setOption p.style.citationOptions
      journals := (lines .journals).foldl
        (fun journals line => insertJournal (String.ofList (Text.trim line)) journals)
        p.style.journals } }

/-- Layouts are read whatever else there is. -/
theorem addLayout_withOthers (p q : Progress) (line : List Char) :
    (p.withOthers q).addLayout line = (p.addLayout line).map fun r => r.withOthers q := by
  unfold addLayout
  split
  · rfl
  · dsimp only
    split
    · rfl
    · split <;> rfl

/-- **Lines are read section by section**: those with layouts, which can fail, and each of the other
sections by itself. -/
theorem foldlM_addTo_bind_finish (ls : List (Section × List Char)) (p q : Progress) :
    ls.foldlM addTo (p.withOthers q) >>= finish =
      (linesIn .layout ls).foldlM addLayout p >>= fun r =>
        (r.withOthers (q.fill fun kind => linesIn kind ls)).finish := by
  induction ls generalizing p q with
  | nil => rfl
  | cons l ls ih =>
    obtain ⟨kind, line⟩ := l
    cases kind with
    | layout =>
      have hread : (p.withOthers q).addTo (.layout, line) = (p.addLayout line).map fun r =>
          r.withOthers { q with current := some .layout } :=
        addLayout_withOthers p { q with current := some .layout } line
      have hlines : linesIn .layout ((.layout, line) :: ls) = line :: linesIn .layout ls := rfl
      rw [List.foldlM_cons, hread, hlines, List.foldlM_cons]
      cases p.addLayout line with
      | error e => rfl
      | ok r => exact ih r { q with current := some .layout }
    | name =>
      exact ih p (fill { q with current := some .name } fun kind => linesIn kind [(.name, line)])
    | properties =>
      exact ih p (fill { q with current := some .properties }
        fun kind => linesIn kind [(.properties, line)])
    | citation =>
      exact ih p (fill { q with current := some .citation }
        fun kind => linesIn kind [(.citation, line)])
    | journals =>
      exact ih p (fill { q with current := some .journals }
        fun kind => linesIn kind [(.journals, line)])

end Progress

/-- **A style file is read section by section.** -/
theorem parse_eq (source : String) :
    parse source =
      (linesOf source .layout).foldlM Progress.addLayout {} >>= fun p =>
        (p.withOthers (Progress.fill {} (linesOf source))).finish :=
  (Progress.foldlM_add_bind_finish _ {}).trans (Progress.foldlM_addTo_bind_finish _ {} {})

/-- **The lines in each section are all that matters.** -/
theorem parse_congr {source source' : String}
    (h : ∀ kind, linesOf source kind = linesOf source' kind) : parse source = parse source' := by
  rw [parse_eq, parse_eq, funext h]

end Style

end DocCite
