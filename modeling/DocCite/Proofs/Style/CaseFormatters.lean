import DocCite.Proofs.Latex.Shown
import DocCite.Proofs.Markup.Recased
import DocCite.Style.Reference

/-!
# The formatters of the case

`Upper` and `Lower` are there for the visible text, and work on something else: on the LaTeX of a
field that stands alone, and on the markup of any other part. The visible text is mapped just if the
mapping spares the entities of the markup, and the commands of the LaTeX (`actsOnVisible_iff`). An
ampersand is an entity, and `Upper` makes text of it.
-/

namespace DocCite.LayoutNode

open Text (Casing)

/-- **A formatter acts on the visible text** of a part: the part through the formatter shows what
the mapping makes of the text that the part shows. -/
def ActsOnVisible (f : Formatter) (recase : String → String) (r : ReferenceSource)
    (body : List LayoutNode) : Prop :=
  Markup.plain (Layout.fill [.format [f] body] r) = recase (Markup.plain (Layout.fill body r))

variable {f : Formatter} {r : ReferenceSource} {body : List LayoutNode} {name value : String}

/-- A part through a formatter is its markup through the formatter. -/
theorem fill_format (h : ∀ name, body ≠ [.field name]) :
    Layout.fill [.format [f] body] r = f.apply (Layout.fill body r) := by
  rw [Layout.fill, fillAll, fillAll, fill.eq_5 r [f] body h, String.append_empty]
  rfl

/-- A field alone is its value through the formatter, and then becomes markup. -/
theorem fill_format_field :
    Layout.fill [.format [f] [.field name]] r =
      ((r.value name).map fun v => Latex.toMarkup (f.apply v)).getD "" := by
  rw [Layout.fill, fillAll, fillAll, fill, String.append_empty]
  rfl

theorem fill_field :
    Layout.fill [.field name] r = ((r.value name).map Latex.toMarkup).getD "" := by
  rw [Layout.fill, fillAll, fillAll, fill, String.append_empty]

/-! ## Parts that are more than a field -/

section

variable (h : ∀ name, body ≠ [.field name])

include h

theorem actsOnVisible_upper_iff :
    ActsOnVisible .upper uppercase r body ↔
      Markup.KeepsSigns Text.upper (Layout.fill body r).toList := by
  rw [ActsOnVisible, fill_format h, ← Markup.plainChars_upper_iff]
  simp only [Formatter.apply, Markup.plain, uppercase, String.toList_ofList, String.ofList_inj]

theorem actsOnVisible_lower_iff :
    ActsOnVisible .lower lowercase r body ↔
      Markup.KeepsSigns Text.lower (Layout.fill body r).toList ∧
        Casing.KeepsSigmas Markup.plainChars (Layout.fill body r).toList := by
  rw [ActsOnVisible, fill_format h, ← Markup.plainChars_lower_iff]
  simp only [Formatter.apply, Markup.plain, lowercase, String.toList_ofList, String.ofList_inj]

end

/-! ## A field alone -/

theorem actsOnVisible_field_of_none (hvalue : r.value name = none) {recase : String → String}
    (hempty : recase "" = "") : ActsOnVisible f recase r [.field name] := by
  have hplain : Markup.plain "" = "" := congrArg String.ofList Markup.plainChars_nil
  rw [ActsOnVisible, fill_format_field, fill_field, hvalue]
  change Markup.plain "" = recase (Markup.plain "")
  rw [hplain, hempty]

theorem actsOnVisible_field_iff {recase : List Char → List Char}
    (hvalue : r.value name = some value) (hf : ∀ v, f.apply v = String.ofList (recase v.toList)) :
    ActsOnVisible f (fun s => String.ofList (recase s.toList)) r [.field name] ↔
      Markup.plainChars (Latex.convert [] (recase value.toList)) =
        recase (Markup.plainChars (Latex.convert [] value.toList)) := by
  rw [ActsOnVisible, fill_format_field, fill_field, hvalue]
  simp only [Option.map_some, Option.getD_some, hf, Markup.plain, Latex.toMarkup,
    String.toList_ofList, String.ofList_inj]

/-- A value with steady commands is shown in the other case just if its sigmas are. -/
theorem plainChars_convert_apply_iff {k : Casing} {s : List Char} (h : Latex.IsSteady k s) :
    Markup.plainChars (Latex.convert [] (k.apply [] s)) =
        k.apply [] (Markup.plainChars (Latex.convert [] s)) ↔
      k.SameSigmas Latex.shown [] [] s := by
  have hrecased := Latex.Ordinary.apply h []
  rw [Latex.Ordinary.plainChars_convert h, hrecased.plainChars_convert]
  exact Latex.shown_apply_iff h [] []

theorem actsOnVisible_upper_field (hvalue : r.value name = some value)
    (h : Latex.IsSteady .upper value.toList) : ActsOnVisible .upper uppercase r [.field name] := by
  have hupper : Text.upper = Casing.upper.apply [] := (funext (Casing.apply_upper [])).symm
  refine (actsOnVisible_field_iff hvalue fun _ => rfl).mpr ?_
  rw [hupper, plainChars_convert_apply_iff h]
  exact Casing.sameSigmas_upper

theorem actsOnVisible_lower_field_iff (hvalue : r.value name = some value)
    (h : Latex.IsSteady .lower value.toList) :
    ActsOnVisible .lower lowercase r [.field name] ↔
      Casing.KeepsSigmas Latex.shown value.toList := by
  have hlower : Text.lower = Casing.lower.apply [] := (funext (Casing.apply_lower [])).symm
  refine (actsOnVisible_field_iff hvalue fun _ => rfl).trans ?_
  rw [hlower, plainChars_convert_apply_iff h, Casing.sameSigmas_lower_iff]

/-! ## Every part -/

/-- **The formatters of the case act on the visible text** of a part that is more than a field just
if the tags and entities of its markup stand where they stood in the other case, and for `Lower` no
sign of markup ends a word at a capital sigma. They do so on a field that stands alone if it has no
value, or steady commands and for `Lower` no sigma of this kind. -/
theorem actsOnVisible_iff (r : ReferenceSource) (body : List LayoutNode) :
    ((∀ name, body ≠ [.field name]) →
      (ActsOnVisible .upper uppercase r body ↔
        Markup.KeepsSigns Text.upper (Layout.fill body r).toList) ∧
      (ActsOnVisible .lower lowercase r body ↔
        Markup.KeepsSigns Text.lower (Layout.fill body r).toList ∧
          Casing.KeepsSigmas Markup.plainChars (Layout.fill body r).toList)) ∧
    ∀ name, body = [.field name] →
      (r.value name = none →
        ActsOnVisible .upper uppercase r body ∧ ActsOnVisible .lower lowercase r body) ∧
      ∀ value, r.value name = some value →
        (Latex.IsSteady .upper value.toList → ActsOnVisible .upper uppercase r body) ∧
        (Latex.IsSteady .lower value.toList →
          (ActsOnVisible .lower lowercase r body ↔
            Casing.KeepsSigmas Latex.shown value.toList)) := by
  refine ⟨fun h => ⟨actsOnVisible_upper_iff h, actsOnVisible_lower_iff h⟩, ?_⟩
  rintro name rfl
  refine ⟨fun hnone => ?_, fun value hvalue => ?_⟩
  · exact ⟨actsOnVisible_field_of_none hnone rfl, actsOnVisible_field_of_none hnone rfl⟩
  · exact ⟨actsOnVisible_upper_field hvalue, actsOnVisible_lower_field_iff hvalue⟩

/-- A book about a firm, by an author with an accent. -/
def firmBook : ReferenceSource where
  entry := Entry.setFields (Entry.new "a" "book")
    [("title", "Smith \\& Sons"), ("author", "M\\\"uller"), ("year", "2000")]
  database := {}

/-- Its title and its author have steady commands, and there is no sign of markup in its year. -/
theorem actsOnVisible_iff_firmBook :
    ActsOnVisible .upper uppercase firmBook [.field "title"] ∧
      ActsOnVisible .lower lowercase firmBook [.field "author"] ∧
      ActsOnVisible .upper uppercase firmBook [.text "(", .field "year", .text ")"] := by
  have happend {p : List Char → Prop} {q : Char → Char → Prop} {t : List Char} (s : List Char)
      (hs : s.all fun c => c ≠ '\\' ∧ c ≠ '-') (ht : Latex.Ordinary p q t) :
      Latex.Ordinary p q (s ++ t) :=
    ht.append (List.all_iff_forall_prop.mp hs)
  have htitle : Latex.IsSteady .upper "Smith \\& Sons".toList := by
    have hand : Latex.IsSteady .upper "\\& Sons".toList :=
      .sign (by decide) rfl (by decide) (happend " Sons".toList (by decide) .nil)
    exact happend "Smith ".toList (by decide) hand
  have hauthor : Latex.IsSteady .lower "M\\\"uller".toList := by
    have haccent : Latex.IsSteady .lower ('\\' :: '"' :: (['u'] ++ "ller".toList)) :=
      .accent (c := 'u') (.inl rfl) rfl (by decide) ⟨by decide, by decide⟩
        (happend "ller".toList (by decide) .nil)
    exact happend ['M'] (by decide) haccent
  have hsigmas : Casing.KeepsSigmas Latex.shown "M\\\"uller".toList := by
    intro before after heq
    have hmem : 'Σ' ∈ "M\\\"uller".toList := heq ▸ List.mem_append_right _ List.mem_cons_self
    exact absurd hmem (by decide)
  refine ⟨?_, ?_, ?_⟩
  · exact ((((actsOnVisible_iff firmBook _).2 "title" rfl).2 _ (by decide +kernel)).1 htitle)
  · exact ((((actsOnVisible_iff firmBook _).2 "author" rfl).2 _ (by decide +kernel)).2 hauthor).mpr
      hsigmas
  · refine ((actsOnVisible_iff firmBook _).1 fun _ => by simp).1.mpr ?_
    exact Markup.keepsSigns_of_not_mem (by decide +kernel) (by decide +kernel)

/-- **An ampersand is made text of**: the title alone is shown in uppercase, and the same title with
the year behind it is shown with the name of an entity. -/
theorem not_actsOnVisible_titleAndYear :
    ¬ ActsOnVisible .upper uppercase firmBook
      [.field "title", .text " (", .field "year", .text ")"] := by
  unfold ActsOnVisible
  decide +kernel

end DocCite.LayoutNode
