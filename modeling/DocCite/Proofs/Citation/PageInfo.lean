import DocCite.Document.Citing
import DocCite.Proofs.Citation.MarkName
import DocCite.Proofs.Text.Trimming

/-!
# Page info is tidy

The page info of a group has no blanks at its ends and is not empty. Tidy page info is stored and
read back as it is, and so is the page info of joined groups, which is put together from tidy ones
(`normalizePageInfo_joinedPageInfo`).
-/

namespace DocCite

theorem trimmed?_of_isTidy {s : String} (h : Text.IsTidy s.toList) : trimmed? s = some s := by
  obtain ⟨⟨c, hc, hblank⟩, -⟩ := id h
  have hnot : isBlankText s = false := by
    rw [isBlankText, Text.isAllBlank, List.all_eq_false]
    exact ⟨c, List.mem_of_head? hc, by simp [hblank]⟩
  rw [trimmed?, hnot, trimmed, Text.trim_of_isTidy h, String.ofList_toList]
  rfl

theorem isTidy_of_normalizePageInfo {pageInfo : Option String} {info : String}
    (h : normalizePageInfo pageInfo = some info) : Text.IsTidy info.toList := by
  obtain ⟨s, -, hs⟩ := Option.bind_eq_some_iff.mp h
  rw [trimmed?] at hs
  split at hs
  · cases hs
  · next hnot =>
    cases hs
    rw [trimmed, String.toList_ofList]
    exact Text.isTidy_trim (eq_false_of_ne_true hnot)

theorem normalizePageInfo_of_isTidy {pageInfo : Option String}
    (h : ∀ info ∈ pageInfo, Text.IsTidy info.toList) : normalizePageInfo pageInfo = pageInfo := by
  cases pageInfo with
  | none => rfl
  | some info => exact trimmed?_of_isTidy (h info rfl)

/-- Page info that was tidied up stays as it is. -/
@[simp] theorem normalizePageInfo_normalizePageInfo (pageInfo : Option String) :
    normalizePageInfo (normalizePageInfo pageInfo) = normalizePageInfo pageInfo :=
  normalizePageInfo_of_isTidy fun _ h => isTidy_of_normalizePageInfo h

namespace DocumentM

/-- **The page info of joined groups is tidy** when that of each group is. -/
theorem normalizePageInfo_joinedPageInfo {run : List CitationGroup}
    (h : ∀ g ∈ run, normalizePageInfo g.pageInfo = g.pageInfo) :
    normalizePageInfo (joinedPageInfo run) = joinedPageInfo run := by
  refine normalizePageInfo_of_isTidy fun info hinfo => ?_
  rw [joinedPageInfo] at hinfo
  split at hinfo
  · cases hinfo
  · next hne =>
    cases hinfo
    have hjoin (infos : List String) : ("; ".intercalate infos).toList =
        Text.join "; ".toList (infos.map String.toList) := by
      rw [String.toList_intercalate]
      exact Text.intercalate_eq_join _ _
    rw [hjoin]
    refine Text.isTidy_join (by simpa using hne) fun part hpart => ?_
    obtain ⟨info, hinfo, rfl⟩ := List.mem_map.mp hpart
    obtain ⟨g, hg, hgi⟩ := List.mem_filterMap.mp (List.mem_eraseDups.mp hinfo)
    exact isTidy_of_normalizePageInfo ((h g hg).trans hgi)

end DocumentM

end DocCite
