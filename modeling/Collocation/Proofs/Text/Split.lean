import Collocation.Text.Split

/-!
# Words that are joined and split

Words with separators between them are split into the same words just if there is a word and none of
them has the separator in it. A text that is split and joined is the same in any case, so that what
was split once stays as it is.
-/

set_option autoImplicit false

namespace Collocation.Text

variable {separator : Char}

/-- A text is split at every separator, as a list is. -/
theorem split_eq_splitOn (text : List Char) : split separator text = text.splitOn separator := by
  induction text with
  | nil => rfl
  | cons c rest ih =>
    rw [List.splitOn, List.splitOnP_cons_eq_if_modifyHead, ← List.splitOn, ← ih, split]
    by_cases h : c = separator
    · rw [if_pos h, if_pos (beq_iff_eq.2 h)]
    · rw [if_neg h, if_neg (mt beq_iff_eq.1 h)]
      obtain ⟨word, words, hWords⟩ := List.exists_cons_of_ne_nil (split_ne_nil separator rest)
      rw [hWords]
      rfl

/-- No part of a text has the separator in it. -/
theorem not_mem_of_mem_split {text word : List Char} (h : word ∈ split separator text) :
    separator ∉ word := by
  induction text generalizing word with
  | nil =>
    obtain rfl := List.mem_singleton.1 h
    exact List.not_mem_nil
  | cons c rest ih =>
    rw [split] at h
    split at h
    · rcases List.mem_cons.1 h with rfl | hRest
      · exact List.not_mem_nil
      · exact ih hRest
    · next hOther =>
      split at h
      · next hNone => exact absurd hNone (split_ne_nil separator rest)
      · next first words hWords =>
        rw [hWords] at ih
        rcases List.mem_cons.1 h with rfl | hMore
        · exact List.not_mem_cons_of_ne_of_not_mem (Ne.symm hOther) (ih List.mem_cons_self)
        · exact ih (List.mem_cons_of_mem _ hMore)

/-- Words are read back just if there is one and none is parted itself. -/
theorem split_join_iff {words : List (List Char)} :
    split separator (join separator words) = words ↔
      words ≠ [] ∧ ∀ word ∈ words, separator ∉ word := by
  constructor
  · intro h
    rw [← h]
    exact ⟨split_ne_nil _ _, fun word => not_mem_of_mem_split⟩
  · rintro ⟨hSome, hFree⟩
    rw [split_eq_splitOn, join, List.splitOn_intercalate _ hFree hSome]

/-! ## Names and commas -/

/-- The parts of a text between its commas. -/
theorem map_toList_splitCommas (s : String) :
    (splitCommas s).map String.toList = split ',' s.toList := by
  rw [splitCommas, List.map_map]
  exact List.map_id'' (fun _ => String.toList_ofList) _

/-- A text is joined again of its parts between commas. -/
theorem joinCommas_splitCommas (s : String) : joinCommas (splitCommas s) = s := by
  rw [joinCommas, map_toList_splitCommas, join_split, String.ofList_toList]

/-- Names are parted again after they were joined, just if there are any and none has a comma. -/
theorem splitCommas_joinCommas_iff {names : List String} :
    splitCommas (joinCommas names) = names ↔
      names ≠ [] ∧ ∀ name ∈ names, ',' ∉ name.toList := by
  have hNames : splitCommas (joinCommas names) = names ↔
      split ',' (join ',' (names.map String.toList)) = names.map String.toList := by
    rw [← List.map_inj_right (f := String.toList) fun _ _ => String.toList_inj.1,
      map_toList_splitCommas, joinCommas, String.toList_ofList]
  rw [hNames, split_join_iff, List.forall_mem_map]
  exact and_congr_left' (not_congr List.map_eq_nil_iff)

example : splitCommas (joinCommas []) = [""] := by rfl
example : splitCommas (joinCommas ["a,b", ""]) = ["a", "b", ""] := by rfl

end Collocation.Text
