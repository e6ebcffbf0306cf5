import Collocation.ExecutionId
import Collocation.Proofs.Text.Trim
import Collocation.Uuid.Text
import Mathlib.Data.List.Basic
import Mathlib.Data.Nat.Init

/-!
# Texts of identifiers that are read back

The text of a uuid is in the grouped form, and its thirty-two digits are those of its number; so it
is read as the uuid, and as the id of an execution.
-/

set_option autoImplicit false

namespace Collocation

/-! ## Digits -/

/-- The value of a printed digit is read back. -/
theorem hexValue_hexDigit : ∀ n < 16, hexValue (hexDigit n) = some n := by decide

/-- Digits that are written one by one are read one by one. -/
theorem hexNumber_map_hexDigit {values : List Nat} (h : ∀ value ∈ values, value < 16) :
    hexNumber (values.map hexDigit) =
      some (values.foldl (fun n value => 16 * n + value) 0) := by
  have hValues : (values.map hexDigit).mapM hexValue = some values := by
    induction values with
    | nil => rfl
    | cons value values ih =>
      obtain ⟨hValue, hOthers⟩ := List.forall_mem_cons.1 h
      rw [List.map_cons, List.mapM_cons, hexValue_hexDigit value hValue, ih hOthers]
      rfl
  rw [hexNumber, hValues]
  rfl

/-- The lowest digits of a number, the highest of them first, make the rest by a power. -/
theorem foldl_digits (count n : Nat) :
    ((List.range count).map fun i => n / Nat.pow 16 (count - 1 - i) % 16).foldl
        (fun n value => 16 * n + value) 0 = n % Nat.pow 16 count := by
  induction count generalizing n with
  | zero => simp [Nat.mod_one]
  | succ count ih =>
    -- All digits but the last are those of the sixteenth part.
    have hUpper : ((List.range count).map fun i => n / Nat.pow 16 (count + 1 - 1 - i) % 16) =
        (List.range count).map fun i => n / 16 / Nat.pow 16 (count - 1 - i) % 16 := by
      apply List.map_congr_left
      intro i hi
      have hExponent : count + 1 - 1 - i = count - 1 - i + 1 := by
        have := List.mem_range.1 hi
        omega
      have hPower : Nat.pow 16 (count - 1 - i + 1) = 16 * Nat.pow 16 (count - 1 - i) :=
        Nat.pow_succ'
      rw [hExponent, hPower, Nat.div_div_eq_div_mul]
    have hLast : n / Nat.pow 16 (count + 1 - 1 - count) % 16 = n % 16 := by
      simp
    have hCount : Nat.pow 16 (count + 1) = 16 * Nat.pow 16 count := Nat.pow_succ'
    rw [List.range_succ, List.map_append, List.foldl_append, hUpper, ih, List.map_singleton,
      List.foldl_cons, List.foldl_nil, hLast, hCount, Nat.mod_mul, Nat.add_comm]

namespace Uuid

/-- An id is made again of its number. -/
theorem ofNat_number (id : Uuid) : ofNat id.number.val = id :=
  congrArg Uuid.mk (Fin.ext (Nat.mod_eq_of_lt id.number.isLt))

/-- An id has thirty-two digits. -/
theorem length_digits (id : Uuid) : id.digits.length = 32 := by
  rw [digits, List.length_map, List.length_range]

/-- An id is read back from its digits. -/
theorem ofDigits?_digits (id : Uuid) : ofDigits? id.digits = some id := by
  have hDigits : id.digits =
      ((List.range 32).map fun i => id.number.val / Nat.pow 16 (32 - 1 - i) % 16).map hexDigit := by
    rw [List.map_map]
    rfl
  have hNumber : hexNumber id.digits = some id.number.val := by
    rw [hDigits, hexNumber_map_hexDigit, foldl_digits]
    · exact congrArg some (Nat.mod_eq_of_lt id.number.isLt)
    · intro value hValue
      obtain ⟨i, -, rfl⟩ := List.mem_map.1 hValue
      exact Nat.mod_lt _ (by decide)
  rw [ofDigits?, if_pos id.length_digits, hNumber, Option.map_some, ofNat_number]

/-! ## Groups -/

/-- The parts of the five groups are all of the digits. -/
theorem parts_append (digits : List Char) :
    digits.take 8 ++ ((digits.drop 8).take 4 ++ ((digits.drop 12).take 4 ++
      ((digits.drop 16).take 4 ++ digits.drop 20))) = digits := by
  have h20 := List.take_append_drop 4 (digits.drop 16)
  have h16 := List.take_append_drop 4 (digits.drop 12)
  have h12 := List.take_append_drop 4 (digits.drop 8)
  simp only [List.drop_drop] at h12 h16 h20
  rw [h20, h16, h12, List.take_append_drop]

/-- Thirty-two digits in groups are taken out of these again. -/
theorem ungroup_group {digits : List Char} (h : digits.length = 32) :
    ungroup (group digits) = some digits := by
  have hParts : (group digits).take 8 ++ ((group digits).drop 9).take 4 ++
      ((group digits).drop 14).take 4 ++ ((group digits).drop 19).take 4 ++
        (group digits).drop 24 = digits := by
    refine Eq.trans ?_ (parts_append digits)
    simp [group, List.drop_append, List.drop_take, h]
  rw [ungroup]
  simp only [hParts, h, true_and, if_true]

/-- The text of a uuid is read as the uuid. -/
theorem parse?_chars (id : Uuid) : parse? id.chars = some id := by
  have hGroups : ofGroups? id.chars = some id := by
    rw [ofGroups?, chars, ungroup_group id.length_digits, Option.bind_some, ofDigits?_digits]
  rw [parse?, hGroups, Option.some_or]

/-! ## Blanks -/

/-- No digit of an id is blank. -/
theorem not_isBlank_of_mem_digits {id : Uuid} {c : Char} (h : c ∈ id.digits) :
    Text.isBlank c = false := by
  have hAll : ∀ n < 16, Text.isBlank (hexDigit n) = false := by decide
  obtain ⟨i, -, rfl⟩ := List.mem_map.1 h
  exact hAll _ (Nat.mod_lt _ (by decide))

/-- No character in the text of an id is blank. -/
theorem not_isBlank_of_mem_chars {id : Uuid} {c : Char} (h : c ∈ id.chars) :
    Text.isBlank c = false := by
  simp only [chars, group, List.append_assoc, List.cons_append, List.mem_append,
    List.mem_cons] at h
  rcases h with h | rfl | h | rfl | h | rfl | h | rfl | h
  · exact not_isBlank_of_mem_digits (List.mem_of_mem_take h)
  · rfl
  · exact not_isBlank_of_mem_digits (List.mem_of_mem_drop (List.mem_of_mem_take h))
  · rfl
  · exact not_isBlank_of_mem_digits (List.mem_of_mem_drop (List.mem_of_mem_take h))
  · rfl
  · exact not_isBlank_of_mem_digits (List.mem_of_mem_drop (List.mem_of_mem_take h))
  · rfl
  · exact not_isBlank_of_mem_digits (List.mem_of_mem_drop h)

end Uuid

/-- The text of a uuid is read as the id of an execution. -/
theorem parseExecutionId_text (id : Uuid) : parseExecutionId id.text = .ok id := by
  rw [parseExecutionId, Uuid.text, String.toList_ofList,
    Text.trim_of_forall fun _ => Uuid.not_isBlank_of_mem_chars, Uuid.parse?_chars]

end Collocation
