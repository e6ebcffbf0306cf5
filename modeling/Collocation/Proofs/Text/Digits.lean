import Collocation.Text.Scan
import Mathlib.Data.List.TakeWhile

/-!
# Digits that are read back

The decimal digits of a number, with zeros in front of them or without, are read as that number,
whatever follows that does not go on with them.
-/

set_option autoImplicit false

namespace Collocation.Text

/-- The digits of a number are digits. -/
theorem isDigit_of_mem_toDigits {n : Nat} {c : Char} (h : c ∈ Nat.toDigits 10 n) :
    c.isDigit = true :=
  Nat.isDigit_of_mem_toDigits (by decide) (by decide) h

/-- The first digit of a positive number is not zero. -/
theorem head?_toDigits_ne_zero {n : Nat} (h : 0 < n) : (Nat.toDigits 10 n).head? ≠ some '0' := by
  induction n using Nat.strongRecOn with
  | ind n ih =>
    by_cases hSmall : n < 10
    · have hDigit : ∀ digit < 10, 0 < digit → some digit.digitChar ≠ some '0' := by decide
      rw [Nat.toDigits_of_lt_base hSmall, List.head?_cons]
      exact hDigit n hSmall h
    · have hUpper := ih (n / 10) (by omega) (by omega)
      rwa [Nat.toDigits_of_base_le (by decide) (by omega), List.head?_append,
        List.head?_eq_some_head Nat.toDigits_ne_nil, Option.some_or,
        ← List.head?_eq_some_head Nat.toDigits_ne_nil]

/-- All digits in front of a text are taken, and nothing else. -/
theorem spanDigits_digits {digits rest : List Char} (hDigits : ∀ c ∈ digits, c.isDigit = true)
    (hRest : ∀ c ∈ rest.head?, c.isDigit = false) :
    spanDigits (digits ++ rest) = (digits, rest) := by
  rw [spanDigits, List.takeWhile_append_of_pos hDigits, List.dropWhile_append_of_pos hDigits]
  cases rest with
  | nil => simp
  | cons c rest => simp [hRest c rfl]

/-- The digits of a number are all of its text. -/
theorem spanDigits_toDigits (n : Nat) :
    spanDigits (Nat.toDigits 10 n) = (Nat.toDigits 10 n, []) := by
  have hSpan : spanDigits (Nat.toDigits 10 n ++ []) = (Nat.toDigits 10 n, []) :=
    spanDigits_digits (fun c hc => isDigit_of_mem_toDigits hc) (by simp)
  rwa [List.append_nil] at hSpan

/-! ## Digits of a given width -/

/-- A number is padded to its width, if it has no more digits. -/
theorem length_padded {width n : Nat} (hWidth : 0 < width) (h : n < Nat.pow 10 width) :
    (padded width n).length = width := by
  have hLength := (Nat.length_toDigits_le_iff (b := 10) (by decide) hWidth).2 h
  rw [padded, List.length_append, List.length_replicate]
  omega

/-- The digits of a padded number are digits. -/
theorem isDigit_of_mem_padded {width n : Nat} {c : Char} (h : c ∈ padded width n) :
    c.isDigit = true := by
  rcases List.mem_append.1 h with hZero | hDigit
  · rw [(List.mem_replicate.1 hZero).2]
    rfl
  · exact isDigit_of_mem_toDigits hDigit

/-- A number of so many digits is read as it was written. -/
theorem exactly_padded {width n : Nat} (hWidth : 0 < width) (h : n < Nat.pow 10 width)
    (rest : List Char) : exactly width (padded width n ++ rest) = some (n, rest) := by
  have hLength := length_padded hWidth h
  have hAll : (padded width n).all Char.isDigit = true :=
    List.all_eq_true.2 fun c hc => isDigit_of_mem_padded hc
  rw [exactly, List.take_left' hLength, List.drop_left' hLength, if_pos ⟨hLength, hAll⟩,
    number_padded]

/-- A number of so many digits is read to its end, and what follows is left, digits or not. -/
theorem upTo_padded {width n : Nat} (hWidth : 0 < width) (h : n < Nat.pow 10 width)
    (rest : List Char) : upTo width (padded width n ++ rest) = some (n, rest) := by
  have hLength := length_padded hWidth h
  have hDigits : (padded width n).takeWhile Char.isDigit = padded width n :=
    List.takeWhile_eq_self_iff.2 fun c hc => isDigit_of_mem_padded hc
  have hSome : (padded width n).isEmpty = false := by
    rw [List.isEmpty_eq_false_iff, ← List.length_pos_iff, hLength]
    exact hWidth
  rw [upTo, List.take_left' hLength, hDigits, List.drop_left' rfl, number_padded, hSome]
  rfl

/-- No digit is blank. -/
theorem isBlank_eq_false_of_isDigit {c : Char} (h : c.isDigit = true) : isBlank c = false := by
  have hRange : '0'.toNat ≤ c.toNat ∧ c.toNat ≤ '9'.toNat := by
    simp only [Char.isDigit, Bool.and_eq_true, decide_eq_true_eq] at h
    exact h
  have hZero : '0'.toNat = 48 := rfl
  have hNine : '9'.toNat = 57 := rfl
  simp only [isBlank, Bool.or_eq_false_iff, Bool.and_eq_false_iff, decide_eq_false_iff_not,
    beq_eq_false_iff_ne]
  omega

/-- A padded number begins with a digit. -/
theorem exists_padded_eq_cons {width n : Nat} (hWidth : 0 < width) (h : n < Nat.pow 10 width) :
    ∃ digit digits, padded width n = digit :: digits ∧ digit.isDigit = true := by
  have hLength := length_padded hWidth h
  cases hDigits : padded width n with
  | nil =>
    rw [hDigits] at hLength
    exact absurd hLength (Nat.ne_of_lt hWidth)
  | cons digit digits =>
    have hFirst : digit ∈ padded width n := by
      rw [hDigits]
      exact List.mem_cons_self
    exact ⟨digit, digits, rfl, isDigit_of_mem_padded hFirst⟩

/-- Digits have no blanks in front of them. -/
theorem trimLeft_padded {width n : Nat} (hWidth : 0 < width) (h : n < Nat.pow 10 width)
    (rest : List Char) : trimLeft (padded width n ++ rest) = padded width n ++ rest := by
  obtain ⟨digit, digits, hDigits, hDigit⟩ := exists_padded_eq_cons hWidth h
  rw [hDigits, List.cons_append, trimLeft, List.dropWhile_cons, isBlank_eq_false_of_isDigit hDigit]
  rfl

end Collocation.Text
