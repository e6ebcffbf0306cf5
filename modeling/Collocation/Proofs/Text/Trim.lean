import Collocation.Text.Blank
import Mathlib.Data.List.TakeWhile

/-!
# Texts without blanks at their ends

A text is what is left of it between the blanks at its ends; and if there are no blanks in a text,
it is what is left of it between any blanks.
-/

set_option autoImplicit false

namespace Collocation.Text

/-- Only the letters of the upper case have another lower case, thirty-two further. -/
theorem toLower_cases (c : Char) :
    c.toLower = c ∨ 65 ≤ c.toNat ∧ c.toNat ≤ 90 ∧ c.toLower.toNat = c.toNat + 32 := by
  have hFirst : 'A'.val.toNat = 65 := rfl
  have hLast : 'Z'.val.toNat = 90 := rfl
  have hApart : ('a'.val - 'A'.val).toNat = 32 := rfl
  delta Char.toLower
  split
  · next hUpper =>
    simp only [ge_iff_le, UInt32.le_iff_toNat_le, hFirst, hLast] at hUpper
    refine .inr ⟨hUpper.1, hUpper.2, (UInt32.toNat_add ..).trans ?_⟩
    rw [hApart]
    exact Nat.mod_eq_of_lt (by omega)
  · exact .inl rfl

/-- A letter is not blank, in either case. -/
theorem isBlank_toLower {c : Char} (h : isBlank c = true) : isBlank c.toLower = true := by
  obtain hSame | ⟨hFirst, hLast, -⟩ := toLower_cases c
  · rwa [hSame]
  · simp only [isBlank, Bool.or_eq_true, Bool.and_eq_true, decide_eq_true_eq, beq_iff_eq] at h
    omega

/-- Blanks in front of a text are trimmed. -/
theorem trimLeft_append {before : List Char} (h : ∀ c ∈ before, isBlank c = true)
    (text : List Char) : trimLeft (before ++ text) = trimLeft text :=
  List.dropWhile_append_of_pos h

/-- A text that does not begin with a blank is not trimmed at its beginning. -/
theorem trimLeft_cons {c : Char} (h : isBlank c = false) (rest : List Char) :
    trimLeft (c :: rest) = c :: rest := by
  rw [trimLeft, List.dropWhile_cons_of_neg]
  rw [h]
  exact Bool.false_ne_true

/-- A text without blanks is not trimmed at its beginning. -/
theorem trimLeft_of_forall {text : List Char} (h : ∀ c ∈ text, isBlank c = false) :
    trimLeft text = text := by
  cases text with
  | nil => rfl
  | cons c rest => exact trimLeft_cons (h c List.mem_cons_self) rest

/-- A text without blanks is not trimmed at all. -/
theorem trim_of_forall {text : List Char} (h : ∀ c ∈ text, isBlank c = false) :
    trim text = text := by
  rw [trim, trimLeft_of_forall h, trimLeft_of_forall fun c hc => h c (List.mem_reverse.1 hc),
    List.reverse_reverse]

/-- What stands between blanks is left if nothing in it is blank. -/
theorem trim_between {before text after : List Char} (hBefore : ∀ c ∈ before, isBlank c = true)
    (hAfter : ∀ c ∈ after, isBlank c = true) (hText : ∀ c ∈ text, isBlank c = false) :
    trim (before ++ text ++ after) = text := by
  have hReverse : ∀ c ∈ after.reverse, isBlank c = true :=
    fun c hc => hAfter c (List.mem_reverse.1 hc)
  rw [trim, List.append_assoc, trimLeft_append hBefore]
  cases text with
  | nil =>
    -- Nothing but blanks is left to nothing from the left already.
    have hNone := trimLeft_append hAfter []
    rw [List.append_nil] at hNone
    rw [List.nil_append, hNone]
    rfl
  | cons c rest =>
    rw [List.cons_append, trimLeft_cons (hText c List.mem_cons_self), ← List.cons_append,
      List.reverse_append, trimLeft_append hReverse,
      trimLeft_of_forall fun d hd => hText d (List.mem_reverse.1 hd), List.reverse_reverse]

/-- Only blanks stand around what is left of a text. -/
theorem exists_eq_trim (text : List Char) :
    ∃ before after, text = before ++ trim text ++ after ∧ (∀ c ∈ before, isBlank c = true) ∧
      ∀ c ∈ after, isBlank c = true := by
  refine ⟨text.takeWhile isBlank, ((trimLeft text).reverse.takeWhile isBlank).reverse, ?_,
    fun _ hc => List.mem_takeWhile_imp hc,
    fun _ hc => List.mem_takeWhile_imp (List.mem_reverse.1 hc)⟩
  have hBehind : (trimLeft text).reverse.takeWhile isBlank ++ trimLeft (trimLeft text).reverse =
      (trimLeft text).reverse := List.takeWhile_append_dropWhile
  rw [trim, List.append_assoc, ← List.reverse_append, hBehind, List.reverse_reverse]
  exact List.takeWhile_append_dropWhile.symm

end Collocation.Text
