import Collocation.Time.Calendar
import Mathlib.Tactic.IntervalCases

/-!
# Dates of counted days

The date of a count of days is one of the calendar, and the days to that date are those that were
counted. Both are proved for a day in a year that begins in March, and so has its leap day last.
-/

set_option autoImplicit false

namespace Collocation.Date

/-- The date of a day in a year that begins in March. -/
def ofMarch (year : Int) (inYear : Nat) : Date :=
  let month := (5 * inYear + 2) / 153
  { year := if month < 10 then year else year + 1
    month := if month < 10 then month + 3 else month - 9
    day := inYear - (153 * month + 2) / 5 + 1 }

/-- The parts of a count of days: eras, centuries, spans of four years, years and days. A leap day
is in the last year of a span, and in the last span of a century only if that is the last of its
era. -/
theorem exists_ofMarch (days : Int) :
    ∃ (eras : Int) (century span single inYear : Nat),
      (century ≤ 3 ∧ span ≤ 24 ∧ single ≤ 3 ∧ inYear ≤ 365) ∧
        (inYear = 365 → single = 3 ∧ (span = 24 → century = 3)) ∧
        days + epoch = 146097 * eras + 36524 * century + 1461 * span + 365 * single + inYear ∧
        ofDays days = ofMarch (400 * eras + 100 * century + 4 * span + single) inYear := by
  simp only [ofDays]
  have hEras : days + epoch = 146097 * ((days + epoch) / era) + ((days + epoch) % era).toNat ∧
      ((days + epoch) % era).toNat < 146097 := by
    rw [era]
    omega
  generalize (days + epoch) / era = eras at hEras ⊢
  generalize ((days + epoch) % era).toNat = inEra at hEras ⊢
  have hCentury : min 3 (inEra / 36524) ≤ 3 ∧
      36524 * min 3 (inEra / 36524) + (inEra - 36524 * min 3 (inEra / 36524)) = inEra ∧
      inEra - 36524 * min 3 (inEra / 36524) ≤ 36524 ∧
      (inEra - 36524 * min 3 (inEra / 36524) = 36524 → min 3 (inEra / 36524) = 3) := by
    omega
  generalize min 3 (inEra / 36524) = century at hCentury ⊢
  generalize inEra - 36524 * century = inCentury at hCentury ⊢
  have hSpan : 1461 * (inCentury / 1461) + (inCentury - 1461 * (inCentury / 1461)) = inCentury ∧
      inCentury - 1461 * (inCentury / 1461) < 1461 := by
    omega
  generalize inCentury / 1461 = span at hSpan ⊢
  generalize inCentury - 1461 * span = inSpan at hSpan ⊢
  have hSingle : min 3 (inSpan / 365) ≤ 3 ∧
      365 * min 3 (inSpan / 365) + (inSpan - 365 * min 3 (inSpan / 365)) = inSpan ∧
      inSpan - 365 * min 3 (inSpan / 365) ≤ 365 ∧
      (inSpan - 365 * min 3 (inSpan / 365) = 365 → min 3 (inSpan / 365) = 3) := by
    omega
  generalize min 3 (inSpan / 365) = single at hSingle ⊢
  generalize inSpan - 365 * single = inYear at hSingle ⊢
  exact ⟨eras, century, span, single, inYear, by omega, by omega, by omega, rfl⟩

/-- The days to a day of a year that begins in March. -/
theorem toDays_ofMarch (year : Int) {inYear : Nat} (h : inYear ≤ 365) :
    toDays (ofMarch year inYear) =
      365 * year + year / 4 - year / 100 + year / 400 + inYear - epoch := by
  have hMonth : (5 * inYear + 2) / 153 < 12 := by omega
  have hDay : (153 * ((5 * inYear + 2) / 153) + 2) / 5 ≤ inYear := by omega
  unfold toDays ofMarch
  simp only
  generalize (5 * inYear + 2) / 153 = month at hMonth hDay ⊢
  -- January and February are the last months, and belong to the next year of the calendar.
  by_cases hNew : month < 10
  · have hIndex : (month + 3 + 9) % 12 = month := by omega
    rw [if_pos hNew, if_pos hNew, if_neg (by omega), hIndex]
    omega
  · have hIndex : (month - 9 + 9) % 12 = month := by omega
    rw [if_neg hNew, if_neg hNew, if_pos (by omega), hIndex, Int.add_sub_cancel]
    omega

/-- A day of a year that begins in March has a date, a leap day if the year has one. -/
theorem valid_ofMarch {year : Int} {inYear : Nat} (h : inYear ≤ 365)
    (hLeap : inYear = 365 → isLeapYear (year + 1) = true) : (ofMarch year inYear).Valid := by
  have hMonth : (5 * inYear + 2) / 153 < 12 := by omega
  have hFirst : (153 * ((5 * inYear + 2) / 153) + 2) / 5 ≤ inYear := by omega
  have hLast : inYear < (153 * ((5 * inYear + 2) / 153 + 1) + 2) / 5 := by omega
  unfold Valid ofMarch
  simp only
  generalize (5 * inYear + 2) / 153 = month at hMonth hFirst hLast ⊢
  refine ⟨by omega, ?_⟩
  by_cases hFebruary : month = 11
  · subst hFebruary
    by_cases hLast : inYear = 365
    · simp [monthLength, hLeap hLast]
      omega
    · simp [monthLength]
      split <;> omega
  · interval_cases month <;> simp [monthLength] at * <;> omega

/-- The months of valid dates are at most twelve, and the days at most thirty-one. -/
theorem bounds_of_valid {date : Date} (h : date.Valid) :
    (1 ≤ date.month ∧ date.month ≤ 12) ∧ 1 ≤ date.day ∧ date.day ≤ 31 := by
  obtain ⟨hFirst, hLast⟩ := h
  simp only [monthLength, List.mem_cons, List.not_mem_nil, or_false] at hLast
  split at hLast
  · split at hLast <;> omega
  split at hLast
  · omega
  split at hLast <;> omega

/-- The days to the dates of the years from 0 to 9999. -/
theorem toDays_bounds {date : Date} (h : date.Valid) (hYear : 0 ≤ date.year ∧ date.year ≤ 9999) :
    -719528 ≤ date.toDays ∧ date.toDays ≤ 2932896 := by
  obtain ⟨hMonth, hDay⟩ := bounds_of_valid h
  have hIndex : (date.month + 9) % 12 =
      if date.month ≤ 2 then date.month + 9 else date.month - 3 := by
    split <;> omega
  simp only [toDays, epoch, hIndex]
  split <;> omega

/-- The date of any day is valid. -/
theorem valid_ofDays (days : Int) : (ofDays days).Valid := by
  obtain ⟨eras, century, span, single, inYear, hBounds, hLeap, -, hDate⟩ := exists_ofMarch days
  rw [hDate]
  refine valid_ofMarch hBounds.2.2.2 fun hLast => ?_
  have := hLeap hLast
  simp only [isLeapYear, Bool.and_eq_true, Bool.or_eq_true, beq_iff_eq, bne_iff_ne]
  omega

/-- The days to the date of a count of days are those that were counted. -/
theorem toDays_ofDays (days : Int) : toDays (ofDays days) = days := by
  obtain ⟨eras, century, span, single, inYear, hBounds, -, hDays, hDate⟩ := exists_ofMarch days
  rw [hDate, toDays_ofMarch _ hBounds.2.2.2]
  omega

end Collocation.Date
