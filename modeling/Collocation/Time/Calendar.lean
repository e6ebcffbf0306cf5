/-!
# The calendar

Dates of the Gregorian calendar, extended to all years, and their count of days from 1970-01-01.
A year is taken to begin in March, so that the leap day is its last; four hundred years then always
have the same days.
-/

set_option autoImplicit false

namespace Collocation

/-- A day of the Gregorian calendar, which is taken to reach back without end. -/
structure Date where
  year : Int
  month : Nat
  day : Nat
deriving DecidableEq

namespace Date

def isLeapYear (year : Int) : Bool :=
  year % 4 == 0 && (year % 100 != 0 || year % 400 == 0)

/-- The days of a month, none for what is no month. -/
def monthLength (year : Int) (month : Nat) : Nat :=
  if month = 2 then (if isLeapYear year then 29 else 28)
  else if month ∈ [4, 6, 9, 11] then 30
  else if 1 ≤ month ∧ month ≤ 12 then 31
  else 0

/-- Whether the calendar has the date. -/
def Valid (date : Date) : Prop :=
  1 ≤ date.day ∧ date.day ≤ monthLength date.year date.month

instance (date : Date) : Decidable date.Valid :=
  inferInstanceAs (Decidable (_ ∧ _))

/-- The days between 0000-03-01 and 1970-01-01. -/
def epoch : Int := 719468

/-- The days of four hundred years. -/
def era : Int := 146097

/-- The count of days from 1970-01-01 to a date. -/
def toDays (date : Date) : Int :=
  let year := if date.month ≤ 2 then date.year - 1 else date.year
  let month := (date.month + 9) % 12
  let inYear : Int := (153 * month + 2) / 5 + date.day - 1
  365 * year + year / 4 - year / 100 + year / 400 + inYear - epoch

/-- The date of a count of days from 1970-01-01. The days of an era are counted by centuries, which
have 36524 days but for the last, then by spans of four years and by years. -/
def ofDays (days : Int) : Date :=
  let fromMarch := days + epoch
  let inEra := (fromMarch % era).toNat
  let century := min 3 (inEra / 36524)
  let inCentury := inEra - 36524 * century
  let span := inCentury / 1461
  let inSpan := inCentury - 1461 * span
  let single := min 3 (inSpan / 365)
  let inYear := inSpan - 365 * single
  let month := (5 * inYear + 2) / 153
  let year := 400 * (fromMarch / era) + 100 * century + 4 * span + single
  { year := if month < 10 then year else year + 1
    month := if month < 10 then month + 3 else month - 9
    day := inYear - (153 * month + 2) / 5 + 1 }

example : toDays ⟨1970, 1, 1⟩ = 0 := by decide
example : ofDays 0 = ⟨1970, 1, 1⟩ := by decide
example : ofDays (toDays ⟨2000, 2, 29⟩) = ⟨2000, 2, 29⟩ := by decide
example : ofDays (toDays ⟨-1, 12, 31⟩) = ⟨-1, 12, 31⟩ := by decide

end Date

end Collocation
