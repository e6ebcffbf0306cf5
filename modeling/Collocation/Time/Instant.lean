import Collocation.Time.Calendar

/-!
# Instants

A moment of universal time to the nanosecond. The seconds of a minute run from 0 to 59, and 60 is a
leap second: as a count of milliseconds it is the first second of the next minute, but the instant
stays a different one.
-/

set_option autoImplicit false

namespace Collocation

/-- The first and the last minute of the calendar: the years -262143 and 262142 are its ends. -/
def firstMinute : Int := -138910020480

def lastMinute : Int := 136837781279

/-- A point in time: a minute, a second of it, sixty in a leap second, and a part of the second. -/
structure Instant where
  /-- Minutes from the beginning of 1970. -/
  minute : Int
  second : Fin 61
  nanosecond : Fin 1000000000
  inCalendar : firstMinute ≤ minute ∧ minute ≤ lastMinute := by decide
deriving DecidableEq

namespace Instant

/-- The milliseconds from the beginning of 1970, rounded down. -/
def millis (t : Instant) : Int :=
  60000 * t.minute + 1000 * t.second.val + t.nanosecond.val / 1000000

/-- The instant of a count of milliseconds, if the calendar reaches that far. -/
def ofMillis? (millis : Int) : Option Instant :=
  let minute := millis / 60000
  let rest := (millis % 60000).toNat
  if h : firstMinute ≤ minute ∧ minute ≤ lastMinute then
    some
      { minute := minute
        second := Fin.ofNat 61 (rest / 1000)
        nanosecond := Fin.ofNat 1000000000 (rest % 1000 * 1000000)
        inCalendar := h }
  else none

/-- The beginning of 1970. -/
def epoch : Instant := ⟨0, 0, 0, by decide⟩

example : (ofMillis? (-1)).map millis = some (-1) := by decide
example : ofMillis? (-8334601228800001) = none := by decide
example : (ofMillis? (-8334601228800000)).isSome := by decide
example : (ofMillis? 8210266876799999).isSome := by decide
example : ofMillis? 8210266876800000 = none := by decide

end Instant

/-- A date and a time of day, as they are written in some place. -/
structure LocalTime where
  date : Date
  hour : Nat
  minute : Nat
  second : Nat
  nanosecond : Nat := 0
deriving DecidableEq

namespace LocalTime

/-- The minutes from the beginning of 1970 to a local time, the seconds left out. -/
def minutes (t : LocalTime) : Int :=
  1440 * t.date.toDays + 60 * t.hour + t.minute

/-- The instant at which a clock, which is `offset` minutes ahead of universal time, shows the local
time, if it exists and the calendar reaches it on both clocks. -/
def toInstant? (t : LocalTime) (offset : Int) : Option Instant :=
  let minute := t.minutes - offset
  if t.date.Valid ∧ t.hour < 24 ∧ t.minute < 60 ∧ t.second ≤ 60 ∧ t.nanosecond < 1000000000 ∧
      firstMinute ≤ t.minutes ∧ t.minutes ≤ lastMinute then
    if h : firstMinute ≤ minute ∧ minute ≤ lastMinute then
      some ⟨minute, Fin.ofNat 61 t.second, Fin.ofNat 1000000000 t.nanosecond, h⟩
    else none
  else none

/-- What a clock, which is `offset` minutes ahead of universal time, shows at an instant. -/
def ofInstant (t : Instant) (offset : Int) : LocalTime :=
  let minutes := t.minute + offset
  let inDay := (minutes % 1440).toNat
  { date := Date.ofDays (minutes / 1440)
    hour := inDay / 60
    minute := inDay % 60
    second := t.second.val
    nanosecond := t.nanosecond.val }

end LocalTime

end Collocation
