import Collocation.Proofs.Text.Digits
import Collocation.Proofs.Time.Calendar
import Collocation.Time.Text

/-!
# Texts of instants that are read back

What a clock shows at an instant, with the offset of the clock, is in the form of RFC 3339 if the
year has four digits, to the nanosecond and with leap seconds, and is read as that instant. Other
years have a sign in front, which that form does not have.
-/

set_option autoImplicit false

namespace Collocation

open Text

/-! ## Fractions of a second -/

/-- Digits that are fewer than nine count as if zeros followed. -/
theorem fractionValue_padded {width more n : Nat} (hWidth : 0 < width) (hMore : width + more = 9)
    (h : n < Nat.pow 10 width) : fractionValue (padded width n) = n * Nat.pow 10 more := by
  have hLength := length_padded hWidth h
  have hTake : (padded width n ++ List.replicate 9 '0').take 9 =
      padded width n ++ List.replicate more '0' := by
    rw [List.take_append, hLength, List.take_of_length_le (by omega), List.take_replicate]
    congr 2
    omega
  have hNumber : Nat.ofDigitChars 10 (padded width n) 0 = n := number_padded width n
  rw [fractionValue, hTake, number, Nat.ofDigitChars_append, hNumber,
    Nat.ofDigitChars_replicate_zero, Nat.mul_comm]
  rfl

/-- What follows a time of day goes on neither with its fraction nor with its digits. -/
def EndsFraction (rest : List Char) : Prop :=
  ∀ c ∈ rest.head?, c ≠ '.' ∧ c.isDigit = false

/-- Where no fraction goes on, there is none. -/
theorem readFraction_of_endsFraction {rest : List Char} (h : EndsFraction rest) :
    readFraction rest = some (0, rest) := by
  cases rest with
  | nil => rfl
  | cons c rest =>
    have hPoint : c ≠ '.' := (h c rfl).1
    unfold readFraction
    split
    · next heq => exact absurd (List.cons.inj heq).1 hPoint
    · rfl

section Fraction

variable {rest : List Char} (hRest : EndsFraction rest)
include hRest

/-- A fraction of some digits is read as so many nanoseconds. -/
theorem readFraction_padded {width more n : Nat} (hWidth : 0 < width) (hMore : width + more = 9)
    (h : n < Nat.pow 10 width) :
    readFraction ('.' :: (padded width n ++ rest)) = some (n * Nat.pow 10 more, rest) := by
  have hSpan : spanDigits (padded width n ++ rest) = (padded width n, rest) :=
    spanDigits_digits (fun c hc => isDigit_of_mem_padded hc) fun c hc => (hRest c hc).2
  have hValue := fractionValue_padded hWidth hMore h
  obtain ⟨digit, digits, hDigits, -⟩ := exists_padded_eq_cons hWidth h
  rw [hDigits] at hSpan hValue
  rw [hDigits, readFraction, hSpan]
  simp only [hValue]

/-- The fraction of a second is read back from its text. -/
theorem readFraction_fractionText {nanosecond : Nat} (h : nanosecond < 1000000000) :
    readFraction (fractionText nanosecond ++ rest) = some (nanosecond, rest) := by
  unfold fractionText
  split
  · next hZero =>
    subst hZero
    exact readFraction_of_endsFraction hRest
  split
  · have hFraction : readFraction ('.' :: (padded 3 (nanosecond / 1000000) ++ rest)) =
        some (nanosecond / 1000000 * Nat.pow 10 6, rest) := by
      have hSmall : nanosecond / 1000000 < 1000 := by omega
      exact readFraction_padded hRest (by decide) rfl hSmall
    have hValue : nanosecond / 1000000 * Nat.pow 10 6 = nanosecond := by
      change nanosecond / 1000000 * 1000000 = nanosecond
      omega
    rw [List.cons_append, hFraction, hValue]
  split
  · have hFraction : readFraction ('.' :: (padded 6 (nanosecond / 1000) ++ rest)) =
        some (nanosecond / 1000 * Nat.pow 10 3, rest) := by
      have hSmall : nanosecond / 1000 < 1000000 := by omega
      exact readFraction_padded hRest (by decide) rfl hSmall
    have hValue : nanosecond / 1000 * Nat.pow 10 3 = nanosecond := by
      change nanosecond / 1000 * 1000 = nanosecond
      omega
    rw [List.cons_append, hFraction, hValue]
  · have hFraction : readFraction ('.' :: (padded 9 nanosecond ++ rest)) =
        some (nanosecond * Nat.pow 10 0, rest) := readFraction_padded hRest (by decide) rfl h
    rw [List.cons_append, hFraction]
    exact congrArg (fun n => some (n, rest)) (Nat.mul_one nanosecond)

end Fraction

/-! ## Local times -/

namespace LocalTime

/-- The year is one that four digits write without a sign. -/
def FourDigitYear (t : LocalTime) : Prop :=
  0 ≤ t.date.year ∧ t.date.year ≤ 9999

instance (t : LocalTime) : Decidable t.FourDigitYear :=
  inferInstanceAs (Decidable (_ ∧ _))

/-- The numbers of a local time have the digits that the form has for them. -/
structure Fits (t : LocalTime) : Prop where
  year : t.FourDigitYear
  month : t.date.month < 100
  day : t.date.day < 100
  hour : t.hour < 100
  minute : t.minute < 100
  second : t.second < 100
  nanosecond : t.nanosecond < 1000000000

/-- The text of a local time, number by number. -/
theorem chars_append {t : LocalTime} (h : t.FourDigitYear) (rest : List Char) :
    t.chars ++ rest =
      padded 4 t.date.year.toNat ++ '-' :: (padded 2 t.date.month ++ '-' :: (padded 2 t.date.day ++
        'T' :: (padded 2 t.hour ++ ':' :: (padded 2 t.minute ++ ':' :: (padded 2 t.second ++
          (fractionText t.nanosecond ++ rest)))))) := by
  have hYear : yearText t.date.year = padded 4 t.date.year.toNat := if_pos h
  rw [chars, hYear]
  simp only [List.append_assoc, List.cons_append]

end LocalTime

/-- A character is skipped where it stands. -/
theorem skip_cons (c : Char) (rest : List Char) : skip c (c :: rest) = some rest :=
  if_pos rfl

/-- A local time is read as it was written, with any zone. -/
theorem readRfc3339_chars {t : LocalTime} (h : t.Fits) {zone : List Char}
    (hZone : EndsFraction zone) :
    readRfc3339 (t.chars ++ zone) = (readZone zone).map fun offset => (t, offset) := by
  have hTwo {n : Nat} (hn : n < 100) (rest : List Char) :
      exactly 2 (padded 2 n ++ rest) = some (n, rest) := exactly_padded (by decide) hn rest
  have hYear (rest : List Char) :
      exactly 4 (padded 4 t.date.year.toNat ++ rest) = some (t.date.year.toNat, rest) := by
    have hYear : t.date.year.toNat < 10000 := by
      have := h.year.2
      omega
    exact exactly_padded (by decide) hYear rest
  have hSign : ((t.date.year.toNat : Nat) : Int) = t.date.year := Int.toNat_of_nonneg h.year.1
  have hDateEnd (rest : List Char) : skipDateEnd ('T' :: rest) = some rest := by
    rw [skipDateEnd, if_pos (.inl rfl)]
  have hFraction := readFraction_fractionText hZone h.nanosecond
  rw [LocalTime.chars_append h.year, readRfc3339]
  simp only [Option.bind_eq_bind, Option.bind_some, hYear, hTwo h.month, hTwo h.day, hTwo h.hour,
    hTwo h.minute, hTwo h.second, skip_cons, hDateEnd, hFraction, hSign]
  cases readZone zone <;> rfl

/-! ## Instants -/

namespace Instant

/-- The instant is in a year that four digits write without a sign. -/
def FourDigitYear (t : Instant) : Prop :=
  0 ≤ (LocalTime.ofInstant t 0).date.year ∧ (LocalTime.ofInstant t 0).date.year ≤ 9999

instance (t : Instant) : Decidable t.FourDigitYear :=
  inferInstanceAs (Decidable (_ ∧ _))

section Clock

variable (t : Instant) (offset : Int)

/-- What a clock shows is a date and a time of day. -/
theorem valid_ofInstant :
    (LocalTime.ofInstant t offset).date.Valid ∧ (LocalTime.ofInstant t offset).hour < 24 ∧
      (LocalTime.ofInstant t offset).minute < 60 := by
  refine ⟨Date.valid_ofDays _, ?_, ?_⟩
  all_goals
    simp only [LocalTime.ofInstant]
    omega

/-- A clock shows at most the sixtieth second, which is the leap second. -/
theorem second_le_ofInstant : (LocalTime.ofInstant t offset).second ≤ 60 :=
  Nat.le_of_lt_succ t.second.isLt

/-- A clock shows the minutes of a time with its offset. -/
theorem minutes_ofInstant : (LocalTime.ofInstant t offset).minutes = t.minute + offset := by
  simp only [LocalTime.minutes, LocalTime.ofInstant, Date.toDays_ofDays]
  omega

variable {t offset}

/-- What a clock shows in a year of four digits fits into its text. -/
theorem fits_ofInstant (h : (LocalTime.ofInstant t offset).FourDigitYear) :
    (LocalTime.ofInstant t offset).Fits := by
  obtain ⟨hDate, hHour, hMinute⟩ := valid_ofInstant t offset
  obtain ⟨hMonth, hDay⟩ := Date.bounds_of_valid hDate
  have hSecond := second_le_ofInstant t offset
  exact ⟨h, by omega, by omega, by omega, by omega, by omega, t.nanosecond.isLt⟩

/-- A year of four digits is far from the ends of the calendar. -/
theorem inCalendar_ofInstant (h : (LocalTime.ofInstant t offset).FourDigitYear) :
    firstMinute ≤ (LocalTime.ofInstant t offset).minutes ∧
      (LocalTime.ofInstant t offset).minutes ≤ lastMinute := by
  obtain ⟨hDate, hHour, hMinute⟩ := valid_ofInstant t offset
  have hDays := Date.toDays_bounds hDate h
  simp only [LocalTime.minutes, firstMinute, lastMinute]
  omega

/-- What a clock shows leads back to the instant. -/
theorem toInstant?_ofInstant (h : (LocalTime.ofInstant t offset).FourDigitYear) :
    (LocalTime.ofInstant t offset).toInstant? offset = some t := by
  obtain ⟨hDate, hHour, hMinute⟩ := valid_ofInstant t offset
  have hSecond := second_le_ofInstant t offset
  have hNanosecond : (LocalTime.ofInstant t offset).nanosecond < 1000000000 := t.nanosecond.isLt
  have hMinutes : (LocalTime.ofInstant t offset).minutes - offset = t.minute := by
    rw [minutes_ofInstant, Int.add_sub_cancel]
  have hFin : Fin.ofNat 61 (LocalTime.ofInstant t offset).second = t.second ∧
      Fin.ofNat 1000000000 (LocalTime.ofInstant t offset).nanosecond = t.nanosecond :=
    ⟨Fin.ext (Nat.mod_eq_of_lt t.second.isLt), Fin.ext (Nat.mod_eq_of_lt t.nanosecond.isLt)⟩
  rw [LocalTime.toInstant?,
    if_pos ⟨hDate, hHour, hMinute, hSecond, hNanosecond, inCalendar_ofInstant h⟩]
  simp only [hMinutes, t.inCalendar, and_self, dif_pos, hFin]

/-- The text that a clock shows, with the zone of the clock, is read as the instant. -/
theorem ofRfc3339?_chars {zone : List Char} (hZone : readZone zone = some offset)
    (hEnd : EndsFraction zone) (h : (LocalTime.ofInstant t offset).FourDigitYear) :
    ofRfc3339? ((LocalTime.ofInstant t offset).chars ++ zone) = some t := by
  have hRead := readRfc3339_chars (fits_ofInstant h) hEnd
  rw [hZone] at hRead
  rw [ofRfc3339?, hRead]
  exact toInstant?_ofInstant h

end Clock

/-- A time is read back from the text of a clock of universal time. -/
theorem ofRfc3339?_charsAt_zero {t : Instant} (h : t.FourDigitYear) :
    ofRfc3339? (t.charsAt 0) = some t :=
  ofRfc3339?_chars rfl (by simp [EndsFraction, offsetText]) h

/-- The text of an instant in a year of four digits is read as the instant. -/
theorem ofStored?_text {t : Instant} (h : t.FourDigitYear) : ofStored? t.text.toList = some t := by
  rw [text, String.toList_ofList, ofStored?, ofRfc3339?_charsAt_zero h]
  rfl

end Instant

end Collocation
