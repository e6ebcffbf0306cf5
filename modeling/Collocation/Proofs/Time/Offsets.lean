import Collocation.Entity.Time
import Collocation.Proofs.Time.Text

/-!
# Texts of instants on other clocks

An instant may be written as any clock shows it that is less than a day ahead of universal time or
behind it, with the offset of the clock. All these texts are read as the one instant, to the
nanosecond and with leap seconds, and so is the bare form without a zone if the second is whole.
-/

set_option autoImplicit false

namespace Collocation

open Text

/-! ## Zones -/

/-- An offset as a sign, hours and minutes. -/
def signedOffset (offset : Int) : List Char :=
  (if offset < 0 then '-' else '+') ::
    (padded 2 (offset.natAbs / 60) ++ ':' :: padded 2 (offset.natAbs % 60))

/-- The texts of the zone of a clock, less than a day ahead of universal time or behind it. -/
inductive ZoneText : Int → List Char → Prop
  | universal : ZoneText 0 ['Z']
  | signed {offset : Int} (h : -1440 < offset ∧ offset < 1440) :
    ZoneText offset (signedOffset offset)

/-- The text of an offset of less than a day is one of a zone. -/
theorem zoneText_offsetText {offset : Int} (h : -1440 < offset ∧ offset < 1440) :
    ZoneText offset (offsetText offset) := by
  unfold offsetText
  split
  · next hZero =>
    subst hZero
    exact .universal
  · exact .signed h

/-- A sign, hours and minutes are read as an offset. -/
theorem readZone_signed {c : Char} {sign : Int}
    (hSign : ∀ rest, readSign (c :: rest) = some (sign, rest)) (hLetter : c ≠ 'Z' ∧ c ≠ 'z')
    {hours minutes : Nat} (hHours : hours < 24) (hMinutes : minutes < 60) :
    readZone (c :: (padded 2 hours ++ ':' :: padded 2 minutes)) =
      some (sign * (60 * hours + minutes)) := by
  have hTwo {n : Nat} (hn : n < 100) (rest : List Char) :
      exactly 2 (padded 2 n ++ rest) = some (n, rest) := exactly_padded (by decide) hn rest
  have hLast : exactly 2 (padded 2 minutes) = some (minutes, []) := by
    have hLast := hTwo (Nat.lt_trans hMinutes (by decide)) []
    rwa [List.append_nil] at hLast
  have hFirst : exactly 2 (padded 2 hours ++ ':' :: padded 2 minutes) =
      some (hours, ':' :: padded 2 minutes) := hTwo (Nat.lt_trans hHours (by decide)) _
  have hOther : ¬(c :: (padded 2 hours ++ ':' :: padded 2 minutes) = ['Z'] ∨
      c :: (padded 2 hours ++ ':' :: padded 2 minutes) = ['z']) := by
    simp [hLetter]
  rw [readZone, if_neg hOther]
  simp only [Option.bind_eq_bind, Option.bind_some, hSign, hFirst, skip_cons, hLast,
    List.isEmpty_nil, if_true, offsetMinutes, if_pos (And.intro hHours hMinutes)]

/-- An offset of less than a day is read back from its sign, hours and minutes. -/
theorem readZone_signedOffset {offset : Int} (h : -1440 < offset ∧ offset < 1440) :
    readZone (signedOffset offset) = some offset := by
  have hHours : offset.natAbs / 60 < 24 := by omega
  have hMinutes : offset.natAbs % 60 < 60 := Nat.mod_lt _ (by decide)
  unfold signedOffset
  split
  · next hNegative =>
    rw [readZone_signed (fun rest => rfl) (by decide) hHours hMinutes]
    congr 1
    omega
  · rw [readZone_signed (fun rest => rfl) (by decide) hHours hMinutes]
    congr 1
    omega

/-- The text of a zone is read as its offset. -/
theorem ZoneText.readZone {offset : Int} {zone : List Char} (h : ZoneText offset zone) :
    readZone zone = some offset := by
  cases h with
  | universal => rfl
  | signed h => exact readZone_signedOffset h

/-- No fraction goes on in the text of a zone. -/
theorem ZoneText.endsFraction {offset : Int} {zone : List Char} (h : ZoneText offset zone) :
    EndsFraction zone := by
  cases h with
  | universal => simp [EndsFraction]
  | signed h =>
    unfold signedOffset
    split <;> simp [EndsFraction]

/-! ## The bare form -/

/-- Two digits are read as a month, a day or a part of the day. -/
theorem readShort_padded {n : Nat} (h : n < 100) (rest : List Char) :
    readShort (padded 2 n ++ rest) = some (n, rest) := by
  have hWidth : n < Nat.pow 10 2 := h
  rw [readShort, trimLeft_padded (by decide) hWidth, upTo_padded (by decide) hWidth]

/-- Four digits are read as a year. -/
theorem readYear_padded {n : Nat} (h : n < 10000) (rest : List Char) :
    readYear (padded 4 n ++ rest) = some ((n : Int), rest) := by
  have hWidth : n < Nat.pow 10 4 := h
  have hUpTo := upTo_padded (by decide) hWidth rest
  obtain ⟨digit, digits, hDigits, hDigit⟩ := exists_padded_eq_cons (by decide) hWidth
  have hSign {c : Char} {other : List Char} (hc : c.isDigit = false) :
      padded 4 n ++ rest ≠ c :: other := by
    rw [hDigits, List.cons_append]
    intro heq
    rw [(List.cons.inj heq).1, hc] at hDigit
    exact Bool.false_ne_true hDigit
  rw [readYear, trimLeft_padded (by decide) hWidth]
  split
  · next heq => exact absurd heq (hSign rfl)
  · next heq => exact absurd heq (hSign rfl)
  · rw [hUpTo]
    rfl

/-- A local time with a whole second is read as it was written, whatever follows. -/
theorem readBare_chars {t : LocalTime} (h : t.Fits) (hWhole : t.nanosecond = 0)
    (rest : List Char) : readBare (t.chars ++ rest) = some (t, rest) := by
  have hYear : t.date.year.toNat < 10000 := by
    have := h.year.2
    omega
  have hSign : ((t.date.year.toNat : Nat) : Int) = t.date.year := Int.toNat_of_nonneg h.year.1
  have hFraction : fractionText t.nanosecond ++ rest = rest := by
    rw [hWhole]
    rfl
  rw [LocalTime.chars_append h.year, hFraction, readBare]
  simp only [Option.bind_eq_bind, Option.bind_some, readYear_padded hYear,
    readShort_padded h.month, readShort_padded h.day, readShort_padded h.hour,
    readShort_padded h.minute, readShort_padded h.second, skip_cons, hSign, ← hWhole]

namespace Instant

/-! ## Instants -/

/-- An instant as it is shown by a clock, which is `offset` minutes ahead of universal time, with a
text of the zone. -/
def shown (t : Instant) (offset : Int) (zone : List Char) : String :=
  String.ofList ((LocalTime.ofInstant t offset).chars ++ zone)

section Shown

variable {t : Instant} {offset : Int}

/-- A time is read back from what a clock shows of it, in a year of four digits. -/
theorem ofText_shown {zone : List Char} (hZone : ZoneText offset zone)
    (hYear : (LocalTime.ofInstant t offset).FourDigitYear) :
    ofText (t.shown offset zone) = .ok t := by
  have hRfc := ofRfc3339?_chars hZone.readZone hZone.endsFraction hYear
  rw [ofText, shown, String.toList_ofList, ofIso8601?, hRfc]
  rfl

/-- A time in a year of four digits is read back from its text. -/
theorem ofText_text (hYear : t.FourDigitYear) : ofText t.text = .ok t :=
  ofText_shown .universal hYear

/-- The bare form is not one of RFC 3339, which has a zone always. -/
theorem ofText_shown_bare (hYear : t.FourDigitYear) (hWhole : t.nanosecond = 0) :
    ofText (t.shown 0 []) = .ok t := by
  have hFits := fits_ofInstant hYear
  have hRfc : ofRfc3339? ((LocalTime.ofInstant t 0).chars ++ []) = none := by
    rw [ofRfc3339?, readRfc3339_chars hFits (by simp [EndsFraction])]
    rfl
  have hBare : ofBare? ((LocalTime.ofInstant t 0).chars ++ []) = some t := by
    have hNanosecond : (LocalTime.ofInstant t 0).nanosecond = 0 := congrArg Fin.val hWhole
    rw [ofBare?, readBare_chars hFits hNanosecond]
    exact toInstant?_ofInstant hYear
  rw [ofText, shown, String.toList_ofList, ofIso8601?, hRfc, Option.orElse_none, hBare]

end Shown

/-- An instant is read from the text that any clock shows at it, with the zone of the clock, if the
year that is shown has four digits: so the text that is written is read as the instant, and two
texts are read alike just if they are of one instant, whatever their clocks are. A whole second in
universal time is read without a zone as with it, and a leap second is too. -/
theorem ofText_eq_of_clock :
    (∀ (t : Instant) (offset : Int) (zone : List Char), ZoneText offset zone →
      (LocalTime.ofInstant t offset).FourDigitYear → ofText (t.shown offset zone) = .ok t) ∧
    (∀ (t : Instant) (offset : Int), -1440 < offset ∧ offset < 1440 →
      (LocalTime.ofInstant t offset).FourDigitYear →
      ofText (String.ofList (t.charsAt offset)) = .ok t) ∧
    (∀ t : Instant, t.FourDigitYear → ofText t.text = .ok t) ∧
    (∀ (t t' : Instant) (offset offset' : Int) (zone zone' : List Char), ZoneText offset zone →
      ZoneText offset' zone' → (LocalTime.ofInstant t offset).FourDigitYear →
      (LocalTime.ofInstant t' offset').FourDigitYear →
      (ofText (t.shown offset zone) = ofText (t'.shown offset' zone') ↔ t = t')) ∧
    ∀ t : Instant, t.FourDigitYear → t.nanosecond = 0 →
      ofText (t.shown 0 []) = .ok t ∧ ofText (t.shown 0 ['Z']) = .ok t := by
  refine ⟨fun t offset zone hZone hYear => ofText_shown hZone hYear,
    fun t offset hOffset hYear => ofText_shown (zoneText_offsetText hOffset) hYear,
    fun t hYear => ofText_text hYear, ?_,
    fun t hYear hWhole => ⟨ofText_shown_bare hYear hWhole, ofText_shown .universal hYear⟩⟩
  intro t t' offset offset' zone zone' hZone hZone' hYear hYear'
  rw [ofText_shown hZone hYear, ofText_shown hZone' hYear', Except.ok.injEq]

/-- A part of the leap second at the end of 2016. -/
def endOf2016 : Instant :=
  (LocalTime.toInstant? ⟨⟨2016, 12, 31⟩, 23, 59, 60, 123456789⟩ 0).getD epoch

/-- The leap second is shown with the next year in the east, and with the same day in the west. -/
theorem ofText_eq_of_clock_endOf2016 :
    ofText "2017-01-01T05:29:60.123456789+05:30" = .ok endOf2016 ∧
    ofText (String.ofList (endOf2016.charsAt (-300))) = .ok endOf2016 ∧
    ofText endOf2016.text = .ok endOf2016 ∧
    ofText "2017-01-01T05:29:60.123456789+05:30" =
      ofText "2016-12-31T18:59:60.123456789-05:00" ∧
    ofText "1970-01-01T00:00:00" = .ok epoch ∧ ofText "1970-01-01T00:00:00Z" = .ok epoch := by
  obtain ⟨hClock, hOffset, hText, hAlike, hBare⟩ := ofText_eq_of_clock
  have hEast : endOf2016.shown 330 (signedOffset 330) = "2017-01-01T05:29:60.123456789+05:30" := by
    decide +kernel
  have hWest : endOf2016.shown (-300) (signedOffset (-300)) =
      "2016-12-31T18:59:60.123456789-05:00" := by decide +kernel
  have hEpoch : epoch.shown 0 [] = "1970-01-01T00:00:00" ∧
      epoch.shown 0 ['Z'] = "1970-01-01T00:00:00Z" := by decide +kernel
  have hEastYear : (LocalTime.ofInstant endOf2016 330).FourDigitYear := by decide +kernel
  have hWestYear : (LocalTime.ofInstant endOf2016 (-300)).FourDigitYear := by decide +kernel
  rw [← hEast, ← hWest, ← hEpoch.1, ← hEpoch.2]
  exact ⟨hClock _ _ _ (.signed (by decide)) hEastYear, hOffset _ _ (by decide) hWestYear,
    hText _ (by decide +kernel), (hAlike _ _ _ _ _ _ (.signed (by decide)) (.signed (by decide))
      hEastYear hWestYear).2 rfl, hBare _ (by decide +kernel) rfl⟩

end Instant

end Collocation
