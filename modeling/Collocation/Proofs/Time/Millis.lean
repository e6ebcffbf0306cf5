import Collocation.Proofs.Chains
import Collocation.Proofs.Time.Offsets

/-!
# Times to the millisecond

A time that is handed over as a text or as a count of milliseconds is kept in one form, to the
millisecond and without leap seconds: a text is read as its count would be. The count is that of the
nanoseconds, rounded down, also before 1970. A leap second counts as the second after it, which the
calendar does not have at its very end.
-/

set_option autoImplicit false

namespace Collocation

open Json

namespace Instant

/-- The nanoseconds from the beginning of 1970. A leap second counts as the second after it. -/
def nanos (t : Instant) : Int :=
  60000000000 * t.minute + 1000000000 * t.second.val + t.nanosecond.val

/-- The instant is one of whole milliseconds, and in no leap second. -/
def WholeMillis (t : Instant) : Prop :=
  t.second.val < 60 ∧ t.nanosecond.val % 1000000 = 0

instance (t : Instant) : Decidable t.WholeMillis :=
  inferInstanceAs (Decidable (_ ∧ _))

/-- The milliseconds of a time are its nanoseconds without the parts of one. -/
theorem millis_eq_nanos (t : Instant) : t.millis = t.nanos / 1000000 := by
  simp only [millis, nanos]
  omega

/-- The first part of the minute after an instant in a leap second has the count of the instant. -/
theorem millis_of_leap {t next : Instant} (hSecond : t.second = 60)
    (hMinute : next.minute = t.minute + 1) (hFirst : next.second = 0)
    (hPart : next.nanosecond = t.nanosecond) : t.millis = next.millis := by
  have hSixty : ((60 : Fin 61).val : Int) = 60 := rfl
  have hZero : ((0 : Fin 61).val : Int) = 0 := rfl
  rw [millis, millis, hSecond, hMinute, hFirst, hPart, hSixty, hZero]
  omega

/-! ## Counts of milliseconds -/

/-- Of the instants of whole milliseconds, no two have the same count. -/
theorem eq_of_millis_eq {t u : Instant} (ht : t.WholeMillis) (hu : u.WholeMillis)
    (h : t.millis = u.millis) : t = u := by
  obtain ⟨minute, second, nanosecond, hCalendar⟩ := t
  obtain ⟨minute', second', nanosecond', hCalendar'⟩ := u
  simp only [WholeMillis, millis] at ht hu h
  have hNanosecond := nanosecond.isLt
  have hNanosecond' := nanosecond'.isLt
  have hMinute : minute = minute' := by omega
  have hSecond : second = second' := Fin.ext (by omega)
  have hPart : nanosecond = nanosecond' := Fin.ext (by omega)
  subst hMinute hSecond hPart
  rfl

/-- A time that is made of milliseconds has these, and whole ones only. -/
theorem of_ofMillis?_eq_some {count : Int} {t : Instant} (h : ofMillis? count = some t) :
    t.WholeMillis ∧ t.millis = count := by
  simp only [ofMillis?] at h
  split at h
  · cases h
    simp only [WholeMillis, millis, Fin.ofNat]
    omega
  · cases h

/-- The milliseconds of which times are made are those of the years that there are. -/
theorem exists_ofMillis?_iff {count : Int} :
    (∃ t, ofMillis? count = some t) ↔
      -8334601228800000 ≤ count ∧ count ≤ 8210266876799999 := by
  have hRange : (firstMinute ≤ count / 60000 ∧ count / 60000 ≤ lastMinute) ↔
      -8334601228800000 ≤ count ∧ count ≤ 8210266876799999 := by
    simp only [firstMinute, lastMinute]
    omega
  rw [← hRange]
  by_cases hCalendar : firstMinute ≤ count / 60000 ∧ count / 60000 ≤ lastMinute
  · exact iff_of_true ⟨_, dif_pos hCalendar⟩ hCalendar
  · refine iff_of_false ?_ hCalendar
    rintro ⟨t, h⟩
    rw [ofMillis?, dif_neg hCalendar] at h
    cases h

/-- The counts of instants are in range, but for the leap second at the end of the calendar. -/
theorem millis_bounds (t : Instant) :
    (-8334601228800000 ≤ t.millis ∧ t.millis ≤ 8210266876799999) ↔
      ¬(t.minute = lastMinute ∧ t.second = 60) := by
  have hCalendar := t.inCalendar
  have hSecond := t.second.isLt
  have hNanosecond := t.nanosecond.isLt
  have hLeap : t.second = 60 ↔ t.second.val = 60 := Fin.ext_iff
  rw [hLeap]
  simp only [firstMinute, lastMinute, millis] at hCalendar ⊢
  omega

/-- The milliseconds of any time are a number of sixty-four bits. -/
theorem millis_inInt64 (t : Instant) :
    Int64.minValue.toInt ≤ t.millis ∧ t.millis ≤ Int64.maxValue.toInt := by
  have hCalendar := t.inCalendar
  have hSecond := t.second.isLt
  have hNanosecond := t.nanosecond.isLt
  have hFirst : Int64.minValue.toInt = -9223372036854775808 := rfl
  have hLast : Int64.maxValue.toInt = 9223372036854775807 := rfl
  simp only [firstMinute, lastMinute] at hCalendar
  simp only [hFirst, hLast, millis]
  omega

/-- A time is made of milliseconds just if they are in range. -/
theorem ofMillis_eq_ok_iff {count : Int} {t : Instant} :
    ofMillis count = .ok t ↔ ofMillis? count = some t := by
  rw [ofMillis]
  cases ofMillis? count <;> simp

/-- A time of whole milliseconds is made again of these. -/
theorem ofMillis_millis {t : Instant} (h : t.WholeMillis) : ofMillis t.millis = .ok t := by
  have hBounds : -8334601228800000 ≤ t.millis ∧ t.millis ≤ 8210266876799999 := by
    refine t.millis_bounds.2 fun hLeap => ?_
    have hSecond := h.1
    rw [hLeap.2] at hSecond
    exact absurd hSecond (by decide)
  obtain ⟨u, hFound⟩ := exists_ofMillis?_iff.2 hBounds
  obtain ⟨hWhole, hCount⟩ := of_ofMillis?_eq_some hFound
  rw [ofMillis_eq_ok_iff, hFound, eq_of_millis_eq hWhole h hCount]

end Instant

/-! ## Times that are handed over -/

section Reading

variable (setting : Setting)

/-- A time is read from a text as the text tells it. -/
theorem readTime_text (text : String) :
    readTime setting (.scalar (.string text)) =
      (Instant.ofTextInMillis text).mapError BadTime.fault :=
  rfl

/-- A time is read from an integer as so many milliseconds. -/
theorem readTime_integer (t : Instant) :
    readTime setting (.scalar (.integer t.millis)) =
      (Instant.ofMillis t.millis).mapError BadTime.fault :=
  if_pos t.millis_inInt64

/-- A text is read as the count of its milliseconds is, or both are not read for the same reason. -/
theorem readTime_text_eq_integer {text : String} {t : Instant} (h : Instant.ofText text = .ok t) :
    readTime setting (.scalar (.string text)) =
      readTime setting (.scalar (.integer t.millis)) := by
  rw [readTime_text, readTime_integer, Instant.ofTextInMillis, h]
  rfl

/-- The milliseconds of a time are read as the time that is made of them. -/
theorem readTime_integer_eq_ok_iff {t u : Instant} :
    readTime setting (.scalar (.integer t.millis)) = .ok u ↔
      Instant.ofMillis? t.millis = some u := by
  rw [readTime_integer, mapError_eq_ok_iff, Instant.ofMillis_eq_ok_iff]

variable {setting}

/-- What is read as a time is the instant of some count of milliseconds. -/
theorem exists_ofMillis?_of_readTime {draft : Draft} {t : Instant}
    (h : readTime setting draft = .ok t) : ∃ count, Instant.ofMillis? count = some t := by
  obtain ⟨payload, -, hTime⟩ := bind_eq_ok_iff.1 h
  split at hTime
  · split at hTime
    · exact ⟨_, Instant.ofMillis_eq_ok_iff.1 (mapError_eq_ok_iff.1 hTime)⟩
    · cases hTime
  · obtain ⟨text, -, hCount⟩ := bind_eq_ok_iff.1 (mapError_eq_ok_iff.1 hTime)
    exact ⟨_, Instant.ofMillis_eq_ok_iff.1 hCount⟩
  · cases hTime

/-- A time that is read has whole milliseconds. -/
theorem wholeMillis_of_readTime {draft : Draft} {t : Instant}
    (h : readTime setting draft = .ok t) : t.WholeMillis := by
  obtain ⟨count, hCount⟩ := exists_ofMillis?_of_readTime h
  exact (Instant.of_ofMillis?_eq_some hCount).1

/-- A time of whole milliseconds is read as it is written. -/
theorem readTime_toJson {t : Instant} (hWhole : t.WholeMillis) (hYear : t.FourDigitYear)
    (setting : Setting) : readTime setting t.toJson.toDraft = .ok t := by
  have hText : readTime setting (.scalar (.string t.text)) =
      readTime setting (.scalar (.integer t.millis)) :=
    readTime_text_eq_integer setting (Instant.ofText_text hYear)
  rw [Instant.toJson, toDraft, hText, readTime_integer, Instant.ofMillis_millis hWhole]
  rfl

end Reading

/-- Times that are handed over have one form. A count of milliseconds is that of a time just if the
calendar reaches it, and the time has that count. A text is read as its count is, or is not read as
its count is not, which happens to the last leap second of the calendar alone. The count is rounded
down from the nanoseconds, and a leap second has that of the second after it. What is read is always
of whole milliseconds and in no leap second; it is written, in a year of four digits, as what is
read as the same again. -/
theorem readTime_normalForm :
    (∀ count : Int64,
      ((∃ t, Instant.ofMillis count.toInt = .ok t) ↔
        -8334601228800000 ≤ count.toInt ∧ count.toInt ≤ 8210266876799999) ∧
      ∀ t, Instant.ofMillis count.toInt = .ok t → t.millis = count.toInt) ∧
    (∀ (setting : Setting) (text : String) (t : Instant), Instant.ofText text = .ok t →
      readTime setting (.scalar (.string text)) =
        readTime setting (.scalar (.integer t.millis)) ∧
      ((∃ u, readTime setting (.scalar (.string text)) = .ok u) ↔
        ¬(t.minute = lastMinute ∧ t.second = 60)) ∧
      ∀ u, readTime setting (.scalar (.string text)) = .ok u → u.millis = t.millis) ∧
    (∀ t : Instant, t.millis = t.nanos / 1000000 ∧
      ∀ next : Instant, t.second = 60 → next.minute = t.minute + 1 → next.second = 0 →
        next.nanosecond = t.nanosecond → t.millis = next.millis) ∧
    ∀ (setting : Setting) (draft : Draft) (t : Instant), readTime setting draft = .ok t →
      t.WholeMillis ∧
        (t.FourDigitYear → ∀ again : Setting, readTime again t.toJson.toDraft = .ok t) := by
  refine ⟨fun count => ⟨?_, fun t h => ?_⟩, fun setting text t h => ?_,
    fun t => ⟨t.millis_eq_nanos, fun next => Instant.millis_of_leap⟩,
    fun setting draft t h => ⟨wholeMillis_of_readTime h,
      fun hYear again => readTime_toJson (wholeMillis_of_readTime h) hYear again⟩⟩
  · simp only [Instant.ofMillis_eq_ok_iff, Instant.exists_ofMillis?_iff]
  · exact (Instant.of_ofMillis?_eq_some (Instant.ofMillis_eq_ok_iff.1 h)).2
  · have hAlike := readTime_text_eq_integer setting h
    refine ⟨hAlike, ?_, fun u hRead => ?_⟩
    · rw [hAlike, ← t.millis_bounds, ← Instant.exists_ofMillis?_iff]
      simp only [readTime_integer_eq_ok_iff]
    · rw [hAlike, readTime_integer_eq_ok_iff] at hRead
      exact (Instant.of_ofMillis?_eq_some hRead).2

/-- Half a millisecond before 1970, and the millisecond that it is in. -/
def Instant.halfBefore : Instant :=
  (LocalTime.toInstant? ⟨⟨1969, 12, 31⟩, 23, 59, 59, 999500000⟩ 0).getD .epoch

def Instant.milliBefore : Instant :=
  (Instant.ofMillis? (-1)).getD .epoch

/-- What is as far in 2017 as the part of the leap second before it. -/
def Instant.startOf2017 : Instant :=
  (LocalTime.toInstant? ⟨⟨2017, 1, 1⟩, 0, 0, 0, 123456789⟩ 0).getD .epoch

/-- Half a millisecond before 1970 is rounded down to a whole one, which stays as it is then. -/
theorem readTime_normalForm_halfBefore :
    Instant.milliBefore.millis = (-1 : Int64).toInt ∧
    readTime ⟨.value, 0⟩ (.scalar (.string "1969-12-31T23:59:59.999500Z")) =
      .ok Instant.milliBefore ∧
    (∀ u, readTime ⟨.value, 0⟩ (.scalar (.string "1969-12-31T23:59:59.999500Z")) = .ok u →
      u.millis = -1) ∧
    Instant.endOf2016.millis = Instant.startOf2017.millis ∧
    readTime ⟨.text, 5⟩ Instant.milliBefore.toJson.toDraft = .ok Instant.milliBefore := by
  obtain ⟨hCount, hText, hFloor, hForm⟩ := readTime_normalForm
  have hWritten : Instant.halfBefore.text = "1969-12-31T23:59:59.999500Z" := by decide +kernel
  have hHalf : Instant.ofText "1969-12-31T23:59:59.999500Z" = .ok Instant.halfBefore := by
    rw [← hWritten]
    exact Instant.ofText_text (by decide +kernel)
  obtain ⟨hAlike, -, hMillis⟩ := hText ⟨.value, 0⟩ _ _ hHalf
  have hRead : readTime ⟨.value, 0⟩ (.scalar (.string "1969-12-31T23:59:59.999500Z")) =
      .ok Instant.milliBefore := hAlike.trans rfl
  exact ⟨(hCount (-1)).2 _ rfl, hRead, hMillis,
    (hFloor _).2 _ (by decide) (by decide) (by decide) (by decide),
    (hForm _ _ _ hRead).2 (by decide +kernel) _⟩

end Collocation
