import Collocation.Proofs.Writer.Accounts
import Collocation.Proofs.Writer.Durations
import Mathlib.Algebra.Order.BigOperators.Group.List
import Mathlib.Data.List.DropRight

/-!
# Latencies

Metrics keep the durations of so many passes as the window holds, and these are the last ones,
whatever else was told between them. What is reported of them does not depend on their order: they
are sorted, so that the one in a place of the sorted list has at most as many smaller ones as there
are places before it, and with itself more that are not greater; and their sum is the same in any
order. The mean is right as long as the sum is a word.
-/

set_option autoImplicit false

namespace Collocation

/-! ## Sorted words -/

section Sorted

variable {words : List UInt64} (hSorted : words.Pairwise (· ≤ ·)) {index : Nat}
  (hIndex : index < words.length)
include hSorted

/-- In a sorted list the words up to a place are no larger than the one there. -/
theorem le_of_mem_take {word : UInt64} (h : word ∈ words.take (index + 1)) :
    word ≤ words[index] := by
  obtain ⟨place, hPlace, rfl⟩ := List.mem_take_iff_getElem.1 h
  rcases Nat.lt_or_eq_of_le (Nat.le_of_lt_succ (Nat.lt_of_lt_of_le hPlace (Nat.min_le_left _ _)))
    with hBefore | rfl
  · exact List.pairwise_iff_getElem.1 hSorted place index _ hIndex hBefore
  · exact UInt64.le_refl _

/-- The words from a place on are no smaller than the one there. -/
theorem le_of_mem_drop {word : UInt64} (h : word ∈ words.drop index) : words[index] ≤ word := by
  obtain ⟨place, hPlace, rfl⟩ := List.mem_drop_iff_getElem.1 h
  rcases Nat.eq_zero_or_pos place with rfl | hPos
  · exact UInt64.le_refl _
  · exact List.pairwise_iff_getElem.1 hSorted index (index + place) hIndex _ (by omega)

/-- Smaller words stand before a word. -/
theorem countP_lt_getElem : words.countP (· < words[index]) ≤ index := by
  have hAfter : (words.drop index).countP (· < words[index]) = 0 := by
    rw [List.countP_eq_zero]
    intro word hMem
    have hLe := le_of_mem_drop hSorted hIndex hMem
    simpa using hLe
  have hSplit : words.countP (· < words[index]) =
      (words.take index).countP (· < words[index]) +
        (words.drop index).countP (· < words[index]) := by
    rw [← List.countP_append, List.take_append_drop]
  rw [hSplit, hAfter, Nat.add_zero]
  exact Nat.le_trans List.countP_le_length (List.length_take_le _ _)

/-- All words up to a word are not greater. -/
theorem lt_countP_le_getElem : index + 1 ≤ words.countP (· ≤ words[index]) := by
  have hBefore : (words.take (index + 1)).countP (· ≤ words[index]) =
      (words.take (index + 1)).length := by
    rw [List.countP_eq_length]
    intro word hMem
    exact decide_eq_true (le_of_mem_take hSorted hIndex hMem)
  calc index + 1 = (words.take (index + 1)).length := by
        rw [List.length_take, Nat.min_eq_left hIndex]
    _ = (words.take (index + 1)).countP (· ≤ words[index]) := hBefore.symm
    _ ≤ words.countP (· ≤ words[index]) := (List.take_sublist _ _).countP_le

end Sorted

/-- Words are added as numbers are, up to a multiple of the size of a word. -/
theorem toNat_foldl_add (words : List UInt64) (start : UInt64) :
    (words.foldl (· + ·) start).toNat =
      (start.toNat + (words.map UInt64.toNat).sum) % 2 ^ 64 := by
  induction words generalizing start with
  | nil => exact (Nat.mod_eq_of_lt start.toNat_lt).symm
  | cons word words ih =>
    rw [List.foldl_cons, ih, UInt64.toNat_add, Nat.mod_add_mod, List.map_cons, List.sum_cons,
      Nat.add_assoc]

namespace Metrics

/-! ## What metrics are told -/

/-- What is told to metrics. -/
inductive Event where
  /-- A pass, in which so many rows were written and so many failed. -/
  | pass (written failed millis : UInt64)
  /-- The end of an execution. -/
  | execution (succeeded : Bool)

/-- How long a pass took. -/
def Event.duration? : Event → Option UInt64
  | pass _ _ millis => some millis
  | execution _ => none

def record (metrics : Metrics) : Event → Metrics
  | .pass written failed millis => metrics.recordPass written failed millis
  | .execution succeeded => metrics.recordExecution succeeded

/-- Fresh metrics that were told of some events. -/
def ofEvents (events : List Event) : Metrics :=
  events.foldl record { inWindow := nil_inWindow }

/-- The durations of all passes, the earliest first. -/
def durations (events : List Event) : List UInt64 :=
  events.filterMap Event.duration?

/-- The durations of so many passes as the window holds, the last ones. -/
def lastDurations (events : List Event) : List UInt64 :=
  (durations events).rtake latencyWindow

/-- The last of some events is recorded after the others. -/
theorem ofEvents_concat (events : List Event) (event : Event) :
    ofEvents (events ++ [event]) = (ofEvents events).record event := by
  rw [ofEvents, List.foldl_append]
  rfl

/-- One event more adds its duration, if it has one. -/
theorem durations_concat (events : List Event) (event : Event) :
    durations (events ++ [event]) = durations events ++ event.duration?.toList := by
  rw [durations, List.filterMap_append]
  cases event <;> rfl

/-- A pass comes in front of the latencies, and the earliest ones leave a window that is full. -/
theorem latencies_record (metrics : Metrics) (event : Event) :
    (metrics.record event).latencies =
      (event.duration?.toList ++ metrics.latencies).take latencyWindow := by
  cases event with
  | pass written failed millis => rfl
  | execution succeeded =>
    rw [record, latencies_recordExecution]
    exact (List.take_of_length_le metrics.inWindow).symm

/-- The latencies are the last durations. -/
theorem latencies_ofEvents (events : List Event) :
    (ofEvents events).latencies = (lastDurations events).reverse := by
  rw [lastDurations, List.rtake_eq_reverse_take_reverse, List.reverse_reverse]
  induction events using List.reverseRecOn with
  | nil => rfl
  | append_singleton events event ih =>
    rw [ofEvents_concat, latencies_record, ih, durations_concat, List.reverse_append,
      List.take_append, List.take_append, List.take_take, Nat.min_eq_left (Nat.sub_le _ _)]
    cases event <;> rfl

/-- The last duration that is told is that of the last pass, and zero without any. -/
theorem lastPass_ofEvents (events : List Event) :
    (ofEvents events).lastPass = (durations events).getLastD 0 := by
  induction events using List.reverseRecOn with
  | nil => rfl
  | append_singleton events event ih =>
    rw [ofEvents_concat, durations_concat]
    cases event with
    | pass written failed millis =>
      rw [Event.duration?, Option.toList_some, List.getLastD_concat]
      rfl
    | execution succeeded =>
      rw [record, lastPass_recordExecution, ih, Event.duration?, Option.toList_none,
        List.append_nil]

/-- The durations that are kept are the last ones, in some order. -/
theorem perm_latencies (events : List Event) :
    (ofEvents events).latencies.Perm (lastDurations events) := by
  rw [latencies_ofEvents]
  exact List.reverse_perm _

/-- What is told of a writing: its passes, and how it ended. -/
def eventsOf (writing : Writing) : List Event :=
  writing.passes.map (fun pass =>
      .pass (.ofNat pass.tally.written) (.ofNat pass.tally.failed) (.ofNat pass.elapsed)) ++
    [.execution writing.succeeded]

/-- To record a writing is to record its events. -/
theorem recordWriting_eq (metrics : Metrics) (writing : Writing) :
    metrics.recordWriting writing = (eventsOf writing).foldl record metrics := by
  rw [recordWriting, eventsOf, List.foldl_append, List.foldl_map]
  rfl

/-- Whatever is called, metrics are told of such events only. -/
theorem ofCalls_eq (calls : List Writer.Call) :
    ofCalls calls = ofEvents (calls.flatMap fun call => eventsOf call.writing) := by
  rw [ofCalls, ofEvents, List.foldl_flatMap]
  simp only [recordWriting_eq]

/-! ## What is reported of latencies -/

variable (metrics : Metrics)

/-- The sorted durations are those that are kept. -/
theorem perm_sorted : metrics.sorted.Perm metrics.latencies :=
  List.mergeSort_perm _ _

/-- The sorted durations ascend. -/
theorem pairwise_sorted : metrics.sorted.Pairwise (· ≤ ·) := by
  have hSorted : metrics.sorted.Pairwise fun a b => decide (a ≤ b) = true := by
    unfold sorted
    apply List.pairwise_mergeSort
    · intro a b c hLe hLe'
      rw [decide_eq_true_eq] at *
      exact UInt64.le_trans hLe hLe'
    · intro a b
      rw [Bool.or_eq_true, decide_eq_true_eq, decide_eq_true_eq]
      exact UInt64.le_total a b
  exact hSorted.imp of_decide_eq_true

/-- There are as many sorted durations as are kept. -/
theorem length_sorted : metrics.sorted.length = metrics.latencies.length :=
  metrics.perm_sorted.length_eq

/-- The reports do not depend on the order of the latencies. -/
theorem report_congr {metrics other : Metrics} (h : metrics.latencies.Perm other.latencies) :
    (∀ hundredths, metrics.percentile hundredths = other.percentile hundredths) ∧
      metrics.average = other.average := by
  have hSorted : metrics.sorted = other.sorted :=
    ((metrics.perm_sorted.trans h).trans other.perm_sorted.symm).eq_of_pairwise
      (fun a b _ _ hLe hLe' => UInt64.le_antisymm hLe hLe') metrics.pairwise_sorted
      other.pairwise_sorted
  constructor
  · intro hundredths
    rw [percentile, percentile, hSorted, h.length_eq]
  · rw [average, average, h.foldl_eq, h.length_eq]

/-- Without latencies all reports are zero. -/
theorem report_nil {metrics : Metrics} (h : metrics.latencies = []) :
    (∀ hundredths, metrics.percentile hundredths = 0) ∧ metrics.average = 0 := by
  have hSorted : metrics.sorted = [] := by
    rw [← List.length_eq_zero_iff, length_sorted, h]
    rfl
  constructor
  · intro hundredths
    rw [percentile, hSorted]
    rfl
  · rw [average, h]
    rfl

/-- The average is the mean, rounded down, if the sum of the latencies is a word. -/
theorem toNat_average (hSum : (metrics.latencies.map UInt64.toNat).sum < 2 ^ 64) :
    metrics.average.toNat =
      (metrics.latencies.map UInt64.toNat).sum / metrics.latencies.length := by
  have hLength : metrics.latencies.length < UInt64.size :=
    Nat.lt_of_le_of_lt metrics.inWindow (by decide)
  rw [average, UInt64.toNat_div, toNat_foldl_add, UInt64.toNat_ofNat_of_lt' hLength,
    UInt64.toNat_zero, Nat.zero_add, Nat.mod_eq_of_lt hSum]

/-- The mean is not greater than the greatest latency. -/
theorem average_le (hSum : (metrics.latencies.map UInt64.toNat).sum < 2 ^ 64) {greatest : UInt64}
    (h : ∀ millis ∈ metrics.latencies, millis ≤ greatest) : metrics.average ≤ greatest := by
  have hUpper : (metrics.latencies.map UInt64.toNat).sum ≤
      metrics.latencies.length * greatest.toNat := by
    have hWords := List.sum_le_card_nsmul (metrics.latencies.map UInt64.toNat) greatest.toNat
      (List.forall_mem_map.2 fun millis hMem => UInt64.le_iff_toNat_le.1 (h millis hMem))
    rwa [List.length_map, smul_eq_mul] at hWords
  rw [UInt64.le_iff_toNat_le, metrics.toNat_average hSum]
  exact Nat.div_le_of_le_mul hUpper

/-- A percentile is the sorted duration at its place, if the place is there. -/
theorem percentile_eq_getElem {hundredths : Nat}
    (h : metrics.latencies.length * hundredths / 100 < metrics.sorted.length) :
    metrics.percentile hundredths =
      metrics.sorted[metrics.latencies.length * hundredths / 100] := by
  rw [percentile, List.getD_eq_getElem?_getD, List.getElem?_eq_getElem h, Option.getD_some]

section Latencies

variable {metrics} (hSome : metrics.latencies ≠ [])
include hSome

/-- The place of a percentile is one of the sorted latencies. -/
theorem place_lt {hundredths : Nat} (h : hundredths < 100) :
    metrics.latencies.length * hundredths / 100 < metrics.sorted.length := by
  have hPos := List.length_pos_iff.2 hSome
  rw [length_sorted]
  apply Nat.div_lt_of_lt_mul
  rw [Nat.mul_comm]
  exact Nat.mul_lt_mul_of_pos_right h hPos

/-- A percentile is a latency, and has its place among them. -/
theorem rank_percentile {hundredths : Nat} (h : hundredths < 100) :
    metrics.percentile hundredths ∈ metrics.latencies ∧
      metrics.latencies.countP (· < metrics.percentile hundredths) ≤
        metrics.latencies.length * hundredths / 100 ∧
      metrics.latencies.length * hundredths / 100 + 1 ≤
        metrics.latencies.countP (· ≤ metrics.percentile hundredths) := by
  have hPlace := place_lt hSome h
  rw [metrics.percentile_eq_getElem hPlace, ← metrics.perm_sorted.countP_eq,
    ← metrics.perm_sorted.countP_eq]
  exact ⟨metrics.perm_sorted.mem_iff.1 (List.getElem_mem _),
    countP_lt_getElem metrics.pairwise_sorted hPlace,
    lt_countP_le_getElem metrics.pairwise_sorted hPlace⟩

/-- A higher percentile is no smaller. -/
theorem percentile_mono {hundredths more : Nat} (hLe : hundredths ≤ more) (h : more < 100) :
    metrics.percentile hundredths ≤ metrics.percentile more := by
  have hFewer := place_lt hSome (Nat.lt_of_le_of_lt hLe h)
  rw [metrics.percentile_eq_getElem hFewer, metrics.percentile_eq_getElem (place_lt hSome h)]
  apply le_of_mem_take metrics.pairwise_sorted
  rw [List.mem_take_iff_getElem]
  have hPlaces : metrics.latencies.length * hundredths / 100 ≤
      metrics.latencies.length * more / 100 :=
    Nat.div_le_div_right (Nat.mul_le_mul_left _ hLe)
  exact ⟨_, Nat.lt_min.2 ⟨Nat.lt_succ_of_le hPlaces, hFewer⟩, rfl⟩

/-- There is a least latency, and a greatest one. -/
theorem exists_least_greatest :
    ∃ least ∈ metrics.latencies, ∃ greatest ∈ metrics.latencies,
      ∀ millis ∈ metrics.latencies, least ≤ millis ∧ millis ≤ greatest := by
  have hPos : 0 < metrics.sorted.length := by
    rw [length_sorted]
    exact List.length_pos_iff.2 hSome
  have hLast : metrics.sorted.length - 1 < metrics.sorted.length := Nat.sub_one_lt_of_lt hPos
  refine ⟨metrics.sorted[0], metrics.perm_sorted.mem_iff.1 (List.getElem_mem _),
    metrics.sorted[metrics.sorted.length - 1], metrics.perm_sorted.mem_iff.1 (List.getElem_mem _),
    fun millis hMem => ?_⟩
  have hSorted := metrics.perm_sorted.mem_iff.2 hMem
  constructor
  · exact le_of_mem_drop metrics.pairwise_sorted hPos hSorted
  · apply le_of_mem_take metrics.pairwise_sorted hLast
    rwa [Nat.sub_add_cancel hPos, List.take_length]

/-- The mean is not less than the least latency. -/
theorem le_average (hSum : (metrics.latencies.map UInt64.toNat).sum < 2 ^ 64) {least : UInt64}
    (h : ∀ millis ∈ metrics.latencies, least ≤ millis) : least ≤ metrics.average := by
  have hLower : metrics.latencies.length * least.toNat ≤
      (metrics.latencies.map UInt64.toNat).sum := by
    have hWords := List.card_nsmul_le_sum (metrics.latencies.map UInt64.toNat) least.toNat
      (List.forall_mem_map.2 fun millis hMem => UInt64.le_iff_toNat_le.1 (h millis hMem))
    rwa [List.length_map, smul_eq_mul] at hWords
  rw [UInt64.le_iff_toNat_le, metrics.toNat_average hSum,
    Nat.le_div_iff_mul_le (List.length_pos_iff.2 hSome), Nat.mul_comm]
  exact hLower

end Latencies

end Metrics

/-- What is reported of latencies tells of the last durations only, as many as the window holds, and
not of their order. Without a pass it is all zero. Else a percentile is one of these durations: it
has its place in the sorted list, not more durations are smaller than there are places before it,
and more are not greater. The mean is rounded down, as long as the sum is a word, and lies between
the least duration and the greatest one. The last pass is the last duration. -/
theorem Metrics.report_of_lastDurations (events : List Event) :
    let metrics := ofEvents events
    let window := lastDurations events
    metrics.lastPass = (durations events).getLastD 0 ∧
      (∀ other : List Event, window.Perm (lastDurations other) →
        (∀ hundredths, metrics.percentile hundredths = (ofEvents other).percentile hundredths) ∧
          metrics.average = (ofEvents other).average) ∧
      (window = [] → (∀ hundredths, metrics.percentile hundredths = 0) ∧ metrics.average = 0) ∧
      (window ≠ [] →
        (∀ hundredths < 100,
          window.length * hundredths / 100 < metrics.sorted.length ∧
            metrics.percentile hundredths ∈ window ∧
            window.countP (· < metrics.percentile hundredths) ≤ window.length * hundredths / 100 ∧
            window.length * hundredths / 100 + 1 ≤
              window.countP (· ≤ metrics.percentile hundredths)) ∧
          metrics.percentile 50 ≤ metrics.percentile 95 ∧
          ((window.map UInt64.toNat).sum < 2 ^ 64 →
            metrics.average.toNat = (window.map UInt64.toNat).sum / window.length ∧
              ∃ least ∈ window, ∃ greatest ∈ window,
                (∀ millis ∈ window, least ≤ millis ∧ millis ≤ greatest) ∧
                  least ≤ metrics.average ∧ metrics.average ≤ greatest)) := by
  intro metrics window
  have hWindow : metrics.latencies.Perm window := perm_latencies events
  refine ⟨lastPass_ofEvents events, fun other hOther => ?_, fun hNone => ?_, fun hSome => ?_⟩
  · exact report_congr ((hWindow.trans hOther).trans (perm_latencies other).symm)
  · rw [hNone] at hWindow
    exact report_nil hWindow.eq_nil
  · have hLatencies : metrics.latencies ≠ [] := by
      intro hNone
      rw [hNone] at hWindow
      exact hSome hWindow.symm.eq_nil
    refine ⟨fun hundredths hLt => ?_, percentile_mono hLatencies (by decide) (by decide),
      fun hSum => ?_⟩
    · have hPlace := place_lt hLatencies hLt
      have hRank := rank_percentile hLatencies hLt
      rw [hWindow.mem_iff, hWindow.countP_eq, hWindow.countP_eq, hWindow.length_eq] at hRank
      rw [hWindow.length_eq] at hPlace
      exact ⟨hPlace, hRank⟩
    · rw [← (hWindow.map UInt64.toNat).sum_eq] at hSum ⊢
      obtain ⟨least, hLeast, greatest, hGreatest, hBetween⟩ := exists_least_greatest hLatencies
      rw [← hWindow.length_eq]
      exact ⟨metrics.toNat_average hSum, least, hWindow.mem_iff.1 hLeast, greatest,
        hWindow.mem_iff.1 hGreatest, fun millis hMem => hBetween millis (hWindow.mem_iff.2 hMem),
        le_average hLatencies hSum fun millis hMem => (hBetween millis hMem).1,
        metrics.average_le hSum fun millis hMem => (hBetween millis hMem).2⟩

/-- A slow pass, and then so many others as the window holds, and an execution that ended. -/
def Metrics.slowStart : List Event :=
  .pass 1 0 9000 :: List.replicate latencyWindow (.pass 1 0 7) ++ [.execution true]

/-- The slow pass has left the window, so all reports are of the others; and two passes are reported
alike whichever came first. -/
theorem Metrics.report_of_lastDurations_slowStart :
    (ofEvents slowStart).percentile 50 = 7 ∧ (ofEvents slowStart).percentile 95 = 7 ∧
      (ofEvents slowStart).average = 7 ∧ (ofEvents slowStart).lastPass = 7 ∧
      (ofEvents [.pass 2 0 30, .execution true, .pass 0 1 10]).average =
        (ofEvents [.pass 2 1 10, .pass 1 0 30]).average := by
  have hWindow : lastDurations slowStart = List.replicate latencyWindow 7 := by decide +kernel
  obtain ⟨hLast, -, -, hReport⟩ := report_of_lastDurations slowStart
  obtain ⟨-, hSame, -⟩ :=
    report_of_lastDurations [.pass 2 0 30, .execution true, .pass 0 1 10]
  have hSome : lastDurations slowStart ≠ [] := by
    rw [hWindow]
    decide
  obtain ⟨hRank, -, hMean⟩ := hReport hSome
  have hPercentile (hundredths : Nat) (hLt : hundredths < 100) :
      (ofEvents slowStart).percentile hundredths = 7 := by
    have hMem := (hRank hundredths hLt).2.1
    rw [hWindow] at hMem
    exact List.eq_of_mem_replicate hMem
  obtain ⟨hAverage, -⟩ := hMean (by rw [hWindow]; decide +kernel)
  refine ⟨hPercentile 50 (by decide), hPercentile 95 (by decide), UInt64.toNat.inj ?_,
    hLast.trans (by decide +kernel), (hSame _ (by decide +kernel)).2⟩
  rw [hAverage, hWindow]
  decide +kernel

end Collocation
