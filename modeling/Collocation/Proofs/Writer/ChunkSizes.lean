import Collocation.Proofs.Writer.Passes
import Mathlib.Algebra.Order.Floor.Div

/-!
# Sizes of chunks

Where the rows are cut does not matter. Two writers whose configurations differ in the size of the
chunks only leave the same store, come to the same result, and are counted alike: each pass writes
the rows one after the other in either case, so that the fault is asked the same questions. What
differs is how many chunks are told, and how long the passes take.
-/

set_option autoImplicit false

namespace Collocation

/-! ## The number of chunks -/

/-- A list has as many chunks as it takes to hold its items. -/
theorem length_chunks {α : Type} {size : Nat} (hSize : 0 < size) (items : List α) :
    (chunks size items).length = items.length ⌈/⌉ size := by
  rw [Nat.ceilDiv_eq_add_pred_div]
  fun_induction chunks size items with
  | case1 =>
    rw [List.length_nil, List.length_nil, Nat.div_eq_of_lt (by omega)]
  | case2 item items ih =>
    rw [List.length_cons, ih, List.length_drop, List.length_cons, ← Nat.add_div_right _ hSize]
    by_cases hLt : items.length < size - 1
    · -- The only chunk is not full.
      have hLeft : items.length - (size - 1) + size - 1 + size = size - 1 + size := by omega
      have hRight : items.length + 1 + size - 1 = items.length + size := by omega
      rw [hLeft, hRight, Nat.add_div_right _ hSize, Nat.add_div_right _ hSize,
        Nat.div_eq_of_lt (by omega), Nat.div_eq_of_lt (by omega)]
    · congr 1
      omega

/-- The chunks of a writer have at least one row. -/
theorem Writer.chunkSize_pos (writer : Writer) : 0 < writer.config.chunkSize.toNat := by
  have hSize : writer.config.chunkSize ≠ 0 := writer.usable.1
  have hNe : writer.config.chunkSize.toNat ≠ 0 := fun hZero =>
    hSize (UInt64.toNat_inj.1 hZero)
  omega

/-- The count that is told is rounded up. -/
theorem Writer.chunkCount_eq (writer : Writer) (rows : Nat) :
    writer.chunkCount rows = rows ⌈/⌉ writer.config.chunkSize.toNat := by
  rw [Nat.ceilDiv_eq_add_pred_div]
  rfl

/-! ## Writings whose passes come to the same -/

/-- Whether a writing succeeded is told by its tallies. -/
theorem Writing.succeeded_eq_any (writing : Writing) :
    writing.succeeded = (writing.passes.map Pass.tally).any fun tally => tally.failed = 0 := by
  rw [Writing.succeeded, List.any_map]
  rfl

/-! ## Metrics that count alike -/

/-- Metrics that have the same counts. Their latencies may differ. -/
structure Metrics.CountAlike (a b : Metrics) : Prop where
  passes : a.passes = b.passes
  failedPasses : a.failedPasses = b.failedPasses
  rowsWritten : a.rowsWritten = b.rowsWritten
  rowFailures : a.rowFailures = b.rowFailures
  executionsWritten : a.executionsWritten = b.executionsWritten
  executionsExhausted : a.executionsExhausted = b.executionsExhausted

namespace Metrics.CountAlike

variable {a b : Metrics}

/-- Metrics count like themselves. -/
theorem refl (a : Metrics) : a.CountAlike a :=
  ⟨rfl, rfl, rfl, rfl, rfl, rfl⟩

/-- Metrics that count alike tell the same retries. -/
theorem retries (h : a.CountAlike b) : a.retries = b.retries := by
  simp only [Metrics.retries, h.passes, h.executionsWritten, h.executionsExhausted]

/-- Metrics that count alike do so after a pass, however long this took. -/
theorem recordPass (h : a.CountAlike b) (written failed millis millis' : UInt64) :
    (a.recordPass written failed millis).CountAlike (b.recordPass written failed millis') where
  passes := by simp only [Metrics.recordPass, h.passes]
  failedPasses := by simp only [Metrics.recordPass, h.failedPasses]
  rowsWritten := by simp only [Metrics.recordPass, h.rowsWritten]
  rowFailures := by simp only [Metrics.recordPass, h.rowFailures]
  executionsWritten := h.executionsWritten
  executionsExhausted := h.executionsExhausted

/-- Metrics that count alike do so after the end of an execution. -/
theorem recordExecution (h : a.CountAlike b) (succeeded : Bool) :
    (a.recordExecution succeeded).CountAlike (b.recordExecution succeeded) := by
  obtain ⟨hPasses, hFailed, hWritten, hFailures, hExecutions, hExhausted⟩ := h
  cases succeeded with
  | true => exact ⟨hPasses, hFailed, hWritten, hFailures, congrArg (· + 1) hExecutions, hExhausted⟩
  | false => exact ⟨hPasses, hFailed, hWritten, hFailures, hExecutions, congrArg (· + 1) hExhausted⟩

/-- Writings whose passes wrote and failed alike are counted alike. -/
theorem recordWriting (h : a.CountAlike b) {writing other : Writing}
    (hTallies : writing.passes.map Pass.tally = other.passes.map Pass.tally) :
    (a.recordWriting writing).CountAlike (b.recordWriting other) := by
  obtain ⟨passes, store⟩ := writing
  obtain ⟨passes', store'⟩ := other
  rw [Metrics.recordWriting, Metrics.recordWriting, Writing.succeeded_eq_any,
    Writing.succeeded_eq_any, hTallies]
  apply recordExecution
  induction passes generalizing passes' a b with
  | nil =>
    obtain rfl : passes' = [] := by simpa using hTallies.symm
    exact h
  | cons pass passes ih =>
    obtain - | ⟨pass', passes'⟩ := passes'
    · cases hTallies
    · simp only [List.map_cons, List.cons.injEq] at hTallies
      rw [List.foldl_cons, List.foldl_cons, hTallies.1]
      exact ih (h.recordPass _ _ _ _) passes' hTallies.2

end Metrics.CountAlike

/-! ## Two writers -/

/-- Two writers whose configurations differ in the size of the chunks only. -/
def Writer.SameButChunks (writer other : Writer) : Prop :=
  other.config = { writer.config with chunkSize := other.config.chunkSize }

namespace Writer.SameButChunks

variable {writer other : Writer} (h : writer.SameButChunks other)
include h

/-- Writers that differ in the size of chunks only write a row alike. -/
theorem writeRow_eq (store : Store) (row : Row) :
    other.writeRow store row = writer.writeRow store row := by
  have hTimeout : other.config.rowTimeout = writer.config.rowTimeout := by rw [h]
  rw [writeRow, writeRow, timesOut, timesOut, hTimeout]

/-- Writers that differ in the size of chunks only write rows alike. -/
theorem writeRows_eq (rows : List Row) (store : Store) :
    other.writeRows rows store = writer.writeRows rows store := by
  induction rows generalizing store with
  | nil => rfl
  | cons row rows ih => simp only [writeRows, h.writeRow_eq, ih]

/-- A pass of either comes to the same. -/
theorem writePass_eq (rows : List Row) (store : Store) :
    (other.writePass rows store).1.tally = (writer.writePass rows store).1.tally ∧
      (other.writePass rows store).2 = (writer.writePass rows store).2 := by
  obtain ⟨hTally, hStore⟩ := writer.writePass_eq rows store
  obtain ⟨hTally', hStore'⟩ := other.writePass_eq rows store
  rw [hTally, hStore, hTally', hStore', h.writeRows_eq]
  exact ⟨rfl, rfl⟩

/-- So do all passes: what is left to do after a pass is decided by its tally alone. -/
theorem writePasses_eq (rows : List Row) (attempts : Nat) (store : Store) :
    (other.writePasses rows attempts store).passes.map Pass.tally =
        (writer.writePasses rows attempts store).passes.map Pass.tally ∧
      (other.writePasses rows attempts store).store =
        (writer.writePasses rows attempts store).store := by
  induction attempts generalizing store with
  | zero => exact ⟨rfl, rfl⟩
  | succ attempts ih =>
    obtain ⟨hTally, hStore⟩ := h.writePass_eq rows store
    obtain ⟨hTallies, hStores⟩ := ih (writer.writePass rows store).2
    have hSucceeded : (other.writePass rows store).1.succeeded =
        (writer.writePass rows store).1.succeeded := by
      rw [Pass.succeeded, hTally, Pass.succeeded]
    simp only [writePasses, hSucceeded, hStore]
    split
    · exact ⟨by simp only [List.map_cons, List.map_nil, hTally], rfl⟩
    · exact ⟨by simp only [List.map_cons, hTally, hTallies], hStores⟩

/-- Writers that differ in the size of chunks only make the same passes, but for their durations,
and leave the same store. -/
theorem write_eq (rows : List FlatRow) (store : Store) :
    (other.write rows store).passes.map Pass.tally =
        (writer.write rows store).passes.map Pass.tally ∧
      (other.write rows store).store = (writer.write rows store).store := by
  have hAttempts : other.config.maxAttempts = writer.config.maxAttempts := by rw [h]
  rw [write, write, hAttempts]
  exact h.writePasses_eq _ _ store

end Writer.SameButChunks

/-- Chunks of another size leave the same store and the same counts, and come to the same result, of
which only the number of chunks is another. -/
theorem Writer.write_of_other_chunks {writer other : Writer} (h : writer.SameButChunks other)
    (rows : List FlatRow) (store : Store) (executionId : Uuid) (metrics : Metrics) :
    (other.write rows store).store = (writer.write rows store).store ∧
      ((other.write rows store).result other executionId rows.length =
        ((writer.write rows store).result writer executionId rows.length).map fun report =>
          { report with chunks := rows.length ⌈/⌉ other.config.chunkSize.toNat }) ∧
      (∀ report, (writer.write rows store).result writer executionId rows.length = .ok report →
        report.chunks = rows.length ⌈/⌉ writer.config.chunkSize.toNat ∧
          report.chunks = (chunks writer.config.chunkSize.toNat rows).length) ∧
      (metrics.recordWriting (other.write rows store)).CountAlike
        (metrics.recordWriting (writer.write rows store)) ∧
      (metrics.recordWriting (other.write rows store)).retries =
        (metrics.recordWriting (writer.write rows store)).retries := by
  obtain ⟨hTallies, hStore⟩ := h.write_eq rows store
  have hCounts := (Metrics.CountAlike.refl metrics).recordWriting hTallies
  have hSucceeded : (other.write rows store).succeeded = (writer.write rows store).succeeded := by
    rw [Writing.succeeded_eq_any, hTallies, Writing.succeeded_eq_any]
  have hLength : (other.write rows store).passes.length =
      (writer.write rows store).passes.length := by
    have hLengths := congrArg List.length hTallies
    rwa [List.length_map, List.length_map] at hLengths
  have hAttempts : other.config.maxAttempts = writer.config.maxAttempts := by rw [h]
  refine ⟨hStore, ?_, ?_, hCounts, hCounts.retries⟩
  · rw [Writing.result, Writing.result, hSucceeded, hLength, other.chunkCount_eq, hAttempts]
    split <;> rfl
  · intro report hReport
    rw [length_chunks writer.chunkSize_pos, and_self, ← writer.chunkCount_eq]
    rw [Writing.result] at hReport
    split at hReport
    · cases hReport
      rfl
    · cases hReport

/-- Three rows of which the first is rejected once, one at a time and two at the same time. -/
theorem Writer.write_of_other_chunks_three :
    (plainWriter 1 (by decide)).SameButChunks (plainWriter 2 (by decide)) ∧
      ((plainWriter 2 (by decide)).write [plainRow 1, plainRow 2, plainRow 3]
          { fault := some (.first 1) }).store =
        ((plainWriter 1 (by decide)).write [plainRow 1, plainRow 2, plainRow 3]
          { fault := some (.first 1) }).store ∧
      ((plainWriter 2 (by decide)).write [plainRow 1, plainRow 2, plainRow 3]
          { fault := some (.first 1) }).result (plainWriter 2 (by decide)) .nil 3 =
        .ok { rows := 3, attempts := 2, chunks := 2 } := by
  have hSame : (plainWriter 1 (by decide)).SameButChunks (plainWriter 2 (by decide)) := rfl
  have hOnes : ((plainWriter 1 (by decide)).write [plainRow 1, plainRow 2, plainRow 3]
      { fault := some (.first 1) }).result (plainWriter 1 (by decide)) .nil 3 =
        .ok { rows := 3, attempts := 2, chunks := 3 } := by decide +kernel
  obtain ⟨hStore, hResult, -⟩ := Writer.write_of_other_chunks hSame
    [plainRow 1, plainRow 2, plainRow 3] { fault := some (.first 1) } .nil
    { inWindow := by decide }
  refine ⟨hSame, hStore, ?_⟩
  rw [show [plainRow 1, plainRow 2, plainRow 3].length = 3 from rfl, hOnes] at hResult
  exact hResult

end Collocation
