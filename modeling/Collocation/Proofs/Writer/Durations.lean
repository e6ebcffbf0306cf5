import Collocation.Proofs.Writer.ChunkSizes
import Mathlib.Algebra.BigOperators.Group.List.Basic

/-!
# Durations

How long writing takes on a clock that goes on by waits only. The rows of a chunk wait at the same
time, each for the delay of the store or for its limit if that is shorter; the chunks of a pass come
one after the other; and between two passes there is a pause. A wait is never longer than the
longest one. If the limit is shorter than the delay, no write comes to the store; if it is not, it
makes no difference.
-/

set_option autoImplicit false

namespace Collocation

attribute [ext] Pass

/-! ## Latencies -/

namespace Metrics

/-- The end of an execution adds no duration. -/
@[simp] theorem latencies_recordExecution (metrics : Metrics) (succeeded : Bool) :
    (metrics.recordExecution succeeded).latencies = metrics.latencies := by
  cases succeeded <;> rfl

/-- The end of an execution does not change the last duration. -/
@[simp] theorem lastPass_recordExecution (metrics : Metrics) (succeeded : Bool) :
    (metrics.recordExecution succeeded).lastPass = metrics.lastPass := by
  cases succeeded <;> rfl

/-- The latencies of new passes stand in front of the others, as far as the window goes. -/
theorem latencies_recordWriting (metrics : Metrics) (writing : Writing) :
    (metrics.recordWriting writing).latencies =
      ((writing.passes.map fun pass => UInt64.ofNat pass.elapsed).reverse ++
        metrics.latencies).take latencyWindow := by
  obtain ⟨passes, store⟩ := writing
  rw [recordWriting, latencies_recordExecution]
  -- The window is cut after each pass. Cutting it once at the end leaves the same latencies.
  induction passes generalizing metrics with
  | nil => exact (List.take_of_length_le metrics.inWindow).symm
  | cons pass passes ih =>
    rw [List.foldl_cons, ih, List.map_cons, List.reverse_cons, List.append_assoc,
      List.singleton_append, recordPass, List.take_append, List.take_append, List.take_take,
      Nat.min_eq_left (Nat.sub_le _ _)]

/-- The last pass is the last one of a writing. -/
theorem lastPass_recordWriting (metrics : Metrics) (writing : Writing) :
    (metrics.recordWriting writing).lastPass =
      ((writing.passes.map fun pass => UInt64.ofNat pass.elapsed).getLast?).getD
        metrics.lastPass := by
  obtain ⟨passes, store⟩ := writing
  rw [recordWriting, lastPass_recordExecution]
  induction passes generalizing metrics with
  | nil => rfl
  | cons pass passes ih =>
    rw [List.foldl_cons, ih, List.map_cons, List.getLast?_cons, Option.getD_some]
    rfl

end Metrics

namespace Writer

variable (writer : Writer)

/-! ## Chunks and passes -/

/-- Milliseconds for which the write of a row goes on: for the delay of the store, or only up to its
limit. -/
def rowTime (store : Store) : Nat :=
  match writer.config.rowTimeout with
  | none => waitTime store.writeDelay
  | some limit => min (waitTime store.writeDelay) (waitTime limit)

/-- A chunk takes as long as one of its rows, as they are written side by side. -/
theorem chunkTime_eq (store : Store) : writer.chunkTime store = writer.rowTime store := by
  unfold chunkTime timesOut rowTime
  cases writer.config.rowTimeout with
  | none => rfl
  | some limit =>
    by_cases hLt : waitTime limit < waitTime store.writeDelay
    · simp only [Option.filter, decide_eq_true hLt, if_true, Option.getD_some]
      omega
    · simp only [Option.filter, decide_eq_false hLt, Bool.false_eq_true, if_false,
        Option.getD_none]
      omega

/-- Milliseconds of a pass over so many rows. -/
def passTime (rows : Nat) (store : Store) : Nat :=
  rows ⌈/⌉ writer.config.chunkSize.toNat * writer.rowTime store

/-- A pass takes as long as its chunks, one after the other. -/
theorem elapsed_writePass (rows : List Row) (store : Store) :
    (writer.writePass rows store).1.elapsed = writer.passTime rows.length store := by
  rw [writePass, elapsed_writeChunks, length_chunks writer.chunkSize_pos, chunkTime_eq, passTime]

/-- A pass does not change the delay of its store. -/
theorem writeDelay_writePass (rows : List Row) (store : Store) :
    (writer.writePass rows store).2.writeDelay = store.writeDelay := by
  rw [(writer.writePass_eq rows store).2, writeDelay_writeRows]

/-- A pass does not change how long the next one takes. -/
theorem passTime_writePass (rows : List Row) (store : Store) (count : Nat) :
    writer.passTime count (writer.writePass rows store).2 = writer.passTime count store := by
  unfold passTime rowTime
  rw [writeDelay_writePass]

/-- All passes over the same rows take the same time. -/
theorem elapsed_of_mem_passes {rows : List Row} {attempts : Nat} {store : Store} {pass : Pass}
    (h : pass ∈ (writer.writePasses rows attempts store).passes) :
    pass.elapsed = writer.passTime rows.length store := by
  induction attempts generalizing store with
  | zero => cases h
  | succ attempts ih =>
    have hFirst := writer.elapsed_writePass rows store
    simp only [writePasses] at h
    split at h
    · obtain rfl := List.mem_singleton.1 h
      exact hFirst
    · rcases List.mem_cons.1 h with rfl | hMore
      · exact hFirst
      · rw [ih hMore, passTime_writePass]

/-! ## The clock -/

/-- The clock after rows that began to be written at one time: it has come to the end of the last of
them. -/
def afterChunk (store : Store) (clock : Nat) (chunk : List Row) : Nat :=
  (chunk.map fun _ => clock + writer.rowTime store).foldl max clock

/-- The clock after a pass, whose chunks come one after the other. -/
def afterPass (store : Store) (clock : Nat) (rows : List Row) : Nat :=
  (chunks writer.config.chunkSize.toNat rows).foldl (writer.afterChunk store) clock

/-- The clock after all passes. There is a pause after a pass that is followed by another one. -/
def afterPasses (rows : List Row) : Nat → Store → Nat → Nat
  | 0, _, clock => clock
  | attempts + 1, store, clock =>
    let (pass, after) := writer.writePass rows store
    let clock := writer.afterPass store clock rows
    if pass.succeeded ∨ attempts = 0 then clock
    else afterPasses rows attempts after (clock + waitTime writer.config.retryBackoff)

/-- A chunk with rows in it takes as long as one row. -/
theorem afterChunk_of_ne_nil (store : Store) (clock : Nat) {chunk : List Row} (h : chunk ≠ []) :
    writer.afterChunk store clock chunk = clock + writer.rowTime store := by
  unfold afterChunk
  rw [List.map_const', List.foldl_max, List.max?_replicate_of_pos (List.length_pos_iff.2 h),
    Option.getD_some]
  exact Nat.max_eq_right (Nat.le_add_right _ _)

/-- No chunk is empty. -/
theorem ne_nil_of_mem_chunks {α : Type} {size : Nat} {items chunk : List α}
    (h : chunk ∈ chunks size items) : chunk ≠ [] := by
  fun_induction chunks size items with
  | case1 => cases h
  | case2 item items ih =>
    rcases List.mem_cons.1 h with rfl | hMore
    · exact List.cons_ne_nil _ _
    · exact ih hMore

/-- Chunks with rows in them take as long as so many rows. -/
theorem foldl_afterChunk (store : Store) {parts : List (List Row)} (h : ∀ chunk ∈ parts, chunk ≠ [])
    (clock : Nat) :
    parts.foldl (writer.afterChunk store) clock =
      clock + parts.length * writer.rowTime store := by
  induction parts generalizing clock with
  | nil => simp
  | cons chunk parts ih =>
    obtain ⟨hChunk, hParts⟩ := List.forall_mem_cons.1 h
    rw [List.foldl_cons, afterChunk_of_ne_nil _ _ _ hChunk, ih hParts, List.length_cons,
      Nat.succ_mul]
    omega

/-- A pass takes as long as its chunks together. -/
theorem afterPass_eq (store : Store) (clock : Nat) (rows : List Row) :
    writer.afterPass store clock rows = clock + (writer.writePass rows store).1.elapsed := by
  unfold afterPass
  rw [foldl_afterChunk _ _ fun chunk => ne_nil_of_mem_chunks, elapsed_writePass, passTime,
    length_chunks writer.chunkSize_pos]

/-- A pass in front of others is followed by a pause. -/
theorem elapsed_cons (pass : Pass) {writing : Writing} (h : writing.passes ≠ []) :
    Writing.elapsed { writing with passes := pass :: writing.passes } writer =
      pass.elapsed + waitTime writer.config.retryBackoff + writing.elapsed writer := by
  have hLength : writing.passes.length - 1 + 1 = writing.passes.length :=
    Nat.sub_add_cancel (List.length_pos_iff.2 h)
  unfold Writing.elapsed
  simp only [← List.sum_eq_foldl, List.map_cons, List.sum_cons, List.length_cons,
    Nat.add_sub_cancel]
  rw [← hLength, Nat.succ_mul, Nat.add_sub_cancel]
  omega

/-- A writing of a single pass takes as long as this pass. -/
theorem elapsed_single (pass : Pass) (store : Store) :
    Writing.elapsed ⟨[pass], store⟩ writer = pass.elapsed := by
  simp [Writing.elapsed]

/-- The clock goes on by what is told of a writing. -/
theorem afterPasses_eq (rows : List Row) (attempts : Nat) (store : Store) (clock : Nat) :
    writer.afterPasses rows attempts store clock =
      clock + (writer.writePasses rows attempts store).elapsed writer := by
  induction attempts generalizing store clock with
  | zero => simp [afterPasses, writePasses, Writing.elapsed]
  | succ attempts ih =>
    have hPass := writer.afterPass_eq store clock rows
    simp only [afterPasses, writePasses, hPass]
    -- After a full pass, or the last one that is allowed, there is no pause.
    by_cases hFull : (writer.writePass rows store).1.succeeded = true
    · rw [if_pos (.inl hFull), if_pos hFull, elapsed_single]
    · rw [if_neg hFull]
      by_cases hLast : attempts = 0
      · subst hLast
        rw [if_pos (.inr rfl)]
        exact congrArg (clock + ·) (writer.elapsed_single _ _).symm
      · have hMore := writer.passes_ne_nil rows hLast (writer.writePass rows store).2
        rw [if_neg (not_or.2 ⟨hFull, hLast⟩), ih, writer.elapsed_cons _ hMore]
        omega

/-- All passes take the same time, and there is a pause between two of them. -/
theorem elapsed_writePasses (rows : List Row) (attempts : Nat) (store : Store) :
    (writer.writePasses rows attempts store).elapsed writer =
      (writer.writePasses rows attempts store).passes.length * writer.passTime rows.length store +
        ((writer.writePasses rows attempts store).passes.length - 1) *
          waitTime writer.config.retryBackoff := by
  have hPasses : (writer.writePasses rows attempts store).passes.map Pass.elapsed =
      List.replicate (writer.writePasses rows attempts store).passes.length
        (writer.passTime rows.length store) := by
    rw [List.map_congr_left fun pass => writer.elapsed_of_mem_passes, List.map_const']
  unfold Writing.elapsed
  rw [hPasses, ← List.sum_eq_foldl, List.sum_replicate_nat]

/-! ## Writes that all fail -/

/-- Every write of a row fails, and leaves the store as it is. -/
def Refused (store : Store) : Prop :=
  ∀ row, ∃ failure, writer.writeRow store row = (.error failure, store)

section Refused

variable {writer} {store : Store} (h : writer.Refused store)
include h

/-- If each row is refused, so are all rows, and the store is as it was. -/
theorem writeRows_of_refused (rows : List Row) :
    writer.writeRows rows store = (⟨0, rows.length⟩, store) := by
  induction rows with
  | nil => rfl
  | cons row rows ih =>
    obtain ⟨failure, hRow⟩ := h row
    simp only [writeRows, hRow, ih, Tally.ofWrite, Tally.add, List.length_cons, Prod.mk.injEq,
      Tally.mk.injEq, and_true, true_and]
    omega

/-- If each row is refused, a pass fails with all its rows, and takes its time nevertheless. -/
theorem writePass_of_refused (rows : List Row) :
    writer.writePass rows store =
      (⟨⟨0, rows.length⟩, writer.passTime rows.length store⟩, store) := by
  obtain ⟨hTally, hStore⟩ := writer.writePass_eq rows store
  have hElapsed := writer.elapsed_writePass rows store
  rw [writeRows_of_refused h] at hTally hStore
  exact Prod.ext (Pass.ext hTally hElapsed) hStore

/-- If each row is refused, every pass fails, unless there are no rows. -/
theorem writePasses_of_refused {rows : List Row} (hRows : rows ≠ []) (attempts : Nat) :
    writer.writePasses rows attempts store =
      ⟨List.replicate attempts ⟨⟨0, rows.length⟩, writer.passTime rows.length store⟩, store⟩ := by
  have hFailed : rows.length ≠ 0 := mt List.length_eq_zero_iff.1 hRows
  induction attempts with
  | zero => rfl
  | succ attempts ih =>
    simp only [writePasses, writePass_of_refused h, Pass.succeeded, decide_eq_true_eq, hFailed,
      if_false, ih, List.replicate_succ]

/-- If each row is refused, a writing of any rows fails, and leaves the store as it was. -/
theorem write_of_refused {rows : List FlatRow} (hRows : rows ≠ []) (executionId : Uuid) :
    (writer.write rows store).passes.map Pass.tally =
        List.replicate writer.config.maxAttempts.toNat ⟨0, rows.length⟩ ∧
      (writer.write rows store).store = store ∧
      (writer.write rows store).result writer executionId rows.length =
        .error (.writeFailed executionId rows.length writer.config.maxAttempts.toNat) := by
  have hFailed : rows.length ≠ 0 := mt List.length_eq_zero_iff.1 hRows
  have hAll : writer.write rows store =
      ⟨List.replicate writer.config.maxAttempts.toNat
        ⟨⟨0, rows.length⟩, writer.passTime rows.length store⟩, store⟩ := by
    have hSome : rows.map FlatRow.toRow ≠ [] := mt List.map_eq_nil_iff.1 hRows
    have hPasses := writePasses_of_refused h hSome writer.config.maxAttempts.toNat
    rwa [List.length_map] at hPasses
  have hNone : (writer.write rows store).succeeded = false := by
    unfold Writing.succeeded
    rw [hAll, List.any_eq_false]
    intro pass hPass
    obtain ⟨-, rfl⟩ := List.mem_replicate.1 hPass
    simp [Pass.succeeded, hFailed]
  refine ⟨?_, ?_, ?_⟩
  · rw [hAll, List.map_replicate]
  · rw [hAll]
  · unfold Writing.result
    rw [hNone]
    rfl

end Refused

/-- Writes that take too long do not come to the store. -/
theorem write_of_timesOut {writer : Writer} {store : Store} {limit : UInt64}
    (h : writer.timesOut store = some limit) {rows : List FlatRow} (hRows : rows ≠ [])
    (executionId : Uuid) :
    (writer.write rows store).passes.map Pass.tally =
        List.replicate writer.config.maxAttempts.toNat ⟨0, rows.length⟩ ∧
      (writer.write rows store).store = store ∧
      (writer.write rows store).result writer executionId rows.length =
        .error (.writeFailed executionId rows.length writer.config.maxAttempts.toNat) := by
  have hRefused : writer.Refused store := by
    intro row
    refine ⟨.timedOut limit.toNat, ?_⟩
    unfold writeRow
    rw [h]
  exact write_of_refused hRefused hRows executionId

/-- A writing with no rows is one pass that succeeds, whatever the store. -/
theorem write_nil (store : Store) : writer.write [] store = ⟨[⟨.zero, 0⟩], store⟩ := by
  have hPass : writer.writePass [] store = (⟨.zero, 0⟩, store) := by
    rw [writePass, chunks]
    rfl
  obtain ⟨more, hMore⟩ := writer.exists_maxAttempts
  unfold write
  rw [hMore]
  simp only [List.map_nil, writePasses, hPass]
  rfl

/-! ## Limits that are not reached -/

/-- The writer that waits for the store as long as it takes. -/
def unlimited : Writer :=
  ⟨{ writer.config with rowTimeout := none }, writer.usable⟩

section NotReached

variable {writer} {store : Store} (h : writer.Patient store)
include h

/-- A writer that is patient with a store is so with one of the same delay. -/
theorem Patient.of_writeDelay {other : Store} (hDelay : other.writeDelay = store.writeDelay) :
    writer.Patient other := by
  unfold Patient timesOut at h ⊢
  rwa [hDelay]

/-- A patient writer writes a row as if there were no limit. -/
theorem writeRow_unlimited (row : Row) :
    writer.unlimited.writeRow store row = writer.writeRow store row := by
  unfold writeRow
  rw [h]
  rfl

/-- A patient writer writes rows as if there were no limit. -/
theorem writeRows_unlimited (rows : List Row) :
    writer.unlimited.writeRows rows store = writer.writeRows rows store := by
  induction rows generalizing store with
  | nil => rfl
  | cons row rows ih =>
    have hDelay := writer.writeDelay_writeRow store row
    simp only [writeRows, writeRow_unlimited h, ih (h.of_writeDelay hDelay)]

/-- A pass of a patient writer takes as long without a limit. -/
theorem passTime_unlimited (rows : Nat) :
    writer.unlimited.passTime rows store = writer.passTime rows store := by
  have hTime := writer.chunkTime_eq store
  unfold chunkTime at hTime
  rw [h, Option.getD_none] at hTime
  unfold passTime
  rw [← hTime]
  rfl

/-- A patient writer makes a pass as if there were no limit. -/
theorem writePass_unlimited (rows : List Row) :
    writer.unlimited.writePass rows store = writer.writePass rows store := by
  obtain ⟨hTally, hStore⟩ := writer.writePass_eq rows store
  obtain ⟨hTally', hStore'⟩ := writer.unlimited.writePass_eq rows store
  rw [writeRows_unlimited h, ← hTally] at hTally'
  rw [writeRows_unlimited h, ← hStore] at hStore'
  refine Prod.ext (Pass.ext hTally' ?_) hStore'
  rw [elapsed_writePass, elapsed_writePass, passTime_unlimited h]

/-- A patient writer makes all its passes as if there were no limit. -/
theorem writePasses_unlimited (rows : List Row) (attempts : Nat) :
    writer.unlimited.writePasses rows attempts store = writer.writePasses rows attempts store := by
  induction attempts generalizing store with
  | zero => rfl
  | succ attempts ih =>
    have hDelay := writer.writeDelay_writePass rows store
    simp only [writePasses, writePass_unlimited h, ih (h.of_writeDelay hDelay)]

end NotReached

end Writer

/-- On a clock that goes on by waits only, all passes of a writing take the same time, which is told
by their chunks and by how long a row is waited for, and there is a pause between two passes. If the
limit is shorter than the delay, every pass fails on all rows and the store stays as it was; if it
is not, all is as it is without a limit. -/
theorem Writer.write_in_time (writer : Writer) (rows : List FlatRow) (store : Store)
    (executionId : Uuid) (metrics : Metrics) (clock : Nat) :
    writer.afterPasses (rows.map FlatRow.toRow) writer.config.maxAttempts.toNat store clock =
        clock + (writer.write rows store).elapsed writer ∧
      (writer.write rows store).elapsed writer =
        (writer.write rows store).passes.length *
            (rows.length ⌈/⌉ writer.config.chunkSize.toNat * writer.rowTime store) +
          ((writer.write rows store).passes.length - 1) * waitTime writer.config.retryBackoff ∧
      (metrics.recordWriting (writer.write rows store)).latencies =
        (List.replicate (writer.write rows store).passes.length
            (UInt64.ofNat (rows.length ⌈/⌉ writer.config.chunkSize.toNat * writer.rowTime store)) ++
          metrics.latencies).take latencyWindow ∧
      (metrics.recordWriting (writer.write rows store)).lastPass =
        UInt64.ofNat (rows.length ⌈/⌉ writer.config.chunkSize.toNat * writer.rowTime store) ∧
      (∀ limit, writer.config.rowTimeout = some limit →
        waitTime limit < waitTime store.writeDelay → rows ≠ [] →
          (writer.write rows store).passes.map Pass.tally =
            List.replicate writer.config.maxAttempts.toNat ⟨0, rows.length⟩ ∧
          (writer.write rows store).store = store ∧
          (writer.write rows store).result writer executionId rows.length =
            .error (.writeFailed executionId rows.length writer.config.maxAttempts.toNat)) ∧
      ((∀ limit, writer.config.rowTimeout = some limit →
        waitTime store.writeDelay ≤ waitTime limit) →
          writer.unlimited.write rows store = writer.write rows store ∧
          (writer.unlimited.write rows store).result writer.unlimited executionId rows.length =
            (writer.write rows store).result writer executionId rows.length ∧
          metrics.recordWriting (writer.unlimited.write rows store) =
            metrics.recordWriting (writer.write rows store)) := by
  have hElapsed := writer.elapsed_writePasses (rows.map FlatRow.toRow)
    writer.config.maxAttempts.toNat store
  have hPasses : (writer.write rows store).passes.map (fun pass => UInt64.ofNat pass.elapsed) =
      List.replicate (writer.write rows store).passes.length
        (.ofNat (writer.passTime rows.length store)) := by
    have hEach : ∀ pass ∈ (writer.write rows store).passes,
        UInt64.ofNat pass.elapsed = .ofNat (writer.passTime rows.length store) := by
      intro pass hPass
      rw [writer.elapsed_of_mem_passes hPass, List.length_map]
    rw [List.map_congr_left hEach, List.map_const']
  rw [List.length_map] at hElapsed
  refine ⟨writer.afterPasses_eq _ _ store clock, hElapsed, ?_, ?_, ?_, ?_⟩
  · rw [metrics.latencies_recordWriting, hPasses, List.reverse_replicate]
    rfl
  · have hSome : (writer.write rows store).passes.length ≠ 0 :=
      Nat.ne_of_gt (writer.length_passes_pos rows store)
    rw [metrics.lastPass_recordWriting, hPasses, List.getLast?_replicate, if_neg hSome]
    rfl
  · intro limit hLimit hShort hRows
    have hOut : writer.timesOut store = some limit := by
      rw [timesOut, hLimit, Option.filter_some, decide_eq_true hShort, if_pos rfl]
    exact write_of_timesOut hOut hRows executionId
  · intro hReached
    have hPatient : writer.Patient store := by
      rw [Patient, timesOut, Option.filter_eq_none_iff]
      intro limit hLimit
      have hLe := hReached limit hLimit
      rw [decide_eq_true_eq]
      omega
    have hSame : writer.unlimited.write rows store = writer.write rows store :=
      writePasses_unlimited hPatient _ _
    rw [hSame]
    exact ⟨rfl, rfl, rfl⟩

/-- A writer of two rows at a time, with two attempts and a limit for each row. -/
def limitedWriter (limit : UInt64) : Writer :=
  ⟨{ chunkSize := 2, maxAttempts := 2, retryBackoff := 3, rowTimeout := some limit },
    (by decide : (2 : UInt64) ≠ 0), (by decide : (2 : UInt32) ≠ 0)⟩

/-- Of a limit of eleven, two passes over three rows take twenty-two milliseconds each if the delay
is longer, and write nothing. If the delay is eleven too, all is as it is without the limit. -/
theorem Writer.write_in_time_limited :
    ((limitedWriter 11).write [plainRow 1, plainRow 2, plainRow 3]
          { writeDelay := 15 }).elapsed (limitedWriter 11) = 2 * 22 + 3 ∧
      ((limitedWriter 11).write [plainRow 1, plainRow 2, plainRow 3]
          { writeDelay := 15 }).store = { writeDelay := 15 } ∧
      (limitedWriter 11).unlimited.write [plainRow 1, plainRow 2, plainRow 3]
          { writeDelay := 11 } =
        (limitedWriter 11).write [plainRow 1, plainRow 2, plainRow 3] { writeDelay := 11 } := by
  obtain ⟨-, hElapsed, -, -, hShort, -⟩ := Writer.write_in_time (limitedWriter 11)
    [plainRow 1, plainRow 2, plainRow 3] { writeDelay := 15 } .nil {} 0
  obtain ⟨-, -, -, -, -, hReached⟩ := Writer.write_in_time (limitedWriter 11)
    [plainRow 1, plainRow 2, plainRow 3] { writeDelay := 11 } .nil {} 0
  obtain ⟨hTallies, hStore, -⟩ := hShort 11 rfl (by decide) (by simp)
  have hPasses := congrArg List.length hTallies
  rw [List.length_map, List.length_replicate] at hPasses
  refine ⟨?_, hStore, (hReached ?_).1⟩
  · rw [hElapsed, hPasses]
    decide
  · rintro limit ⟨⟩
    exact Nat.le_refl _

/-- Neither a limit nor a delay is longer than the longest wait. So with a limit beyond it that is
shorter than the delay, rows are written all the same, in a pass of two such waits. -/
theorem Writer.write_beyond_longestWait :
    (limitedWriter 946080000001).config.rowTimeout = some 946080000001 ∧
      (946080000001 : UInt64) < ({ writeDelay := 946080000005 } : Store).writeDelay ∧
      ((limitedWriter 946080000001).write [plainRow 1, plainRow 2, plainRow 3]
          { writeDelay := 946080000005 }).result (limitedWriter 946080000001) .nil 3 =
        .ok ⟨3, 1, 2⟩ ∧
      ((limitedWriter 946080000001).write [plainRow 1, plainRow 2, plainRow 3]
          { writeDelay := 946080000005 }).store.data.keys = [.ofNat 1, .ofNat 2, .ofNat 3] ∧
      ((limitedWriter 946080000001).write [plainRow 1, plainRow 2, plainRow 3]
          { writeDelay := 946080000005 }).elapsed (limitedWriter 946080000001) =
        2 * 946080000000 ∧
      2 * 946080000000 ≠ 1 * (3 ⌈/⌉ 2 * min 946080000005 946080000001) + (1 - 1) * 3 := by
  decide +kernel

end Collocation
