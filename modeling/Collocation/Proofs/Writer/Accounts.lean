import Collocation.Proofs.Writer.Retries
import Mathlib.Algebra.BigOperators.Group.List.Basic
import Mathlib.Algebra.Ring.Nat

/-!
# Accounts

What metrics tell after any writers were called one after the other. The counts are words, and each
is the word of what it should count: this is kept by every pass and by every end of a call, whatever
comes of them. The number of retries is told from three counts that are kept apart, and is right
because a call has one pass at least and ends once. A store that all calls went to, and that did not
keep them waiting too long, has counted the same rows.
-/

set_option autoImplicit false

namespace Collocation

/-! ## Counts and their words -/

/-- What metrics count. -/
structure Counts where
  passes : Nat
  failedPasses : Nat
  rowsWritten : Nat
  rowFailures : Nat
  executionsWritten : Nat
  executionsExhausted : Nat

namespace Counts

def zero : Counts := ⟨0, 0, 0, 0, 0, 0⟩

def add (a b : Counts) : Counts where
  passes := a.passes + b.passes
  failedPasses := a.failedPasses + b.failedPasses
  rowsWritten := a.rowsWritten + b.rowsWritten
  rowFailures := a.rowFailures + b.rowFailures
  executionsWritten := a.executionsWritten + b.executionsWritten
  executionsExhausted := a.executionsExhausted + b.executionsExhausted

/-- The counts of some passes. -/
def ofPasses (passes : List Pass) : Counts where
  passes := passes.length
  failedPasses := passes.countP fun pass => !pass.succeeded
  rowsWritten := (passes.map fun pass => pass.tally.written).sum
  rowFailures := (passes.map fun pass => pass.tally.failed).sum
  executionsWritten := 0
  executionsExhausted := 0

/-- The counts of the end of a call. -/
def ofEnd (succeeded : Bool) : Counts :=
  { zero with
    executionsWritten := succeeded.toNat
    executionsExhausted := (!succeeded).toNat }

/-- The counts of passes are those of the first and of the others. -/
theorem ofPasses_cons (pass : Pass) (passes : List Pass) :
    ofPasses (pass :: passes) = (ofPasses [pass]).add (ofPasses passes) := by
  simp only [ofPasses, add, List.length_cons, List.length_nil, List.countP_cons, List.countP_nil,
    List.map_cons, List.map_nil, List.sum_cons, List.sum_nil, mk.injEq, and_true]
  omega

end Counts

namespace Metrics

/-- What was counted between two states of metrics, word by word. -/
structure Grown (before after : Metrics) (counts : Counts) : Prop where
  passes : after.passes = before.passes + .ofNat counts.passes
  failedPasses : after.failedPasses = before.failedPasses + .ofNat counts.failedPasses
  rowsWritten : after.rowsWritten = before.rowsWritten + .ofNat counts.rowsWritten
  rowFailures : after.rowFailures = before.rowFailures + .ofNat counts.rowFailures
  executionsWritten : after.executionsWritten =
    before.executionsWritten + .ofNat counts.executionsWritten
  executionsExhausted : after.executionsExhausted =
    before.executionsExhausted + .ofNat counts.executionsExhausted

namespace Grown

/-- Metrics that nothing was added to have grown by nothing. -/
theorem refl (metrics : Metrics) : metrics.Grown metrics .zero := by
  constructor <;> exact (UInt64.add_zero _).symm

/-- What is counted one after the other adds up. -/
theorem trans {before between after : Metrics} {counts more : Counts}
    (h : before.Grown between counts) (hMore : between.Grown after more) :
    before.Grown after (counts.add more) := by
  constructor
  · rw [hMore.passes, h.passes, Counts.add, UInt64.ofNat_add, UInt64.add_assoc]
  · rw [hMore.failedPasses, h.failedPasses, Counts.add, UInt64.ofNat_add, UInt64.add_assoc]
  · rw [hMore.rowsWritten, h.rowsWritten, Counts.add, UInt64.ofNat_add, UInt64.add_assoc]
  · rw [hMore.rowFailures, h.rowFailures, Counts.add, UInt64.ofNat_add, UInt64.add_assoc]
  · rw [hMore.executionsWritten, h.executionsWritten, Counts.add, UInt64.ofNat_add,
      UInt64.add_assoc]
  · rw [hMore.executionsExhausted, h.executionsExhausted, Counts.add, UInt64.ofNat_add,
      UInt64.add_assoc]

end Grown

/-! ## Steps -/

/-- A pass is counted, and as failed if a row failed. Their number must be a word for that. -/
theorem grown_recordPass (metrics : Metrics) {pass : Pass}
    (hFailed : pass.tally.failed < UInt64.size) :
    metrics.Grown
      (metrics.recordPass (.ofNat pass.tally.written) (.ofNat pass.tally.failed)
        (.ofNat pass.elapsed))
      (.ofPasses [pass]) := by
  have hZero : UInt64.ofNat pass.tally.failed = 0 ↔ pass.succeeded = true := by
    rw [← UInt64.toNat_inj, UInt64.toNat_ofNat_of_lt' hFailed, Pass.succeeded, decide_eq_true_eq]
    rfl
  have hFailures : (if UInt64.ofNat pass.tally.failed = 0 then metrics.failedPasses
      else metrics.failedPasses + 1) =
        metrics.failedPasses + .ofNat ([pass].countP fun pass => !pass.succeeded) := by
    rw [List.countP_singleton]
    cases hPass : pass.succeeded with
    | true =>
      rw [if_pos (hZero.2 hPass)]
      exact (UInt64.add_zero _).symm
    | false =>
      have hNot : UInt64.ofNat pass.tally.failed ≠ 0 := fun h => by
        rw [hZero.1 h] at hPass
        cases hPass
      rw [if_neg hNot]
      rfl
  exact
    { passes := rfl
      failedPasses := hFailures
      rowsWritten := rfl
      rowFailures := rfl
      executionsWritten := (UInt64.add_zero _).symm
      executionsExhausted := (UInt64.add_zero _).symm }

/-- The end of a call is counted, and nothing else with it. -/
theorem grown_recordExecution (metrics : Metrics) (succeeded : Bool) :
    metrics.Grown (metrics.recordExecution succeeded) (.ofEnd succeeded) := by
  have hSame : ∀ word : UInt64, word = word + .ofNat 0 := fun word => (UInt64.add_zero word).symm
  cases succeeded with
  | true => exact ⟨hSame _, hSame _, hSame _, hSame _, rfl, hSame _⟩
  | false => exact ⟨hSame _, hSame _, hSame _, hSame _, hSame _, rfl⟩

/-- All passes of a writing are counted, and its end. -/
theorem grown_recordWriting (metrics : Metrics) {writing : Writing}
    (hFailed : (Counts.ofPasses writing.passes).rowFailures < UInt64.size) :
    metrics.Grown (metrics.recordWriting writing)
      ((Counts.ofPasses writing.passes).add (.ofEnd writing.succeeded)) := by
  refine Grown.trans ?_ (grown_recordExecution _ _)
  generalize writing.passes = passes at hFailed
  induction passes generalizing metrics with
  | nil => exact .refl metrics
  | cons pass passes ih =>
    have hSum : (Counts.ofPasses (pass :: passes)).rowFailures =
        pass.tally.failed + (Counts.ofPasses passes).rowFailures := rfl
    have hFirst : pass.tally.failed < UInt64.size := by omega
    have hMore : (Counts.ofPasses passes).rowFailures < UInt64.size := by omega
    rw [Counts.ofPasses_cons]
    exact (metrics.grown_recordPass hFirst).trans (ih _ hMore)

end Metrics

/-! ## Calls -/

/-- A call of a writer, with the store that it finds. -/
structure Writer.Call where
  writer : Writer
  executionId : Uuid
  rows : List FlatRow
  store : Store

namespace Writer.Call

variable (call : Call)

def writing : Writing :=
  call.writer.write call.rows call.store

/-- How many passes the call made over its rows. -/
def attempts : Nat :=
  call.writing.passes.length

def result : Except Failure Report :=
  call.writing.result call.writer call.executionId call.rows.length

/-- Whether the call ended because there were no attempts left. -/
def isExhausted : Bool :=
  match call.result with
  | .error (.writeFailed _ _ _) => true
  | _ => false

/-- What is counted of a call. -/
def counts : Counts :=
  (Counts.ofPasses call.writing.passes).add (.ofEnd call.writing.succeeded)

/-- A call succeeds just if its writing does. -/
theorem isOk_result : call.result.isOk = call.writing.succeeded := by
  rw [result, Writing.result]
  cases call.writing.succeeded <;> rfl

/-- A call is exhausted just if its writing does not succeed. -/
theorem isExhausted_eq : call.isExhausted = !call.writing.succeeded := by
  rw [isExhausted, result, Writing.result]
  cases call.writing.succeeded <;> rfl

/-- A call is allowed at least one attempt. -/
theorem attempts_pos : 0 < call.attempts :=
  call.writer.length_passes_pos call.rows call.store

/-- A call that succeeds counts as one execution that was written. -/
theorem counts_executionsWritten : call.counts.executionsWritten = call.result.isOk.toNat := by
  rw [isOk_result]
  exact Nat.zero_add _

/-- A call that is exhausted counts as one that was not. -/
theorem counts_executionsExhausted :
    call.counts.executionsExhausted = call.isExhausted.toNat := by
  rw [isExhausted_eq]
  exact Nat.zero_add _

/-- A call ends once. -/
theorem executions_counts :
    call.counts.executionsWritten + call.counts.executionsExhausted = 1 := by
  rw [counts_executionsWritten, counts_executionsExhausted, isOk_result, isExhausted_eq]
  cases call.writing.succeeded <;> rfl

/-- The passes that fail are followed by another one, or by none if there are no attempts left. -/
theorem failedPasses_counts :
    call.counts.failedPasses = (call.attempts - 1) + call.counts.executionsExhausted := by
  have hFailed : call.counts.failedPasses + call.counts.executionsWritten = call.attempts := by
    rw [counts_executionsWritten, isOk_result]
    exact call.writer.countP_failed _ _ _
  have hOnce := call.executions_counts
  have hSome := call.attempts_pos
  omega

/-- Each pass is over all rows. -/
theorem rows_counts :
    call.counts.rowsWritten + call.counts.rowFailures = call.attempts * call.rows.length := by
  have hPasses : ∀ pass ∈ call.writing.passes,
      pass.tally.written + pass.tally.failed = call.rows.length := by
    intro pass hPass
    have hAll := call.writer.tally_of_mem_passes hPass
    rwa [List.length_map] at hAll
  have hSum : (Counts.ofPasses call.writing.passes).rowsWritten +
      (Counts.ofPasses call.writing.passes).rowFailures =
        call.writing.passes.length * call.rows.length := by
    rw [Counts.ofPasses, ← List.sum_map_add, List.map_congr_left hPasses, List.map_const',
      List.sum_replicate_nat]
  exact hSum

end Writer.Call

namespace Counts

/-- What is counted of calls. -/
def ofCalls (calls : List Writer.Call) : Counts where
  passes := (calls.map Writer.Call.attempts).sum
  failedPasses := (calls.map fun call => call.counts.failedPasses).sum
  rowsWritten := (calls.map fun call => call.counts.rowsWritten).sum
  rowFailures := (calls.map fun call => call.counts.rowFailures).sum
  executionsWritten := (calls.map fun call => call.counts.executionsWritten).sum
  executionsExhausted := (calls.map fun call => call.counts.executionsExhausted).sum

/-- The counts of calls are those of the first and of the others. -/
theorem ofCalls_cons (call : Writer.Call) (calls : List Writer.Call) :
    ofCalls (call :: calls) = call.counts.add (ofCalls calls) := rfl

/-- Ones and zeros add up to the number of the ones. -/
theorem sum_map_toNat {α : Type} (isOne : α → Bool) (items : List α) :
    (items.map fun item => (isOne item).toNat).sum = items.countP isOne := by
  induction items with
  | nil => rfl
  | cons item items ih =>
    rw [List.map_cons, List.sum_cons, ih, List.countP_cons, Nat.add_comm]
    cases isOne item <;> rfl

/-- What is counted apart belongs together: every call ends once, every failed pass is a retry later
or the last of a call without attempts left, and every row of a pass is written or fails. -/
theorem ofCalls_balance (calls : List Writer.Call) :
    (ofCalls calls).passes = (calls.map fun call => call.attempts - 1).sum +
        ((ofCalls calls).executionsWritten + (ofCalls calls).executionsExhausted) ∧
      (ofCalls calls).failedPasses = (calls.map fun call => call.attempts - 1).sum +
        (ofCalls calls).executionsExhausted ∧
      (ofCalls calls).rowsWritten + (ofCalls calls).rowFailures =
        (calls.map fun call => call.attempts * call.rows.length).sum := by
  have hPasses : ∀ call : Writer.Call, call.attempts = (call.attempts - 1) +
      (call.counts.executionsWritten + call.counts.executionsExhausted) := by
    intro call
    have hOnce := call.executions_counts
    have hSome := call.attempts_pos
    omega
  simp only [ofCalls, ← List.sum_map_add]
  refine ⟨?_, ?_, ?_⟩
  · exact congrArg List.sum (List.map_congr_left fun call _ => hPasses call)
  · exact congrArg List.sum (List.map_congr_left fun call _ => call.failedPasses_counts)
  · exact congrArg List.sum (List.map_congr_left fun call _ => call.rows_counts)

end Counts

/-! ## Runs of calls -/

namespace Metrics

/-- Fresh metrics after some calls. -/
def ofCalls (calls : List Writer.Call) : Metrics :=
  calls.foldl (fun metrics call => metrics.recordWriting call.writing)
    { inWindow := nil_inWindow }

/-- Every call is counted. -/
theorem grown_ofCalls {calls : List Writer.Call}
    (hFailed : (Counts.ofCalls calls).rowFailures < UInt64.size) :
    Grown { inWindow := nil_inWindow } (ofCalls calls) (.ofCalls calls) := by
  rw [ofCalls]
  generalize ({ inWindow := nil_inWindow } : Metrics) = metrics
  induction calls generalizing metrics with
  | nil => exact .refl metrics
  | cons call calls ih =>
    have hSum : (Counts.ofCalls (call :: calls)).rowFailures =
        (Counts.ofPasses call.writing.passes).rowFailures +
          (Counts.ofCalls calls).rowFailures := rfl
    have hFirst : (Counts.ofPasses call.writing.passes).rowFailures < UInt64.size := by omega
    have hMore : (Counts.ofCalls calls).rowFailures < UInt64.size := by omega
    rw [Counts.ofCalls_cons, List.foldl_cons]
    exact (metrics.grown_recordWriting hFirst).trans (ih hMore _)

/-- A word that began at zero tells the count if this is a word. -/
theorem toNat_of_fresh {word : UInt64} {count : Nat} (h : word = 0 + .ofNat count)
    (hLt : count < UInt64.size) : word.toNat = count := by
  rw [h, UInt64.zero_add, UInt64.toNat_ofNat_of_lt' hLt]

/-- If no more executions ended than there were passes, the retries are the other passes. -/
theorem toNat_retries {metrics : Metrics}
    (h : metrics.executionsWritten.toNat + metrics.executionsExhausted.toNat ≤
      metrics.passes.toNat) :
    metrics.retries.toNat = metrics.passes.toNat -
      (metrics.executionsWritten.toNat + metrics.executionsExhausted.toNat) := by
  have hSum : (metrics.executionsWritten + metrics.executionsExhausted).toNat =
      metrics.executionsWritten.toNat + metrics.executionsExhausted.toNat := by
    have hWord := metrics.passes.toNat_lt
    rw [UInt64.toNat_add, Nat.mod_eq_of_lt (Nat.lt_of_le_of_lt h hWord)]
  have hLe : metrics.executionsWritten + metrics.executionsExhausted ≤ metrics.passes := by
    rwa [UInt64.le_iff_toNat_le, hSum]
  simp only [retries, if_pos hLe]
  rw [UInt64.toNat_sub_of_le _ _ hLe, hSum]

end Metrics

/-! ## Calls to one store -/

/-- A store has counted the rows of some passes. -/
structure Store.Counted (before after : Store) (counts : Counts) : Prop where
  dataWrites : after.dataWrites = before.dataWrites + (counts.rowsWritten + counts.rowFailures)
  rejectedWrites : after.rejectedWrites = before.rejectedWrites + counts.rowFailures

/-- Counts of passes that follow each other add up. -/
theorem Store.Counted.trans {before between after : Store} {counts more : Counts}
    (h : before.Counted between counts) (hMore : between.Counted after more) :
    before.Counted after (counts.add more) := by
  obtain ⟨hData, hRejected⟩ := h
  obtain ⟨hMoreData, hMoreRejected⟩ := hMore
  constructor <;> simp only [Counts.add] <;> omega

namespace Writer

variable {writer : Writer}

/-- A pass of a patient writer over an open store is counted by the store. -/
theorem counted_writePass {store : Store} (hOpen : store.closed = false)
    (hPatient : writer.Patient store) (rows : List FlatRow) :
    store.Counted (writer.writePass (rows.map FlatRow.toRow) store).2
        (.ofPasses [(writer.writePass (rows.map FlatRow.toRow) store).1]) ∧
      (writer.writePass (rows.map FlatRow.toRow) store).2.closed = false ∧
      writer.Patient (writer.writePass (rows.map FlatRow.toRow) store).2 := by
  have hLe := WriteFault.length_accepted_le store.fault [] rows
  obtain ⟨hTally, hStore⟩ := writer.writePass_eq (rows.map FlatRow.toRow) store
  rw [writeRows_toRow hOpen hPatient] at hTally hStore
  rw [hStore, Store.insertAll_toRow hOpen]
  refine ⟨⟨?_, ?_⟩, hOpen, hPatient⟩
  · simp only [Counts.ofPasses, hTally, List.map_cons, List.map_nil, List.sum_cons, List.sum_nil]
    omega
  · simp only [Counts.ofPasses, hTally, List.map_cons, List.map_nil, List.sum_cons, List.sum_nil]
    omega

/-- All passes of a patient writer over an open store are counted by the store. -/
theorem counted_writePasses {store : Store} (hOpen : store.closed = false)
    (hPatient : writer.Patient store) (rows : List FlatRow) (attempts : Nat) :
    store.Counted (writer.writePasses (rows.map FlatRow.toRow) attempts store).store
      (.ofPasses (writer.writePasses (rows.map FlatRow.toRow) attempts store).passes) := by
  induction attempts generalizing store with
  | zero => exact ⟨rfl, rfl⟩
  | succ attempts ih =>
    obtain ⟨hPass, hOpen', hPatient'⟩ := counted_writePass hOpen hPatient rows
    simp only [writePasses]
    split
    · exact hPass
    · rw [Counts.ofPasses_cons]
      exact hPass.trans (ih hOpen' hPatient')

/-- The counts of a store before and after some calls to it. It is open, and no call waits too long
for it. Whatever else is done to it between the calls, no data rows are written. -/
inductive Call.OnOneStore : Store → List Call → Store → Prop where
  | nil (store : Store) : OnOneStore store [] store
  | cons {before after : Store} {call : Call} {calls : List Call} :
    call.store.dataWrites = before.dataWrites →
    call.store.rejectedWrites = before.rejectedWrites →
    call.store.closed = false →
    (∀ limit, call.writer.config.rowTimeout = some limit → call.store.writeDelay ≤ limit) →
    OnOneStore call.writing.store calls after →
      OnOneStore before (call :: calls) after

/-- A store has counted the rows of all calls to it. -/
theorem Call.OnOneStore.counted {before after : Store} {calls : List Call}
    (h : OnOneStore before calls after) : before.Counted after (.ofCalls calls) := by
  induction h with
  | nil store => exact ⟨rfl, rfl⟩
  | @cons before after call calls hData hRejected hOpen hTimeout _ ih =>
    have hCall : call.store.Counted call.writing.store (.ofPasses call.writing.passes) :=
      counted_writePasses hOpen (patient_of_le hTimeout) call.rows _
    have hFirst : before.Counted call.writing.store call.counts :=
      ⟨hData ▸ hCall.dataWrites, hRejected ▸ hCall.rejectedWrites⟩
    exact hFirst.trans ih

end Writer

/-- Fresh metrics account for all calls after them, whatever came of each, as long as the counts are
words: for the passes and the ends, for the retries and the failed passes, and for the rows. If all
calls went to one store, it has counted the same rows, and so have the words that it tells, wherever
these began. -/
theorem Metrics.account_for_calls (calls : List Writer.Call)
    (hPasses : (calls.map Writer.Call.attempts).sum < UInt64.size)
    (hWritten : (calls.map fun call => call.counts.rowsWritten).sum < UInt64.size)
    (hFailures : (calls.map fun call => call.counts.rowFailures).sum < UInt64.size) :
    (ofCalls calls).passes.toNat = (calls.map Writer.Call.attempts).sum ∧
      (ofCalls calls).executionsWritten.toNat = calls.countP (fun call => call.result.isOk) ∧
      (ofCalls calls).executionsExhausted.toNat = calls.countP Writer.Call.isExhausted ∧
      (ofCalls calls).retries.toNat = (calls.map fun call => call.attempts - 1).sum ∧
      (ofCalls calls).failedPasses.toNat =
        (ofCalls calls).retries.toNat + (ofCalls calls).executionsExhausted.toNat ∧
      (ofCalls calls).rowsWritten.toNat + (ofCalls calls).rowFailures.toNat =
        (calls.map fun call => call.attempts * call.rows.length).sum ∧
      ∀ before after : Store, Writer.Call.OnOneStore before calls after →
        after.dataWrites = before.dataWrites +
            ((ofCalls calls).rowsWritten.toNat + (ofCalls calls).rowFailures.toNat) ∧
          after.rejectedWrites = before.rejectedWrites + (ofCalls calls).rowFailures.toNat ∧
          after.toldWrites =
            before.toldWrites + ((ofCalls calls).rowsWritten + (ofCalls calls).rowFailures) ∧
          after.toldRejections = before.toldRejections + (ofCalls calls).rowFailures := by
  have hGrown := grown_ofCalls hFailures
  obtain ⟨hEnds, hRetries, hRows⟩ := Counts.ofCalls_balance calls
  have hAllPasses : (Counts.ofCalls calls).passes = (calls.map Writer.Call.attempts).sum := rfl
  have hWord : (Counts.ofCalls calls).passes < UInt64.size := hPasses
  -- There are fewer ends than passes, and fewer failed passes, so that their counts are words too.
  have hPassCount := toNat_of_fresh hGrown.passes hPasses
  have hFailedCount := toNat_of_fresh hGrown.failedPasses (by omega)
  have hOkCount := toNat_of_fresh hGrown.executionsWritten (by omega)
  have hExhaustedCount := toNat_of_fresh hGrown.executionsExhausted (by omega)
  have hWrittenCount := toNat_of_fresh hGrown.rowsWritten hWritten
  have hFailureCount := toNat_of_fresh hGrown.rowFailures hFailures
  have hRetryCount : (ofCalls calls).retries.toNat =
      (calls.map fun call => call.attempts - 1).sum := by
    rw [toNat_retries] <;> omega
  have hOk : (Counts.ofCalls calls).executionsWritten =
      calls.countP fun call => call.result.isOk := by
    simp only [Counts.ofCalls, Writer.Call.counts_executionsWritten, Counts.sum_map_toNat]
  have hExhausted : (Counts.ofCalls calls).executionsExhausted =
      calls.countP Writer.Call.isExhausted := by
    simp only [Counts.ofCalls, Writer.Call.counts_executionsExhausted, Counts.sum_map_toNat]
  refine ⟨hPassCount, hOkCount.trans hOk, hExhaustedCount.trans hExhausted, hRetryCount, ?_, ?_,
    fun before after hStore => ?_⟩
  · omega
  · omega
  · have hCounted := hStore.counted
    have hTold := Store.toldWrites_of_add hCounted.dataWrites
    have hToldRejections := Store.toldRejections_of_add hCounted.rejectedWrites
    rw [UInt64.ofNat_add, ← hWrittenCount, ← hFailureCount, UInt64.ofNat_toNat,
      UInt64.ofNat_toNat] at hTold
    rw [← hFailureCount, UInt64.ofNat_toNat] at hToldRejections
    rw [hWrittenCount, hFailureCount]
    exact ⟨hCounted.dataWrites, hCounted.rejectedWrites, hTold, hToldRejections⟩

/-- A call whose first write is rejected. -/
def lateCall : Writer.Call :=
  { writer := plainWriter 1 (by decide)
    executionId := .nil
    rows := [plainRow 1, plainRow 2]
    store := { fault := some (.first 1) } }

/-- A call after it, of which every write is rejected. -/
def rejectedCall : Writer.Call :=
  { writer := plainWriter 1 (by decide)
    executionId := .nil
    rows := [plainRow 3]
    store := { lateCall.writing.store with fault := some (.whenever fun _ => true) } }

/-- Both calls have a second pass; the one succeeds in it, and the other fails again. -/
theorem Metrics.account_for_calls_late :
    (ofCalls [lateCall, rejectedCall]).passes.toNat = 4 ∧
      (ofCalls [lateCall, rejectedCall]).retries.toNat = 2 ∧
      (ofCalls [lateCall, rejectedCall]).executionsExhausted.toNat = 1 ∧
      (ofCalls [lateCall, rejectedCall]).failedPasses.toNat = 3 ∧
      rejectedCall.writing.store.dataWrites = 6 := by
  have hPasses : ([lateCall, rejectedCall].map Writer.Call.attempts).sum = 4 := by decide +kernel
  have hWritten : ([lateCall, rejectedCall].map fun call => call.counts.rowsWritten).sum = 3 := by
    decide +kernel
  have hFailures : ([lateCall, rejectedCall].map fun call => call.counts.rowFailures).sum = 3 := by
    decide +kernel
  have hRetries : ([lateCall, rejectedCall].map fun call => call.attempts - 1).sum = 2 := by
    decide +kernel
  have hRows : ([lateCall, rejectedCall].map fun call =>
      call.attempts * call.rows.length).sum = 6 := by
    decide +kernel
  have hExhausted : [lateCall, rejectedCall].countP Writer.Call.isExhausted = 1 := by
    decide +kernel
  have hStore : Writer.Call.OnOneStore lateCall.store [lateCall, rejectedCall]
      rejectedCall.writing.store :=
    .cons rfl rfl rfl (fun _ h => nomatch h) <|
      .cons rfl rfl (by decide +kernel) (fun _ h => nomatch h) (.nil _)
  obtain ⟨hPassCount, -, hExhaustedCount, hRetryCount, hFailedCount, hRowCount, hCounted⟩ :=
    account_for_calls [lateCall, rejectedCall] (by rw [hPasses]; decide) (by rw [hWritten]; decide)
      (by rw [hFailures]; decide)
  obtain ⟨hData, -⟩ := hCounted _ _ hStore
  rw [hPasses] at hPassCount
  rw [hRetries] at hRetryCount
  rw [hExhausted] at hExhaustedCount
  rw [hRetryCount, hExhaustedCount] at hFailedCount
  rw [hRowCount, hRows] at hData
  exact ⟨hPassCount, hRetryCount, hExhaustedCount, hFailedCount, hData⟩

end Collocation
