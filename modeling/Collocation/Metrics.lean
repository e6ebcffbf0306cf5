import Collocation.Json.Basic

/-!
# Metrics

Counts of write passes, of rows and of executions, and how long the last passes took. The counts are
words of sixty-four bits and wrap.
-/

set_option autoImplicit false

namespace Collocation

/-- Of how many passes the latencies are kept. -/
def latencyWindow : Nat := 256

/-- The empty list of durations fits into the window. -/
theorem nil_inWindow : ([] : List UInt64).length ≤ latencyWindow :=
  Nat.zero_le _

/-- Counts of what was written, and the times of the latest passes. -/
structure Metrics where
  passes : UInt64 := 0
  /-- Passes in which a row failed. -/
  failedPasses : UInt64 := 0
  /-- Milliseconds of the last passes, the latest first. -/
  latencies : List UInt64 := []
  lastPass : UInt64 := 0
  rowsWritten : UInt64 := 0
  rowFailures : UInt64 := 0
  /-- Executions of which all rows were written. -/
  executionsWritten : UInt64 := 0
  /-- Executions that ran out of attempts. -/
  executionsExhausted : UInt64 := 0
  inWindow : latencies.length ≤ latencyWindow := by decide

namespace Metrics

/-- After a pass in which so many rows were written and so many failed. -/
def recordPass (metrics : Metrics) (written failed millis : UInt64) : Metrics :=
  { metrics with
    passes := metrics.passes + 1
    failedPasses := if failed = 0 then metrics.failedPasses else metrics.failedPasses + 1
    latencies := (millis :: metrics.latencies).take latencyWindow
    lastPass := millis
    rowsWritten := metrics.rowsWritten + written
    rowFailures := metrics.rowFailures + failed
    inWindow := List.length_take_le _ _ }

/-- After the last pass of an execution. -/
def recordExecution (metrics : Metrics) (succeeded : Bool) : Metrics :=
  if succeeded then { metrics with executionsWritten := metrics.executionsWritten + 1 }
  else { metrics with executionsExhausted := metrics.executionsExhausted + 1 }

/-- The latencies in ascending order. -/
def sorted (metrics : Metrics) : List UInt64 :=
  metrics.latencies.mergeSort (· ≤ ·)

/-- The latency below which so many passes in a hundred stay; zero before the first pass. -/
def percentile (metrics : Metrics) (hundredths : Nat) : UInt64 :=
  metrics.sorted.getD (metrics.latencies.length * hundredths / 100) 0

/-- The mean latency, rounded down; zero before the first pass. -/
def average (metrics : Metrics) : UInt64 :=
  metrics.latencies.foldl (· + ·) 0 / .ofNat metrics.latencies.length

/-- Passes after the first of an execution. -/
def retries (metrics : Metrics) : UInt64 :=
  let executions := metrics.executionsWritten + metrics.executionsExhausted
  if executions ≤ metrics.passes then metrics.passes - executions else 0

def toJson (metrics : Metrics) : Json :=
  .object <|
    [ ("pass_count", metrics.passes),
      ("failed_pass_count", metrics.failedPasses),
      ("retry_count", metrics.retries),
      ("pass_p50_ms", metrics.percentile 50),
      ("pass_p95_ms", metrics.percentile 95),
      ("pass_avg_ms", metrics.average),
      ("last_pass_ms", metrics.lastPass),
      ("rows_written", metrics.rowsWritten),
      ("row_failures", metrics.rowFailures),
      ("executions_written", metrics.executionsWritten),
      ("executions_exhausted", metrics.executionsExhausted) ].map
      fun (name, count) => (name, .integer count.toNat)

end Metrics

end Collocation
