import Collocation.Chunks
import Collocation.Config
import Collocation.Metrics
import Collocation.Row.Flat
import Collocation.Store.Basic
import Collocation.Time.Wait

/-!
# Writing rows

The rows of an execution are written in passes, and a pass goes through them in chunks. The rows of
a chunk are written at the same time, and the chunk ends with the last of them. A pass in which a
row failed is followed, after a pause, by another one that writes all rows again, until the attempts
run out. Rows that were written stay. The time is counted in milliseconds.
-/

set_option autoImplicit false

namespace Collocation

/-- How many rows were written and how many failed. -/
structure Tally where
  written : Nat
  failed : Nat
deriving DecidableEq

namespace Tally

def zero : Tally := ⟨0, 0⟩

def add (a b : Tally) : Tally := ⟨a.written + b.written, a.failed + b.failed⟩

/-- The tally of one row. -/
def ofWrite {α : Type} : Except Failure α → Tally
  | .ok _ => ⟨1, 0⟩
  | .error _ => ⟨0, 1⟩

end Tally

/-- What a pass came to. -/
structure Pass where
  tally : Tally
  elapsed : Nat
deriving DecidableEq

namespace Pass

def succeeded (pass : Pass) : Bool :=
  pass.tally.failed = 0

/-- Both of two parts of a pass, the one after the other. -/
def append (a b : Pass) : Pass := ⟨a.tally.add b.tally, a.elapsed + b.elapsed⟩

end Pass

/-- What is told of rows that were all written. -/
structure Report where
  rows : Nat
  /-- How many passes there were. -/
  attempts : Nat
  /-- How many chunks a pass has. -/
  chunks : Nat
deriving DecidableEq

/-- What came of writing rows: the passes in their order, and the store after them. -/
structure Writing where
  passes : List Pass
  store : Store

/-- A writer with a usable configuration. -/
structure Writer where
  config : Config
  usable : config.Usable

namespace Writer

/-- The writer of a configuration, if it is usable. -/
def ofConfig (config : Config) : Except ConfigFault Writer :=
  config.validate.map fun valid => ⟨valid.val, valid.property⟩

/-! ## One pass -/

/-- Whether the write of a row takes longer than it may. -/
def timesOut (writer : Writer) (store : Store) : Option UInt64 :=
  writer.config.rowTimeout.filter fun limit => waitTime limit < waitTime store.writeDelay

/-- Writes a row. A write that takes too long does not reach the store. -/
def writeRow (writer : Writer) (store : Store) (row : Row) : Except Failure Unit × Store :=
  match writer.timesOut store with
  | some limit => (.error (.timedOut limit.toNat), store)
  | none => store.insert row

/-- Milliseconds that a chunk takes: as long as a row takes or may take. -/
def chunkTime (writer : Writer) (store : Store) : Nat :=
  waitTime ((writer.timesOut store).getD store.writeDelay)

/-- Writes rows one after the other. -/
def writeRows (writer : Writer) : List Row → Store → Tally × Store
  | [], store => (.zero, store)
  | row :: rows, store =>
    let (result, store) := writer.writeRow store row
    let (tally, store) := writer.writeRows rows store
    ((Tally.ofWrite result).add tally, store)

/-- Writes the rows of a chunk. -/
def writeChunk (writer : Writer) (rows : List Row) (store : Store) : Pass × Store :=
  let (tally, after) := writer.writeRows rows store
  (⟨tally, writer.chunkTime store⟩, after)

/-- Writes the rows of chunks, one chunk after the other. -/
def writeChunks (writer : Writer) : List (List Row) → Store → Pass × Store
  | [], store => (⟨.zero, 0⟩, store)
  | chunk :: chunks, store =>
    let (pass, store) := writer.writeChunk chunk store
    let (more, store) := writer.writeChunks chunks store
    (pass.append more, store)

/-- Writes all rows. -/
def writePass (writer : Writer) (rows : List Row) (store : Store) : Pass × Store :=
  writer.writeChunks (chunks writer.config.chunkSize.toNat rows) store

/-! ## All passes -/

/-- Writes all rows, in so many passes at most. -/
def writePasses (writer : Writer) (rows : List Row) : Nat → Store → Writing
  | 0, store => ⟨[], store⟩
  | attempts + 1, store =>
    let (pass, store) := writer.writePass rows store
    if pass.succeeded then ⟨[pass], store⟩
    else
      let writing := writer.writePasses rows attempts store
      { writing with passes := pass :: writing.passes }

/-- Writes all rows, in as many passes as are allowed. -/
def write (writer : Writer) (rows : List FlatRow) (store : Store) : Writing :=
  writer.writePasses (rows.map FlatRow.toRow) writer.config.maxAttempts.toNat store

/-- The number of chunks of so many rows. -/
def chunkCount (writer : Writer) (rows : Nat) : Nat :=
  (rows + writer.config.chunkSize.toNat - 1) / writer.config.chunkSize.toNat

end Writer

namespace Writing

/-- Whether a pass wrote all rows; it is the last one then. -/
def succeeded (writing : Writing) : Bool :=
  writing.passes.any Pass.succeeded

/-- What the writer tells of so many rows of an execution. -/
def result (writing : Writing) (writer : Writer) (executionId : Uuid) (rows : Nat) :
    Except Failure Report :=
  if writing.succeeded then .ok ⟨rows, writing.passes.length, writer.chunkCount rows⟩
  else .error (.writeFailed executionId rows writer.config.maxAttempts.toNat)

/-- Milliseconds of all passes and of the pauses between them. -/
def elapsed (writing : Writing) (writer : Writer) : Nat :=
  (writing.passes.map Pass.elapsed).foldl (· + ·) 0 +
    (writing.passes.length - 1) * waitTime writer.config.retryBackoff

end Writing

/-- After the passes of a writing and its end. -/
def Metrics.recordWriting (metrics : Metrics) (writing : Writing) : Metrics :=
  let passed := writing.passes.foldl
    (fun metrics pass =>
      metrics.recordPass (.ofNat pass.tally.written) (.ofNat pass.tally.failed)
        (.ofNat pass.elapsed))
    metrics
  passed.recordExecution writing.succeeded

end Collocation
