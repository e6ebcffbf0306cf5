import Collocation.Assembly
import Collocation.Entity.Submission
import Collocation.ExecutionId
import Collocation.Flattening
import Collocation.Row.Records
import Collocation.Store.Basic
import Collocation.Writer

/-!
# Archives

An archive is a store in use: a writer and its metrics go with it, a supply of fresh ids, and a
clock. Whole executions are submitted to it and retrieved from it. Of an execution the three records
are written first and the rows last; what was written before a failure stays.
-/

set_option autoImplicit false

namespace Collocation

/-! ## Reading a store -/

namespace Store

/-- The forest of an execution. A trimmed forest needs the rows of the top only. -/
def assemble (store : Store) (depth : NestingDepth) (executionId : Uuid) (trim : Bool) :
    Except Failure Assembly := do
  let tops ← store.select executionId true
  if trim then Assembly.trimmed tops
  else
    let nested ← store.select executionId false
    Assembly.ofRows depth tops nested

/-- The record of an execution, which has to be there. -/
def requireRecord (store : Store) (table : Table) (executionId : Uuid) : Except Failure Row := do
  match ← store.getRecord table executionId with
  | some row => return row
  | none => throw (.executionNotFound executionId)

/-- In an open store a record is found just if it is there. -/
theorem requireRecord_of_ne {store : Store} (hOpen : store.closed = false) {table : Table}
    (hTable : table ≠ .data) (executionId : Uuid) :
    store.requireRecord table executionId =
      match store.records.get? (table, executionId) with
      | some row => .ok row
      | none => .error (.executionNotFound executionId) := by
  rw [requireRecord, store.getRecord_of_ne hTable, hOpen]
  simp only [bind, Except.bind, Bool.false_eq_true, if_false]
  cases store.records.get? (table, executionId) <;> rfl

def execution (store : Store) (executionId : Uuid) : Except Failure Execution := do
  Execution.ofRow (← store.requireRecord .executions executionId)

/-- What is stored of an execution: its parameters, its statistics and its forest. -/
def retrieve (store : Store) (depth : NestingDepth) (executionId : Uuid) (trim : Bool) :
    Except Failure Results := do
  let paramsRow ← store.requireRecord .params executionId
  let statsRow ← store.requireRecord .executionStats executionId
  let params ← Params.ofRow paramsRow
  let stats ← Stats.ofRow statsRow
  let assembly ← store.assemble depth executionId trim
  return { executionId, params, stats, points := assembly.points }

/-- Writes records one after the other, up to the first that fails. -/
def putRecords (store : Store) : List (Table × Row) → Except Failure Unit × Store
  | [] => (.ok (), store)
  | (table, row) :: records =>
    match store.putRecord table row with
    | (.ok (), store) => store.putRecords records
    | (.error failure, store) => (.error failure, store)

end Store

namespace Submission

/-- The id of the execution, which is taken from a supply if the submission has none. -/
def chooseId (submission : Submission) (supply : Supply) : Uuid × Supply :=
  match submission.executionId with
  | some id => (id, supply)
  | none => supply.take

/-- The execution of a submission under an id. -/
def execution (submission : Submission) (id : Uuid) : Execution :=
  { id
    timeStarted := submission.timeStarted
    timeCompleted := submission.timeCompleted
    userEmail := submission.userEmail }

/-- The three records of a submission under an id, in the order of writing. -/
def records (submission : Submission) (id : Uuid) : List (Table × Row) :=
  [ (.executions, (submission.execution id).toRow),
    (.params, submission.params.toRow id),
    (.executionStats, submission.stats.toRow id) ]

end Submission

/-! ## Archives -/

/-- A store in use, with what those who use it need. -/
structure Archive where
  writer : Writer
  supply : Supply
  store : Store := .empty
  metrics : Metrics := {}
  /-- Milliseconds that went by. -/
  clock : Nat := 0

namespace Archive

/-- An empty archive with a configuration, if it is usable. -/
def ofConfig (config : Config) (supply : Supply) : Except ConfigFault Archive :=
  (Writer.ofConfig config).map fun writer => { writer, supply }

/-- The archive with another configuration. The metrics start again. -/
def configure (archive : Archive) (config : Config) : Except ConfigFault Archive :=
  (Writer.ofConfig config).map fun writer => { archive with writer, metrics := {} }

def depth (archive : Archive) : NestingDepth :=
  archive.writer.config.depth

def withStore (archive : Archive) (store : Store) : Archive :=
  { archive with store }

/-- Writes rows of an execution. The metrics are kept only if they are asked for. -/
def write (archive : Archive) (executionId : Uuid) (rows : List FlatRow) (metered : Bool) :
    Except Failure Report × Archive :=
  let writing := archive.writer.write rows archive.store
  ( writing.result archive.writer executionId rows.length,
    { archive with
      store := writing.store
      metrics := if metered then archive.metrics.recordWriting writing else archive.metrics
      clock := archive.clock + writing.elapsed archive.writer } )

/-- Flattens points for an execution. -/
def flatten (archive : Archive) (executionId : Uuid) (points : List Point) :
    Flattened × Archive :=
  let (flattened, supply) := Flattened.ofPoints executionId points archive.supply
  (flattened, { archive with supply })

/-- Stores a whole execution and tells its id. -/
def submit (archive : Archive) (submission : Submission) : Except Failure Uuid × Archive :=
  let (id, supply) := submission.chooseId archive.supply
  match archive.store.putRecords (submission.records id) with
  | (.error failure, store) => (.error failure, { archive with supply, store })
  | (.ok (), store) =>
    let (flattened, archive) := { archive with supply, store }.flatten id submission.points
    let (result, archive) := archive.write id flattened.rows true
    (result.map fun _ => id, archive)

/-- What is stored of an execution. -/
def retrieve (archive : Archive) (executionId : Uuid) (trim : Bool) : Except Failure Results :=
  archive.store.retrieve archive.depth executionId trim

/-- What is stored of the execution whose id a text writes. -/
def retrieveText (archive : Archive) (text : String) (trim : Bool) : Except Failure Results := do
  archive.retrieve (← parseExecutionId text) trim

/-- Lets as much time go by as the write of a data row takes. -/
def waitForWrite (archive : Archive) : Archive :=
  { archive with clock := archive.clock + waitTime archive.store.writeDelay }

/-- Writes a data row. -/
def insert (archive : Archive) (row : Row) : Except Failure Unit × Archive :=
  let (result, store) := archive.store.insert row
  (result, archive.waitForWrite.withStore store)

/-- Writes a record. It takes time only if it is a data row. -/
def putRecord (archive : Archive) (table : Table) (row : Row) : Except Failure Unit × Archive :=
  if archive.store.closed = false ∧ table = .data then archive.insert row
  else
    let (result, store) := archive.store.putRecord table row
    (result, archive.withStore store)

end Archive

end Collocation
