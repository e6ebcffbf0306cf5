import Collocation.Keyed.Ledger
import Collocation.Row.Table

/-!
# Stores

A store keeps records by table and key, and data rows by their ids in the order in which the ids
first came. A row that is written again takes the place of the row of that key. A closed store
refuses everything. Writes of data rows can be made to fail or to take some time, for tests of those
who write.
-/

set_option autoImplicit false

namespace Collocation

/-- Which writes of data rows are rejected. The answer may depend on the rows that were asked about
before, the latest first. -/
structure WriteFault where
  rejects : List Row → Row → Bool
  asked : List Row := []

namespace WriteFault

/-- Rejects so many writes, and accepts everything after them. -/
def first (count : Nat) : WriteFault :=
  { rejects := fun asked _ => asked.length < count }

/-- Rejects the rows for which a predicate holds. -/
def whenever (predicate : Row → Bool) : WriteFault :=
  { rejects := fun _ row => predicate row }

/-- Whether a row is rejected now. -/
def answer (fault : WriteFault) (row : Row) : Bool :=
  fault.rejects fault.asked row

/-- The fault after it was asked about a row. -/
def ask (fault : WriteFault) (row : Row) : WriteFault :=
  { fault with asked := row :: fault.asked }

end WriteFault

/-- The tables, with what is counted and what is set for tests. -/
structure Store where
  /-- Executions, parameters and statistics. -/
  records : Ledger (Table × Uuid) Row := .empty
  data : Ledger Uuid Row := .empty
  /-- How many sessions are open. They are fewer than a word can count as long as fewer were
  acquired. -/
  activeSessions : Nat := 0
  closed : Bool := false
  /-- How many writes of data rows were asked for while the store was open. What is told of them is
  a word, `Store.toldWrites`. -/
  dataWrites : Nat := 0
  /-- How many of them were rejected; what is told of them is `Store.toldRejections`. -/
  rejectedWrites : Nat := 0
  fault : Option WriteFault := none
  /-- Milliseconds that the write of a data row takes. -/
  writeDelay : UInt64 := 0

namespace Store

def empty : Store := {}

/-! ## Counts -/

/-- The count of writes as the store tells it: a word, which begins again at zero after its highest
value. -/
def toldWrites (store : Store) : UInt64 :=
  .ofNat store.dataWrites

/-- The count of rejected writes as the store tells it. -/
def toldRejections (store : Store) : UInt64 :=
  .ofNat store.rejectedWrites

/-! ## Sessions -/

/-- The failure of everything that is asked of a closed store. -/
def refusal : Failure := .store .closed

def close (store : Store) : Store :=
  { store with closed := true }

/-- A session more, unless the store is closed. -/
def acquire (store : Store) : Except Failure Store :=
  if store.closed then .error refusal
  else .ok { store with activeSessions := store.activeSessions + 1 }

/-- A session less. -/
def release (store : Store) : Store :=
  { store with activeSessions := store.activeSessions - 1 }

/-! ## Faults -/

def setFault (store : Store) (fault : Option WriteFault) : Store :=
  { store with fault }

def setWriteDelay (store : Store) (millis : UInt64) : Store :=
  { store with writeDelay := millis }

/-- Whether the write of a row is rejected now. -/
def rejects (store : Store) (row : Row) : Bool :=
  store.fault.any fun fault => fault.answer row

/-! ## Writing -/

/-- A store in which a row was counted, and its fault asked. -/
def countWrite (store : Store) (row : Row) : Store :=
  { store with
    dataWrites := store.dataWrites + 1
    rejectedWrites := if store.rejects row then store.rejectedWrites + 1 else store.rejectedWrites
    fault := store.fault.map fun fault => fault.ask row }

def putData (store : Store) (id : Uuid) (row : Row) : Store :=
  { store with data := store.data.upsert id row }

def putKeyed (store : Store) (table : Table) (key : Uuid) (row : Row) : Store :=
  { store with records := store.records.upsert (table, key) row }

/-- Writes a data row. Rejected rows and rows without an id are counted as well. -/
def insert (store : Store) (row : Row) : Except Failure Unit × Store :=
  if store.closed then (.error refusal, store)
  else if store.rejects row then (.error (.store (.rejected row.describe)), store.countWrite row)
  else match row.key .data with
    | .ok id => (.ok (), (store.countWrite row).putData id row)
    | .error failure => (.error failure, store.countWrite row)

/-- Writes a record. For the table of data rows this is the write of a data row. -/
def putRecord (store : Store) (table : Table) (row : Row) : Except Failure Unit × Store :=
  if store.closed then (.error refusal, store)
  else match table with
    | .data => store.insert row
    | table => match row.key table with
      | .ok key => (.ok (), store.putKeyed table key row)
      | .error failure => (.error failure, store)

/-! ## Reading -/

/-- The record of a key. A data row is not a record. -/
def getRecord (store : Store) (table : Table) (key : Uuid) : Except Failure (Option Row) :=
  if store.closed then .error refusal
  else match table with
    | .data => .ok none
    | table => .ok (store.records.get? (table, key))

/-- Whether a data row is one of an execution. -/
def belongsTo (row : Row) (executionId : Uuid) : Bool :=
  row.get? "execution_id" = some (.uuid executionId)

/-- The data rows of an execution. -/
def dataRows (store : Store) (executionId : Uuid) : List Row :=
  store.data.values.filter fun row => belongsTo row executionId

/-- Whether the flag of the top is there and says so. -/
def hasFlag (row : Row) (topLevel : Bool) : Bool :=
  match row.boolean "is_primary" with
  | .ok flag => flag == topLevel
  | .error _ => false

/-- The data rows of an execution, those of the top or the others. Rows without a flag are neither.
-/
def select (store : Store) (executionId : Uuid) (topLevel : Bool) : Except Failure (List Row) :=
  if store.closed then .error refusal
  else .ok ((store.dataRows executionId).filter fun row => hasFlag row topLevel)

/-- The number of rows in a table. -/
def tableSize (store : Store) : Table → Nat
  | .data => store.data.size
  | table => store.records.keys.countP fun key => key.1 = table

/-! ## Records and data rows -/

variable (store : Store)

/-- A record of the table of data rows is a data row. -/
theorem putRecord_data (row : Row) : store.putRecord .data row = store.insert row := by
  rw [putRecord, insert]
  split <;> rfl

section Records

variable {table : Table} (hTable : table ≠ .data)
include hTable

/-- The write of a record, in any table but that of the data rows: it fails on a closed store or for
want of a key, and is put under its key otherwise. -/
theorem putRecord_of_ne (row : Row) :
    store.putRecord table row =
      if store.closed then (.error refusal, store)
      else match row.key table with
        | .ok key => (.ok (), store.putKeyed table key row)
        | .error failure => (.error failure, store) := by
  cases table with
  | data => exact absurd rfl hTable
  | _ => rfl

/-- The reading of a record, in any table but that of the data rows: it fails on a closed store and
looks up the key otherwise. -/
theorem getRecord_of_ne (key : Uuid) :
    store.getRecord table key =
      if store.closed then .error refusal else .ok (store.records.get? (table, key)) := by
  cases table with
  | data => exact absurd rfl hTable
  | _ => rfl

end Records

end Store

end Collocation
