import Collocation.Json.Printer
import Collocation.Row.Document
import Collocation.Store.Basic

/-!
# Snapshots

What a store holds, as a document: the records in the order of their tables and keys, and the data
rows in the order of the store. A store that is loaded from a snapshot is open, and has neither
sessions nor faults.
-/

set_option autoImplicit false

namespace Collocation

open Json

/-- What a store keeps in a file: its rows, and nothing of its counts and settings. -/
structure Snapshot where
  records : List (Table × Row)
  data : List Row

namespace Snapshot

/-- The order of the keys of records: by the table first. -/
def keyLe (a b : Table × Uuid) : Bool :=
  if a.1 = b.1 then a.2.le b.2 else a.1.place ≤ b.1.place

def ofStore (store : Store) : Snapshot :=
  { records := (store.records.entries.mergeSort fun a b => keyLe a.1 b.1).map
      fun (key, row) => (key.1, row)
    data := store.data.values }

/-- Adds a record under its key. -/
def addRecord (store : Store) (record : Table × Row) : Except Failure Store :=
  (record.2.key record.1).map fun key => store.putKeyed record.1 key record.2

/-- Adds a data row under its id. -/
def addData (store : Store) (row : Row) : Except Failure Store :=
  (row.key .data).map fun id => store.putData id row

/-- The store of a snapshot, if all its rows have their keys. Of rows with the same key the last one
stays. -/
def toStore (snapshot : Snapshot) : Except Failure Store := do
  let store ← snapshot.records.foldlM addRecord .empty
  snapshot.data.foldlM addData store

def toJson (snapshot : Snapshot) : Json :=
  .object
    [ ("records", .array (snapshot.records.map fun (table, row) =>
        .object [("table", .string table.tag), ("row", row.toJson)])),
      ("data", .array (snapshot.data.map Row.toJson)) ]

/-- The tables by their names. -/
def tables : List (String × Table) :=
  Table.all.map fun table => (table.tag, table)

def readRecordRow : Reader (Table × Row) :=
  readRecord ["table", "row"] fun record =>
    Prod.mk <$> record.required "table" (readVariant tables) <*> record.required "row" readRow

def read : Reader Snapshot :=
  readRecord ["records", "data"] fun record =>
    Snapshot.mk
      <$> record.required "records" (readList readRecordRow)
      <*> record.required "data" (readList readRow)

end Snapshot

namespace Store

/-- The text of a file of a store. -/
def text (store : Store) : String :=
  (Snapshot.ofStore store).toJson.compact

/-- The store of a file by its text. -/
def ofText (text : String) : Except Failure Store := do
  let snapshot ← (Json.ofText Snapshot.read text).mapError .json
  snapshot.toStore

/-- The store of a file, which is empty if there is no file. -/
def ofText? : Option String → Except Failure Store
  | none => .ok empty
  | some text => ofText text

end Store

end Collocation
