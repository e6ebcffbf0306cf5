import Collocation.Archive
import Collocation.Proofs.Assembly.RoundTrip
import Collocation.Proofs.Flattening.Preorder
import Collocation.Proofs.Row.Records
import Collocation.Proofs.Writer.Passes

/-!
# Submitting an execution

What an archive is after an execution was submitted to it: the three records of the execution are in
its store, and its rows were written in passes. What is read back of an execution are its records,
and the forest of its rows.
-/

set_option autoImplicit false

namespace Collocation

open WriteFault

namespace Submission

variable (submission : Submission) (supply : Supply)

/-- The id under which a submission is stored, with this supply of ids. -/
def id : Uuid :=
  (submission.chooseId supply).1

/-- The rows that are written of a submission. -/
def rows : List FlatRow :=
  (Flattened.ofPoints (submission.id supply) submission.points
    (submission.chooseId supply).2).1.rows

/-- The rows of a submission in the shape of its points. -/
def forest : Forest FlatRow :=
  Flattened.rowForest (submission.id supply) (submission.chooseId supply).2.mint
    (submission.chooseId supply).2.next none submission.points

/-- How many ids a submission takes: one for each point, and one for itself if it has none. -/
def idCount : Nat :=
  (if submission.executionId.isNone then 1 else 0) + Forest.size submission.points

/-- The supply without the ids that a submission takes. -/
def supplyAfter : Supply :=
  (submission.chooseId supply).2.skip (submission.rows supply).length

variable {submission supply}

/-- The choice of an id takes one from the supply just if none is given. -/
theorem chooseId_snd : (submission.chooseId supply).2 =
    supply.skip (if submission.executionId.isNone then 1 else 0) := by
  rw [chooseId]
  cases submission.executionId <;> rfl

/-- The rows of a submission are those of its forest in their order. -/
theorem rows_eq_values : submission.rows supply = Forest.values (submission.forest supply) :=
  Flattened.rows_ofPoints _ _ _

/-- There are as many rows as points. -/
theorem length_rows : (submission.rows supply).length = Forest.size submission.points := by
  rw [rows_eq_values, Forest.length_values, forest, Flattened.size_rowForest]

/-- The rows of a submission take the ids that come after its own. -/
theorem rowIds_rows :
    (submission.rows supply).map FlatRow.rowId =
      (List.range' (submission.chooseId supply).2.next (Forest.size submission.points)).map
        supply.mint := by
  rw [rows, Flattened.rowIds_ofPoints, chooseId_snd]
  rfl

/-- A submission takes so many ids from the supply as it counts. -/
theorem supplyAfter_eq : submission.supplyAfter supply = supply.skip submission.idCount := by
  rw [supplyAfter, chooseId_snd, length_rows, idCount, Supply.skip, Supply.skip, Supply.skip,
    Nat.add_assoc]

/-- The ids of the rows are among those that are taken. -/
theorem rowIds_sublist :
    ((submission.rows supply).map FlatRow.rowId).Sublist
      ((List.range' supply.next submission.idCount).map supply.mint) := by
  rw [rowIds_rows, chooseId_snd, idCount, ← List.range'_append_1, List.map_append]
  exact List.sublist_append_right _ _

/-- All rows of a submission are rows of its execution. -/
theorem executionId_of_mem_rows {row : FlatRow} (h : row ∈ submission.rows supply) :
    row.executionId = submission.id supply := by
  rw [rows_eq_values] at h
  obtain ⟨observation, -, rowId, parent, rfl⟩ := Flattened.exists_of_mem_rowForest h
  rfl

/-- What is read of the rows is what was written, with payloads settled. -/
theorem map_forest
    (hReadable : ∀ observation ∈ Forest.values submission.points, observation.Readable) :
    Forest.map FlatRow.observation (submission.forest supply) =
      Forest.map Observation.settled submission.points :=
  Flattened.map_rowForest (fun observation hMem _ _ =>
    FlatRow.observation_ofObservation (hReadable observation hMem)) _ _

/-- The rows of a submission are readable if its points are. -/
theorem readable_rows
    (hReadable : ∀ observation ∈ Forest.values submission.points, observation.Readable) :
    ∀ row ∈ submission.rows supply, row.Readable := by
  intro row hRow
  rw [rows_eq_values] at hRow
  obtain ⟨observation, hMem, rowId, parent, rfl⟩ := Flattened.exists_of_mem_rowForest hRow
  exact FlatRow.readable_ofObservation (hReadable observation hMem)

end Submission

namespace Store

/-- A store with the records of a submission. -/
def withRecords (store : Store) (submission : Submission) (id : Uuid) : Store :=
  { store with
    records := Ledger.putAll (fun record => (record.1, id)) (fun record => record.2) store.records
      (submission.records id) }

/-- An open store takes a record that has a key, and goes on with the others. -/
theorem putRecords_cons {store : Store} (hOpen : store.closed = false) {table : Table}
    (hTable : table ≠ .data) {row : Row} {key : Uuid} (hKey : row.key table = .ok key)
    (records : List (Table × Row)) :
    store.putRecords ((table, row) :: records) =
      (store.putKeyed table key row).putRecords records := by
  have hPut : store.putRecord table row = (.ok (), store.putKeyed table key row) := by
    rw [putRecord_of_ne _ hTable, hOpen, hKey]
    rfl
  rw [putRecords, hPut]

/-- An open store takes the records of a submission. -/
theorem putRecords_records {store : Store} (hOpen : store.closed = false) (submission : Submission)
    (id : Uuid) :
    store.putRecords (submission.records id) = (.ok (), store.withRecords submission id) := by
  have hExecution := (submission.execution id).key_toRow
  have hParams := submission.params.key_toRow id
  have hStats := submission.stats.key_toRow id
  have hOpen' : ∀ (table : Table) (key : Uuid) (row : Row),
      (store.putKeyed table key row).closed = false := fun _ _ _ => hOpen
  rw [Submission.records, putRecords_cons hOpen (by decide) hExecution,
    putRecords_cons (hOpen' _ _ _) (by decide) hParams,
    putRecords_cons (by exact hOpen) (by decide) hStats]
  rfl

/-- Records of other executions stay. -/
theorem get?_withRecords (store : Store) (submission : Submission) (id other : Uuid) :
    (store.withRecords submission id).records.get? (.params, other) =
        (if id = other then some (submission.params.toRow id)
          else store.records.get? (.params, other)) ∧
      (store.withRecords submission id).records.get? (.executionStats, other) =
        if id = other then some (submission.stats.toRow id)
        else store.records.get? (.executionStats, other) := by
  simp only [withRecords, Submission.records, Ledger.putAll, List.foldl_cons, List.foldl_nil,
    Ledger.get?_upsert, Prod.mk.injEq, reduceCtorEq, false_and, if_false, true_and, and_self]

/-- After the records of a submission the executions are as they were, but for its own. -/
theorem get?_withRecords_executions (store : Store) (submission : Submission) (id other : Uuid) :
    (store.withRecords submission id).records.get? (.executions, other) =
      if id = other then some (submission.execution id).toRow
      else store.records.get? (.executions, other) := by
  simp only [withRecords, Submission.records, Ledger.putAll, List.foldl_cons, List.foldl_nil,
    Ledger.get?_upsert, Prod.mk.injEq, reduceCtorEq, false_and, if_false, true_and]

/-! ## Data rows -/

/-- The rows of an execution among flat rows that are stored. -/
theorem dataRows_of_values {store : Store} {rows : List FlatRow}
    (h : store.data.values = rows.map FlatRow.toRow) (executionId : Uuid) :
    store.dataRows executionId =
      (rows.filter fun row => row.executionId = executionId).map FlatRow.toRow := by
  simp only [dataRows, h, List.filter_map, Function.comp_def, FlatRow.belongsTo_toRow]

/-- What is selected of the flat rows of an execution. -/
theorem select_of_dataRows {store : Store} (hOpen : store.closed = false) {executionId : Uuid}
    {rows : List FlatRow} (h : store.dataRows executionId = rows.map FlatRow.toRow) :
    store.select executionId true = .ok ((rows.filter FlatRow.isTopLevel).map FlatRow.toRow) ∧
      store.select executionId false =
        .ok ((rows.filter fun row => !row.isTopLevel).map FlatRow.toRow) := by
  have hFlag : ∀ topLevel : Bool, store.select executionId topLevel =
      .ok ((rows.filter fun row => row.isTopLevel == topLevel).map FlatRow.toRow) := by
    intro topLevel
    simp only [select, hOpen, h, List.filter_map, Function.comp_def, FlatRow.hasFlag_toRow,
      Bool.false_eq_true, if_false]
  constructor
  · rw [hFlag]
    simp only [beq_true]
  · rw [hFlag]
    simp only [beq_false]

/-! ## Records -/

/-- What is stored of an execution, if its records are there and its forest can be read. -/
theorem retrieve_eq_ok {store : Store} (hOpen : store.closed = false) {depth : NestingDepth}
    {id : Uuid} {params : Params} {stats : Stats} {assembly : Assembly}
    (hParams : store.records.get? (.params, id) = some (params.toRow id))
    (hStats : store.records.get? (.executionStats, id) = some (stats.toRow id))
    (hAssembly : store.assemble depth id false = .ok assembly) :
    store.retrieve depth id false =
      .ok { executionId := id, params := params.settled, stats, points := assembly.points } := by
  have hParamsRow : store.requireRecord .params id = .ok (params.toRow id) := by
    rw [requireRecord_of_ne hOpen (by decide), hParams]
  have hStatsRow : store.requireRecord .executionStats id = .ok (stats.toRow id) := by
    rw [requireRecord_of_ne hOpen (by decide), hStats]
  have hParams' := params.ofRow_toRow id
  have hStats' := stats.ofRow_toRow id
  simp only [retrieve, hParamsRow, hStatsRow, bind, Except.bind, hParams', hStats', hAssembly]
  rfl

end Store

namespace Archive

/-- How many passes a submission has at most. -/
def attempts (archive : Archive) : Nat :=
  archive.writer.config.maxAttempts.toNat

/-- A submission has one pass at least. -/
theorem attempts_pos (archive : Archive) : 0 < archive.attempts := by
  refine Nat.pos_of_ne_zero fun hZero => archive.writer.usable.2 ?_
  exact UInt32.toNat_inj.1 hZero

variable (archive : Archive) (submission : Submission)

/-- How many passes a submission has: all that it may have, or one up to the first full one. -/
def passes : Nat :=
  passCount archive.store.fault (submission.rows archive.supply) archive.attempts

/-- At least one pass is made. -/
theorem passes_pos : 0 < archive.passes submission :=
  passCount_pos _ _ archive.attempts_pos

/-- A submission to an open archive writes its records, and then its rows. -/
theorem submit_of_open (hOpen : archive.store.closed = false) :
    (archive.submit submission).1 =
        ((archive.writer.write (submission.rows archive.supply)
          (archive.store.withRecords submission (submission.id archive.supply))).result
            archive.writer (submission.id archive.supply)
            (submission.rows archive.supply).length).map (fun _ => submission.id archive.supply) ∧
      (archive.submit submission).2.store =
        (archive.writer.write (submission.rows archive.supply)
          (archive.store.withRecords submission (submission.id archive.supply))).store ∧
      (archive.submit submission).2.writer = archive.writer ∧
      (archive.submit submission).2.supply = submission.supplyAfter archive.supply := by
  have hRecords := Store.putRecords_records hOpen submission (submission.id archive.supply)
  have hSupply : (Flattened.ofPoints (submission.id archive.supply) submission.points
      (submission.chooseId archive.supply).2).2 = submission.supplyAfter archive.supply := by
    rw [Submission.supplyAfter, Submission.rows, Flattened.ofPoints, List.length_map]
  have hChoose : submission.chooseId archive.supply =
      (submission.id archive.supply, (submission.chooseId archive.supply).2) := rfl
  rw [submit, hChoose]
  simp only [hRecords, flatten, hSupply, write]
  exact ⟨rfl, rfl, trivial, trivial⟩

/-- What comes of a submission to an open archive that has no cause to wait. -/
theorem submit_eq (hOpen : archive.store.closed = false)
    (hPatient : archive.writer.Patient archive.store) :
    (archive.submit submission).1 =
        (if (fullPass? archive.store.fault (submission.rows archive.supply)
            archive.attempts).isSome then
          .ok (submission.id archive.supply)
        else .error (.writeFailed (submission.id archive.supply)
          (submission.rows archive.supply).length archive.attempts)) ∧
      (archive.submit submission).2.store =
        (archive.store.withRecords submission (submission.id archive.supply)).insertAll
          (askedIn (submission.rows archive.supply) (archive.passes submission)) ∧
      (archive.submit submission).2.writer = archive.writer ∧
      (archive.submit submission).2.supply = submission.supplyAfter archive.supply := by
  obtain ⟨hResult, hStore, hRest⟩ := archive.submit_of_open submission hOpen
  obtain ⟨hWritten, -, hSucceeded⟩ := Writer.writePasses_toRow
    (show (archive.store.withRecords submission (submission.id archive.supply)).closed = false
      from hOpen) hPatient (submission.rows archive.supply)
      archive.attempts
  have hFull : (archive.writer.write (submission.rows archive.supply)
      (archive.store.withRecords submission (submission.id archive.supply))).succeeded =
        (fullPass? archive.store.fault (submission.rows archive.supply)
          archive.attempts).isSome := hSucceeded
  refine ⟨?_, hStore.trans hWritten, hRest⟩
  rw [hResult, Writing.result, hFull]
  split <;> rfl

/-- Rows are written after the records, and leave them as they are. -/
theorem submit_store (hOpen : archive.store.closed = false)
    (hPatient : archive.writer.Patient archive.store) :
    (archive.submit submission).2.store.closed = false ∧
      (archive.submit submission).2.store.writeDelay = archive.store.writeDelay ∧
      (archive.submit submission).2.store.records =
        (archive.store.withRecords submission (submission.id archive.supply)).records ∧
      (archive.submit submission).2.store.fault =
        archive.store.fault.map fun fault => fault.askAll
          (askedIn (submission.rows archive.supply) (archive.passes submission)) := by
  obtain ⟨-, hStore, -, -⟩ := archive.submit_eq submission hOpen hPatient
  have hOpen' : (archive.store.withRecords submission (submission.id archive.supply)).closed =
      false := hOpen
  rw [hStore, askedIn, Store.insertAll_toRow hOpen']
  exact ⟨hOpen, rfl, rfl, rfl⟩

/-- New rows come behind those that were stored, in the order in which they land. -/
theorem submit_entries (hOpen : archive.store.closed = false)
    (hPatient : archive.writer.Patient archive.store)
    (hNodup : ((submission.rows archive.supply).map FlatRow.rowId).Nodup)
    (hUnused : ∀ row ∈ submission.rows archive.supply, row.rowId ∉ archive.store.data.keys) :
    (archive.submit submission).2.store.data.entries =
      archive.store.data.entries ++
        (landed archive.store.fault (submission.rows archive.supply)
          (archive.passes submission)).map fun row => (row.rowId, row.toRow) := by
  obtain ⟨-, hStore, -, -⟩ := archive.submit_eq submission hOpen hPatient
  have hOpen' : (archive.store.withRecords submission (submission.id archive.supply)).closed =
      false := hOpen
  rw [hStore, Store.entries_insertAll_rounds hOpen' hNodup hUnused]
  rfl

/-! ## Small archives -/

/-- Parameters in which nothing is asked for. -/
def plainParams : Params :=
  { primary := "survey", matchup := ["buoys"], depthMin := none, depthMax := none
    timeTolerance := 0, radiusTolerance := .zero, startTime := .epoch, endTime := .epoch
    platforms := "", boundingBox := "", parameter := "" }

/-- An execution with some points, of which little is known. -/
def plainSubmission (executionId : Option Uuid) (points : List Point) : Submission :=
  { executionId, points, timeStarted := .epoch, timeCompleted := .epoch, userEmail := ""
    params := plainParams, stats := ⟨0, 0, 0⟩ }

/-- Two passes, and one row at the same time. -/
def plainConfig : Config :=
  { chunkSize := 1, maxAttempts := 2 }

/-- The plain configuration can be used. -/
theorem usable_plainConfig : plainConfig.Usable :=
  ⟨by decide, by decide⟩

/-- An empty archive that has two passes for a submission, and a store with a fault. -/
def plainArchive (fault : Option WriteFault) : Archive :=
  { writer := ⟨plainConfig, usable_plainConfig⟩
    supply := .seeded 0
    store := Store.empty.setFault fault
    metrics := { inWindow := nil_inWindow } }

/-- A point with a match, and a point beside it. -/
def nestedPoints : List Point :=
  [ Assembly.plainPoint "a" none [Assembly.plainPoint "b" none []],
    Assembly.plainPoint "c" none [] ]

end Archive

end Collocation
