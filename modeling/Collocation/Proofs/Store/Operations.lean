import Collocation.Proofs.Archive.Loading
import Collocation.Proofs.Archive.Retrieval

/-!
# Operations of a store

Whatever is asked of a store that was empty at first, one operation after the other: its data rows
have an order without repetition, which lists the keys that have a row and no others; every row is
filed under its own key; no more rows are stored than writes were accepted; and of each key the row
is there that was written last. An operation that fails leaves all rows as they were.
-/

set_option autoImplicit false

namespace Collocation

/-- What can be asked of a store. -/
inductive Operation where
  | put (table : Table) (row : Row)
  | insert (row : Row)
  | get (table : Table) (key : Uuid)
  | select (executionId : Uuid) (topLevel : Bool)
  | setFault (fault : Option WriteFault)
  | setWriteDelay (millis : UInt64)
  | acquire
  | release
  | close

namespace Operation

/-- Whether an operation succeeds, and the store after it. -/
def perform (store : Store) : Operation → Except Failure Unit × Store
  | put table row => store.putRecord table row
  | insert row => store.insert row
  | get table key => (outcome (store.getRecord table key), store)
  | select executionId topLevel => (outcome (store.select executionId topLevel), store)
  | setFault fault => (.ok (), store.setFault fault)
  | setWriteDelay millis => (.ok (), store.setWriteDelay millis)
  | acquire => match store.acquire with
    | .ok store => (.ok (), store)
    | .error failure => (.error failure, store)
  | release => (.ok (), store.release)
  | close => (.ok (), store.close)

/-- The row that an operation is to write, and the table. -/
def row? : Operation → Option (Table × Row)
  | put table row => some (table, row)
  | insert row => some (.data, row)
  | _ => none

/-- What an operation wrote, if it was a write and succeeded. -/
def written (store : Store) (operation : Operation) : List (Table × Row) :=
  match (operation.perform store).1 with
  | .ok () => operation.row?.toList
  | .error _ => []

end Operation

namespace Store

/-- A store after some operations. -/
def performAll (store : Store) (operations : List Operation) : Store :=
  operations.foldl (fun store operation => (operation.perform store).2) store

/-- What was written in some operations, one row after the other. -/
def log (store : Store) : List Operation → List (Table × Row)
  | [] => []
  | operation :: operations =>
    operation.written store ++ (operation.perform store).2.log operations

/-- The row of a key that was written last to a table. -/
def lastRow (log : List (Table × Row)) (table : Table) (key : Uuid) : Option Row :=
  ((log.filter fun write => write.1 = table ∧ write.2.key table = .ok key).getLast?).map (·.2)

/-- The last of some operations is performed on the store that the others left. -/
theorem performAll_concat (store : Store) (operations : List Operation) (operation : Operation) :
    store.performAll (operations ++ [operation]) =
      (operation.perform (store.performAll operations)).2 := by
  rw [performAll, List.foldl_append]
  rfl

/-- What the last of some operations wrote stands at the end of the log. -/
theorem log_concat (store : Store) (operations : List Operation) (operation : Operation) :
    store.log (operations ++ [operation]) =
      store.log operations ++ operation.written (store.performAll operations) := by
  induction operations generalizing store with
  | nil => simp [log, performAll]
  | cons first operations ih =>
    rw [List.cons_append, log, ih, log, List.append_assoc]
    rfl

/-- A row that is written comes instead of the one that its key had. -/
theorem lastRow_concat {table : Table} {row : Row} {key : Uuid} (hKey : row.key table = .ok key)
    (log : List (Table × Row)) (other : Table) (key' : Uuid) :
    lastRow (log ++ [(table, row)]) other key' =
      if (table, key) = (other, key') then some row else lastRow log other key' := by
  rw [lastRow, List.filter_append]
  by_cases hTable : table = other
  · subst hTable
    by_cases hSame : key = key'
    · simp [hKey, hSame]
    · simp [hKey, hSame, lastRow]
  · simp [hTable, lastRow]

/-! ## One operation -/

/-- What an operation can do to the rows: nothing, and then at most one write more is counted; or it
writes a data row; or it writes a record. -/
inductive Effect (store : Store) (operation : Operation) : Except Failure Unit → Store → Prop
  | none (result : Except Failure Unit) (after : Store)
      (hWritten : result = .ok () → operation.row? = .none)
      (hRecords : after.records = store.records) (hData : after.data = store.data)
      (hCounts : after.dataWrites = store.dataWrites ∧
          after.rejectedWrites = store.rejectedWrites ∨
        after.dataWrites = store.dataWrites + 1 ∧
          (after.rejectedWrites = store.rejectedWrites ∨
            after.rejectedWrites = store.rejectedWrites + 1)) :
      Effect store operation result after
  | data (row : Row) (id : Uuid) (after : Store) (hRow : operation.row? = some (.data, row))
      (hKey : row.key .data = .ok id) (hRecords : after.records = store.records)
      (hData : after.data = store.data.upsert id row)
      (hWrites : after.dataWrites = store.dataWrites + 1)
      (hRejected : after.rejectedWrites = store.rejectedWrites) :
      Effect store operation (.ok ()) after
  | record (table : Table) (row : Row) (key : Uuid) (after : Store)
      (hTable : table ≠ .data) (hRow : operation.row? = some (table, row))
      (hKey : row.key table = .ok key)
      (hRecords : after.records = store.records.upsert (table, key) row)
      (hData : after.data = store.data) (hWrites : after.dataWrites = store.dataWrites)
      (hRejected : after.rejectedWrites = store.rejectedWrites) :
      Effect store operation (.ok ()) after

/-- The effect of an operation that writes nothing and counts nothing. -/
theorem Effect.idle {store after : Store} {operation : Operation} {result : Except Failure Unit}
    (hWritten : result = .ok () → operation.row? = .none)
    (hRecords : after.records = store.records) (hData : after.data = store.data)
    (hWrites : after.dataWrites = store.dataWrites)
    (hRejected : after.rejectedWrites = store.rejectedWrites) :
    Effect store operation result after :=
  .none _ _ hWritten hRecords hData (.inl ⟨hWrites, hRejected⟩)

/-- What the write of a data row can do to a store. -/
theorem effect_insert (store : Store) {operation : Operation} {row : Row}
    (hRow : operation.row? = some (.data, row)) :
    Effect store operation (store.insert row).1 (store.insert row).2 := by
  rw [insert]
  by_cases hClosed : store.closed = true
  · rw [if_pos hClosed]
    exact .idle (by rintro ⟨⟩) rfl rfl rfl rfl
  rw [if_neg hClosed]
  by_cases hRejects : store.rejects row = true
  · rw [if_pos hRejects]
    refine .none _ _ (by rintro ⟨⟩) rfl rfl (.inr ⟨rfl, .inr ?_⟩)
    simp only [countWrite, hRejects, if_true]
  · rw [if_neg hRejects]
    have hRejected : (store.countWrite row).rejectedWrites = store.rejectedWrites := by
      simp only [countWrite, hRejects, Bool.false_eq_true, if_false]
    cases hKey : row.key .data with
    | ok id => exact .data row id _ hRow hKey rfl rfl rfl hRejected
    | error failure => exact .none _ _ (by rintro ⟨⟩) rfl rfl (.inr ⟨rfl, .inl hRejected⟩)

/-- What the write of a record can do to a store, in any table. -/
theorem effect_putRecord (store : Store) (table : Table) (row : Row) :
    Effect store (.put table row) (store.putRecord table row).1 (store.putRecord table row).2 := by
  by_cases hTable : table = .data
  · subst hTable
    rw [putRecord_data]
    exact effect_insert store rfl
  · rw [putRecord_of_ne _ hTable]
    by_cases hClosed : store.closed = true
    · rw [if_pos hClosed]
      exact .idle (by rintro ⟨⟩) rfl rfl rfl rfl
    · rw [if_neg hClosed]
      cases hKey : row.key table with
      | ok key => exact .record table row key _ hTable rfl hKey rfl rfl rfl rfl
      | error failure => exact .idle (by rintro ⟨⟩) rfl rfl rfl rfl

/-- What any operation can do to a store. -/
theorem effect_perform (store : Store) (operation : Operation) :
    Effect store operation (operation.perform store).1 (operation.perform store).2 := by
  cases operation with
  | put table row => exact effect_putRecord store table row
  | insert row => exact effect_insert store rfl
  | get | select | setFault | setWriteDelay | release | close =>
    exact .idle (fun _ => rfl) rfl rfl rfl rfl
  | acquire =>
    cases hClosed : store.closed <;>
    · simp only [Operation.perform, Store.acquire, hClosed]
      exact .idle (fun _ => rfl) rfl rfl rfl rfl

section Step

variable {store after : Store} {operation : Operation} {result : Except Failure Unit}
  (h : Effect store operation result after)
include h

/-- An operation that fails leaves all rows as they were. -/
theorem Effect.of_error {failure : Failure} (hError : result = .error failure) :
    after.records = store.records ∧ after.data = store.data := by
  cases h with
  | none _ _ _ hRecords hData => exact ⟨hRecords, hData⟩
  | data | record => cases hError

/-- The rows that are stored stay in their places, and a new one comes behind them. -/
theorem Effect.prefix_keys : store.data.keys <+: after.data.keys := by
  cases h with
  | none _ _ _ _ hData | record _ _ _ _ _ _ _ _ hData => exact hData ▸ List.prefix_rfl
  | data row id _ _ _ _ hData =>
    rw [hData, Ledger.keys_upsert]
    split
    · exact List.prefix_rfl
    · exact List.prefix_append _ _

/-- A data row that is written is the row of its id. If the id has a row, this one takes its place;
the rows of other ids stay. -/
theorem Effect.of_data {row : Row} (hRow : operation.row? = some (.data, row))
    (hOk : result = .ok ()) :
    ∃ id, row.key .data = .ok id ∧ after.data.get? id = some row ∧
      (∀ other, other ≠ id → after.data.get? other = store.data.get? other) ∧
      after.data.keys =
        if id ∈ store.data.keys then store.data.keys else store.data.keys ++ [id] := by
  cases h with
  | none _ _ hWritten =>
    rw [hWritten hOk] at hRow
    cases hRow
  | record table _ _ _ hTable hOther =>
    rw [hOther, Option.some.injEq, Prod.mk.injEq] at hRow
    exact absurd hRow.1 hTable
  | data _ id _ hOther hKey _ hData =>
    rw [hOther, Option.some.injEq, Prod.mk.injEq] at hRow
    obtain ⟨-, rfl⟩ := hRow
    refine ⟨id, hKey, ?_, fun other hNe => ?_, ?_⟩
    · rw [hData, Ledger.get?_upsert, if_pos rfl]
    · rw [hData, Ledger.get?_upsert, if_neg (Ne.symm hNe)]
    · rw [hData, Ledger.keys_upsert]

end Step

/-! ## What every operation keeps -/

/-- Every row is kept under its own key. -/
structure Keyed (store : Store) : Prop where
  filed : store.Filed
  record : ∀ entry ∈ store.records.entries, entry.2.key entry.1.1 = .ok entry.1.2

/-- A data row that is added under its id. -/
theorem Keyed.putData {store : Store} (h : store.Keyed) {row : Row} {id : Uuid}
    (hKey : row.key .data = .ok id) : (store.putData id row).Keyed where
  filed := by
    intro entry hEntry
    rcases Ledger.mem_entries_upsert hEntry with hOld | rfl
    · exact h.filed entry hOld
    · exact hKey
  record := h.record

/-- A record that is added under its key. -/
theorem Keyed.putKeyed {store : Store} (h : store.Keyed) {table : Table} {row : Row} {key : Uuid}
    (hKey : row.key table = .ok key) : (store.putKeyed table key row).Keyed where
  filed := h.filed
  record := by
    intro entry hEntry
    rcases Ledger.mem_entries_upsert hEntry with hOld | rfl
    · exact h.record entry hOld
    · exact hKey

/-- What is kept under which key is all that counts. -/
theorem Keyed.congr {store after : Store} (h : store.Keyed)
    (hRecords : after.records = store.records) (hData : after.data = store.data) :
    after.Keyed where
  filed := by
    unfold Filed
    rw [hData]
    exact h.filed
  record := by
    rw [hRecords]
    exact h.record

/-- Rows stay under their own keys, whatever effect an operation has. -/
theorem Keyed.of_effect {store after : Store} {operation : Operation}
    {result : Except Failure Unit} (h : store.Keyed)
    (hEffect : Effect store operation result after) : after.Keyed := by
  cases hEffect with
  | none _ _ _ hRecords hData => exact h.congr hRecords hData
  | data row id _ _ hKey hRecords hData => exact (h.putData hKey).congr hRecords hData
  | record table row key _ _ _ hKey hRecords hData => exact (h.putKeyed hKey).congr hRecords hData

/-- Each record is kept under its own table and key, and a data row is no record. -/
def RecordsFiled (store : Store) : Prop :=
  ∀ entry ∈ store.records.entries, entry.1.1 ≠ .data ∧ entry.2.key entry.1.1 = .ok entry.1.2

/-- The rows of a store are in order. -/
structure Orderly (store : Store) : Prop where
  filed : store.Filed
  recordsFiled : store.RecordsFiled

/-- In an orderly store each row is under its own key. -/
theorem Orderly.keyed {store : Store} (h : store.Orderly) : store.Keyed where
  filed := h.filed
  record := fun entry hEntry => (h.recordsFiled entry hEntry).2

/-- The rows of a store are in order, and so are its counts. -/
structure Sound (store : Store) : Prop extends Orderly store where
  /-- Each data row was written once at least, and not each write was accepted. -/
  counted : store.data.size + store.rejectedWrites ≤ store.dataWrites

/-- The empty store is sound. -/
theorem sound_empty : empty.Sound where
  filed := filed_empty
  recordsFiled := by rintro entry ⟨⟩
  counted := Nat.le_refl 0

/-- No operation makes a data row a record. -/
theorem Effect.not_data {store after : Store} {operation : Operation}
    {result : Except Failure Unit} (hEffect : Effect store operation result after)
    (h : ∀ key ∈ store.records.keys, key.1 ≠ .data) :
    ∀ key ∈ after.records.keys, key.1 ≠ .data := by
  cases hEffect with
  | none _ _ _ hRecords | data _ _ _ _ _ hRecords =>
    rw [hRecords]
    exact h
  | record table row key _ hTable _ _ hRecords =>
    intro other hOther
    rw [hRecords, Ledger.mem_keys_upsert] at hOther
    rcases hOther with hOld | rfl
    · exact h other hOld
    · exact hTable

/-- There are no more data rows than accepted writes, and no operation changes that. -/
theorem Effect.counted {store after : Store} {operation : Operation}
    {result : Except Failure Unit} (hEffect : Effect store operation result after)
    (h : store.data.size + store.rejectedWrites ≤ store.dataWrites) :
    after.data.size + after.rejectedWrites ≤ after.dataWrites := by
  cases hEffect with
  | none _ _ _ _ hData hCounts =>
    rw [hData]
    omega
  | data row id _ _ _ _ hData hWrites hRejected =>
    have hSize := Ledger.size_upsert_le store.data id row
    rw [hData, hWrites, hRejected]
    omega
  | record _ _ _ _ _ _ _ _ hData hWrites hRejected =>
    rw [hData, hWrites, hRejected]
    exact h

/-- A sound store stays sound, whatever effect an operation has. -/
theorem Sound.of_effect {store after : Store} {operation : Operation}
    {result : Except Failure Unit} (h : store.Sound)
    (hEffect : Effect store operation result after) : after.Sound := by
  have hKeyed := h.keyed.of_effect hEffect
  have hNotData : ∀ key ∈ after.records.keys, key.1 ≠ .data := by
    apply hEffect.not_data
    intro key hKey
    obtain ⟨entry, hEntry, rfl⟩ := List.mem_map.1 hKey
    exact (h.recordsFiled entry hEntry).1
  exact
    { filed := hKeyed.filed
      recordsFiled := fun entry hEntry =>
        ⟨hNotData entry.1 (List.mem_map_of_mem hEntry), hKeyed.record entry hEntry⟩
      counted := hEffect.counted h.counted }

/-- An operation without a row to write, or that failed, wrote nothing. -/
theorem written_eq_nil {operation : Operation} {result : Except Failure Unit}
    (h : result = .ok () → operation.row? = none) :
    (match result with
      | .ok () => operation.row?.toList
      | .error _ => []) = [] := by
  cases result with
  | error failure => rfl
  | ok =>
    rw [h rfl]
    rfl

/-- Of each key the row is there that was written last. -/
structure Holds (store : Store) (log : List (Table × Row)) : Prop where
  records (table : Table) (key : Uuid) (hTable : table ≠ .data) :
    store.records.get? (table, key) = lastRow log table key
  data (id : Uuid) : store.data.get? id = lastRow log .data id

/-- The empty store holds what no writes wrote. -/
theorem holds_empty : empty.Holds [] :=
  ⟨fun _ _ _ => rfl, fun _ => rfl⟩

/-- A store holds what was written last, after each operation. -/
theorem Holds.perform {store : Store} {log : List (Table × Row)} (h : store.Holds log)
    (operation : Operation) :
    (operation.perform store).2.Holds (log ++ operation.written store) := by
  have hEffect := effect_perform store operation
  rw [Operation.written]
  generalize (operation.perform store).1 = result at hEffect ⊢
  generalize (operation.perform store).2 = after at hEffect ⊢
  cases hEffect with
  | none _ _ hWritten hRecords hData =>
    rw [written_eq_nil hWritten, List.append_nil]
    refine ⟨fun table key hTable => ?_, fun id => ?_⟩
    · rw [hRecords, h.records table key hTable]
    · rw [hData, h.data]
  | data row id _ hRow hKey hRecords hData =>
    rw [hRow, Option.toList_some]
    refine ⟨fun table key hTable => ?_, fun other => ?_⟩
    · have hOther : ¬ (Table.data, id) = (table, key) := fun hEq => hTable (Prod.mk.inj hEq).1.symm
      rw [hRecords, lastRow_concat hKey, if_neg hOther, h.records table key hTable]
    · rw [hData, Ledger.get?_upsert, lastRow_concat hKey, h.data]
      simp only [Prod.mk.injEq, true_and]
  | record table row key _ hTable hRow hKey hRecords hData =>
    rw [hRow, Option.toList_some]
    refine ⟨fun other key' hOther => ?_, fun id => ?_⟩
    · rw [hRecords, Ledger.get?_upsert, lastRow_concat hKey, h.records other key' hOther]
    · have hOther : ¬ (table, key) = (Table.data, id) := fun hEq => hTable (Prod.mk.inj hEq).1
      rw [hData, lastRow_concat hKey, if_neg hOther, h.data]

/-! ## Runs -/

/-- After any operations on it, a store that was empty is sound. -/
theorem sound_performAll (operations : List Operation) : (empty.performAll operations).Sound := by
  induction operations using List.reverseRecOn with
  | nil => exact sound_empty
  | append_singleton operations operation ih =>
    rw [performAll_concat]
    exact ih.of_effect (effect_perform _ operation)

/-- After any operations on it, a store that was empty holds what was written last. -/
theorem holds_performAll (operations : List Operation) :
    (empty.performAll operations).Holds (empty.log operations) := by
  induction operations using List.reverseRecOn with
  | nil => exact holds_empty
  | append_singleton operations operation ih =>
    rw [performAll_concat, log_concat]
    exact ih.perform operation

/-- What holds of a store in which rows were written one after the other, and of every operation on
it. -/
structure InOrder (store : Store) (log : List (Table × Row)) : Prop where
  /-- No id comes twice in the order of the data rows. -/
  nodup : store.data.keys.Nodup
  /-- The order lists the ids that have a row, and no others. -/
  mem_keys_iff (id : Uuid) : id ∈ store.data.keys ↔ (store.data.get? id).isSome = true
  /-- Data rows are read in their order. -/
  values : store.data.values = store.data.keys.filterMap store.data.get?
  /-- Each data row is filed under its own id. -/
  key_data (id : Uuid) (row : Row) (hRow : store.data.get? id = some row) :
    row.key .data = .ok id
  /-- Each record is filed under its own key, and none among the data rows. -/
  key_record (table : Table) (key : Uuid) (row : Row)
    (hRow : store.records.get? (table, key) = some row) : table ≠ .data ∧ row.key table = .ok key
  rejected_le : store.rejectedWrites ≤ store.dataWrites
  /-- As long as the writes are fewer than a word can count, the counts are what is told of them, so
  that the words are in the same order. -/
  told (hWord : store.dataWrites < UInt64.size) :
    store.toldWrites.toNat = store.dataWrites ∧
      store.toldRejections.toNat = store.rejectedWrites
  /-- There are no more data rows than writes that were not rejected. -/
  size_le : store.data.size ≤ store.dataWrites - store.rejectedWrites
  /-- The rows that are stored stay in their places. -/
  prefix_keys (operation : Operation) :
    store.data.keys <+: (operation.perform store).2.data.keys
  size_le_after (operation : Operation) :
    store.data.size ≤ (operation.perform store).2.data.size
  /-- A data row that is written is the row of its id from then on, in the place of that id if it
  has one. -/
  write_data (operation : Operation) (row : Row) (hRow : operation.row? = some (.data, row))
    (hOk : (operation.perform store).1 = .ok ()) :
    ∃ id, row.key .data = .ok id ∧ (operation.perform store).2.data.get? id = some row ∧
      (∀ other, other ≠ id →
        (operation.perform store).2.data.get? other = store.data.get? other) ∧
      (operation.perform store).2.data.keys =
        if id ∈ store.data.keys then store.data.keys else store.data.keys ++ [id]
  /-- An operation that fails leaves all rows as they were. -/
  of_error (operation : Operation) (failure : Failure)
    (hError : (operation.perform store).1 = .error failure) :
    (operation.perform store).2.records = store.records ∧
      (operation.perform store).2.data = store.data
  /-- While the store is open, a record is the row that was written last under its key. -/
  getRecord (table : Table) (key : Uuid) (hOpen : store.closed = false) :
    store.getRecord table key = .ok (if table = .data then none else lastRow log table key)

/-- Whatever was asked of a store that was empty, it is in order. -/
theorem inOrder_performAll (operations : List Operation) :
    (empty.performAll operations).InOrder (empty.log operations) := by
  have hSound := sound_performAll operations
  have hHolds := holds_performAll operations
  generalize empty.performAll operations = store at hSound hHolds ⊢
  have hCounted := hSound.counted
  have hEffect := effect_perform store
  exact
    { nodup := store.data.nodup_keys
      mem_keys_iff := fun id => by
        rw [Option.isSome_iff_ne_none, ne_eq, Ledger.get?_eq_none_iff, not_not]
      values := store.data.values_eq_filterMap
      key_data := fun id row hRow =>
        hSound.filed (id, row) (Ledger.get?_eq_some_iff.1 hRow)
      key_record := fun table key row hRow =>
        hSound.recordsFiled ((table, key), row) (Ledger.get?_eq_some_iff.1 hRow)
      rejected_le := by omega
      told := fun hWord => ⟨toNat_toldWrites hWord, toNat_toldRejections (by omega)⟩
      size_le := by omega
      prefix_keys := fun operation => (hEffect operation).prefix_keys
      size_le_after := fun operation => by
        rw [← Ledger.length_keys, ← Ledger.length_keys]
        exact (hEffect operation).prefix_keys.length_le
      write_data := fun operation row hRow hOk => (hEffect operation).of_data hRow hOk
      of_error := fun operation failure hError => (hEffect operation).of_error hError
      getRecord := fun table key hOpen => by
        by_cases hTable : table = .data
        · subst hTable
          simp only [Store.getRecord, hOpen, Bool.false_eq_true, if_false, if_true]
        · rw [getRecord_of_ne _ hTable, hOpen, if_neg hTable, hHolds.records table key hTable]
          rfl }

/-- An operation asks for one write at most, and acquires one session at most. -/
theorem counts_perform_le (store : Store) (operation : Operation) :
    (operation.perform store).2.dataWrites ≤ store.dataWrites + 1 ∧
      (operation.perform store).2.activeSessions ≤ store.activeSessions + 1 := by
  constructor
  · have hEffect := effect_perform store operation
    generalize (operation.perform store).1 = result at hEffect
    generalize (operation.perform store).2 = after at hEffect ⊢
    cases hEffect with
    | none _ _ _ _ _ hCounts => omega
    | data _ _ _ _ _ _ _ hWrites => omega
    | record _ _ _ _ _ _ _ _ _ hWrites => omega
  · cases operation with
    | put table row =>
      have hStay := store.activeSessions_putRecord row table
      simp only [Operation.perform]
      omega
    | insert row =>
      have hStay := store.activeSessions_insert row
      simp only [Operation.perform]
      omega
    | get | select | setFault | setWriteDelay | close => exact Nat.le_succ _
    | release => exact Nat.le_succ_of_le (Nat.sub_le _ 1)
    | acquire =>
      cases hClosed : store.closed <;> simp [Operation.perform, Store.acquire, hClosed]

/-- After any operations no more writes were asked for, and no more sessions are open, than these
are. -/
theorem counts_performAll_le (operations : List Operation) :
    (empty.performAll operations).dataWrites ≤ operations.length ∧
      (empty.performAll operations).activeSessions ≤ operations.length := by
  induction operations using List.reverseRecOn with
  | nil => exact ⟨Nat.le_refl 0, Nat.le_refl 0⟩
  | append_singleton operations operation ih =>
    have hStep := counts_perform_le (empty.performAll operations) operation
    rw [performAll_concat, List.length_append, List.length_singleton]
    omega

/-- After fewer operations than a word can count, the counts are what is told of them. -/
theorem told_performAll {operations : List Operation} (hLength : operations.length < UInt64.size) :
    (empty.performAll operations).toldWrites.toNat = (empty.performAll operations).dataWrites ∧
      (empty.performAll operations).toldRejections.toNat =
        (empty.performAll operations).rejectedWrites := by
  have hWrites := (counts_performAll_le operations).1
  have hCounted := (sound_performAll operations).counted
  exact ⟨toNat_toldWrites (by omega), toNat_toldRejections (by omega)⟩

/-- A row with an id, and with a mark by which its versions differ. -/
def markedRow (mark : Int64) : Row :=
  .ofList [("id", .uuid .nil), ("execution_id", .uuid .nil), ("mark", .int mark)]

/-- A first write is rejected, a row is written twice, one has no id, and a record is put twice. -/
def mixedOperations : List Operation :=
  [ .setFault (some (.first 1)), .insert (markedRow 1), .insert (markedRow 2),
    .put .params (markedRow 3), .put .data .empty, .put .params (markedRow 4) ]

/-- After these operations the last record is there, a row that comes again takes the place of the
one that was written, and a row without an id changes nothing. -/
theorem inOrder_performAll_mixed :
    (empty.performAll mixedOperations).getRecord .params .nil = .ok (some (markedRow 4)) ∧
      ((Operation.insert (markedRow 5)).perform (empty.performAll mixedOperations)).2.data.keys =
        (empty.performAll mixedOperations).data.keys ∧
      ((Operation.insert .empty).perform (empty.performAll mixedOperations)).2.data =
        (empty.performAll mixedOperations).data := by
  have hOrder := inOrder_performAll mixedOperations
  have hOpen : (empty.performAll mixedOperations).closed = false := by decide +kernel
  have hLast : lastRow (empty.log mixedOperations) .params .nil = some (markedRow 4) := by
    decide +kernel
  have hNil : Uuid.nil ∈ (empty.performAll mixedOperations).data.keys := by decide +kernel
  have hOk : ((Operation.insert (markedRow 5)).perform (empty.performAll mixedOperations)).1 =
      .ok () := by decide +kernel
  have hError : ((Operation.insert .empty).perform (empty.performAll mixedOperations)).1 =
      .error (Row.empty.undecodable (.missing "id")) := by decide +kernel
  refine ⟨?_, ?_, (hOrder.of_error _ _ hError).2⟩
  · rw [hOrder.getRecord .params .nil hOpen, if_neg (by decide), hLast]
  · obtain ⟨id, hKey, -, -, hKeys⟩ := hOrder.write_data _ (markedRow 5) rfl hOk
    have hId : (markedRow 5).key .data = .ok .nil := by decide +kernel
    rw [hId, Except.ok.injEq] at hKey
    rw [hKeys, ← hKey, if_pos hNil]

end Store

end Collocation
