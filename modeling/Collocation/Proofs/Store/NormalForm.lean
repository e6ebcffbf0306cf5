import Collocation.Proofs.Row.ColumnTypes
import Collocation.Proofs.Store.Reopening

/-!
# Snapshots in their normal form

A snapshot may hold its rows in any order, and several of the same key. It is loaded just if every
row has its key, and what is saved after that is its normal form: the records in the order of their
tables and keys, of each key the last one only; the data rows in the order in which their ids first
came, each as it came last. A normal form that is loaded and saved again stays as it is. A store and
the one that is loaded from its snapshot answer alike, and stores of the same rows are saved alike,
in whatever order their records were put.
-/

set_option autoImplicit false

namespace Collocation

/-! ## Keys of rows -/

namespace Row

/-- The uuid in the key column of a table, if there is one. -/
def key? (row : Row) (table : Table) : Option Uuid :=
  match row.get? table.keyColumn with
  | some (.uuid key) => some key
  | _ => none

variable {row : Row} {table : Table}

/-- A row has a key for a table just if it can be read there. -/
theorem key?_eq_some_iff {key : Uuid} : row.key? table = some key ↔ row.key table = .ok key := by
  unfold key? Row.key uuid
  cases row.get? table.keyColumn with
  | none => simp
  | some value => cases value <;> simp

/-- A row has a key for a table just if the key column has an id. -/
theorem exists_key_iff :
    (∃ key, row.key table = .ok key) ↔ row.typeOf table.keyColumn = some .uuid := by
  unfold Row.key
  rw [exists_uuid_iff, only, List.map_singleton, List.mem_singleton]

end Row

namespace Snapshot

/-! ## Normal forms -/

/-- Every record has a uuid in the key column of its table, and every data row has one as its id. -/
def HasKeys (snapshot : Snapshot) : Prop :=
  (∀ record ∈ snapshot.records, record.2.typeOf record.1.keyColumn = some .uuid) ∧
    ∀ row ∈ snapshot.data, row.typeOf "id" = some .uuid

/-- The table of a record, and its key in it. -/
def recordKey (record : Table × Row) : Table × Option Uuid :=
  (record.1, record.2.key? record.1)

/-- The order of records: by the table, and within a table by the key. No record comes before one
of the same key. -/
def Before (a b : Table × Row) : Prop :=
  a.1.place < b.1.place ∨
    a.1 = b.1 ∧ ∃ key key' : Uuid,
      a.2.key? a.1 = some key ∧ b.2.key? b.1 = some key' ∧ key.number < key'.number

/-- A snapshot is the normal form of another one. -/
structure NormalFormOf (normal snapshot : Snapshot) : Prop where
  /-- The records are in their order. -/
  sorted : normal.records.Pairwise Before
  /-- They are the last ones of each key. -/
  records : normal.records.Perm (lastOfEach recordKey snapshot.records)
  /-- Each id has its last data row, in the place where it first came. -/
  data : normal.data = lastOfEach (fun row => row.key? .data) snapshot.data

/-! ## The order of keys -/

/-- No two tables have the same place. -/
theorem place_inj {a b : Table} (h : a.place = b.place) : a = b := by
  cases a <;> cases b <;> first | rfl | cases h

/-- Keys are compared by the places of their tables, and within a table by their numbers. -/
theorem keyLe_iff {a b : Table × Uuid} :
    keyLe a b = true ↔ a.1.place < b.1.place ∨ a.1 = b.1 ∧ a.2.number ≤ b.2.number := by
  unfold keyLe Uuid.le
  by_cases hTable : a.1 = b.1
  · simp [hTable]
  · have hPlace : a.1.place ≠ b.1.place := mt place_inj hTable
    simp only [hTable, if_false, decide_eq_true_eq, false_and, or_false]
    omega

/-- The order of keys is transitive. -/
theorem keyLe_trans {a b c : Table × Uuid} (h : keyLe a b = true) (h' : keyLe b c = true) :
    keyLe a c = true := by
  rw [keyLe_iff] at *
  rcases h with hPlace | ⟨hTable, hKey⟩
  · rcases h' with hPlace' | ⟨hTable', -⟩
    · exact .inl (Nat.lt_trans hPlace hPlace')
    · exact .inl (hTable' ▸ hPlace)
  · rw [hTable]
    exact h'.imp_right fun ⟨hTable', hKey'⟩ => ⟨hTable', Nat.le_trans hKey hKey'⟩

/-- Of two keys one comes before the other or both are in one place. -/
theorem keyLe_total (a b : Table × Uuid) : keyLe a b = true ∨ keyLe b a = true := by
  rw [keyLe_iff, keyLe_iff]
  rcases Nat.lt_trichotomy a.1.place b.1.place with hPlace | hPlace | hPlace
  · exact .inl (.inl hPlace)
  · have hTable := place_inj hPlace
    exact (Nat.le_total a.2.number b.2.number).imp (fun h => .inr ⟨hTable, h⟩)
      fun h => .inr ⟨hTable.symm, h⟩
  · exact .inr (.inl hPlace)

/-- No two keys come before each other. -/
theorem keyLe_antisymm {a b : Table × Uuid} (h : keyLe a b = true) (h' : keyLe b a = true) :
    a = b := by
  obtain ⟨table, ⟨number⟩⟩ := a
  obtain ⟨table', ⟨number'⟩⟩ := b
  rw [keyLe_iff] at h h'
  rcases h with hPlace | ⟨rfl, hKey⟩
  · rcases h' with hPlace' | ⟨rfl, -⟩
    · exact absurd hPlace (Nat.lt_asymm hPlace')
    · exact absurd hPlace (Nat.lt_irrefl _)
  · obtain ⟨-, hKey'⟩ := h'.resolve_left (Nat.lt_irrefl _)
    have hNumber : number = number' := Fin.le_antisymm hKey hKey'
    rw [hNumber]

/-! ## Snapshots that can be loaded -/

/-- A snapshot is loaded just if its rows have their keys. -/
theorem exists_toStore_iff (snapshot : Snapshot) :
    (∃ store, snapshot.toStore = .ok store) ↔ snapshot.HasKeys := by
  have hRecords : (∃ store, snapshot.records.foldlM addRecord .empty = .ok store) ↔
      ∀ record ∈ snapshot.records, ∃ key, record.2.key record.1 = .ok key :=
    exists_foldlM_iff Store.empty
  have hData : ∀ store : Store, (∃ after, snapshot.data.foldlM addData store = .ok after) ↔
      ∀ row ∈ snapshot.data, ∃ id, row.key .data = .ok id := fun store => exists_foldlM_iff store
  unfold toStore
  simp only [exists_ok_bind_iff, hData, exists_and_right, hRecords, Row.exists_key_iff]
  exact Iff.rfl

/-- Items that all come of something come of a list. -/
theorem exists_map_eq {α β : Type} {f : β → α} {P : β → Prop} {items : List α}
    (h : ∀ item ∈ items, ∃ source, P source ∧ f source = item) :
    ∃ sources : List β, sources.map f = items ∧ ∀ source ∈ sources, P source := by
  induction items with
  | nil => exact ⟨[], rfl, by rintro _ ⟨⟩⟩
  | cons item items ih =>
    obtain ⟨⟨source, hSource, hItem⟩, hItems⟩ := List.forall_mem_cons.1 h
    obtain ⟨sources, hMap, hSources⟩ := ih hItems
    exact ⟨source :: sources, by rw [List.map_cons, hItem, hMap],
      List.forall_mem_cons.2 ⟨hSource, hSources⟩⟩

/-- The rows of a snapshot that can be loaded, each under its key. -/
theorem HasKeys.exists_entries {snapshot : Snapshot} (h : snapshot.HasKeys) :
    ∃ (records : List ((Table × Uuid) × Row)) (data : List (Uuid × Row)),
      snapshot = ⟨records.map fun record => (record.1.1, record.2), data.map fun entry => entry.2⟩ ∧
        (∀ record ∈ records, record.2.key record.1.1 = .ok record.1.2) ∧
        ∀ entry ∈ data, entry.2.key .data = .ok entry.1 := by
  obtain ⟨records, hRecords, hRecordKeys⟩ :=
    exists_map_eq (f := fun record : (Table × Uuid) × Row => (record.1.1, record.2))
      (P := fun record => record.2.key record.1.1 = .ok record.1.2) fun record hMem => by
        obtain ⟨key, hKey⟩ := Row.exists_key_iff.2 (h.1 record hMem)
        exact ⟨((record.1, key), record.2), hKey, rfl⟩
  obtain ⟨data, hData, hIds⟩ :=
    exists_map_eq (f := fun entry : Uuid × Row => entry.2)
      (P := fun entry => entry.2.key .data = .ok entry.1) fun row hMem => by
        have hSome : ∃ id, row.key .data = .ok id := Row.exists_key_iff.2 (h.2 row hMem)
        obtain ⟨id, hKey⟩ := hSome
        exact ⟨(id, row), hKey, rfl⟩
  exact ⟨records, data, by rw [hRecords, hData], hRecordKeys, hIds⟩

end Snapshot

namespace Store

/-! ## What is saved -/

/-- The records of a store are sorted by their keys. -/
theorem pairwise_sortedRecords (store : Store) :
    store.sortedRecords.Pairwise fun a b => Snapshot.keyLe a.1 b.1 = true := by
  unfold sortedRecords
  apply List.pairwise_mergeSort
  · intro a b c
    exact Snapshot.keyLe_trans
  · intro a b
    rw [Bool.or_eq_true]
    exact Snapshot.keyLe_total a.1 b.1

/-- The records of a store are saved in their order. -/
theorem sorted_ofStore {store : Store} (h : store.Keyed) :
    (Snapshot.ofStore store).records.Pairwise Snapshot.Before := by
  have hKeys : store.sortedRecords.Pairwise fun a b => a.1 ≠ b.1 :=
    List.pairwise_map.1 store.nodup_sortedRecords
  rw [ofStore_eq, List.pairwise_map]
  refine (store.pairwise_sortedRecords.and hKeys).imp_of_mem fun {a b} ha hb ⟨hLe, hNe⟩ => ?_
  have hKey (record : (Table × Uuid) × Row) (hMem : record ∈ store.sortedRecords) :
      record.2.key? record.1.1 = some record.1.2 :=
    Row.key?_eq_some_iff.2 (h.record record (store.perm_sortedRecords.mem_iff.1 hMem))
  rcases Snapshot.keyLe_iff.1 hLe with hPlace | ⟨hTable, hNumber⟩
  · exact .inl hPlace
  · refine .inr ⟨hTable, a.1.2, b.1.2, hKey a ha, hKey b hb, ?_⟩
    refine Nat.lt_of_le_of_ne hNumber fun hSame => hNe ?_
    exact Prod.ext hTable (congrArg Uuid.mk (Fin.ext hSame))

/-- Stores of the same rows are saved alike. -/
theorem ofStore_congr {store other : Store}
    (hRecords : ∀ key, store.records.get? key = other.records.get? key)
    (hData : store.data.values = other.data.values) :
    Snapshot.ofStore store = Snapshot.ofStore other := by
  have hPerm : store.sortedRecords.Perm other.sortedRecords :=
    store.perm_sortedRecords.trans
      ((Ledger.perm_entries hRecords).trans
        other.perm_sortedRecords.symm)
  have hSorted : store.sortedRecords = other.sortedRecords := by
    refine hPerm.eq_of_pairwise (fun a b ha hb hLe hLe' => ?_) store.pairwise_sortedRecords
      other.pairwise_sortedRecords
    -- Two entries of the same key are one, as no key comes twice.
    have hKey : a.1 = b.1 := Snapshot.keyLe_antisymm hLe hLe'
    exact List.inj_on_of_nodup_map store.nodup_sortedRecords ha (hPerm.mem_iff.2 hb) hKey
  rw [ofStore_eq, ofStore_eq, hSorted, hData]

section Loaded

variable {records : List ((Table × Uuid) × Row)} {data : List (Uuid × Row)}
  (hRecords : ∀ record ∈ records, record.2.key record.1.1 = .ok record.1.2)
  (hData : ∀ entry ∈ data, entry.2.key .data = .ok entry.1)
include hRecords hData

/-- Rows that are written under their keys, one after the other, are kept under them. -/
theorem keyed_ofItems :
    Keyed
      { records := Ledger.ofItems (fun record => record.1) (fun record => record.2) records
        data := Ledger.ofItems (fun entry => entry.1) (fun entry => entry.2) data } where
  filed := by
    intro entry hEntry
    rw [Ledger.entries_ofItems] at hEntry
    exact hData entry (mem_of_mem_lastOfEach hEntry)
  record := by
    intro record hRecord
    rw [Ledger.entries_ofItems] at hRecord
    exact hRecords record (mem_of_mem_lastOfEach hRecord)

/-- The last of each key are saved, the records in their order and the data rows in the order in
which their ids first came. -/
theorem normalFormOf_ofItems :
    (Snapshot.ofStore
      { records := Ledger.ofItems (fun record => record.1) (fun record => record.2) records
        data := Ledger.ofItems (fun entry => entry.1) (fun entry => entry.2) data }).NormalFormOf
      ⟨records.map fun record => (record.1.1, record.2), data.map fun entry => entry.2⟩ := by
  refine ⟨sorted_ofStore (keyed_ofItems hRecords hData), ?_, ?_⟩
  · have hLast : lastOfEach Snapshot.recordKey
          (records.map fun record => (record.1.1, record.2)) =
        (lastOfEach (fun record => record.1) records).map fun record => (record.1.1, record.2) := by
      have hKeys : ∀ record ∈ records,
          Snapshot.recordKey (record.1.1, record.2) = (record.1.1, some record.1.2) := by
        intro record hMem
        rw [Snapshot.recordKey, Row.key?_eq_some_iff.2 (hRecords record hMem)]
      have hInj : Function.Injective fun key : Table × Uuid => (key.1, some key.2) := by
        rintro ⟨table, key⟩ ⟨table', key'⟩ hSame
        simpa using hSame
      rw [lastOfEach_map, lastOfEach_congr hKeys, lastOfEach_comp hInj]
    rw [hLast, ← Ledger.entries_ofItems]
    exact (perm_sortedRecords _).map _
  · have hKeys : ∀ entry ∈ data, entry.2.key? .data = some entry.1 :=
      fun entry hMem => Row.key?_eq_some_iff.2 (hData entry hMem)
    rw [lastOfEach_map, lastOfEach_congr hKeys, lastOfEach_comp (Option.some_injective Uuid),
      ← Ledger.entries_ofItems]
    rfl

end Loaded

/-- A store that is loaded is one into which the rows were written under their keys. -/
theorem exists_of_toStore {snapshot : Snapshot} {store : Store} (h : snapshot.toStore = .ok store) :
    ∃ (records : List ((Table × Uuid) × Row)) (data : List (Uuid × Row)),
      snapshot = ⟨records.map fun record => (record.1.1, record.2), data.map fun entry => entry.2⟩ ∧
        (∀ record ∈ records, record.2.key record.1.1 = .ok record.1.2) ∧
        (∀ entry ∈ data, entry.2.key .data = .ok entry.1) ∧
        store =
          { records := Ledger.ofItems (fun record => record.1) (fun record => record.2) records
            data := Ledger.ofItems (fun entry => entry.1) (fun entry => entry.2) data } := by
  obtain ⟨records, data, rfl, hRecords, hData⟩ :=
    ((Snapshot.exists_toStore_iff snapshot).1 ⟨store, h⟩).exists_entries
  rw [toStore_entries hRecords hData, Except.ok.injEq] at h
  exact ⟨records, data, rfl, hRecords, hData, h.symm⟩

/-- What is saved of a store that was loaded is the normal form of what it was loaded from. -/
theorem of_toStore {snapshot : Snapshot} {store : Store} (h : snapshot.toStore = .ok store) :
    store.Keyed ∧ store.closed = false ∧ (Snapshot.ofStore store).NormalFormOf snapshot := by
  obtain ⟨records, data, rfl, hRecords, hData, rfl⟩ := exists_of_toStore h
  exact ⟨keyed_ofItems hRecords hData, rfl, normalFormOf_ofItems hRecords hData⟩

/-- A store that was saved and loaded is saved alike. -/
theorem ofStore_reopened {store : Store} (h : store.Keyed) :
    store.reopened.Keyed ∧ Snapshot.ofStore store.reopened = Snapshot.ofStore store := by
  have hSame := store.sameRows_reopened
  have hKeyed : store.reopened.Keyed :=
    { filed := h.filed
      record := fun entry hEntry => h.record entry (hSame.records.mem_iff.1 hEntry) }
  exact ⟨hKeyed, ofStore_congr hSame.get?_records rfl⟩

/-! ## What is answered -/

section SameRows

variable {store other : Store} (h : store.SameRows other)
include h

/-- Stores with the same rows have the same record under each key. -/
theorem SameRows.getRecord (hClosed : store.closed = other.closed) (table : Table) (key : Uuid) :
    store.getRecord table key = other.getRecord table key := by
  unfold Store.getRecord
  rw [hClosed]
  cases table <;> simp only [h.get?_records]

/-- Stores with the same rows have the same data rows of each execution. -/
theorem SameRows.dataRows (id : Uuid) : store.dataRows id = other.dataRows id := by
  unfold Store.dataRows
  rw [h.data]

/-- Stores with the same rows give the same selections of data rows. -/
theorem SameRows.select (hClosed : store.closed = other.closed) (id : Uuid) (topLevel : Bool) :
    store.select id topLevel = other.select id topLevel := by
  unfold Store.select
  rw [hClosed, h.dataRows]

/-- Stores with the same rows have as many rows in each table. -/
theorem SameRows.tableSize (table : Table) : store.tableSize table = other.tableSize table := by
  unfold Store.tableSize
  cases table with
  | data => exact congrArg Ledger.size h.data
  | _ => exact (h.records.map _).countP_eq _

end SameRows

/-- The stores that come of operations on a store that was loaded. The empty store is one: it is
loaded from an empty snapshot. -/
inductive Reached : Store → Prop
  | loaded {snapshot : Snapshot} {store : Store} (h : snapshot.toStore = .ok store) : Reached store
  | performed {store : Store} (h : Reached store) (operation : Operation)
      (hOpen : operation ≠ .close) : Reached (operation.perform store).2

/-- The empty store is loaded from an empty snapshot. -/
theorem reached_empty : Reached empty :=
  .loaded (show (Snapshot.mk [] []).toStore = .ok empty from rfl)

/-- An operation other than to close a store leaves it open. -/
theorem closed_perform {store : Store} (hOpen : store.closed = false) {operation : Operation}
    (h : operation ≠ .close) : (operation.perform store).2.closed = false := by
  cases operation with
  | close => exact absurd rfl h
  | insert row => exact (store.closed_insert row).trans hOpen
  | put table row => exact (store.closed_putRecord row table).trans hOpen
  | acquire =>
    simp only [Operation.perform, Store.acquire, hOpen, Bool.false_eq_true, if_false]
  | _ => exact hOpen

/-- What comes of a reached store by operations other than to close it is reached as well. -/
theorem Reached.performAll {store : Store} (h : store.Reached) {operations : List Operation}
    (hOpen : ∀ operation ∈ operations, operation ≠ .close) :
    (store.performAll operations).Reached := by
  induction operations generalizing store with
  | nil => exact h
  | cons operation operations ih =>
    obtain ⟨hOperation, hOpen⟩ := List.forall_mem_cons.1 hOpen
    exact ih (h.performed operation hOperation) hOpen

/-- The rows of such a store have their keys, and it is open. -/
theorem Reached.keyed {store : Store} (h : store.Reached) :
    store.Keyed ∧ store.closed = false := by
  induction h with
  | loaded h =>
    obtain ⟨hKeyed, hOpen, -⟩ := of_toStore h
    exact ⟨hKeyed, hOpen⟩
  | performed _ operation hOpen ih =>
    obtain ⟨hKeyed, hStore⟩ := ih
    exact ⟨hKeyed.of_effect (effect_perform _ operation), closed_perform hStore hOpen⟩

end Store

/-- To load a snapshot and to save it again brings it into its normal form. It is loaded just if its
rows have their keys; what is saved then is its normal form, and this is loaded and saved as it is.
The store that is loaded from what was saved of another one answers as this does, and stores are
saved alike if they have the same records under the same keys and the same data rows in the same
order. -/
theorem Snapshot.normalForm_loaded :
    (∀ snapshot : Snapshot,
      ((∃ store, snapshot.toStore = .ok store) ↔ snapshot.HasKeys) ∧
        ∀ store, snapshot.toStore = .ok store →
          (ofStore store).NormalFormOf snapshot ∧
            ∃ again, (ofStore store).toStore = .ok again ∧ ofStore again = ofStore store) ∧
      ∀ store : Store, store.Reached →
        (∃ loaded, (ofStore store).toStore = .ok loaded ∧
          (∀ table key, loaded.getRecord table key = store.getRecord table key) ∧
          (∀ id topLevel, loaded.select id topLevel = store.select id topLevel) ∧
          (∀ id, loaded.dataRows id = store.dataRows id) ∧
          ∀ table, loaded.tableSize table = store.tableSize table) ∧
        ∀ other : Store, other.Reached →
          (∀ table key, store.records.get? (table, key) = other.records.get? (table, key)) →
          store.data.values = other.data.values → ofStore store = ofStore other := by
  constructor
  · intro snapshot
    refine ⟨snapshot.exists_toStore_iff, fun store hStore => ?_⟩
    obtain ⟨hKeyed, -, hNormal⟩ := Store.of_toStore hStore
    exact ⟨hNormal, store.reopened, Store.toStore_ofStore hKeyed,
      (Store.ofStore_reopened hKeyed).2⟩
  · intro store hStore
    obtain ⟨hKeyed, hOpen⟩ := hStore.keyed
    have hSame := store.sameRows_reopened
    have hClosed : store.reopened.closed = store.closed := hOpen.symm
    refine ⟨⟨store.reopened, Store.toStore_ofStore hKeyed, hSame.getRecord hClosed,
      hSame.select hClosed, hSame.dataRows, hSame.tableSize⟩, ?_⟩
    intro other _ hRecords hData
    exact Store.ofStore_congr (fun key => hRecords key.1 key.2) hData

/-- Two parameters of one execution with the execution between them, and a data row that comes
again after another one. -/
def Snapshot.repeated : Snapshot where
  records := [(.params, Store.markedRow 1), (.executions, Store.markedRow 2),
    (.params, Store.markedRow 3)]
  data := [Store.markedRow 4, .ofList [("id", .uuid ⟨1⟩)], Store.markedRow 5]

/-- The snapshot is saved with the last parameters after the execution, and with the last row in
the place of the first; and two records are saved alike whichever was put first. -/
theorem Snapshot.normalForm_loaded_repeated :
    (∃ store, repeated.toStore = .ok store ∧
        (ofStore store).records.Perm
          [(.params, Store.markedRow 3), (.executions, Store.markedRow 2)] ∧
        (ofStore store).records.Pairwise Before ∧
        (ofStore store).data = [Store.markedRow 5, .ofList [("id", .uuid ⟨1⟩)]]) ∧
      ofStore (Store.empty.performAll
          [.put .params (Store.markedRow 1), .put .executions (Store.markedRow 2)]) =
        ofStore (Store.empty.performAll
          [.put .executions (Store.markedRow 2), .put .params (Store.markedRow 1)]) := by
  have hRecords : lastOfEach recordKey repeated.records =
      [(.params, Store.markedRow 3), (.executions, Store.markedRow 2)] := by decide +kernel
  have hData : lastOfEach (fun row => row.key? .data) repeated.data =
      [Store.markedRow 5, .ofList [("id", .uuid ⟨1⟩)]] := by decide +kernel
  have hKeys : repeated.HasKeys := by
    constructor <;> decide +kernel
  constructor
  · obtain ⟨hLoads, hNormal⟩ := normalForm_loaded.1 repeated
    obtain ⟨store, hStore⟩ := hLoads.2 hKeys
    obtain ⟨⟨hSorted, hPerm, hSaved⟩, -⟩ := hNormal store hStore
    exact ⟨store, hStore, hRecords ▸ hPerm, hSorted, hSaved.trans hData⟩
  · have hParams : (Store.markedRow 1).key .params = .ok .nil := by decide +kernel
    have hExecution : (Store.markedRow 2).key .executions = .ok .nil := by decide +kernel
    refine (normalForm_loaded.2 _ (Store.reached_empty.performAll (by simp))).2 _
      (Store.reached_empty.performAll (by simp)) (fun table key => ?_) rfl
    simp only [Store.performAll, List.foldl_cons, List.foldl_nil, Operation.perform,
      Store.putRecord, Store.putKeyed, Store.empty, hParams, hExecution, Ledger.get?_upsert,
      Bool.false_eq_true, if_false, Prod.mk.injEq]
    cases table <;> simp

end Collocation
