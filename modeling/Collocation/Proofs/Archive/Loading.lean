import Collocation.Archive
import Collocation.Proofs.Row.Decoding
import Collocation.Proofs.Store.Writes

/-!
# Loading written rows

Rows of any layout that are written to an open store without a fault stand behind the rows that were
there, if their ids are new and distinct. Those of an execution are loaded in this order.
-/

set_option autoImplicit false

namespace Collocation

variable {ι : Type}

/-- How items are written as rows of an execution: each has an id, and is at the top or not. -/
structure Writes (executionId : Uuid) (items : List ι) (id : ι → Uuid) (top : ι → Bool)
    (write : ι → Row) : Prop where
  key : ∀ item ∈ items, (write item).key .data = .ok (id item)
  belongs : ∀ item ∈ items, Store.belongsTo (write item) executionId
  flag : ∀ item ∈ items, ∀ topLevel : Bool,
    Store.hasFlag (write item) topLevel = (top item == topLevel)

/-- Every data row of a store is kept under its own id. -/
def Store.Filed (store : Store) : Prop :=
  ∀ entry ∈ store.data.entries, entry.2.key .data = .ok entry.1

namespace Store

/-- In an empty store each data row is under its own id. -/
theorem filed_empty : empty.Filed := by
  rintro entry ⟨⟩

/-- A data row that can be decoded has an id that is in use. -/
theorem Filed.rowId_mem_keys {store : Store} (h : store.Filed) {executionId : Uuid} {row : Row}
    (hRow : row ∈ store.dataRows executionId) {data : DataRow}
    (hData : DataRow.ofRow row = .ok data) :
    data.rowId ∈ store.data.keys := by
  obtain ⟨entry, hEntry, rfl⟩ := List.mem_map.1 (List.mem_filter.1 hRow).1
  have hKey : entry.2.key .data = .ok data.rowId := (DataRow.ofRow_eq_ok_iff.1 hData).rowId
  rw [h entry hEntry, Except.ok.injEq] at hKey
  rw [← hKey]
  exact List.mem_map_of_mem hEntry

variable {store : Store} {executionId : Uuid} {items : List ι} {id : ι → Uuid} {top : ι → Bool}
  {write : ι → Row}

/-- An open store without a fault takes every row that has an id. -/
theorem insertAll_of_key (hOpen : store.closed = false) (hFault : store.fault = none)
    (hKey : ∀ item ∈ items, (write item).key .data = .ok (id item)) :
    store.insertAll (items.map write) =
      { store with
        data := Ledger.putAll id write store.data items
        dataWrites := store.dataWrites + items.length } := by
  induction items using List.reverseRecOn with
  | nil => rfl
  | append_singleton items item ih =>
    have hItems := ih fun x hx => hKey x (List.mem_append_left _ hx)
    have hItem := hKey item (List.mem_append_right _ List.mem_cons_self)
    rw [List.map_append, insertAll_append, hItems, List.map_singleton, insertAll, List.foldl_cons,
      List.foldl_nil, Ledger.putAll_concat, List.length_append]
    simp [insert, hOpen, rejects, hFault, hItem, countWrite, putData, Nat.add_assoc]

section Fresh

variable (hOpen : store.closed = false) (hFault : store.fault = none)
  (hWrites : Writes executionId items id top write)
  (hFresh : (store.data.keys ++ items.map id).Nodup)
include hOpen hFault hWrites hFresh

/-- After accepted rows were written, the data rows of their execution are those that were there and
then these. -/
theorem dataRows_insertAll :
    (store.insertAll (items.map write)).dataRows executionId =
      store.dataRows executionId ++ items.map write := by
  have hAll : ((items.map write).filter fun row => belongsTo row executionId) =
      items.map write := by
    apply List.filter_eq_self.2
    intro row hRow
    obtain ⟨item, hItem, rfl⟩ := List.mem_map.1 hRow
    exact hWrites.belongs item hItem
  rw [insertAll_of_key hOpen hFault hWrites.key]
  simp only [dataRows, Ledger.values, Ledger.entries_putAll_of_nodup _ _ hFresh, List.map_append,
    List.map_map, List.filter_append]
  exact congrArg (_ ++ ·) hAll

/-- What is selected after the writes: what was, and the items that are at the top or not. -/
theorem select_insertAll (topLevel : Bool) :
    (store.insertAll (items.map write)).select executionId topLevel =
      .ok (((store.dataRows executionId).filter fun row => hasFlag row topLevel) ++
        (items.filter fun item => top item == topLevel).map write) := by
  have hOpen' : (store.insertAll (items.map write)).closed = false := by
    rw [insertAll_of_key hOpen hFault hWrites.key]
    exact hOpen
  have hItems : ((items.map write).filter fun row => hasFlag row topLevel) =
      (items.filter fun item => top item == topLevel).map write := by
    rw [List.filter_map]
    exact congrArg _ (List.filter_congr fun item hItem => hWrites.flag item hItem topLevel)
  simp only [select, hOpen', dataRows_insertAll hOpen hFault hWrites hFresh, List.filter_append,
    hItems, Bool.false_eq_true, if_false]

/-- A load after the writes assembles what is selected. -/
theorem assemble_insertAll (depth : NestingDepth) (trim : Bool) :
    (store.insertAll (items.map write)).assemble depth executionId trim =
      if trim then
        Assembly.trimmed (((store.dataRows executionId).filter fun row => hasFlag row true) ++
          (items.filter fun item => top item == true).map write)
      else
        Assembly.ofRows depth
          (((store.dataRows executionId).filter fun row => hasFlag row true) ++
            (items.filter fun item => top item == true).map write)
          (((store.dataRows executionId).filter fun row => hasFlag row false) ++
            (items.filter fun item => top item == false).map write) := by
  rw [assemble, select_insertAll hOpen hFault hWrites hFresh]
  cases trim with
  | true => rfl
  | false =>
    simp only [select_insertAll hOpen hFault hWrites hFresh, bind, Except.bind, Bool.false_eq_true,
      if_false]

end Fresh

end Store

end Collocation
