import Collocation.Proofs.Store.Operations
import Mathlib.Data.Finmap

/-!
# Data tables in two parts

The data rows of a store are a ledger. They can be kept in two parts as well: a map from ids to
rows, which has no order, and the ids in the order in which they first came. An id is put into the
order just if the map does not have it yet, so that the order is right only as long as the two parts
are. They are after every operation, and then they say what the ledger says.
-/

set_option autoImplicit false

namespace Collocation

/-- Data rows by their ids, and the ids in the order in which they first came. -/
structure DataTable where
  rows : Finmap fun _ : Uuid => Row
  order : List Uuid

namespace DataTable

def empty : DataTable := ⟨∅, []⟩

/-- Writes a row. Its id is put behind the others if the map did not have it. -/
def upsert (table : DataTable) (id : Uuid) (row : Row) : DataTable :=
  { rows := table.rows.insert id row
    order := if id ∈ table.rows then table.order else table.order ++ [id] }

/-- The rows in the order of their ids. -/
def values (table : DataTable) : List Row :=
  table.order.filterMap table.rows.lookup

/-- A table into which the data rows among some writes were written. -/
def putAll (table : DataTable) (writes : List (Table × Row)) : DataTable :=
  writes.foldl
    (fun table write => match write.1, write.2.key .data with
      | .data, .ok id => table.upsert id write.2
      | _, _ => table)
    table

/-- The two parts say what a ledger says. -/
structure Agrees (table : DataTable) (ledger : Ledger Uuid Row) : Prop where
  order : table.order = ledger.keys
  lookup (id : Uuid) : table.rows.lookup id = ledger.get? id

/-- Without rows the order is empty. -/
theorem agrees_empty : empty.Agrees .empty :=
  ⟨rfl, fun _ => Finmap.lookup_empty _⟩

variable {table : DataTable} {ledger : Ledger Uuid Row}

/-- The map has just the ids of the ledger. -/
theorem Agrees.mem_rows_iff (h : table.Agrees ledger) {id : Uuid} :
    id ∈ table.rows ↔ id ∈ ledger.keys := by
  rw [← not_iff_not, ← Finmap.lookup_eq_none, h.lookup, Ledger.get?_eq_none_iff]

/-- A row that is written to both is said by both. -/
theorem Agrees.upsert (h : table.Agrees ledger) (id : Uuid) (row : Row) :
    (table.upsert id row).Agrees (ledger.upsert id row) where
  order := by
    rw [DataTable.upsert, Ledger.keys_upsert, h.order]
    simp only [h.mem_rows_iff]
  lookup := by
    intro other
    rw [Ledger.get?_upsert]
    by_cases hSame : id = other
    · subst hSame
      rw [if_pos rfl]
      exact Finmap.lookup_insert _
    · rw [if_neg hSame, ← h.lookup]
      exact Finmap.lookup_insert_of_ne _ (Ne.symm hSame)

/-- In their order the rows are those of the ledger. -/
theorem Agrees.values (h : table.Agrees ledger) : table.values = ledger.values := by
  rw [DataTable.values, ledger.values_eq_filterMap, h.order]
  exact List.filterMap_congr fun id _ => h.lookup id

/-- The map has as many rows as the ledger. -/
theorem Agrees.card (h : table.Agrees ledger) : table.rows.keys.card = ledger.size := by
  have hKeys : table.rows.keys = ledger.keys.toFinset := by
    ext id
    rw [Finmap.mem_keys, h.mem_rows_iff, List.mem_toFinset]
  rw [hKeys, List.toFinset_card_of_nodup ledger.nodup_keys, Ledger.length_keys]

/-! ## Stores -/

/-- Further writes are put after the first ones. -/
theorem putAll_append (table : DataTable) (writes others : List (Table × Row)) :
    table.putAll (writes ++ others) = (table.putAll writes).putAll others :=
  List.foldl_append

/-- What an operation writes to a store is written to the two parts. -/
theorem Agrees.perform {store : Store} (h : table.Agrees store.data) (operation : Operation) :
    (table.putAll (operation.written store)).Agrees (operation.perform store).2.data := by
  have hEffect := Store.effect_perform store operation
  rw [Operation.written]
  generalize (operation.perform store).1 = result at hEffect ⊢
  generalize (operation.perform store).2 = after at hEffect ⊢
  cases hEffect with
  | none _ _ hWritten _ hData =>
    have hNothing := Store.written_eq_nil hWritten
    rw [hNothing, hData]
    exact h
  | data row id _ hRow hKey _ hData =>
    rw [hRow, hData]
    simp only [Option.toList_some, putAll, List.foldl_cons, List.foldl_nil, hKey]
    exact h.upsert id row
  | record write row _ _ hTable hRow _ _ hData =>
    rw [hRow, hData]
    cases write with
    | data => exact absurd rfl hTable
    | _ => exact h

/-- Whatever was asked of a store that was empty, its data rows are those of two parts into which
they were written as well. No id comes twice in the order, and the order has just the ids of the
map. -/
theorem agrees_performAll (operations : List Operation) :
    let store := Store.empty.performAll operations
    let table := empty.putAll (Store.empty.log operations)
    table.Agrees store.data ∧ table.order.Nodup ∧
      (∀ id, id ∈ table.order ↔ id ∈ table.rows) ∧
      table.values = store.data.values ∧ table.rows.keys.card = store.data.size := by
  intro store table
  have hAgrees : table.Agrees store.data := by
    induction operations using List.reverseRecOn with
    | nil => exact agrees_empty
    | append_singleton operations operation ih =>
      simp only [store, table, Store.performAll_concat, Store.log_concat, putAll_append]
      exact ih.perform operation
  refine ⟨hAgrees, ?_, fun id => ?_, hAgrees.values, hAgrees.card⟩
  · rw [hAgrees.order]
    exact store.data.nodup_keys
  · rw [hAgrees.order, hAgrees.mem_rows_iff]

end DataTable

end Collocation
