import Collocation.Proofs.Keyed.Ledger
import Collocation.Proofs.Row.Columns
import Collocation.Store.Basic

/-!
# Writes of flat rows

What an open store is after flat rows were written to it one after the other, whichever of them its
fault rejected: the rows that were accepted are in the table of data rows, all of them were counted,
and the fault was asked about each. Nothing else changed.
-/

set_option autoImplicit false

namespace Collocation

/-! ## Flat rows in a store -/

namespace FlatRow

variable (row : FlatRow)

/-- A flat row belongs to its execution only. -/
theorem belongsTo_toRow (executionId : Uuid) :
    Store.belongsTo row.toRow executionId = decide (row.executionId = executionId) := by
  have hColumn : row.toRow.get? "execution_id" = some (.uuid row.executionId) :=
    get?_toRow (by simp [columns, values])
  simp [Store.belongsTo, hColumn]

/-- The flag of a flat row tells whether it is at the top. -/
theorem hasFlag_toRow (topLevel : Bool) :
    Store.hasFlag row.toRow topLevel = (row.isTopLevel == topLevel) := by
  have hColumn : row.toRow.boolean "is_primary" = .ok row.isTopLevel :=
    Row.boolean_eq_ok (get?_toRow (by simp [columns, values]))
  rw [Store.hasFlag, hColumn]

end FlatRow

/-! ## Accepted rows -/

namespace WriteFault

/-- Whether a row is accepted when others were asked about before, in their order. -/
def accepts (fault : Option WriteFault) (before : List Row) (row : Row) : Bool :=
  !fault.any fun fault => fault.rejects (before.reverse ++ fault.asked) row

/-- The fault after it was asked about some rows. -/
def askAll (fault : WriteFault) (rows : List Row) : WriteFault :=
  { fault with asked := rows.reverse ++ fault.asked }

/-- Of flat rows that are written one after the other, those that are accepted. -/
def accepted (fault : Option WriteFault) (before : List Row) (rows : List FlatRow) : List FlatRow :=
  (rows.zipIdx.filter fun row =>
    accepts fault (before ++ (rows.take row.2).map FlatRow.toRow) row.1.toRow).map (·.1)

variable (fault : Option WriteFault) (before : List Row)

/-- To ask a fault about rows is to put these before the ones it was asked about. -/
theorem accepts_askAll (rows : List Row) (row : Row) :
    accepts (fault.map fun fault => fault.askAll rows) before row =
      accepts fault (rows ++ before) row := by
  cases fault with
  | none => rfl
  | some fault => simp [accepts, askAll]

/-- A fault that was asked about rows accepts of further ones what it would have behind those. -/
theorem accepted_askAll (asked : List Row) (rows : List FlatRow) :
    accepted (fault.map fun fault => fault.askAll asked) before rows =
      accepted fault (asked ++ before) rows := by
  simp only [accepted, accepts_askAll, List.append_assoc]

/-- The last of some rows is accepted if the fault accepts it behind the others. -/
theorem accepted_concat (rows : List FlatRow) (row : FlatRow) :
    accepted fault before (rows ++ [row]) =
      accepted fault before rows ++
        if accepts fault (before ++ rows.map FlatRow.toRow) row.toRow then [row] else [] := by
  have hRows : (rows.zipIdx.filter fun other => accepts fault
      (before ++ ((rows ++ [row]).take other.2).map FlatRow.toRow) other.1.toRow) =
        rows.zipIdx.filter fun other => accepts fault
          (before ++ (rows.take other.2).map FlatRow.toRow) other.1.toRow := by
    apply List.filter_congr
    intro other hMem
    have hLt : other.2 < rows.length := List.snd_lt_of_mem_zipIdx hMem
    rw [List.take_append_of_le_length (Nat.le_of_lt hLt)]
  rw [accepted, List.zipIdx_append, List.filter_append, hRows, List.map_append]
  by_cases h : accepts fault (before ++ rows.map FlatRow.toRow) row.toRow <;> simp [accepted, h]

/-- Rows that are written after others are accepted as if those were asked about before. -/
theorem accepted_append (rows others : List FlatRow) :
    accepted fault before (rows ++ others) =
      accepted fault before rows ++
        accepted fault (before ++ rows.map FlatRow.toRow) others := by
  induction others using List.reverseRecOn with
  | nil => simp [accepted]
  | append_singleton others row ih =>
    rw [← List.append_assoc, accepted_concat, ih, accepted_concat, List.append_assoc,
      List.map_append, List.append_assoc]

/-- No more rows are accepted than are written. -/
theorem length_accepted_le (rows : List FlatRow) :
    (accepted fault before rows).length ≤ rows.length := by
  rw [accepted, List.length_map]
  exact Nat.le_trans (List.length_filter_le _ _) (Nat.le_of_eq List.length_zipIdx)

end WriteFault

/-! ## Counts as they are told -/

namespace Store

/-- The word that is told goes on by as many writes as the count does. -/
theorem toldWrites_of_add {before after : Store} {writes : Nat}
    (h : after.dataWrites = before.dataWrites + writes) :
    after.toldWrites = before.toldWrites + .ofNat writes := by
  rw [toldWrites, h, UInt64.ofNat_add, toldWrites]

/-- The word that is told of the rejected writes goes on by as many as their count does. -/
theorem toldRejections_of_add {before after : Store} {rejected : Nat}
    (h : after.rejectedWrites = before.rejectedWrites + rejected) :
    after.toldRejections = before.toldRejections + .ofNat rejected := by
  rw [toldRejections, h, UInt64.ofNat_add, toldRejections]

/-- Each write adds one to the word of the writes, whether it is rejected or not. -/
theorem toldWrites_countWrite (store : Store) (row : Row) :
    (store.countWrite row).toldWrites = store.toldWrites + 1 :=
  toldWrites_of_add rfl

/-- A write adds one to the word of the rejected ones just if it is rejected. -/
theorem toldRejections_countWrite (store : Store) (row : Row) :
    (store.countWrite row).toldRejections =
      if store.rejects row then store.toldRejections + 1 else store.toldRejections := by
  simp only [toldRejections, countWrite]
  split
  · exact UInt64.ofNat_add _ 1
  · rfl

/-- A count of writes that is a word is told as it is. -/
theorem toNat_toldWrites {store : Store} (h : store.dataWrites < UInt64.size) :
    store.toldWrites.toNat = store.dataWrites :=
  UInt64.toNat_ofNat_of_lt' h

/-- A count of rejected writes that is a word is told as it is. -/
theorem toNat_toldRejections {store : Store} (h : store.rejectedWrites < UInt64.size) :
    store.toldRejections.toNat = store.rejectedWrites :=
  UInt64.toNat_ofNat_of_lt' h

end Store

/-! ## One write -/

namespace Store

/-- After the write of any row a store is as it was, or the row was counted, or it is stored too. -/
theorem insert_cases (store : Store) (row : Row) :
    (store.insert row).2 = store ∨ (store.insert row).2 = store.countWrite row ∨
      ∃ id, row.key .data = .ok id ∧
        (store.insert row).2 = (store.countWrite row).putData id row := by
  unfold insert
  by_cases hClosed : store.closed = true
  · rw [if_pos hClosed]
    exact .inl rfl
  rw [if_neg hClosed]
  by_cases hRejects : store.rejects row = true
  · rw [if_pos hRejects]
    exact .inr (.inl rfl)
  rw [if_neg hRejects]
  cases hKey : row.key .data with
  | error failure => exact .inr (.inl rfl)
  | ok id => exact .inr (.inr ⟨id, rfl, rfl⟩)

variable (store : Store) (row : Row)

/-- The write of a row does not change the delay. -/
theorem writeDelay_insert : (store.insert row).2.writeDelay = store.writeDelay := by
  rcases store.insert_cases row with h | h | ⟨id, -, h⟩ <;> rw [h] <;> rfl

/-- The write of a row does not change whether the store is closed. -/
theorem closed_insert : (store.insert row).2.closed = store.closed := by
  rcases store.insert_cases row with h | h | ⟨id, -, h⟩ <;> rw [h] <;> rfl

/-- The write of a row does not change the records. -/
theorem records_insert : (store.insert row).2.records = store.records := by
  rcases store.insert_cases row with h | h | ⟨id, -, h⟩ <;> rw [h] <;> rfl

/-- The write of a row does not change the count of sessions. -/
theorem activeSessions_insert : (store.insert row).2.activeSessions = store.activeSessions := by
  rcases store.insert_cases row with h | h | ⟨id, -, h⟩ <;> rw [h] <;> rfl

/-- The write of a record leaves a store as it was, or it is the write of a data row, or the record
is stored under its key. -/
theorem putRecord_cases (table : Table) :
    (store.putRecord table row).2 = store ∨
      table = .data ∧ (store.putRecord table row).2 = (store.insert row).2 ∨
      ∃ key, row.key table = .ok key ∧
        (store.putRecord table row).2 = store.putKeyed table key row := by
  by_cases hTable : table = .data
  · subst hTable
    rw [putRecord_data]
    exact .inr (.inl ⟨rfl, rfl⟩)
  rw [putRecord_of_ne _ hTable]
  by_cases hClosed : store.closed = true
  · rw [if_pos hClosed]
    exact .inl rfl
  rw [if_neg hClosed]
  cases hKey : row.key table with
  | error failure => exact .inl rfl
  | ok key => exact .inr (.inr ⟨key, rfl, rfl⟩)

/-- The write of a record does not change whether the store is closed. -/
theorem closed_putRecord (table : Table) : (store.putRecord table row).2.closed = store.closed := by
  rcases store.putRecord_cases row table with h | ⟨-, h⟩ | ⟨key, -, h⟩ <;> rw [h]
  · exact store.closed_insert row
  · rfl

/-- The write of a record does not change the count of sessions. -/
theorem activeSessions_putRecord (table : Table) :
    (store.putRecord table row).2.activeSessions = store.activeSessions := by
  rcases store.putRecord_cases row table with h | ⟨-, h⟩ | ⟨key, -, h⟩ <;> rw [h]
  · exact store.activeSessions_insert row
  · rfl

/-- The write of a row brings that row only. -/
theorem mem_dataRows_insert {executionId : Uuid} {other : Row}
    (h : other ∈ (store.insert row).2.dataRows executionId) :
    other ∈ store.dataRows executionId ∨ other = row := by
  rcases store.insert_cases row with hStore | hStore | ⟨id, -, hStore⟩ <;> rw [hStore] at h
  · exact .inl h
  · exact .inl h
  · obtain ⟨hValue, hBelongs⟩ := List.mem_filter.1 h
    obtain ⟨entry, hEntry, rfl⟩ := List.mem_map.1 hValue
    rcases Ledger.mem_entries_upsert hEntry with hOld | rfl
    · exact .inl (List.mem_filter.2 ⟨List.mem_map_of_mem hOld, hBelongs⟩)
    · exact .inr rfl

end Store

/-! ## Many writes -/

namespace Store

/-- A store after rows were written to it one after the other, whatever came of each. -/
def insertAll (store : Store) (rows : List Row) : Store :=
  rows.foldl (fun store row => (store.insert row).2) store

/-- Further rows are inserted after the first ones. -/
theorem insertAll_append (store : Store) (rows others : List Row) :
    store.insertAll (rows ++ others) = (store.insertAll rows).insertAll others :=
  List.foldl_append

/-- A row is rejected just if its fault does not accept it now. -/
theorem rejects_eq (store : Store) (row : Row) :
    store.rejects row = !WriteFault.accepts store.fault [] row := by
  cases h : store.fault <;> simp [rejects, WriteFault.accepts, WriteFault.answer, h]

/-- An open store takes a flat row if its fault does not reject it. -/
theorem insert_toRow_fst {store : Store} (hOpen : store.closed = false) (row : FlatRow) :
    (store.insert row.toRow).1 =
      if WriteFault.accepts store.fault [] row.toRow then .ok ()
      else .error (.store (.rejected row.toRow.describe)) := by
  rw [insert, hOpen, rejects_eq, row.key_toRow]
  cases WriteFault.accepts store.fault [] row.toRow <;> rfl

/-- What an open store is after a flat row was written to it. -/
theorem insert_toRow_snd {store : Store} (hOpen : store.closed = false) (row : FlatRow) :
    (store.insert row.toRow).2 =
      { store with
        data := if WriteFault.accepts store.fault [] row.toRow then
            store.data.upsert row.rowId row.toRow else store.data
        dataWrites := store.dataWrites + 1
        rejectedWrites := if WriteFault.accepts store.fault [] row.toRow then
            store.rejectedWrites else store.rejectedWrites + 1
        fault := store.fault.map fun fault => fault.ask row.toRow } := by
  rw [insert, hOpen, row.key_toRow]
  have hRejects := store.rejects_eq row.toRow
  cases hAccepts : WriteFault.accepts store.fault [] row.toRow <;>
    simp [hAccepts] at hRejects <;> simp [hRejects, countWrite, putData, hOpen]

/-- What an open store is after flat rows were written to it. -/
theorem insertAll_toRow {store : Store} (hOpen : store.closed = false) (rows : List FlatRow) :
    store.insertAll (rows.map FlatRow.toRow) =
      { store with
        data := Ledger.putAll FlatRow.rowId FlatRow.toRow store.data
          (WriteFault.accepted store.fault [] rows)
        dataWrites := store.dataWrites + rows.length
        rejectedWrites := store.rejectedWrites +
          (rows.length - (WriteFault.accepted store.fault [] rows).length)
        fault := store.fault.map fun fault => fault.askAll (rows.map FlatRow.toRow) } := by
  induction rows using List.reverseRecOn with
  | nil =>
    have hFault : (store.fault.map fun fault => fault.askAll []) = store.fault := by
      cases store.fault <;> rfl
    simp only [List.map_nil, hFault]
    rfl
  | append_singleton rows row ih =>
    have hLe := WriteFault.length_accepted_le store.fault [] rows
    have hOpen' : (store.insertAll (rows.map FlatRow.toRow)).closed = false := by
      rw [ih]
      exact hOpen
    have hAsk : ∀ fault : WriteFault, (fault.askAll (rows.map FlatRow.toRow)).ask row.toRow =
        fault.askAll (rows.map FlatRow.toRow ++ [row.toRow]) := by
      intro fault
      simp [WriteFault.ask, WriteFault.askAll]
    rw [List.map_append, insertAll_append, List.map_singleton, insertAll, List.foldl_cons,
      List.foldl_nil, insert_toRow_snd hOpen', ih]
    simp only [WriteFault.accepts_askAll, WriteFault.accepted_concat, List.append_nil,
      List.nil_append, List.length_append, List.length_singleton, Option.map_map,
      Function.comp_def, hAsk]
    by_cases h : WriteFault.accepts store.fault (rows.map FlatRow.toRow) row.toRow
    · simp only [h, if_true, Ledger.putAll_concat, List.length_singleton, Nat.add_sub_add_right,
        Nat.add_assoc]
    · have hCount : rows.length + 1 - (WriteFault.accepted store.fault [] rows).length =
          rows.length - (WriteFault.accepted store.fault [] rows).length + 1 := by omega
      simp [h, hCount, Nat.add_assoc]

end Store

end Collocation
