import Collocation.Proofs.Archive.Runs
import Collocation.Proofs.Entity.Submissions
import Collocation.Proofs.Store.Reopening

/-!
# Snapshots of what was submitted

A store that keeps submissions has their rows and no others. If the submissions were read from
texts, all doubles in the rows are finite; so the snapshot of the store can be opened again, and the
store that is opened keeps the same submissions.
-/

set_option autoImplicit false

namespace Collocation

/-! ## What rows are made of -/

/-- The doubles and the timestamps of a value are among those given. -/
def ColumnValue.Within (doubles : List Double) (instants : List Instant) (value : ColumnValue) :
    Prop :=
  (∀ x ∈ value.doubles, x ∈ doubles) ∧ ∀ t ∈ value.instants, t ∈ instants

/-- The doubles and the timestamps of a row are among those given. -/
def Row.Within (doubles : List Double) (instants : List Instant) (row : Row) : Prop :=
  (∀ x ∈ row.doubles, x ∈ doubles) ∧ ∀ t ∈ row.instants, t ∈ instants

section Within

variable {doubles : List Double} {instants : List Instant}

/-- What is within some doubles and times is within more of them. -/
theorem Row.Within.mono {row : Row} (h : row.Within doubles instants) {moreDoubles : List Double}
    {moreInstants : List Instant} (hDoubles : doubles ⊆ moreDoubles)
    (hInstants : instants ⊆ moreInstants) : row.Within moreDoubles moreInstants :=
  ⟨fun x hx => hDoubles (h.1 x hx), fun t ht => hInstants (h.2 t ht)⟩

/-- A row has the doubles and the timestamps of its columns. -/
theorem Row.within_ofList {columns : List (String × ColumnValue)}
    (h : ∀ column ∈ columns, column.2.Within doubles instants) :
    (Row.ofList columns).Within doubles instants := by
  constructor
  · intro x hx
    obtain ⟨column, hColumn, hx⟩ := List.mem_flatMap.1 hx
    exact (h column (Dictionary.mem_entries_ofList hColumn)).1 x hx
  · intro t ht
    obtain ⟨column, hColumn, ht⟩ := List.mem_flatMap.1 ht
    exact (h column (Dictionary.mem_entries_ofList hColumn)).2 t ht

/-- An optional value is within some doubles and times if it is so where there is one. -/
theorem ColumnValue.within_ofOption {α : Type} {wrap : α → ColumnValue} {value : Option α} :
    (ofOption wrap value).Within doubles instants ↔
      ∀ x, value = some x → (wrap x).Within doubles instants := by
  cases value <;> simp [ofOption, Within, ColumnValue.doubles, ColumnValue.instants]

end Within

/-! ## Rows of submissions -/

/-- The row of an execution has the two times of that and no doubles. -/
theorem Execution.within_toRow (execution : Execution) :
    execution.toRow.Within [] [execution.timeStarted, execution.timeCompleted] := by
  apply Row.within_ofList
  simp [ColumnValue.Within, ColumnValue.doubles, ColumnValue.instants]

/-- The row of parameters has their doubles and times. -/
theorem Params.within_toRow (executionId : Uuid) (params : Params) :
    (params.toRow executionId).Within params.doubles params.instants := by
  apply Row.within_ofList
  simp only [List.forall_mem_cons, ColumnValue.within_ofOption]
  simp +contextual [ColumnValue.Within, ColumnValue.doubles, ColumnValue.instants, doubles,
    instants]

/-- The row of statistics has neither doubles nor times. -/
theorem Stats.within_toRow (executionId : Uuid) (stats : Stats) :
    (stats.toRow executionId).Within [] [] := by
  apply Row.within_ofList
  simp [ColumnValue.Within, ColumnValue.doubles, ColumnValue.instants]

/-- The payload of an observation is written as a text. -/
theorem FlatRow.within_toRow (executionId rowId : Uuid) (parent : Option Uuid) (o : Observation) :
    (ofObservation executionId rowId parent o).toRow.Within o.ownDoubles [o.time] := by
  have hValues : ∀ value ∈ (ofObservation executionId rowId parent o).values,
      value.Within o.ownDoubles [o.time] := by
    simp only [values, ofObservation, List.forall_mem_cons, ColumnValue.within_ofOption]
    simp +contextual [ColumnValue.Within, ColumnValue.doubles, ColumnValue.instants,
      Observation.ownDoubles]
  exact Row.within_ofList fun column hColumn => hValues column.2 (List.of_mem_zip hColumn).2

namespace Submission

variable {submission : Submission} {id : Uuid} {supply : Supply}

/-- Each record of a submission is under the submission's id, in a table of records. -/
theorem key_of_mem_records {record : Table × Row} (h : record ∈ submission.records id) :
    record.1 ≠ .data ∧ record.2.key record.1 = .ok id := by
  have hExecution := (submission.execution id).key_toRow
  have hParams := submission.params.key_toRow id
  have hStats := submission.stats.key_toRow id
  simp only [records, List.mem_cons, List.not_mem_nil, or_false] at h
  rcases h with rfl | rfl | rfl
  · exact ⟨by simp, hExecution⟩
  · exact ⟨by simp, hParams⟩
  · exact ⟨by simp, hStats⟩

/-- The records of a submission have its doubles and times. -/
theorem within_of_mem_records {record : Table × Row} (h : record ∈ submission.records id) :
    record.2.Within submission.doubles submission.instants := by
  have hExecution := (submission.execution id).within_toRow
  have hParams := submission.params.within_toRow id
  have hStats := submission.stats.within_toRow id
  simp only [records, List.mem_cons, List.not_mem_nil, or_false] at h
  rcases h with rfl | rfl | rfl
  · exact hExecution.mono (List.nil_subset _) fun t ht =>
      List.mem_append_left _ (List.mem_append_left _ ht)
  · exact hParams.mono (List.subset_append_left _ _) fun t ht =>
      List.mem_append_left _ (List.mem_append_right _ ht)
  · exact hStats.mono (List.nil_subset _) (List.nil_subset _)

/-- The data rows of a submission have its doubles and times. -/
theorem within_of_mem_rows {row : FlatRow} (h : row ∈ submission.rows supply) :
    row.toRow.Within submission.doubles submission.instants := by
  rw [rows_eq_values] at h
  obtain ⟨o, hMem, rowId, parent, rfl⟩ := Flattened.exists_of_mem_rowForest h
  refine (FlatRow.within_toRow _ rowId parent o).mono (fun x hx => ?_) fun t ht => ?_
  · exact List.mem_append_right _ (List.mem_flatMap.2 ⟨o, hMem, List.mem_append_left _ hx⟩)
  · rw [List.mem_singleton.1 ht]
    exact List.mem_append_right _ (List.mem_map_of_mem hMem)

end Submission

/-! ## Stores of submissions -/

namespace Store.Keeps

variable {store : Store} {filed : List Filing} (h : store.Keeps filed)
include h

/-- Each record is one of a submission of its execution. -/
theorem exists_of_record {table : Table} {id : Uuid} {row : Row}
    (hRow : store.records.get? (table, id) = some row) :
    ∃ filing ∈ filed, (table, row) ∈ filing.submission.records id := by
  have hLast : ∀ record : Submission → Row,
      (Filing.under id filed).getLast?.map record = some row →
        ∃ filing ∈ filed, record filing.submission = row := by
    intro record hRecord
    obtain ⟨submission, hSubmission, hEq⟩ := Option.map_eq_some_iff.1 hRecord
    obtain ⟨filing, hFiling, rfl⟩ := List.mem_map.1 (List.mem_of_getLast? hSubmission)
    exact ⟨filing, (List.mem_filter.1 hFiling).1, hEq⟩
  cases table with
  | executions =>
    obtain ⟨filing, hFiling, rfl⟩ := hLast _ ((h.executions id).symm.trans hRow)
    exact ⟨filing, hFiling, by simp [Submission.records]⟩
  | params =>
    obtain ⟨filing, hFiling, rfl⟩ := hLast _ ((h.params id).symm.trans hRow)
    exact ⟨filing, hFiling, by simp [Submission.records]⟩
  | executionStats =>
    obtain ⟨filing, hFiling, rfl⟩ := hLast _ ((h.stats id).symm.trans hRow)
    exact ⟨filing, hFiling, by simp [Submission.records]⟩
  | data =>
    have hKey : (Table.data, id) ∈ store.records.keys :=
      List.mem_map_of_mem (Ledger.get?_eq_some_iff.1 hRow)
    exact absurd rfl ((h.keys _).1 hKey).1

/-- All that the rows hold was submitted. -/
theorem within_of_mem_rows {row : Row} (hRow : row ∈ store.rows) :
    ∃ filing ∈ filed, row.Within filing.submission.doubles filing.submission.instants := by
  rcases List.mem_append.1 hRow with hRow | hRow
  · obtain ⟨⟨⟨table, id⟩, _⟩, hEntry, rfl⟩ := List.mem_map.1 hRow
    obtain ⟨filing, hFiling, hRecord⟩ :=
      h.exists_of_record (Ledger.get?_eq_some_iff.2 hEntry)
    exact ⟨filing, hFiling, Submission.within_of_mem_records hRecord⟩
  · rw [Ledger.values, h.data, List.map_map] at hRow
    obtain ⟨row, hMem, rfl⟩ := List.mem_map.1 hRow
    obtain ⟨filing, hFiling, hMem⟩ := List.mem_flatMap.1 hMem
    exact ⟨filing, hFiling, Submission.within_of_mem_rows hMem⟩

/-- A store that keeps some submissions is in order. -/
theorem orderly : store.Orderly where
  filed := by
    intro entry hEntry
    rw [h.data] at hEntry
    obtain ⟨row, -, rfl⟩ := List.mem_map.1 hEntry
    exact row.key_toRow
  recordsFiled := by
    rintro ⟨⟨table, id⟩, row⟩ hEntry
    obtain ⟨filing, -, hRecord⟩ :=
      h.exists_of_record (Ledger.get?_eq_some_iff.2 hEntry)
    exact Submission.key_of_mem_records hRecord

/-- The store that is opened keeps what the saved one kept. -/
theorem reopened : store.reopened.Keeps filed :=
  have hSame := store.sameRows_reopened
  { isOpen := rfl
    faultless := rfl
    prompt := rfl
    executions := fun id => (hSame.get?_records _).trans (h.executions id)
    params := fun id => (hSame.get?_records _).trans (h.params id)
    stats := fun id => (hSame.get?_records _).trans (h.stats id)
    keys := fun key => (hSame.records.map _).mem_iff.trans (h.keys key)
    data := h.data }

/-- The text of a store is opened, if what it keeps came from texts. -/
theorem ofText_text (hTidy : ∀ filing ∈ filed, filing.submission.Tidy)
    (hYears : ∀ filing ∈ filed, ∀ t ∈ filing.submission.instants, t.FourDigitYear)
    (hReads : ∀ filing ∈ filed, ∀ x ∈ filing.submission.doubles, (Scalar.double x).ReadsBack) :
    ofText store.text = .ok store.reopened := by
  have hFinite : ∀ x ∈ store.doubles, x.isFinite = true := by
    intro x hx
    obtain ⟨row, hRow, hx⟩ := List.mem_flatMap.1 hx
    obtain ⟨filing, hFiling, hWithin⟩ := h.within_of_mem_rows hRow
    exact (hTidy filing hFiling).isFinite_of_mem_doubles x (hWithin.1 x hx)
  have hStoreYears : ∀ t ∈ store.instants, t.FourDigitYear := by
    intro t ht
    obtain ⟨row, hRow, ht⟩ := List.mem_flatMap.1 ht
    obtain ⟨filing, hFiling, hWithin⟩ := h.within_of_mem_rows hRow
    exact hYears filing hFiling t (hWithin.2 t ht)
  have hStoreReads : ∀ x ∈ store.doubles, x.isFinite = true → (Scalar.double x).ReadsBack := by
    intro x hx _
    obtain ⟨row, hRow, hx⟩ := List.mem_flatMap.1 hx
    obtain ⟨filing, hFiling, hWithin⟩ := h.within_of_mem_rows hRow
    exact hReads filing hFiling x (hWithin.1 x hx)
  rw [Store.ofText_text h.orderly hStoreYears hStoreReads,
    if_pos (all_isFinite_iff.2 hFinite)]

end Store.Keeps

end Collocation
