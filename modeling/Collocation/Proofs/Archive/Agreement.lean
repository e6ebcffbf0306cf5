import Collocation.Proofs.Archive.Retrieval
import Collocation.Proofs.Archive.Runs

/-!
# Stores that keep the same submissions

Two stores that keep the same submissions, without faults, cannot be told apart: a submission comes
to the same in both, and after it they keep the same again; what is retrieved is the same; and so
are the numbers of rows. An execution that was submitted is found.
-/

set_option autoImplicit false

namespace Collocation

/-- The number of rows in a table after submissions: one for each execution, and one for each point.
-/
def Filing.rowCount (filed : List Filing) : Table → Nat
  | .data => Forest.size ((filed.map Filing.submission).flatMap Submission.points)
  | _ => (filed.map Filing.id).eraseDups.length

/-- One submission has a row in each table of records, and as many data rows as points. -/
theorem Filing.rowCount_singleton (filing : Filing) (table : Table) :
    rowCount [filing] table =
      if table = .data then Forest.size filing.submission.points else 1 := by
  cases table with
  | data =>
    rw [rowCount, List.map_singleton, List.flatMap_singleton]
    rfl
  | _ => rfl

namespace Store

/-- Results are told under the id for which they were retrieved. -/
theorem executionId_of_retrieve {store : Store} {depth : NestingDepth} {id : Uuid} {trim : Bool}
    {results : Results} (h : store.retrieve depth id trim = .ok results) :
    results.executionId = id := by
  simp only [retrieve, bind_eq_ok_iff] at h
  obtain ⟨_, -, _, -, _, -, _, -, _, -, hResults⟩ := h
  cases hResults
  rfl

namespace Keeps

variable {store other : Store} {filed : List Filing} (h : store.Keeps filed)
include h

/-- A store that keeps some submissions has the rows of these in each table, and no more. -/
theorem tableSize_eq (table : Table) : store.tableSize table = Filing.rowCount filed table := by
  cases table with
  | data => exact h.size_data
  | _ => exact h.tableSize_of_ne (by decide)

/-- Two stores that keep the same submissions have the same data rows in the same order. -/
theorem data_eq (hOther : other.Keeps filed) : other.data = store.data :=
  Ledger.ext (hOther.data.trans h.data.symm)

/-- What is retrieved is the same. -/
theorem retrieve_eq (hOther : other.Keeps filed) (depth : NestingDepth) (id : Uuid) (trim : Bool) :
    other.retrieve depth id trim = store.retrieve depth id trim := by
  apply retrieve_congr h.isOpen hOther.isOpen
  · rw [hOther.params, h.params]
  · rw [hOther.stats, h.stats]
  · rw [dataRows, dataRows, h.data_eq hOther]

/-- All data rows can be read, if the payloads of the submissions can. -/
theorem decodes_of_mem_values (hReadable : ∀ filing ∈ filed,
      ∀ o ∈ Forest.values filing.submission.points, o.Readable) {row : Row}
    (hRow : row ∈ store.data.values) : Reading.Decodes ⟨.point, row⟩ := by
  rw [Ledger.values, h.data, List.map_map] at hRow
  obtain ⟨row, hMem, rfl⟩ := List.mem_map.1 hRow
  obtain ⟨filing, hFiling, hMem⟩ := List.mem_flatMap.1 hMem
  have hDecode : DataRow.ofRow row.toRow = .ok row.decoded :=
    FlatRow.ofRow_toRow (Submission.readable_rows (hReadable filing hFiling) row hMem)
  exact Reading.decode_eq_ok_iff.1 (outcome_eq_ok_iff.2 ⟨_, hDecode⟩)

/-- An execution that was submitted is found, whole or trimmed. -/
theorem exists_retrieve (hReadable : ∀ filing ∈ filed,
      ∀ o ∈ Forest.values filing.submission.points, o.Readable) {filing : Filing}
    (hFiling : filing ∈ filed) (depth : NestingDepth) (trim : Bool) :
    ∃ results, store.retrieve depth filing.id trim = .ok results := by
  obtain ⟨last, hLast⟩ : ∃ last, (Filing.under filing.id filed).getLast? = some last := by
    have hUnder : filing.submission ∈ Filing.under filing.id filed :=
      List.mem_map_of_mem (List.mem_filter.2 ⟨hFiling, decide_eq_true rfl⟩)
    exact ⟨_, List.getLast?_eq_some_getLast (List.ne_nil_of_mem hUnder)⟩
  have hParams := h.params filing.id
  have hStats := h.stats filing.id
  rw [hLast] at hParams hStats
  rw [← outcome_eq_ok_iff, outcome_retrieve h.isOpen hParams hStats, forM_eq_ok_iff]
  have hRows : ∀ topLevel, ∀ row ∈ store.rowsAt filing.id topLevel,
      Reading.Decodes ⟨.point, row⟩ := fun topLevel row hRow =>
    h.decodes_of_mem_values hReadable (List.mem_filter.1 (List.mem_filter.1 hRow).1).1
  intro reading hReading
  rw [readings, List.mem_cons, List.mem_cons] at hReading
  rcases hReading with rfl | rfl | hReading
  · exact outcome_eq_ok_iff.2 ⟨_, last.params.ofRow_toRow filing.id⟩
  · exact outcome_eq_ok_iff.2 ⟨_, last.stats.ofRow_toRow filing.id⟩
  · rw [Reading.decode_eq_ok_iff]
    cases trim with
    | true =>
      obtain ⟨row, hRow, rfl⟩ := List.mem_map.1 hReading
      exact Reading.decodes_outline (hRows true row hRow)
    | false =>
      obtain ⟨row, hRow, rfl⟩ := List.mem_map.1 hReading
      rcases List.mem_append.1 hRow with hRow | hRow
      · exact hRows true row hRow
      · exact hRows false row hRow

end Keeps

end Store

/-! ## Submissions -/

/-- Metrics count only the passes of a writing and how it ended, whatever store it left. -/
theorem Metrics.recordWriting_congr (metrics : Metrics) {writing other : Writing}
    (h : other.passes = writing.passes) :
    metrics.recordWriting other = metrics.recordWriting writing := by
  rw [recordWriting, recordWriting, Writing.succeeded, Writing.succeeded, h]

namespace Archive

/-- The metrics after a submission to an open archive. -/
theorem metrics_submit {archive : Archive} (hOpen : archive.store.closed = false)
    (submission : Submission) :
    (archive.submit submission).2.metrics =
      archive.metrics.recordWriting (archive.writer.write (submission.rows archive.supply)
        (archive.store.withRecords submission (submission.id archive.supply))) := by
  have hRecords := Store.putRecords_records hOpen submission (submission.id archive.supply)
  have hChoose : submission.chooseId archive.supply =
      (submission.id archive.supply, (submission.chooseId archive.supply).2) := rfl
  rw [submit, hChoose]
  simp only [hRecords, flatten, write, if_true]
  rfl

/-- A submission comes to the same in two archives that differ in their stores only, if the stores
keep the same. -/
theorem Holds.submit_congr {archive : Archive} {filed : List Filing} (h : archive.Holds filed)
    {other : Store} (hOther : other.Keeps filed) (submission : Submission)
    (hNodup : (Filing.rowIds (filed ++ [⟨submission, archive.supply⟩])).Nodup) :
    ((archive.withStore other).submit submission).1 = (archive.submit submission).1 ∧
      ((archive.withStore other).submit submission).2.supply =
        (archive.submit submission).2.supply ∧
      ((archive.withStore other).submit submission).2.metrics =
        (archive.submit submission).2.metrics := by
  have hWith : (archive.withStore other).Holds filed := hOther
  have hResult := (h.submit ⟨submission, archive.supply⟩ rfl hNodup).1
  have hResult' := (hWith.submit ⟨submission, archive.supply⟩ rfl hNodup).1
  have hPatient := archive.writer.patient_of_no_delay h.prompt
  have hPatient' := archive.writer.patient_of_no_delay hOther.prompt
  obtain ⟨-, -, -, hSupply⟩ := archive.submit_eq submission h.isOpen hPatient
  obtain ⟨-, -, -, hSupply'⟩ :=
    (archive.withStore other).submit_eq submission hWith.isOpen hPatient'
  refine ⟨hResult'.trans hResult.symm, hSupply'.trans hSupply.symm, ?_⟩
  have hPasses (store : Store) (hStore : store.Keeps filed) :=
    archive.writer.passes_of_faultless
      (show (store.withRecords submission (submission.id archive.supply)).closed = false
        from hStore.isOpen) hStore.faultless hStore.prompt (submission.rows archive.supply)
  rw [metrics_submit h.isOpen, metrics_submit hWith.isOpen]
  exact Metrics.recordWriting_congr _
    ((hPasses other hOther).trans (hPasses archive.store h).symm)

end Archive

end Collocation
