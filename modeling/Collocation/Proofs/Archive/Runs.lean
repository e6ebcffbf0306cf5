import Collocation.Proofs.Archive.Submitting
import Collocation.Proofs.Assembly.RoundTrip

/-!
# Runs of submissions

Executions are submitted one after the other to an archive that was empty at first, under ids that
come again or do not. Of each execution the records of the last submission are there, and the rows
of all. What was submitted under other ids does not show.
-/

set_option autoImplicit false

namespace Collocation

open WriteFault

/-! ## Calls -/

/-- A submission, and the writer through which it goes. -/
structure Call where
  writer : Writer
  submission : Submission

/-- A submission with the supply of ids that it met. -/
structure Filing where
  submission : Submission
  supply : Supply

namespace Filing

/-- The id of the execution that the submission belongs to. -/
def id (filing : Filing) : Uuid :=
  filing.submission.id filing.supply

def rows (filing : Filing) : List FlatRow :=
  filing.submission.rows filing.supply

/-- The submissions of an execution among filings. -/
def under (id : Uuid) (filings : List Filing) : List Submission :=
  (filings.filter fun filing => filing.id = id).map Filing.submission

/-- The ids of the rows of filings. -/
def rowIds (filings : List Filing) : List Uuid :=
  (filings.flatMap rows).map FlatRow.rowId

/-- The first of some submissions have distinct rows if all of them do. -/
theorem nodup_rowIds_left {filed others : List Filing} (h : (rowIds (filed ++ others)).Nodup) :
    (rowIds filed).Nodup := by
  rw [rowIds, List.flatMap_append, List.map_append] at h
  exact h.of_append_left

end Filing

/-- The filing of a call that meets a supply. -/
def Call.filing (call : Call) (supply : Supply) : Filing :=
  ⟨call.submission, supply⟩

/-- The supply after some calls. -/
def supplyAfterCalls (supply : Supply) (calls : List Call) : Supply :=
  calls.foldl (fun supply call => call.submission.supplyAfter supply) supply

/-- The filings of calls that follow each other, when the first meets a supply. -/
def filings (supply : Supply) : List Call → List Filing
  | [] => []
  | call :: calls =>
    call.filing supply :: filings (call.submission.supplyAfter supply) calls

/-- Further calls file their submissions with the supply that the calls before them left. -/
theorem filings_append (supply : Supply) (calls others : List Call) :
    filings supply (calls ++ others) =
      filings supply calls ++ filings (supplyAfterCalls supply calls) others := by
  induction calls generalizing supply with
  | nil => rfl
  | cons first calls ih =>
    rw [List.cons_append, filings, ih]
    rfl

/-- One call more files one submission more. -/
theorem filings_concat (supply : Supply) (calls : List Call) (call : Call) :
    filings supply (calls ++ [call]) =
      filings supply calls ++ [call.filing (supplyAfterCalls supply calls)] :=
  filings_append supply calls [call]

/-- What calls file is what they submit. -/
theorem map_submission_filings (supply : Supply) (calls : List Call) :
    (filings supply calls).map Filing.submission = calls.map Call.submission := by
  induction calls generalizing supply with
  | nil => rfl
  | cons call calls ih =>
    rw [filings, List.map_cons, ih]
    rfl

/-- How many ids are taken in some calls. -/
def idCount : List Call → Nat
  | [] => 0
  | call :: calls => call.submission.idCount + idCount calls

/-- The rows of filings take ids that were not taken before. -/
theorem rowIds_filings_sublist (supply : Supply) (calls : List Call) :
    (Filing.rowIds (filings supply calls)).Sublist
      ((List.range' supply.next (idCount calls)).map supply.mint) := by
  induction calls generalizing supply with
  | nil => exact List.nil_sublist _
  | cons call calls ih =>
    have hRest := ih (call.submission.supplyAfter supply)
    rw [Submission.supplyAfter_eq] at hRest
    rw [filings, Filing.rowIds, List.flatMap_cons, List.map_append, Submission.supplyAfter_eq,
      idCount, ← List.range'_append_1, List.map_append]
    exact Submission.rowIds_sublist.append hRest

/-- What is to be read of an execution, when these submissions belong to it. -/
def resultsOf (id : Uuid) (submissions : List Submission) : Except Failure Results :=
  match submissions.getLast? with
  | none => .error (.executionNotFound id)
  | some last => .ok
      { executionId := id
        params := last.params.settled
        stats := last.stats
        points := List.map Point.shown <| Forest.mergeBy Observation.id <|
          Forest.map Observation.settled (submissions.flatMap Submission.points) }

/-! ## What is kept -/

namespace Store

/-- A store without faults keeps what was filed, and nothing else. -/
structure Keeps (store : Store) (filed : List Filing) : Prop where
  isOpen : store.closed = false
  faultless : store.fault = none
  prompt : store.writeDelay = 0
  /-- The records of an execution are those of its last submission. -/
  executions (id : Uuid) : store.records.get? (.executions, id) =
    (Filing.under id filed).getLast?.map fun last => (last.execution id).toRow
  params (id : Uuid) : store.records.get? (.params, id) =
    (Filing.under id filed).getLast?.map fun last => last.params.toRow id
  stats (id : Uuid) : store.records.get? (.executionStats, id) =
    (Filing.under id filed).getLast?.map fun last => last.stats.toRow id
  /-- Each execution has one record in each table of records. -/
  keys (key : Table × Uuid) :
    key ∈ store.records.keys ↔ key.1 ≠ .data ∧ key.2 ∈ filed.map Filing.id
  /-- The rows of all submissions are there. -/
  data : store.data.entries =
    (filed.flatMap Filing.rows).map fun row => (row.rowId, row.toRow)

/-- An empty store keeps nothing. -/
theorem keeps_nil {store : Store} (hOpen : store.closed = false) (hFault : store.fault = none)
    (hDelay : store.writeDelay = 0) (hRecords : store.records = .empty)
    (hData : store.data = .empty) : store.Keeps [] where
  isOpen := hOpen
  faultless := hFault
  prompt := hDelay
  executions := fun id => by rw [hRecords]; rfl
  params := fun id => by rw [hRecords]; rfl
  stats := fun id => by rw [hRecords]; rfl
  keys := fun key => by simp [hRecords, Ledger.keys, Ledger.empty]
  data := by rw [hData]; rfl

end Store

namespace Archive

/-- An archive after a call. -/
def after (archive : Archive) (call : Call) : Archive :=
  ({ archive with writer := call.writer }.submit call.submission).2

/-- An archive after calls that follow each other. -/
def afterAll (archive : Archive) (calls : List Call) : Archive :=
  calls.foldl after archive

/-- An archive whose store keeps what was filed. -/
abbrev Holds (archive : Archive) (filed : List Filing) : Prop :=
  archive.store.Keeps filed

end Archive

/-! ## One call -/

/-- The keys of a store with the records of a submission. -/
theorem Store.mem_keys_withRecords {store : Store} {submission : Submission} {id : Uuid}
    {key : Table × Uuid} :
    key ∈ (store.withRecords submission id).records.keys ↔
      key ∈ store.records.keys ∨ key.1 ≠ .data ∧ key.2 = id := by
  obtain ⟨table, other⟩ := key
  rw [withRecords, Ledger.mem_keys_putAll]
  apply or_congr_right
  cases table <;> simp [Submission.records, eq_comm]

/-- One submission more is one more under its own id, and none under another one. -/
theorem Filing.under_concat (id : Uuid) (filed : List Filing) (filing : Filing) :
    under id (filed ++ [filing]) =
      under id filed ++ if filing.id = id then [filing.submission] else [] := by
  rw [under, List.filter_append, List.map_append, under]
  by_cases h : filing.id = id <;> simp [h]

/-- A record of an execution comes from the new filing, if that is one of it. -/
theorem Filing.map_last_concat (id : Uuid) (filed : List Filing) (submission : Submission)
    (supply : Supply) (record : Submission → Uuid → Row) :
    ((under id (filed ++ [⟨submission, supply⟩])).getLast?.map fun last => record last id) =
      if submission.id supply = id then some (record submission (submission.id supply))
      else (under id filed).getLast?.map fun last => record last id := by
  rw [under_concat]
  by_cases h : submission.id supply = id
  · simp [Filing.id, h]
  · simp [Filing.id, h]

namespace Archive

variable {archive : Archive} {filed : List Filing}

/-- An archive that holds what was filed takes a submission with new rows, and holds it as well. -/
theorem Holds.submit (h : archive.Holds filed) (filing : Filing)
    (hSupply : filing.supply = archive.supply)
    (hNodup : (Filing.rowIds (filed ++ [filing])).Nodup) :
    (archive.submit filing.submission).1 = .ok filing.id ∧
      (archive.submit filing.submission).2.Holds (filed ++ [filing]) := by
  obtain ⟨submission, supply⟩ := filing
  obtain rfl : supply = archive.supply := hSupply
  have hPatient := archive.writer.patient_of_no_delay h.prompt
  rw [Filing.rowIds, List.flatMap_append, List.map_append, List.flatMap_singleton,
    List.nodup_append] at hNodup
  obtain ⟨-, hOwn, hApart⟩ := hNodup
  have hUnused : ∀ row ∈ submission.rows archive.supply, row.rowId ∉ archive.store.data.keys := by
    intro row hRow hMem
    rw [Ledger.keys, h.data, List.map_map] at hMem
    exact hApart _ hMem _ (List.mem_map_of_mem hRow) rfl
  obtain ⟨hResult, -, -, -⟩ := archive.submit_eq submission h.isOpen hPatient
  obtain ⟨hOpen, hDelay, hRecords, hFault⟩ := archive.submit_store submission h.isOpen hPatient
  have hEntries := archive.submit_entries submission h.isOpen hPatient hOwn hUnused
  -- Without a fault the first pass is full, and the rows land in their order.
  have hFull := fullIn_none (submission.rows archive.supply) 0
  rw [h.faultless] at hResult hFault hEntries
  rw [if_pos (fullPass?_of_first _ _ archive.attempts_pos hFull)] at hResult
  rw [landed_of_first _ _ (archive.passes_pos submission) hFull] at hEntries
  refine ⟨hResult, ?_⟩
  exact
    { isOpen := hOpen
      faultless := hFault
      prompt := hDelay.trans h.prompt
      executions := by
        intro id
        rw [hRecords, Store.get?_withRecords_executions, h.executions]
        exact (Filing.map_last_concat id filed _ _ fun last id => (last.execution id).toRow).symm
      params := by
        intro id
        rw [hRecords, (Store.get?_withRecords ..).1, h.params]
        exact (Filing.map_last_concat id filed _ _ fun last id => last.params.toRow id).symm
      stats := by
        intro id
        rw [hRecords, (Store.get?_withRecords ..).2, h.stats]
        exact (Filing.map_last_concat id filed _ _ fun last id => last.stats.toRow id).symm
      keys := by
        intro key
        rw [hRecords, Store.mem_keys_withRecords, h.keys, List.map_append, List.mem_append,
          List.map_singleton, List.mem_singleton, ← and_or_left]
        rfl
      data := by
        rw [hEntries, h.data, List.flatMap_append, List.flatMap_singleton, List.map_append]
        rfl }

/-! ## Many calls -/

/-- It does not matter through which writer a submission goes. -/
theorem Holds.after (h : archive.Holds filed) (call : Call)
    (hNodup : (Filing.rowIds (filed ++ [call.filing archive.supply])).Nodup) :
    ({ archive with writer := call.writer }.submit call.submission).1 =
        .ok (call.submission.id archive.supply) ∧
      (archive.after call).supply = call.submission.supplyAfter archive.supply ∧
      (archive.after call).Holds (filed ++ [call.filing archive.supply]) := by
  have hWriter : { archive with writer := call.writer }.Holds filed := { h with }
  have hPatient : call.writer.Patient archive.store := call.writer.patient_of_no_delay h.prompt
  obtain ⟨-, -, -, hSupply⟩ :=
    { archive with writer := call.writer }.submit_eq call.submission h.isOpen hPatient
  obtain ⟨hResult, hHolds⟩ := hWriter.submit (call.filing archive.supply) rfl hNodup
  exact ⟨hResult, hSupply, hHolds⟩

/-- Call by call an archive holds what was filed. -/
theorem Holds.afterAll (h : archive.Holds filed) (calls : List Call)
    (hNodup : (Filing.rowIds (filed ++ filings archive.supply calls)).Nodup) :
    (archive.afterAll calls).supply = supplyAfterCalls archive.supply calls ∧
      (archive.afterAll calls).Holds (filed ++ filings archive.supply calls) := by
  induction calls generalizing archive filed with
  | nil =>
    rw [filings, List.append_nil]
    exact ⟨rfl, h⟩
  | cons call calls ih =>
    rw [filings, List.append_cons] at hNodup ⊢
    obtain ⟨-, hSupply, hHolds⟩ := h.after call (Filing.nodup_rowIds_left hNodup)
    rw [← hSupply] at hNodup ⊢
    obtain ⟨hSupplies, hAll⟩ := ih hHolds hNodup
    refine ⟨?_, hAll⟩
    rw [supplyAfterCalls, List.foldl_cons, ← hSupply]
    exact hSupplies

/-! ## Reading -/

/-- The rows of an execution among those of filings. -/
theorem filter_rows (filed : List Filing) (id : Uuid) :
    ((filed.flatMap Filing.rows).filter fun row => row.executionId = id) =
      (filed.filter fun filing => filing.id = id).flatMap Filing.rows := by
  induction filed with
  | nil => rfl
  | cons filing filed ih =>
    have hRows : ∀ row ∈ filing.rows, row.executionId = filing.id := fun row hRow =>
      Submission.executionId_of_mem_rows hRow
    rw [List.flatMap_cons, List.filter_append, ih, List.filter_cons]
    by_cases h : filing.id = id
    · have hAll : (filing.rows.filter fun row => row.executionId = id) = filing.rows :=
        List.filter_eq_self.2 fun row hRow => decide_eq_true ((hRows row hRow).trans h)
      rw [hAll, if_pos (decide_eq_true h), List.flatMap_cons]
    · have hNone : (filing.rows.filter fun row => row.executionId = id) = [] :=
        List.filter_eq_nil_iff.2 fun row hRow hId =>
          h ((hRows row hRow).symm.trans (of_decide_eq_true hId))
      rw [hNone, if_neg (by simpa using h), List.nil_append]

/-- The forests of filings side by side. -/
def forestOf (filed : List Filing) : Forest FlatRow :=
  filed.flatMap fun filing => filing.submission.forest filing.supply

/-- The rows in the forest of what was filed are those of the submissions, one after the other. -/
theorem values_forestOf (filed : List Filing) :
    Forest.values (forestOf filed) = filed.flatMap Filing.rows := by
  induction filed with
  | nil => rfl
  | cons filing filed ih =>
    rw [forestOf, List.flatMap_cons, Forest.values_append, ← forestOf, ih,
      ← Submission.rows_eq_values, List.flatMap_cons]
    rfl

/-- In the forest of what was filed each row names the row above it as its parent. -/
theorem linked_forestOf (filed : List Filing) : Flattened.Linked none (forestOf filed) := by
  induction filed with
  | nil => exact Flattened.linked_nil
  | cons filing filed ih => exact (Flattened.linked_rowForest _ _ _).append ih

/-- The points in the forest of what was filed are those of the submissions, as they are read back.
-/
theorem map_forestOf {filed : List Filing} (hReadable : ∀ filing ∈ filed,
      ∀ observation ∈ Forest.values filing.submission.points, observation.Readable) :
    Forest.map FlatRow.observation (forestOf filed) =
      Forest.map Observation.settled
        ((filed.map Filing.submission).flatMap Submission.points) := by
  induction filed with
  | nil => rfl
  | cons filing filed ih =>
    have hFirst := hReadable filing List.mem_cons_self
    have hRest := ih fun other hOther => hReadable other (List.mem_cons_of_mem _ hOther)
    rw [forestOf, List.flatMap_cons, Forest.map_append, ← forestOf, hRest,
      Submission.map_forest hFirst, List.map_cons, List.flatMap_cons, Forest.map_append]

section Reading

variable (h : archive.Holds filed) (hNodup : (Filing.rowIds filed).Nodup)
  (hReadable : ∀ filing ∈ filed, ∀ observation ∈ Forest.values filing.submission.points,
    observation.Readable)
include h hNodup hReadable

/-- The forest of an execution comes from the forests of its own submissions. -/
theorem Holds.assemble (id : Uuid) :
    ∃ assembly : Assembly, archive.store.assemble .full id false = .ok assembly ∧
      assembly.points = List.map Point.shown (Forest.mergeBy Observation.id
        (Forest.map Observation.settled
          ((Filing.under id filed).flatMap Submission.points))) := by
  have hValues : archive.store.data.values = (filed.flatMap Filing.rows).map FlatRow.toRow := by
    rw [Ledger.values, h.data, List.map_map]
    rfl
  -- What is selected are the rows of the own submissions, in the order of the calls.
  have hRows := Store.dataRows_of_values hValues id
  rw [filter_rows, ← values_forestOf] at hRows
  obtain ⟨hTops, hNested⟩ := Store.select_of_dataRows h.isOpen hRows
  have hIds : (Forest.ids FlatRow.rowId
      (forestOf (filed.filter fun filing => filing.id = id))).Nodup := by
    rw [Forest.ids, values_forestOf, ← filter_rows]
    exact hNodup.sublist (List.filter_sublist.map _)
  have hOwn : ∀ filing ∈ filed.filter fun filing => filing.id = id,
      ∀ observation ∈ Forest.values filing.submission.points, observation.Readable :=
    fun filing hFiling => hReadable filing (List.mem_filter.1 hFiling).1
  have hRead : ∀ row ∈ Forest.values (forestOf (filed.filter fun filing => filing.id = id)),
      row.Readable := by
    intro row hRow
    rw [values_forestOf] at hRow
    obtain ⟨filing, hFiling, hRow⟩ := List.mem_flatMap.1 hRow
    exact Submission.readable_rows (hOwn filing hFiling) row hRow
  obtain ⟨assembly, hAssembly, hPoints, -⟩ :=
    Assembly.ofRows_of_linked hIds (linked_forestOf _) hRead
  rw [map_forestOf hOwn] at hPoints
  refine ⟨assembly, ?_, hPoints⟩
  simp only [Store.assemble, hTops, hNested, bind, Except.bind]
  exact hAssembly

/-- What is read of an execution comes from its own submissions. -/
theorem Holds.retrieve (id : Uuid) :
    archive.store.retrieve .full id false = resultsOf id (Filing.under id filed) := by
  have hParams := h.params id
  have hStats := h.stats id
  cases hLast : (Filing.under id filed).getLast? with
  | none =>
    rw [hLast] at hParams
    rw [resultsOf, hLast, Store.retrieve, Store.requireRecord_of_ne h.isOpen (by decide), hParams]
    rfl
  | some last =>
    rw [hLast] at hParams hStats
    obtain ⟨assembly, hAssembly, hPoints⟩ := h.assemble hNodup hReadable id
    rw [Store.retrieve_eq_ok h.isOpen hParams hStats hAssembly, hPoints, resultsOf, hLast]

end Reading

/-- What is read of an execution stays when another one is submitted. -/
theorem Holds.retrieve_after (h : archive.Holds filed) (call : Call)
    (hNodup : (Filing.rowIds (filed ++ [call.filing archive.supply])).Nodup)
    (hReadable : ∀ filing ∈ filed ++ [call.filing archive.supply],
      ∀ observation ∈ Forest.values filing.submission.points, observation.Readable) {id : Uuid}
    (hOther : call.submission.id archive.supply ≠ id) :
    (archive.after call).store.retrieve .full id false =
      archive.store.retrieve .full id false := by
  obtain ⟨-, -, hNext⟩ := h.after call hNodup
  have hId : (call.filing archive.supply).id ≠ id := hOther
  have hUnder :
      Filing.under id (filed ++ [call.filing archive.supply]) = Filing.under id filed := by
    rw [Filing.under_concat, if_neg hId, List.append_nil]
  have hFiled := fun filing hMem => hReadable filing (List.mem_append_left _ hMem)
  rw [hNext.retrieve hNodup hReadable, h.retrieve (Filing.nodup_rowIds_left hNodup) hFiled, hUnder]

end Archive

/-! ## Counting -/

namespace Store

variable {store : Store} {filed : List Filing}

/-- Each execution has one record in each table of records. -/
theorem Keeps.records_perm (h : store.Keeps filed) {table : Table} (hTable : table ≠ .data) :
    (store.records.keys.filter fun key => key.1 = table).Perm
      ((filed.map Filing.id).eraseDups.map fun id => (table, id)) := by
  have hIds : ((filed.map Filing.id).eraseDups.map fun id => (table, id)).Nodup :=
    (nodup_eraseDups _).map fun _ _ hEq => (Prod.mk.inj hEq).2
  apply (List.perm_ext_iff_of_nodup (store.records.nodup_keys.filter _) hIds).2
  intro key
  obtain ⟨other, id⟩ := key
  simp only [List.mem_filter, h.keys, decide_eq_true_eq, List.mem_map, List.mem_eraseDups,
    Prod.mk.injEq]
  constructor
  · rintro ⟨⟨-, hId⟩, rfl⟩
    exact ⟨id, hId, rfl, rfl⟩
  · rintro ⟨_, hId, rfl, rfl⟩
    exact ⟨⟨hTable, hId⟩, rfl⟩

/-- There are as many rows in a table of records as executions. -/
theorem Keeps.tableSize_of_ne (h : store.Keeps filed) {table : Table} (hTable : table ≠ .data) :
    store.tableSize table = (filed.map Filing.id).eraseDups.length := by
  have hSize : store.tableSize table =
      (store.records.keys.filter fun key => key.1 = table).length := by
    rw [tableSize, List.countP_eq_length_filter]
    exact hTable
  rw [hSize, (h.records_perm hTable).length_eq, List.length_map]

/-- There are as many data rows as points were submitted. -/
theorem Keeps.size_data (h : store.Keeps filed) :
    store.data.size =
      Forest.size ((filed.map Filing.submission).flatMap Submission.points) := by
  rw [Ledger.size, h.data, List.length_map]
  clear h
  induction filed with
  | nil => rfl
  | cons filing filed ih =>
    rw [List.flatMap_cons, List.length_append, ih, Filing.rows, Submission.length_rows,
      List.map_cons, List.flatMap_cons, Forest.size_append]

end Store

/-! ## Runs -/

namespace Archive

/-- What was filed was submitted in one of the calls. -/
theorem mem_filings {supply : Supply} {calls : List Call} {filing : Filing}
    (h : filing ∈ filings supply calls) : ∃ call ∈ calls, filing.submission = call.submission := by
  have hMem := List.mem_map_of_mem h (f := Filing.submission)
  rw [map_submission_filings] at hMem
  obtain ⟨call, hCall, hEq⟩ := List.mem_map.1 hMem
  exact ⟨call, hCall, hEq.symm⟩

/-- What is read after calls on an empty archive, and how much is stored then. -/
theorem retrieve_afterAll (archive : Archive) (calls : List Call)
    (hOpen : archive.store.closed = false) (hFault : archive.store.fault = none)
    (hDelay : archive.store.writeDelay = 0) (hRecords : archive.store.records = .empty)
    (hData : archive.store.data = .empty)
    (hNodup : (Filing.rowIds (filings archive.supply calls)).Nodup)
    (hReadable : ∀ call ∈ calls, ∀ observation ∈ Forest.values call.submission.points,
      observation.Readable) :
    (∀ id, Filing.under id (filings archive.supply calls) = [] →
        (archive.afterAll calls).store.retrieve .full id false =
          .error (.executionNotFound id)) ∧
      (∀ id last, (Filing.under id (filings archive.supply calls)).getLast? = some last →
        ∃ results, (archive.afterAll calls).store.retrieve .full id false = .ok results ∧
          results.executionId = id ∧
          Params.ofRow (last.params.toRow id) = .ok results.params ∧
          results.stats = last.stats ∧
          results.points = List.map Point.shown (Forest.mergeBy Observation.id
            (Forest.map Observation.settled
              ((Filing.under id (filings archive.supply calls)).flatMap Submission.points)))) ∧
      (∀ before call rest, calls = before ++ call :: rest →
        ({ archive.afterAll before with writer := call.writer }.submit call.submission).1 =
            .ok (call.submission.id (archive.afterAll before).supply) ∧
          ∀ id, call.submission.id (archive.afterAll before).supply ≠ id →
            ((archive.afterAll before).after call).store.retrieve .full id false =
              (archive.afterAll before).store.retrieve .full id false) ∧
      (∀ table, table ≠ .data →
        ((archive.afterAll calls).store.records.keys.filter fun key => key.1 = table).Perm
            (((filings archive.supply calls).map Filing.id).eraseDups.map fun id => (table, id)) ∧
          (archive.afterAll calls).store.tableSize table =
            ((filings archive.supply calls).map Filing.id).eraseDups.length) ∧
      (archive.afterAll calls).store.tableSize .data =
        Forest.size (calls.flatMap fun call => call.submission.points) := by
  have hStart : archive.Holds [] := Store.keeps_nil hOpen hFault hDelay hRecords hData
  have hRun := (hStart.afterAll calls hNodup).2
  rw [List.nil_append] at hRun
  have hFiled : ∀ filing ∈ filings archive.supply calls,
      ∀ observation ∈ Forest.values filing.submission.points, observation.Readable := by
    intro filing hFiling
    obtain ⟨call, hCall, hEq⟩ := mem_filings hFiling
    rw [hEq]
    exact hReadable call hCall
  have hRetrieve := hRun.retrieve hNodup hFiled
  refine ⟨?_, ?_, ?_, ?_, ?_⟩
  · intro id hUnder
    rw [hRetrieve, hUnder]
    rfl
  · intro id last hLast
    have hResults := hRetrieve id
    rw [resultsOf, hLast] at hResults
    exact ⟨_, hResults, rfl, last.params.ofRow_toRow id, rfl, rfl⟩
  · rintro before call rest rfl
    rw [List.append_cons, filings_append, filings_concat] at hNodup hFiled
    have hCall := Filing.nodup_rowIds_left hNodup
    obtain ⟨hSupply, hHolds⟩ := hStart.afterAll before (Filing.nodup_rowIds_left hCall)
    rw [List.nil_append] at hHolds
    rw [← hSupply] at hCall hFiled
    refine ⟨(hHolds.after call hCall).1, fun id hOther => ?_⟩
    exact hHolds.retrieve_after call hCall
      (fun filing hFiling => hFiled filing (List.mem_append_left _ hFiling)) hOther
  · exact fun table hTable => ⟨hRun.records_perm hTable, hRun.tableSize_of_ne hTable⟩
  · have hSize := hRun.size_data
    rw [map_submission_filings, List.flatMap_map] at hSize
    exact hSize

/-- Three calls: the first and the last under the same id. -/
def repeatedCalls : List Call :=
  [ ⟨(plainArchive none).writer, plainSubmission (some .nil) nestedPoints⟩,
    ⟨(plainArchive none).writer, plainSubmission none nestedPoints⟩,
    ⟨(plainArchive none).writer,
      plainSubmission (some .nil) [Assembly.plainPoint "a" (some (.bool true)) []]⟩ ]

/-- After two submissions under one id the points of both are retrieved, one after the other and
with repeated ones merged. -/
theorem retrieve_afterAll_repeated :
    ∃ results,
      ((plainArchive none).afterAll repeatedCalls).store.retrieve .full .nil false = .ok results ∧
        results.points = List.map Point.shown
          [ Assembly.plainPoint "a" (some (.bool true))
              [Assembly.plainPoint "b" (some (.array [])) []],
            Assembly.plainPoint "c" (some (.array [])) [] ] ∧
        ((plainArchive none).afterAll repeatedCalls).store.tableSize .data = 7 := by
  have hNodup : (Filing.rowIds (filings (Supply.seeded 0) repeatedCalls)).Nodup := by
    apply (rowIds_filings_sublist _ _).nodup
    show ((List.range' 0 8).map (Supply.seeded 0).mint).Nodup
    decide +kernel
  have hTrue : Json.parse? (Json.bool true).compact = some (.bool true) := by cbv
  have hReadable : ∀ call ∈ repeatedCalls, ∀ observation ∈ Forest.values call.submission.points,
      observation.Readable := by
    simp [repeatedCalls, plainSubmission, nestedPoints, Assembly.plainPoint, Forest.values,
      Tree.values, Observation.Readable, hTrue]
  obtain ⟨-, hFound, -, -, hSize⟩ :=
    retrieve_afterAll (plainArchive none) repeatedCalls rfl rfl rfl rfl rfl hNodup hReadable
  have hUnder : Filing.under .nil (filings (plainArchive none).supply repeatedCalls) =
      [ plainSubmission (some .nil) nestedPoints,
        plainSubmission (some .nil) [Assembly.plainPoint "a" (some (.bool true)) []] ] := by
    simp only [repeatedCalls, filings, Submission.supplyAfter_eq]
    rfl
  obtain ⟨results, hResults, -, -, -, hPoints⟩ := hFound .nil _ (by rw [hUnder]; rfl)
  refine ⟨results, hResults, hPoints.trans ?_, hSize⟩
  rw [hUnder]
  rfl

end Archive

end Collocation
