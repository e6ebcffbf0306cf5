import Collocation.Proofs.Writer.Passes

/-!
# Retries

What the passes of a writing come to, whatever its fault does. The writing ends with the first pass
in which no row is rejected, or with the last one that is allowed. The rows that were accepted in
some pass are stored as they were written, and new ones among them stand behind what was there, in
the order in which they were first accepted. All else in the store is as it was, but for what counts
the writes and what the fault remembers of them.
-/

set_option autoImplicit false

namespace Collocation

/-! ## Rejections -/

namespace WriteFault

variable (fault : Option WriteFault) (rows : List FlatRow)

/-- The writes that are rejected in so many passes, each by its pass and the number of its row. -/
def rejections (passes : Nat) : List (Nat × Nat) :=
  (List.range passes).flatMap fun pass =>
    ((List.range rows.length).filter fun number => !acceptsIn fault rows pass number).map
      fun number => (pass, number)

/-- The numbers of the numbered rows of some kind are those of this kind below their count. -/
theorem filter_zipIdx_eq (isOne : Nat → Bool) :
    ((rows.zipIdx.filter fun row => isOne row.2).map (·.2)) =
      (List.range rows.length).filter isOne := by
  rw [List.range_eq_range', ← List.zipIdx_map_snd 0 rows, List.filter_map]
  rfl

/-- In a pass every row is accepted or rejected. -/
theorem length_accepted_add (pass : Nat) :
    (accepted fault (askedIn rows pass) rows).length +
      ((List.range rows.length).filter fun number => !acceptsIn fault rows pass number).length =
        rows.length := by
  have hAccepted : (accepted fault (askedIn rows pass) rows).length =
      ((List.range rows.length).filter (acceptsIn fault rows pass)).length := by
    rw [accepted_askedIn, List.length_map, ← filter_zipIdx_eq, List.length_map]
  rw [hAccepted, ← List.length_append,
    (List.filter_append_perm (acceptsIn fault rows pass) (List.range rows.length)).length_eq,
    List.length_range]

/-- In some passes each row is accepted or rejected each time. -/
theorem length_accepted_rounds (passes : Nat) :
    (accepted fault [] (List.replicate passes rows).flatten).length +
      (rejections fault rows passes).length = passes * rows.length := by
  rw [accepted_rounds]
  induction passes with
  | zero => simp [rejections]
  | succ passes ih =>
    have hPass := length_accepted_add fault rows passes
    rw [rejections] at ih ⊢
    rw [List.range_succ, List.flatMap_append, List.flatMap_append, List.flatMap_singleton,
      List.flatMap_singleton, List.length_append, List.length_append, List.length_map,
      Nat.succ_mul]
    omega

/-- A pass is full just if each row is accepted in it. -/
theorem fullIn_eq_true_iff (pass : Nat) :
    fullIn fault rows pass = true ↔
      ∀ number < rows.length, acceptsIn fault rows pass number = true := by
  simp only [fullIn, List.all_eq_true, List.mem_range]

/-- A pass is not full just if some row is not accepted in it. -/
theorem not_fullIn_iff (pass : Nat) :
    ¬ fullIn fault rows pass = true ↔
      ∃ number < rows.length, ¬ acceptsIn fault rows pass number = true := by
  rw [fullIn_eq_true_iff]
  simp only [not_forall, exists_prop]

/-- The first full pass is one of the attempts that is full, while no earlier one is. -/
theorem fullPass?_eq_some_iff {attempts pass : Nat} :
    fullPass? fault rows attempts = some pass ↔
      pass < attempts ∧ fullIn fault rows pass = true ∧
        ∀ earlier < pass, ¬ fullIn fault rows earlier = true := by
  rw [fullPass?, List.find?_range_eq_some]
  simp only [List.mem_range, Bool.not_eq_true', Bool.not_eq_true]
  constructor
  · rintro ⟨hFull, hLt, hEarlier⟩
    exact ⟨hLt, hFull, hEarlier⟩
  · rintro ⟨hLt, hFull, hEarlier⟩
    exact ⟨hFull, hLt, hEarlier⟩

/-- There is no full pass just if no attempt is full. -/
theorem fullPass?_eq_none_iff {attempts : Nat} :
    fullPass? fault rows attempts = none ↔ ∀ pass < attempts, ¬ fullIn fault rows pass = true := by
  rw [fullPass?, List.find?_eq_none]
  simp only [List.mem_range]

end WriteFault

/-! ## The store after some passes -/

open WriteFault

/-- What a store is after so many passes over rows. -/
structure Store.Passed (before after : Store) (rows : List FlatRow) (passes : Nat) : Prop where
  dataWrites : after.dataWrites = before.dataWrites + passes * rows.length
  rejectedWrites : after.rejectedWrites =
    before.rejectedWrites + (rejections before.fault rows passes).length
  /-- What is told of the writes is a word, which goes on modulo 2 ^ 64. -/
  toldWrites : after.toldWrites = before.toldWrites + .ofNat (passes * rows.length)
  toldRejections : after.toldRejections =
    before.toldRejections + .ofNat (rejections before.fault rows passes).length
  /-- What is stored keeps its place, and of the rows that were accepted the new ones come behind,
  in the order in which they first were. -/
  keys : after.data.keys = before.data.keys ++
    ((landed before.fault rows passes).map FlatRow.rowId).filter fun id => id ∉ before.data.keys
  /-- A row that was accepted is stored as it was written. -/
  accepted : ∀ number row, rows[number]? = some row →
    (∃ pass < passes, acceptsIn before.fault rows pass number) →
      after.data.get? row.rowId = some row.toRow
  /-- A row that never was is stored just if and as it was before. -/
  rejected : ∀ number row, rows[number]? = some row →
    (∀ pass < passes, ¬ acceptsIn before.fault rows pass number) →
      after.data.get? row.rowId = before.data.get? row.rowId
  others : ∀ id, (∀ row ∈ rows, row.rowId ≠ id) → after.data.get? id = before.data.get? id
  /-- The fault was asked about every row in every pass, in this order. -/
  fault : after.fault = before.fault.map fun fault =>
    fault.askAll ((List.replicate passes rows).flatten.map FlatRow.toRow)
  records : after.records = before.records
  activeSessions : after.activeSessions = before.activeSessions
  closed : after.closed = before.closed
  writeDelay : after.writeDelay = before.writeDelay

namespace Store

variable {store : Store} {rows : List FlatRow}

/-- The data rows after some passes: what was there, with the accepted rows written over it. -/
theorem data_insertAll_rounds (hOpen : store.closed = false) (passes : Nat) :
    (store.insertAll (askedIn rows passes)).data =
      Ledger.putAll (fun row => row.1.rowId) (fun row => row.1.toRow) store.data
        (acceptances store.fault rows passes) := by
  rw [askedIn, insertAll_toRow hOpen, accepted_eq_acceptances, Ledger.putAll_map]

/-- What is stored under the id of a row comes from an acceptance of this row. -/
theorem get?_insertAll_rounds (hOpen : store.closed = false)
    (hNodup : (rows.map FlatRow.rowId).Nodup) {number : Nat} {row : FlatRow}
    (hRow : rows[number]? = some row) (passes : Nat) :
    (store.insertAll (askedIn rows passes)).data.get? row.rowId =
      if (row, number) ∈ acceptances store.fault rows passes then some row.toRow
      else store.data.get? row.rowId := by
  have hSame : ∀ other ∈ acceptances store.fault rows passes, other.1.rowId = row.rowId →
      other = (row, number) := by
    intro other hOther hId
    refine List.inj_on_of_nodup_map (nodup_rowIds_zipIdx hNodup) ?_ ?_ hId
    · exact List.mem_zipIdx_iff_getElem?.2 ((mem_acceptances _ _).1 hOther).1
    · exact List.mem_zipIdx_iff_getElem?.2 hRow
  rw [data_insertAll_rounds hOpen, Ledger.get?_putAll]
  cases hLast : ((acceptances store.fault rows passes).filter fun other =>
      other.1.rowId = row.rowId).getLast? with
  | none =>
    have hNot : (row, number) ∉ acceptances store.fault rows passes := by
      intro hMem
      rw [List.getLast?_eq_none_iff, List.filter_eq_nil_iff] at hLast
      exact hLast _ hMem (decide_eq_true rfl)
    rw [if_neg hNot]
    rfl
  | some other =>
    obtain ⟨hMem, hId⟩ := List.mem_filter.1 (List.mem_of_getLast? hLast)
    obtain rfl := hSame other hMem (of_decide_eq_true hId)
    rw [if_pos hMem]
    rfl

/-- What an open store is after distinct rows were inserted in some passes. -/
theorem passed_insertAll (hOpen : store.closed = false) (hNodup : (rows.map FlatRow.rowId).Nodup)
    (passes : Nat) : store.Passed (store.insertAll (askedIn rows passes)) rows passes := by
  have hAll := insertAll_toRow hOpen (List.replicate passes rows).flatten
  have hLength : (List.replicate passes rows).flatten.length = passes * rows.length := by simp
  have hCount := length_accepted_rounds store.fault rows passes
  have hWrites : (store.insertAll (askedIn rows passes)).dataWrites =
      store.dataWrites + passes * rows.length := by
    rw [askedIn, hAll, hLength]
  have hRejected : (store.insertAll (askedIn rows passes)).rejectedWrites =
      store.rejectedWrites + (rejections store.fault rows passes).length := by
    rw [askedIn, hAll, hLength]
    simp only
    omega
  refine {
    dataWrites := hWrites, rejectedWrites := hRejected
    toldWrites := toldWrites_of_add hWrites, toldRejections := toldRejections_of_add hRejected
    keys := ?_, accepted := ?_, rejected := ?_
    others := ?_, fault := ?_, records := ?_, activeSessions := ?_, closed := ?_
    writeDelay := ?_ }
  · rw [data_insertAll_rounds hOpen, Ledger.keys_putAll, eraseDups_rowIds_acceptances _ hNodup]
  · intro number row hRow hAccepts
    rw [get?_insertAll_rounds hOpen hNodup hRow,
      if_pos ((mem_acceptances _ _).2 ⟨hRow, hAccepts⟩)]
  · intro number row hRow hRejects
    have hNot : (row, number) ∉ acceptances store.fault rows passes := by
      intro hMem
      obtain ⟨-, pass, hPass, hAccepts⟩ := (mem_acceptances _ _).1 hMem
      exact hRejects pass hPass hAccepts
    rw [get?_insertAll_rounds hOpen hNodup hRow, if_neg hNot]
  · intro id hId
    have hNone : (acceptances store.fault rows passes).filter
        (fun row => row.1.rowId = id) = [] := by
      apply List.filter_eq_nil_iff.2
      intro row hRow hEq
      have hMem := List.mem_of_getElem? ((mem_acceptances _ _).1 hRow).1
      exact hId row.1 hMem (of_decide_eq_true hEq)
    rw [data_insertAll_rounds hOpen, Ledger.get?_putAll, hNone]
    rfl
  all_goals rw [askedIn, hAll]

end Store

/-! ## Writings -/

namespace Writer

variable {writer : Writer}

/-- A writer whose limit is not shorter than the delay never waits too long. -/
theorem patient_of_le {store : Store}
    (h : ∀ limit, writer.config.rowTimeout = some limit → store.writeDelay ≤ limit) :
    writer.Patient store := by
  rw [Patient, timesOut, Option.filter_eq_none_iff]
  intro limit hLimit
  have hLe : store.writeDelay.toNat ≤ limit.toNat := UInt64.le_iff_toNat_le.1 (h limit hLimit)
  rw [decide_eq_true_eq, waitTime, waitTime]
  omega

variable {store : Store} (hOpen : store.closed = false) (hPatient : writer.Patient store)
  (rows : List FlatRow)
include hOpen hPatient

/-- So many passes are made as there are up to the first full one, or as there are attempts. -/
theorem length_passes_write :
    (writer.write rows store).passes.length =
      passCount store.fault rows writer.config.maxAttempts.toNat := by
  obtain ⟨-, hTallies, -⟩ :=
    writePasses_toRow hOpen hPatient rows writer.config.maxAttempts.toNat
  have hLengths := congrArg List.length hTallies
  rwa [List.length_map, List.length_map, List.length_range] at hLengths

/-- Every pass writes as many rows as there are. -/
theorem tally_of_mem_write {pass : Pass} (h : pass ∈ (writer.write rows store).passes) :
    pass.tally.written + pass.tally.failed = rows.length := by
  obtain ⟨-, hTallies, -⟩ :=
    writePasses_toRow hOpen hPatient rows writer.config.maxAttempts.toNat
  have hMem : pass.tally ∈ (writer.write rows store).passes.map Pass.tally := List.mem_map_of_mem h
  rw [write, hTallies] at hMem
  obtain ⟨number, -, hTally⟩ := List.mem_map.1 hMem
  have hLe := length_accepted_le store.fault (askedIn rows number) rows
  rw [← hTally, tallyIn]
  simp only
  omega

/-- The result is told by the first full pass. -/
theorem result_write (executionId : Uuid) :
    (writer.write rows store).result writer executionId rows.length =
      match fullPass? store.fault rows writer.config.maxAttempts.toNat with
      | some pass => .ok ⟨rows.length, pass + 1, writer.chunkCount rows.length⟩
      | none => .error (.writeFailed executionId rows.length writer.config.maxAttempts.toNat) := by
  have hLength := length_passes_write hOpen hPatient rows
  obtain ⟨-, -, hSucceeded⟩ :=
    writePasses_toRow hOpen hPatient rows writer.config.maxAttempts.toNat
  rw [Writing.result, hLength, write, hSucceeded, passCount]
  cases fullPass? store.fault rows writer.config.maxAttempts.toNat <;> rfl

variable {rows}

/-- A writing succeeds just if some attempt is the first one in which all rows are accepted, and it
tells the number of this attempt. -/
theorem result_eq_ok_iff {executionId : Uuid} {report : Report} :
    (writer.write rows store).result writer executionId rows.length = .ok report ↔
      ∃ pass < writer.config.maxAttempts.toNat,
        (∀ number < rows.length, acceptsIn store.fault rows pass number) ∧
        (∀ earlier < pass, ∃ number < rows.length, ¬ acceptsIn store.fault rows earlier number) ∧
        report = ⟨rows.length, pass + 1, writer.chunkCount rows.length⟩ := by
  simp only [← not_fullIn_iff, ← fullIn_eq_true_iff]
  rw [result_write hOpen hPatient]
  cases hFull : fullPass? store.fault rows writer.config.maxAttempts.toNat with
  | none =>
    have hNone := (fullPass?_eq_none_iff _ _).1 hFull
    simp only [reduceCtorEq, false_iff]
    rintro ⟨pass, hPass, hIs, -⟩
    exact hNone pass hPass hIs
  | some pass =>
    have hFirst := (fullPass?_eq_some_iff _ _).1 hFull
    simp only [Except.ok.injEq]
    constructor
    · rintro rfl
      exact ⟨pass, hFirst.1, hFirst.2.1, hFirst.2.2, rfl⟩
    · rintro ⟨other, hLt, hIs, hEarlier, rfl⟩
      have hOther := (fullPass?_eq_some_iff _ _).2 ⟨hLt, hIs, hEarlier⟩
      rw [hFull] at hOther
      rw [Option.some.inj hOther]

/-- A writing fails just if in each attempt some row is not accepted. -/
theorem result_eq_error_iff {executionId : Uuid} {failure : Failure} :
    (writer.write rows store).result writer executionId rows.length = .error failure ↔
      (∀ pass < writer.config.maxAttempts.toNat,
        ∃ number < rows.length, ¬ acceptsIn store.fault rows pass number) ∧
      failure = .writeFailed executionId rows.length writer.config.maxAttempts.toNat := by
  simp only [← not_fullIn_iff]
  rw [result_write hOpen hPatient, ← fullPass?_eq_none_iff]
  cases fullPass? store.fault rows writer.config.maxAttempts.toNat with
  | none => simp only [Except.error.injEq, true_and, eq_comm]
  | some pass => simp

/-- There are as many passes as are told, or as are allowed. -/
theorem length_passes_eq (executionId : Uuid) :
    (writer.write rows store).passes.length =
      match (writer.write rows store).result writer executionId rows.length with
      | .ok report => report.attempts
      | .error _ => writer.config.maxAttempts.toNat := by
  rw [length_passes_write hOpen hPatient, result_write hOpen hPatient, passCount]
  cases fullPass? store.fault rows writer.config.maxAttempts.toNat <;> rfl

end Writer

/-- A writing ends with the first pass in which every row is accepted, or fails if there is none
among the attempts. Every pass asks about all rows; what was accepted in any of them is stored. -/
theorem Writer.write_until_full (writer : Writer) {store : Store} (rows : List FlatRow)
    (executionId : Uuid) (hOpen : store.closed = false)
    (hTimeout : ∀ limit, writer.config.rowTimeout = some limit → store.writeDelay ≤ limit)
    (hNodup : (rows.map FlatRow.rowId).Nodup) :
    (∀ report, (writer.write rows store).result writer executionId rows.length = .ok report ↔
      ∃ pass < writer.config.maxAttempts.toNat,
        (∀ number < rows.length, acceptsIn store.fault rows pass number) ∧
        (∀ earlier < pass, ∃ number < rows.length, ¬ acceptsIn store.fault rows earlier number) ∧
        report = ⟨rows.length, pass + 1, writer.chunkCount rows.length⟩) ∧
      (∀ failure, (writer.write rows store).result writer executionId rows.length =
          .error failure ↔
        (∀ pass < writer.config.maxAttempts.toNat,
          ∃ number < rows.length, ¬ acceptsIn store.fault rows pass number) ∧
        failure = .writeFailed executionId rows.length writer.config.maxAttempts.toNat) ∧
      ((writer.write rows store).passes.length =
        match (writer.write rows store).result writer executionId rows.length with
        | .ok report => report.attempts
        | .error _ => writer.config.maxAttempts.toNat) ∧
      (∀ pass ∈ (writer.write rows store).passes,
        pass.tally.written + pass.tally.failed = rows.length) ∧
      store.Passed (writer.write rows store).store rows
        (writer.write rows store).passes.length ∧
      (∀ report, (writer.write rows store).result writer executionId rows.length = .ok report →
        ∀ row ∈ rows,
          (writer.write rows store).store.data.get? row.rowId = some row.toRow) := by
  have hPatient : writer.Patient store := patient_of_le hTimeout
  have hPasses : (writer.write rows store).passes.length = _ :=
    length_passes_eq hOpen hPatient executionId
  obtain ⟨hStore, -, -⟩ := writePasses_toRow hOpen hPatient rows writer.config.maxAttempts.toNat
  have hPassed := Store.passed_insertAll hOpen hNodup
    (passCount store.fault rows writer.config.maxAttempts.toNat)
  rw [← hStore, ← length_passes_write hOpen hPatient] at hPassed
  refine ⟨fun report => result_eq_ok_iff hOpen hPatient,
    fun failure => result_eq_error_iff hOpen hPatient, hPasses,
    fun pass hPass => tally_of_mem_write hOpen hPatient rows hPass, hPassed, ?_⟩
  intro report hReport row hRow
  obtain ⟨number, hNumber⟩ := List.mem_iff_getElem?.1 hRow
  have hLt := (List.getElem?_eq_some_iff.1 hNumber).1
  obtain ⟨pass, -, hFull, -, hAttempts⟩ := (result_eq_ok_iff hOpen hPatient).1 hReport
  rw [hReport, hAttempts] at hPasses
  refine hPassed.accepted number row hNumber ⟨pass, ?_, hFull number hLt⟩
  rw [hPasses]
  exact Nat.lt_succ_self pass

/-- An open store with one data row. -/
def Store.ofRow (number : Nat) : Store :=
  { data := Ledger.empty.upsert (.ofNat number) .empty }

/-- The first write is rejected, so that there is a second pass. The row that was there already
stays in front of the new one. -/
theorem Writer.write_until_full_second :
    ((plainWriter 1 (by decide)).write [plainRow 1, plainRow 2]
        ((Store.ofRow 2).setFault (some (.first 1)))).result
          (plainWriter 1 (by decide)) .nil 2 = .ok { rows := 2, attempts := 2, chunks := 2 } ∧
      ((plainWriter 1 (by decide)).write [plainRow 1, plainRow 2]
        ((Store.ofRow 2).setFault (some (.first 1)))).store.data.keys = [.ofNat 2, .ofNat 1] := by
  have hOpen : ((Store.ofRow 2).setFault (some (.first 1))).closed = false := rfl
  obtain ⟨hOk, -, hPasses, -, hPassed, -⟩ := Writer.write_until_full
    (plainWriter 1 (by decide)) [plainRow 1, plainRow 2] .nil hOpen (fun _ h => nomatch h)
    (by decide +kernel)
  have hResult := (hOk { rows := 2, attempts := 2, chunks := 2 }).2
    ⟨1, by decide, by decide +kernel, by decide +kernel, by decide +kernel⟩
  rw [hResult] at hPasses
  refine ⟨hResult, ?_⟩
  rw [hPassed.keys, hPasses]
  decide +kernel

end Collocation
