import Collocation.Proofs.Store.Writes
import Collocation.Writer

/-!
# Passes over flat rows

A pass writes the rows one after the other, however they are cut into chunks. Passes follow each
other up to the first one in which every row is accepted. So the store after a writing is the store
after so many times the rows, and what a fault does in a pass depends on the rows before only.
-/

set_option autoImplicit false

namespace Collocation

namespace Tally

/-- Tallies may be added in any grouping. -/
theorem add_assoc (a b c : Tally) : (a.add b).add c = a.add (b.add c) := by
  simp [add, Nat.add_assoc]

/-- A tally of nothing adds nothing in front of another one. -/
@[simp] theorem zero_add (a : Tally) : zero.add a = a := by
  simp [add, zero]

/-- A tally of nothing adds nothing behind another one. -/
@[simp] theorem add_zero (a : Tally) : a.add zero = a := by
  simp [add, zero]

end Tally

namespace Writer

variable (writer : Writer)

/-! ## Chunks -/

/-- Rows are written before those behind them. -/
theorem writeRows_append (rows others : List Row) (store : Store) :
    writer.writeRows (rows ++ others) store =
      ((writer.writeRows rows store).1.add
        (writer.writeRows others (writer.writeRows rows store).2).1,
       (writer.writeRows others (writer.writeRows rows store).2).2) := by
  induction rows generalizing store with
  | nil => simp [writeRows]
  | cons row rows ih => simp only [List.cons_append, writeRows, ih, Tally.add_assoc]

/-- Chunks are written as their rows are, one after the other. -/
theorem writeChunks_eq (chunks : List (List Row)) (store : Store) :
    (writer.writeChunks chunks store).1.tally = (writer.writeRows chunks.flatten store).1 ∧
      (writer.writeChunks chunks store).2 = (writer.writeRows chunks.flatten store).2 := by
  induction chunks generalizing store with
  | nil => exact ⟨rfl, rfl⟩
  | cons chunk chunks ih =>
    obtain ⟨hTally, hStore⟩ := ih (writer.writeRows chunk store).2
    rw [List.flatten_cons, writeRows_append, ← hTally, ← hStore]
    exact ⟨rfl, rfl⟩

/-- A pass writes the rows one after the other. -/
theorem writePass_eq (rows : List Row) (store : Store) :
    (writer.writePass rows store).1.tally = (writer.writeRows rows store).1 ∧
      (writer.writePass rows store).2 = (writer.writeRows rows store).2 := by
  have hChunks := writer.writeChunks_eq (chunks writer.config.chunkSize.toNat rows) store
  rwa [flatten_chunks] at hChunks

/-! ## Any store -/

/-- A row is written or given up, and a row that is given up leaves the store as it is. -/
theorem writeRow_keeps {P : Store → Prop} {row : Row}
    (h : ∀ store, P store → P (store.insert row).2) {store : Store} (hStore : P store) :
    P (writer.writeRow store row).2 := by
  unfold writeRow
  cases writer.timesOut store with
  | some limit => exact hStore
  | none => exact h store hStore

section Keeps

variable {P : Store → Prop} {rows : List Row}
  (h : ∀ row ∈ rows, ∀ store, P store → P (store.insert row).2)
include h

/-- What the write of each row keeps is kept when they are written one after the other. -/
theorem writeRows_keeps {store : Store} (hStore : P store) :
    P (writer.writeRows rows store).2 := by
  induction rows generalizing store with
  | nil => exact hStore
  | cons row rows ih =>
    obtain ⟨hRow, hRows⟩ := List.forall_mem_cons.1 h
    exact ih hRows (writer.writeRow_keeps hRow hStore)

/-- What a pass keeps of the store is kept in all passes. -/
theorem writePasses_keeps {store : Store} (hStore : P store) (attempts : Nat) :
    P (writer.writePasses rows attempts store).store := by
  induction attempts generalizing store with
  | zero => exact hStore
  | succ attempts ih =>
    have hPass : P (writer.writePass rows store).2 := by
      rw [(writer.writePass_eq rows store).2]
      exact writer.writeRows_keeps h hStore
    simp only [writePasses]
    split
    · exact hPass
    · exact ih hPass

end Keeps

/-- Whatever a store does, every row is written or fails. -/
theorem tally_writeRows (rows : List Row) (store : Store) :
    (writer.writeRows rows store).1.written + (writer.writeRows rows store).1.failed =
      rows.length := by
  induction rows generalizing store with
  | nil => rfl
  | cons row rows ih =>
    have hRow : ∀ result : Except Failure Unit,
        (Tally.ofWrite result).written + (Tally.ofWrite result).failed = 1 := by
      intro result
      cases result <;> rfl
    have hFirst := hRow (writer.writeRow store row).1
    have hRest := ih (writer.writeRow store row).2
    simp only [writeRows, Tally.add, List.length_cons]
    omega

/-- In every pass each row is written or fails. -/
theorem tally_of_mem_passes {rows : List Row} {attempts : Nat} {store : Store} {pass : Pass}
    (h : pass ∈ (writer.writePasses rows attempts store).passes) :
    pass.tally.written + pass.tally.failed = rows.length := by
  induction attempts generalizing store with
  | zero => cases h
  | succ attempts ih =>
    have hFirst : (writer.writePass rows store).1.tally.written +
        (writer.writePass rows store).1.tally.failed = rows.length := by
      rw [(writer.writePass_eq rows store).1]
      exact writer.tally_writeRows rows store
    simp only [writePasses] at h
    split at h
    · obtain rfl := List.mem_singleton.1 h
      exact hFirst
    · rcases List.mem_cons.1 h with rfl | hMore
      · exact hFirst
      · exact ih hMore

/-- All passes fail but the one that succeeds, if any. -/
theorem countP_failed (rows : List Row) (attempts : Nat) (store : Store) :
    (writer.writePasses rows attempts store).passes.countP (fun pass => !pass.succeeded) +
      (writer.writePasses rows attempts store).succeeded.toNat =
        (writer.writePasses rows attempts store).passes.length := by
  induction attempts generalizing store with
  | zero => rfl
  | succ attempts ih =>
    have hMore := ih (writer.writePass rows store).2
    simp only [writePasses, Writing.succeeded] at hMore ⊢
    cases hPass : (writer.writePass rows store).1.succeeded with
    | true => simp [hPass]
    | false =>
      simp only [Bool.false_eq_true, if_false, List.countP_cons, List.any_cons, List.length_cons,
        hPass, Bool.not_false, if_true, Bool.false_or]
      omega

/-- A usable writer has an attempt. -/
theorem exists_maxAttempts : ∃ more, writer.config.maxAttempts.toNat = more + 1 :=
  Nat.exists_eq_succ_of_ne_zero fun hZero => writer.usable.2 (UInt32.toNat_inj.1 hZero)

/-- With an attempt there is a pass. -/
theorem passes_ne_nil (rows : List Row) {attempts : Nat} (h : attempts ≠ 0) (store : Store) :
    (writer.writePasses rows attempts store).passes ≠ [] := by
  obtain ⟨more, rfl⟩ := Nat.exists_eq_succ_of_ne_zero h
  simp only [writePasses]
  split <;> exact List.cons_ne_nil _ _

/-- There is one pass at least. -/
theorem length_passes_pos (rows : List FlatRow) (store : Store) :
    0 < (writer.write rows store).passes.length := by
  obtain ⟨more, hMore⟩ := writer.exists_maxAttempts
  have hSome : writer.config.maxAttempts.toNat ≠ 0 := by
    rw [hMore]
    exact Nat.succ_ne_zero more
  exact List.length_pos_iff.2 (writer.passes_ne_nil _ hSome store)

/-! ## One pass -/

/-- A writer never waits too long for a store. -/
def Patient (store : Store) : Prop :=
  writer.timesOut store = none

/-- Every writer is patient with a store without a delay. -/
theorem patient_of_no_delay {store : Store} (h : store.writeDelay = 0) : writer.Patient store := by
  rw [Patient, timesOut, h, Option.filter_eq_none_iff]
  intro limit _
  simp [waitTime]

variable {writer}

/-- A patient writer writes a single row as the store does. -/
theorem writeRow_alone {store : Store} (hPatient : writer.Patient store) (row : Row) :
    writer.writeRows [row] store =
      (Tally.ofWrite (store.insert row).1, (store.insert row).2) := by
  rw [Patient] at hPatient
  simp only [writeRows, writeRow, hPatient, Tally.add_zero]

/-- What a patient writer does in a pass over flat rows to an open store. -/
theorem writeRows_toRow {store : Store} (hOpen : store.closed = false)
    (hPatient : writer.Patient store) (rows : List FlatRow) :
    writer.writeRows (rows.map FlatRow.toRow) store =
      (⟨(WriteFault.accepted store.fault [] rows).length,
        rows.length - (WriteFault.accepted store.fault [] rows).length⟩,
       store.insertAll (rows.map FlatRow.toRow)) := by
  induction rows using List.reverseRecOn with
  | nil => rfl
  | append_singleton rows row ih =>
    have hLe := WriteFault.length_accepted_le store.fault [] rows
    have hAfter := Store.insertAll_toRow hOpen rows
    have hPatient' : writer.Patient (store.insertAll (rows.map FlatRow.toRow)) := by
      rw [hAfter]
      exact hPatient
    have hOpen' : (store.insertAll (rows.map FlatRow.toRow)).closed = false := by
      rw [hAfter]
      exact hOpen
    have hAccepts : WriteFault.accepts (store.insertAll (rows.map FlatRow.toRow)).fault []
        row.toRow = WriteFault.accepts store.fault (rows.map FlatRow.toRow) row.toRow := by
      simp only [hAfter, WriteFault.accepts_askAll, List.append_nil]
    rw [List.map_append, List.map_singleton, writeRows_append, ih, writeRow_alone hPatient',
      Store.insert_toRow_fst hOpen', hAccepts, WriteFault.accepted_concat, Store.insertAll_append,
      List.nil_append, List.length_append, List.length_append, List.length_singleton]
    refine Prod.ext ?_ rfl
    by_cases h : WriteFault.accepts store.fault (rows.map FlatRow.toRow) row.toRow
    · simp only [h, if_true, Tally.ofWrite, Tally.add, List.length_singleton, Tally.mk.injEq,
        true_and]
      omega
    · simp only [h, Bool.false_eq_true, if_false, Tally.ofWrite, Tally.add, List.length_nil,
        Tally.mk.injEq, true_and]
      omega

end Writer

/-! ## Passes of a fault -/

namespace WriteFault

variable (fault : Option WriteFault) (rows : List FlatRow)

/-- What a fault was asked in so many passes over the rows. -/
def askedIn (passes : Nat) : List Row :=
  (List.replicate passes rows).flatten.map FlatRow.toRow

/-- Whether the row of a number is accepted in a pass. Passes are counted from zero. -/
def acceptsIn (pass number : Nat) : Bool :=
  rows[number]?.any fun row =>
    accepts fault (askedIn rows pass ++ (rows.take number).map FlatRow.toRow) row.toRow

/-- Whether all rows are accepted in a pass. -/
def fullIn (pass : Nat) : Bool :=
  (List.range rows.length).all fun number => acceptsIn fault rows pass number

/-- How many rows are accepted in a pass, and how many are not. -/
def tallyIn (pass : Nat) : Tally :=
  ⟨(accepted fault (askedIn rows pass) rows).length,
    rows.length - (accepted fault (askedIn rows pass) rows).length⟩

/-- The first pass in which all rows are accepted, if it is among the attempts. -/
def fullPass? (attempts : Nat) : Option Nat :=
  (List.range attempts).find? fun pass => fullIn fault rows pass

/-- How many passes there are in so many attempts. -/
def passCount (attempts : Nat) : Nat :=
  match fullPass? fault rows attempts with
  | some pass => pass + 1
  | none => attempts

/-- What was asked in one pass more begins with the rows once. -/
theorem askedIn_succ (passes : Nat) :
    askedIn rows (passes + 1) = rows.map FlatRow.toRow ++ askedIn rows passes := by
  rw [askedIn, List.replicate_succ, List.flatten_cons, List.map_append]
  rfl

/-- The rows that are accepted in a pass, by their numbers. -/
theorem accepted_askedIn (pass : Nat) :
    accepted fault (askedIn rows pass) rows =
      (rows.zipIdx.filter fun row => acceptsIn fault rows pass row.2).map (·.1) := by
  refine congrArg (List.map Prod.fst) (List.filter_congr fun row hMem => ?_)
  rw [acceptsIn, List.mem_zipIdx_iff_getElem?.1 hMem]
  rfl

/-- In a full pass no row is left out. -/
theorem fullIn_iff (pass : Nat) :
    fullIn fault rows pass ↔ (tallyIn fault rows pass).failed = 0 := by
  rw [tallyIn]
  have hLe := length_accepted_le fault (askedIn rows pass) rows
  have hLength : rows.length - (accepted fault (askedIn rows pass) rows).length = 0 ↔
      (rows.zipIdx.filter fun row => acceptsIn fault rows pass row.2).length =
        rows.zipIdx.length := by
    rw [accepted_askedIn, List.length_map] at hLe ⊢
    rw [List.length_zipIdx]
    omega
  rw [hLength, List.length_filter_eq_length_iff, fullIn, List.all_eq_true]
  constructor
  · exact fun h row hMem => h row.2 (List.mem_range.2 (List.snd_lt_of_mem_zipIdx hMem))
  · intro h number hMem
    have hLt := List.mem_range.1 hMem
    exact h (rows[number], number) (List.mem_zipIdx_iff_getElem?.2 (List.getElem?_eq_getElem hLt))

/-- After a pass, what was the next pass is the first one. -/
theorem acceptsIn_askAll (pass number : Nat) :
    acceptsIn (fault.map fun fault => fault.askAll (rows.map FlatRow.toRow)) rows pass number =
      acceptsIn fault rows (pass + 1) number := by
  simp only [acceptsIn, accepts_askAll, askedIn_succ, List.append_assoc]

/-- Behind one pass the passes are full as they were, with one less before them. -/
theorem fullIn_askAll (pass : Nat) :
    fullIn (fault.map fun fault => fault.askAll (rows.map FlatRow.toRow)) rows pass =
      fullIn fault rows (pass + 1) := by
  simp only [fullIn, acceptsIn_askAll]

/-- Behind one pass the tallies are as they were, with one pass less before them. -/
theorem tallyIn_askAll :
    tallyIn (fault.map fun fault => fault.askAll (rows.map FlatRow.toRow)) rows =
      fun pass => tallyIn fault rows (pass + 1) := by
  funext pass
  simp only [tallyIn, accepted_askAll, askedIn_succ]

/-- The first full pass is the first one, or the first one behind it. -/
theorem fullPass?_succ (attempts : Nat) :
    fullPass? fault rows (attempts + 1) =
      if fullIn fault rows 0 then some 0
      else (fullPass? (fault.map fun fault => fault.askAll (rows.map FlatRow.toRow)) rows
        attempts).map (· + 1) := by
  rw [fullPass?, List.range_succ_eq_map, List.find?_cons]
  cases fullIn fault rows 0 with
  | true => rfl
  | false =>
    simp only [List.find?_map, Function.comp_def, fullPass?, fullIn_askAll, Bool.false_eq_true,
      if_false]

/-- So many passes are made as there are up to the first full one. -/
theorem passCount_succ (attempts : Nat) :
    passCount fault rows (attempts + 1) =
      if fullIn fault rows 0 then 1
      else passCount (fault.map fun fault => fault.askAll (rows.map FlatRow.toRow)) rows
        attempts + 1 := by
  rw [passCount, fullPass?_succ, passCount]
  by_cases h : fullIn fault rows 0
  · simp only [h, if_true]
  · simp only [h, Bool.false_eq_true, if_false]
    cases fullPass? (fault.map fun fault => fault.askAll (rows.map FlatRow.toRow)) rows attempts <;>
      rfl

/-- With an attempt at least one pass is made. -/
theorem passCount_pos {attempts : Nat} (h : 0 < attempts) : 0 < passCount fault rows attempts := by
  rw [passCount]
  split
  · exact Nat.succ_pos _
  · exact h

/-- The first full pass is one that is made. -/
theorem lt_passCount {attempts pass : Nat} (h : fullPass? fault rows attempts = some pass) :
    pass < passCount fault rows attempts := by
  rw [passCount, h]
  exact Nat.lt_succ_self pass

/-! ## Landing -/

/-- The pass in which the row of a number is accepted first, if it is in so many passes. -/
def landing? (passes number : Nat) : Option Nat :=
  (List.range passes).find? fun pass => acceptsIn fault rows pass number

/-- The rows that are accepted in so many passes, in the order in which they first are. -/
def landed (passes : Nat) : List FlatRow :=
  (inRounds (fun row => landing? fault rows passes row.2) passes rows.zipIdx).map (·.1)

/-- A row lands in a pass that is made. -/
theorem landing?_lt {passes number pass : Nat}
    (h : landing? fault rows passes number = some pass) : pass < passes :=
  List.mem_range.1 (List.mem_of_find?_eq_some h)

/-- If there is a full pass, every row lands. -/
theorem landing?_isSome_of_full {passes pass number : Nat} (hPass : pass < passes)
    (hFull : fullIn fault rows pass) (hNumber : number < rows.length) :
    (landing? fault rows passes number).isSome := by
  rw [fullIn, List.all_eq_true] at hFull
  exact List.find?_isSome.2
    ⟨pass, List.mem_range.2 hPass, hFull number (List.mem_range.2 hNumber)⟩

/-- A row that the first pass accepts lands there. -/
theorem landing?_of_first {passes number : Nat} (hPasses : 0 < passes)
    (h : acceptsIn fault rows 0 number) : landing? fault rows passes number = some 0 := by
  obtain ⟨more, rfl⟩ := Nat.exists_eq_add_of_lt hPasses
  rw [landing?, List.range_succ_eq_map, List.find?_cons, h]

/-- If the first pass is full, the rows land in their order. -/
theorem landed_of_first {passes : Nat} (hPasses : 0 < passes) (h : fullIn fault rows 0) :
    landed fault rows passes = rows := by
  have hFirst : ∀ row ∈ rows.zipIdx, landing? fault rows passes row.2 = some 0 := by
    intro row hRow
    refine landing?_of_first fault rows hPasses ?_
    rw [fullIn, List.all_eq_true] at h
    exact h row.2 (List.mem_range.2 (List.snd_lt_of_mem_zipIdx hRow))
  rw [landed, inRounds_of_first hPasses hFirst, List.zipIdx_map_fst]

/-- If the first pass is full, there is a full pass. -/
theorem fullPass?_of_first {attempts : Nat} (hAttempts : 0 < attempts) (h : fullIn fault rows 0) :
    (fullPass? fault rows attempts).isSome :=
  List.find?_isSome.2 ⟨0, List.mem_range.2 hAttempts, h⟩

/-- Without a fault every pass is full. -/
theorem fullIn_none (pass : Nat) : fullIn none rows pass := by
  rw [fullIn, List.all_eq_true]
  intro number hNumber
  rw [acceptsIn, List.getElem?_eq_getElem (List.mem_range.1 hNumber)]
  rfl

/-- Without a fault all rows are accepted. -/
theorem accepted_none (before : List Row) : accepted none before rows = rows := by
  simp [accepted, accepts]

/-- What is accepted in some passes is accepted in each of them. -/
theorem accepted_rounds (passes : Nat) :
    accepted fault [] (List.replicate passes rows).flatten =
      (List.range passes).flatMap fun pass => accepted fault (askedIn rows pass) rows := by
  induction passes with
  | zero => rfl
  | succ passes ih =>
    rw [List.replicate_succ', List.flatten_append, List.flatten_singleton, accepted_append, ih,
      List.range_succ, List.flatMap_append, List.flatMap_singleton]
    rfl

/-- The rows with their numbers, as often and in the order as they are accepted. -/
def acceptances (passes : Nat) : List (FlatRow × Nat) :=
  (List.range passes).flatMap fun pass =>
    rows.zipIdx.filter fun row => acceptsIn fault rows pass row.2

/-- The rows that were accepted are those of the acceptances, in their order. -/
theorem accepted_eq_acceptances (passes : Nat) :
    accepted fault [] (List.replicate passes rows).flatten =
      (acceptances fault rows passes).map (·.1) := by
  simp only [accepted_rounds, accepted_askedIn, acceptances, List.map_flatMap]

/-- A row is among the acceptances just if some pass accepted it. -/
theorem mem_acceptances {passes : Nat} {row : FlatRow × Nat} :
    row ∈ acceptances fault rows passes ↔
      rows[row.2]? = some row.1 ∧ ∃ pass < passes, acceptsIn fault rows pass row.2 := by
  simp only [acceptances, List.mem_flatMap, List.mem_range, List.mem_filter,
    List.mem_zipIdx_iff_getElem?]
  constructor
  · rintro ⟨pass, hPass, hRow, hAccepts⟩
    exact ⟨hRow, pass, hPass, hAccepts⟩
  · rintro ⟨hRow, pass, hPass, hAccepts⟩
    exact ⟨pass, hPass, hRow, hAccepts⟩

variable {rows}

/-- Numbered rows have distinct ids if the rows do. -/
theorem nodup_rowIds_zipIdx (hNodup : (rows.map FlatRow.rowId).Nodup) :
    (rows.zipIdx.map fun row => row.1.rowId).Nodup := by
  have hMap : (rows.zipIdx.map fun row => row.1.rowId) = rows.map FlatRow.rowId := by
    rw [← List.zipIdx_map_fst 0 rows, List.map_map, List.zipIdx_map_fst]
    rfl
  rwa [hMap]

/-- With no id twice, the id of an accepted row tells the row and its number. -/
theorem acceptances_inj (hNodup : (rows.map FlatRow.rowId).Nodup) {passes : Nat}
    {row other : FlatRow × Nat} (hRow : row ∈ acceptances fault rows passes)
    (hOther : other ∈ acceptances fault rows passes) (hId : row.1.rowId = other.1.rowId) :
    row = other := by
  refine List.inj_on_of_nodup_map (nodup_rowIds_zipIdx hNodup) ?_ ?_ hId
  · exact List.mem_zipIdx_iff_getElem?.2 ((mem_acceptances fault rows).1 hRow).1
  · exact List.mem_zipIdx_iff_getElem?.2 ((mem_acceptances fault rows).1 hOther).1

/-- With no id twice, what tells rows by their ids first comes in the order in which they land. -/
theorem eraseDups_map_acceptances {κ : Type} [DecidableEq κ]
    (hNodup : (rows.map FlatRow.rowId).Nodup) (passes : Nat) {key : FlatRow × Nat → κ}
    (hKey : ∀ row other, key row = key other → row.1.rowId = other.1.rowId) :
    ((acceptances fault rows passes).map key).eraseDups =
      (inRounds (fun row => landing? fault rows passes row.2) passes rows.zipIdx).map key := by
  rw [eraseDups_map_of_injOn fun row hRow other hOther hSame =>
    acceptances_inj fault hNodup hRow hOther (hKey row other hSame),
    acceptances, eraseDups_rounds ((nodup_rowIds_zipIdx hNodup).of_map _)]
  rfl

/-- The ids of the accepted rows first come in the order in which the rows land. -/
theorem eraseDups_rowIds_acceptances (hNodup : (rows.map FlatRow.rowId).Nodup) (passes : Nat) :
    ((acceptances fault rows passes).map fun row => row.1.rowId).eraseDups =
      (landed fault rows passes).map FlatRow.rowId := by
  rw [eraseDups_map_acceptances fault hNodup passes fun row other hSame => hSame, landed,
    List.map_map]
  rfl

/-- The accepted rows without duplicates are those that landed. -/
theorem eraseDups_accepted (hNodup : (rows.map FlatRow.rowId).Nodup) (passes : Nat) :
    (accepted fault [] (List.replicate passes rows).flatten).eraseDups =
      landed fault rows passes := by
  rw [accepted_eq_acceptances, eraseDups_map_acceptances fault hNodup passes
    fun row other hSame => congrArg FlatRow.rowId hSame, landed]

end WriteFault

/-- New rows with distinct ids come behind what was stored, in the order in which they land. -/
theorem Store.entries_insertAll_rounds {store : Store} (hOpen : store.closed = false)
    {rows : List FlatRow} (hNodup : (rows.map FlatRow.rowId).Nodup)
    (hFresh : ∀ row ∈ rows, row.rowId ∉ store.data.keys) (passes : Nat) :
    (store.insertAll (WriteFault.askedIn rows passes)).data.entries =
      store.data.entries ++ (WriteFault.landed store.fault rows passes).map fun row =>
        (row.rowId, row.toRow) := by
  have hKeys : ∀ row ∈ WriteFault.acceptances store.fault rows passes,
      row.1.rowId ∉ store.data.keys := by
    intro row hRow
    exact hFresh row.1 (List.mem_of_getElem? ((WriteFault.mem_acceptances _ _).1 hRow).1)
  rw [WriteFault.askedIn, Store.insertAll_toRow hOpen, WriteFault.accepted_eq_acceptances,
    Ledger.putAll_map, Ledger.entries_putAll_of_fresh _ _ hKeys, Ledger.entries_ofItems_of_injOn,
    WriteFault.acceptances, eraseDups_rounds ((WriteFault.nodup_rowIds_zipIdx hNodup).of_map _)]
  · rw [WriteFault.landed, List.map_map]
    rfl
  · intro row hRow other hOther hId
    exact WriteFault.acceptances_inj _ hNodup hRow hOther hId

namespace Writer

variable {writer : Writer}

open WriteFault

/-- What a patient writer does with flat rows and an open store: passes up to the first full one, or
all that are allowed. -/
theorem writePasses_toRow {store : Store} (hOpen : store.closed = false)
    (hPatient : writer.Patient store) (rows : List FlatRow) (attempts : Nat) :
    (writer.writePasses (rows.map FlatRow.toRow) attempts store).store =
        store.insertAll (askedIn rows (passCount store.fault rows attempts)) ∧
      (writer.writePasses (rows.map FlatRow.toRow) attempts store).passes.map Pass.tally =
        (List.range (passCount store.fault rows attempts)).map (tallyIn store.fault rows) ∧
      (writer.writePasses (rows.map FlatRow.toRow) attempts store).succeeded =
        (fullPass? store.fault rows attempts).isSome := by
  induction attempts generalizing store with
  | zero => exact ⟨rfl, rfl, rfl⟩
  | succ attempts ih =>
    have hAfter := Store.insertAll_toRow hOpen rows
    have hFault : (store.insertAll (rows.map FlatRow.toRow)).fault =
        store.fault.map fun fault => fault.askAll (rows.map FlatRow.toRow) := by
      rw [hAfter]
    have hPatient' : writer.Patient (store.insertAll (rows.map FlatRow.toRow)) := by
      rw [hAfter]
      exact hPatient
    have hOpen' : (store.insertAll (rows.map FlatRow.toRow)).closed = false := by
      rw [hAfter]
      exact hOpen
    -- What follows the first pass is a run with one attempt less, on the store as the pass left it.
    obtain ⟨hStore, hTallies, hSucceeded⟩ := ih hOpen' hPatient'
    obtain ⟨hTally, hPassStore⟩ := writer.writePass_eq (rows.map FlatRow.toRow) store
    rw [writeRows_toRow hOpen hPatient] at hTally hPassStore
    change _ = tallyIn store.fault rows 0 at hTally
    have hFull : (writer.writePass (rows.map FlatRow.toRow) store).1.succeeded =
        fullIn store.fault rows 0 := by
      rw [Bool.eq_iff_iff, fullIn_iff, Pass.succeeded, decide_eq_true_eq, hTally]
    rw [hFault] at hStore hTallies hSucceeded
    rw [passCount_succ, fullPass?_succ]
    by_cases h : fullIn store.fault rows 0
    · have hPasses : writer.writePasses (rows.map FlatRow.toRow) (attempts + 1) store =
          ⟨[(writer.writePass (rows.map FlatRow.toRow) store).1],
            (writer.writePass (rows.map FlatRow.toRow) store).2⟩ := by
        simp only [writePasses, hFull, h, if_true]
      rw [hPasses, hPassStore]
      simp [h, hTally, askedIn, Writing.succeeded, hFull]
    · have hPasses : writer.writePasses (rows.map FlatRow.toRow) (attempts + 1) store =
          ⟨(writer.writePass (rows.map FlatRow.toRow) store).1 ::
              (writer.writePasses (rows.map FlatRow.toRow) attempts
                (store.insertAll (rows.map FlatRow.toRow))).passes,
            (writer.writePasses (rows.map FlatRow.toRow) attempts
              (store.insertAll (rows.map FlatRow.toRow))).store⟩ := by
        simp only [writePasses, hFull, h, hPassStore, Bool.false_eq_true, if_false]
      rw [hPasses]
      refine ⟨?_, ?_, ?_⟩
      · simp only [h, Bool.false_eq_true, if_false, hStore, askedIn_succ, Store.insertAll_append]
      · simp only [h, Bool.false_eq_true, if_false, List.map_cons, hTally, hTallies,
          List.range_succ_eq_map, List.map_map, Function.comp_def, tallyIn_askAll]
      · simp only [h, Bool.false_eq_true, if_false, Option.isSome_map, ← hSucceeded,
          Writing.succeeded, List.any_cons, hFull, Bool.false_or]

/-! ## Without faults and waits -/

/-- The write of a row does not change the delay. -/
theorem writeDelay_writeRow (store : Store) (row : Row) :
    (writer.writeRow store row).2.writeDelay = store.writeDelay := by
  apply writer.writeRow_keeps (P := fun after => after.writeDelay = store.writeDelay)
  · intro after hAfter
    rw [after.writeDelay_insert, hAfter]
  · rfl

/-- The writing of rows does not change the delay. -/
theorem writeDelay_writeRows (rows : List Row) (store : Store) :
    (writer.writeRows rows store).2.writeDelay = store.writeDelay := by
  apply writer.writeRows_keeps (P := fun after => after.writeDelay = store.writeDelay)
  · intro row _ after hAfter
    rw [after.writeDelay_insert, hAfter]
  · rfl

/-- How long a chunk takes depends on how long a write takes, and on nothing else in the store. -/
theorem chunkTime_congr {store other : Store} (h : other.writeDelay = store.writeDelay) :
    writer.chunkTime other = writer.chunkTime store := by
  rw [chunkTime, chunkTime, timesOut, timesOut, h]

/-- Chunks that follow each other take so many times as long as one. -/
theorem elapsed_writeChunks (chunks : List (List Row)) (store : Store) :
    (writer.writeChunks chunks store).1.elapsed = chunks.length * writer.chunkTime store := by
  induction chunks generalizing store with
  | nil => exact (Nat.zero_mul _).symm
  | cons chunk chunks ih =>
    have hDelay : (writer.writeChunk chunk store).2.writeDelay = store.writeDelay :=
      writer.writeDelay_writeRows chunk store
    have hElapsed := ih (writer.writeChunk chunk store).2
    rw [writer.chunkTime_congr hDelay] at hElapsed
    rw [List.length_cons, Nat.succ_mul, Nat.add_comm, ← hElapsed]
    rfl

/-- Without a fault one pass is enough, and how long it takes depends on the writer only. -/
theorem passes_of_faultless {store : Store} (hOpen : store.closed = false)
    (hFault : store.fault = none) (hDelay : store.writeDelay = 0) (rows : List FlatRow) :
    (writer.write rows store).passes =
      [⟨⟨rows.length, 0⟩,
        (chunks writer.config.chunkSize.toNat (rows.map FlatRow.toRow)).length *
          writer.chunkTime .empty⟩] := by
  have hPatient := writer.patient_of_no_delay hDelay
  have hTally : (writer.writePass (rows.map FlatRow.toRow) store).1.tally = ⟨rows.length, 0⟩ := by
    rw [(writer.writePass_eq _ store).1, writeRows_toRow hOpen hPatient, hFault, accepted_none,
      Nat.sub_self]
  have hElapsed := writer.elapsed_writeChunks
    (chunks writer.config.chunkSize.toNat (rows.map FlatRow.toRow)) store
  rw [writer.chunkTime_congr (show store.writeDelay = Store.empty.writeDelay from hDelay)]
    at hElapsed
  have hPass : (writer.writePass (rows.map FlatRow.toRow) store).1 = ⟨⟨rows.length, 0⟩,
      (chunks writer.config.chunkSize.toNat (rows.map FlatRow.toRow)).length *
        writer.chunkTime .empty⟩ := by
    rw [← hTally, ← hElapsed]
    rfl
  obtain ⟨more, hMore⟩ := writer.exists_maxAttempts
  rw [write, hMore, writePasses]
  simp only [Pass.succeeded, decide_true, if_true, hPass]

end Writer

/-! ## A small writer -/

/-- The row of a point at the top of which nothing was measured. -/
def plainRow (number : Nat) : FlatRow :=
  .ofObservation .nil (.ofNat number) none
    { id := "a", longitude := .zero, latitude := .zero, source := "survey", time := .epoch }

/-- A writer that has two passes, and writes so many rows at the same time. -/
def plainWriter (chunkSize : UInt64) (h : chunkSize ≠ 0) : Writer :=
  ⟨{ chunkSize, maxAttempts := 2 }, h, (by decide : (2 : UInt32) ≠ 0)⟩

end Collocation
