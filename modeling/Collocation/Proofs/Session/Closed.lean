import Collocation.Proofs.Archive.Parameters
import Collocation.Proofs.Session.Handles
import Collocation.Proofs.Writer.Durations

/-!
# Closed stores

A closed store refuses everything before it looks at anything, so that nothing of it changes any
more and nothing is counted. Only a writing of no rows succeeds, as it asks the store for nothing.
A submission to an open store writes its three records before any row, and none of them can fail;
so it fails with its rows only, and a submission that fails leaves all of its records or none.
-/

set_option autoImplicit false

namespace Collocation

/-! ## Refusals -/

namespace Store

section Closed

variable {store : Store} (hClosed : store.closed = true)
include hClosed

/-- A closed store refuses to write a data row. -/
theorem insert_of_closed (row : Row) : store.insert row = (.error refusal, store) :=
  if_pos hClosed

/-- A closed store refuses to write a record. -/
theorem putRecord_of_closed (table : Table) (row : Row) :
    store.putRecord table row = (.error refusal, store) :=
  if_pos hClosed

/-- A closed store refuses to read a record. -/
theorem getRecord_of_closed (table : Table) (key : Uuid) :
    store.getRecord table key = .error refusal :=
  if_pos hClosed

/-- A closed store refuses to list data rows. -/
theorem select_of_closed (executionId : Uuid) (topLevel : Bool) :
    store.select executionId topLevel = .error refusal :=
  if_pos hClosed

/-- A closed store refuses a session. -/
theorem acquire_of_closed : store.acquire = .error refusal :=
  if_pos hClosed

/-- A closed store refuses a record that is required. -/
theorem requireRecord_of_closed (table : Table) (executionId : Uuid) :
    store.requireRecord table executionId = .error refusal := by
  rw [requireRecord, getRecord_of_closed hClosed]
  rfl

/-- A closed store refuses to tell of an execution. -/
theorem execution_of_closed (executionId : Uuid) :
    store.execution executionId = .error refusal := by
  rw [execution, requireRecord_of_closed hClosed]
  rfl

/-- A closed store refuses to assemble points. -/
theorem assemble_of_closed (depth : NestingDepth) (executionId : Uuid) (trim : Bool) :
    store.assemble depth executionId trim = .error refusal := by
  rw [assemble, select_of_closed hClosed]
  rfl

/-- A closed store refuses to give results. -/
theorem retrieve_of_closed (depth : NestingDepth) (executionId : Uuid) (trim : Bool) :
    store.retrieve depth executionId trim = .error refusal := by
  rw [retrieve, requireRecord_of_closed hClosed]
  rfl

/-- Every write of a row fails, be it that it takes too long or that it comes to the store. -/
theorem refused_of_closed (writer : Writer) : writer.Refused store := by
  intro row
  unfold Writer.writeRow
  cases writer.timesOut store with
  | some limit => exact ⟨.timedOut limit.toNat, rfl⟩
  | none => exact ⟨refusal, insert_of_closed hClosed row⟩

end Closed

/-! ## What stays -/

/-- A store is closed, and has the rows and the counts of writes of another one. -/
structure Froze (before after : Store) : Prop where
  closed : after.closed = true
  records : after.records = before.records
  data : after.data = before.data
  dataWrites : after.dataWrites = before.dataWrites
  rejectedWrites : after.rejectedWrites = before.rejectedWrites

variable {before after : Store}

/-- A store that is closed keeps its rows and its counts. -/
theorem froze_close (store : Store) : store.Froze store.close :=
  ⟨rfl, rfl, rfl, rfl, rfl⟩

/-- No operation changes it. -/
theorem Froze.perform (h : before.Froze after) (operation : Operation) :
    before.Froze (operation.perform after).2 := by
  cases operation with
  | put table row =>
    rw [Operation.perform, putRecord_of_closed h.closed]
    exact h
  | insert row =>
    rw [Operation.perform, insert_of_closed h.closed]
    exact h
  | get table key => exact h
  | select executionId topLevel => exact h
  | acquire =>
    rw [Operation.perform, acquire_of_closed h.closed]
    exact h
  | setFault fault => exact ⟨h.closed, h.records, h.data, h.dataWrites, h.rejectedWrites⟩
  | setWriteDelay millis => exact ⟨h.closed, h.records, h.data, h.dataWrites, h.rejectedWrites⟩
  | release => exact ⟨h.closed, h.records, h.data, h.dataWrites, h.rejectedWrites⟩
  | close => exact ⟨rfl, h.records, h.data, h.dataWrites, h.rejectedWrites⟩

end Store

namespace Session

variable {session : Session} {before : Store}

/-- No request changes it that stays with the store. -/
theorem froze_answer (h : before.Froze session.archive.store) {request : Request}
    (hStay : request.switches = false) :
    before.Froze (session.answer request).2.archive.store := by
  cases hOther : request.isAboutHandles with
  | false =>
    exact (session.goesOn_answer hStay hOther).store.keeps h
      fun operation _ _ hStore => hStore.perform operation
  | true =>
    cases request with
    | acquire handle =>
      rw [answer, acquire_of_closed h.closed]
      exact h
    | release handle =>
      rw [answer, release]
      split
      · exact h.perform .release
      · exact h
    | _ => cases hOther

/-- No requests change a closed store that stay with it. -/
theorem froze_answerAll (h : before.Froze session.archive.store) {requests : List Request}
    (hStay : ∀ request ∈ requests, request.switches = false) :
    before.Froze (session.answerAll requests).archive.store := by
  induction requests using List.reverseRecOn with
  | nil => exact h
  | append_singleton requests request ih =>
    rw [List.forall_mem_append, List.forall_mem_singleton] at hStay
    rw [answerAll_concat]
    exact froze_answer (ih hStay.1) hStay.2

end Session

/-! ## Archives with a closed store -/

namespace Archive

/-- Everything that is asked of an archive is refused, but for writing no rows. -/
structure Refuses (archive : Archive) : Prop where
  acquire : archive.store.acquire = .error Store.refusal
  putRecord (table : Table) (row : Row) : (archive.putRecord table row).1 = .error Store.refusal
  getRecord (table : Table) (key : Uuid) : archive.store.getRecord table key = .error Store.refusal
  insert (row : Row) : (archive.insert row).1 = .error Store.refusal
  select (executionId : Uuid) (topLevel : Bool) :
    archive.store.select executionId topLevel = .error Store.refusal
  submit (submission : Submission) : (archive.submit submission).1 = .error Store.refusal
  retrieve (executionId : Uuid) (trim : Bool) :
    archive.retrieve executionId trim = .error Store.refusal
  assemble (depth : NestingDepth) (executionId : Uuid) (trim : Bool) :
    archive.store.assemble depth executionId trim = .error Store.refusal
  execution (executionId : Uuid) : archive.store.execution executionId = .error Store.refusal
  /-- All attempts are made to write rows. -/
  write (executionId : Uuid) {rows : List FlatRow} (hRows : rows ≠ []) (metered : Bool) :
    (archive.writer.write rows archive.store).passes.length = archive.attempts ∧
      (archive.write executionId rows metered).1 =
        .error (.writeFailed executionId rows.length archive.attempts)
  write_nil (executionId : Uuid) (metered : Bool) :
    (archive.write executionId [] metered).1 = .ok ⟨0, 1, 0⟩

variable (archive : Archive)

/-- A submission to a closed store fails with its first record. -/
theorem submit_of_closed (hClosed : archive.store.closed = true) (submission : Submission) :
    (archive.submit submission).1 = .error Store.refusal ∧
      (archive.submit submission).2.store = archive.store := by
  have hRecords : archive.store.putRecords
      (submission.records (submission.chooseId archive.supply).1) =
        (.error Store.refusal, archive.store) := by
    rw [Submission.records, Store.putRecords, Store.putRecord_of_closed hClosed]
  unfold submit
  simp only [hRecords, and_self]

/-- An archive of a closed store refuses everything but the writing of no rows. -/
theorem refuses_of_closed (hClosed : archive.store.closed = true) : archive.Refuses where
  acquire := Store.acquire_of_closed hClosed
  putRecord table row := by
    have hAgain : ¬ (archive.store.closed = false ∧ table = .data) := by simp [hClosed]
    rw [putRecord, if_neg hAgain, Store.putRecord_of_closed hClosed]
  getRecord := Store.getRecord_of_closed hClosed
  insert row := by
    rw [insert, Store.insert_of_closed hClosed]
  select := Store.select_of_closed hClosed
  submit submission := (archive.submit_of_closed hClosed submission).1
  retrieve := Store.retrieve_of_closed hClosed archive.depth
  assemble := Store.assemble_of_closed hClosed
  execution := Store.execution_of_closed hClosed
  write executionId rows hRows metered := by
    obtain ⟨hTallies, -, hResult⟩ := Writer.write_of_refused
      (Store.refused_of_closed hClosed archive.writer) hRows executionId
    have hPasses := congrArg List.length hTallies
    rw [List.length_map, List.length_replicate] at hPasses
    exact ⟨hPasses, hResult⟩
  write_nil executionId metered := by
    have hChunks : archive.writer.chunkCount 0 = 0 :=
      (archive.writer.chunkCount_eq 0).trans (zero_ceilDiv _)
    have hWriting := archive.writer.write_nil archive.store
    simp only [write, hWriting, Writing.result, List.length_nil, hChunks]
    rfl

/-- A submission to an open store fails with its rows only, and then its records are there. -/
theorem submit_fails_of_open (hOpen : archive.store.closed = false) {submission : Submission}
    {failure : Failure} (h : (archive.submit submission).1 = .error failure) :
    failure = .writeFailed (submission.id archive.supply) (submission.rows archive.supply).length
        archive.attempts ∧
      ∀ record ∈ submission.records (submission.id archive.supply),
        (archive.submit submission).2.store.records.get?
          (record.1, submission.id archive.supply) = some record.2 := by
  obtain ⟨hResult, -⟩ := archive.submit_of_open submission hOpen
  obtain ⟨-, hRecords⟩ := archive.records_submit submission hOpen
  obtain ⟨hParams, hStats⟩ := archive.store.get?_withRecords submission
    (submission.id archive.supply) (submission.id archive.supply)
  have hExecution := archive.store.get?_withRecords_executions submission
    (submission.id archive.supply) (submission.id archive.supply)
  rw [if_pos rfl] at hParams hStats hExecution
  constructor
  · rw [hResult, Writing.result] at h
    split at h
    · cases h
    · cases h
      rfl
  · rw [hRecords, Submission.records, List.forall_mem_cons, List.forall_mem_cons,
      List.forall_mem_singleton]
    exact ⟨hExecution, hParams, hStats⟩

end Archive

/-! ## Requests to a closed store -/

/-- Whether a request asks something of the store, through a handle or for one. -/
def Request.asksStore : Request → Bool
  | .write _ _ rows _ => !rows.isEmpty
  | .acquire _ | .submit _ _ | .retrieve _ _ _ | .retrieveText _ _ _ | .assemble _ _ _ _
  | .execution _ _ | .putRecord _ _ _ | .getRecord _ _ _ | .insert _ _ | .select _ _ _ => true
  | _ => false

namespace Session

variable (session : Session) {α : Type}

/-- A reading fails if the archive cannot give what is asked, or if the handle is not held. -/
theorem read_fails (handle : String) (reply : α → Reply) {ask : Archive → Except Failure α}
    {failure : Failure} (h : ask session.archive = .error failure) :
    ∃ refusal, (session.read handle reply ask).1 = .error refusal := by
  unfold read
  split
  · rw [h]
    exact ⟨.failed failure, rfl⟩
  · exact ⟨.noHandle, rfl⟩

/-- A change fails if the archive cannot make it, or if the handle is not held. -/
theorem change_fails (handle : String) (reply : α → Reply)
    {act : Archive → Except Failure α × Archive} {failure : Failure}
    (h : (act session.archive).1 = .error failure) :
    ∃ refusal, (session.change handle reply act).1 = .error refusal := by
  unfold change
  split
  · simp only [h]
    exact ⟨.failed failure, rfl⟩
  · exact ⟨.noHandle, rfl⟩

/-- Every request fails that asks something of a closed store, with its handle or without. -/
theorem answer_fails_of_closed (hClosed : session.archive.store.closed = true) {request : Request}
    (hAsks : request.asksStore = true) :
    ∃ refusal, (session.answer request).1 = .error refusal := by
  have hRefuses := session.archive.refuses_of_closed hClosed
  cases request with
  | acquire handle =>
    rw [answer, acquire_of_closed hClosed]
    exact ⟨.failed Store.refusal, rfl⟩
  | write handle executionId rows metered =>
    have hRows : rows ≠ [] := by
      rintro rfl
      cases hAsks
    exact session.change_fails handle _ (hRefuses.write executionId hRows metered).2
  | submit handle submission =>
    exact session.change_fails handle _ (hRefuses.submit submission)
  | putRecord handle table row =>
    exact session.change_fails handle _ (hRefuses.putRecord table row)
  | insert handle row => exact session.change_fails handle _ (hRefuses.insert row)
  | retrieve handle executionId trim =>
    exact session.read_fails handle _ (hRefuses.retrieve executionId trim)
  | retrieveText handle text trim =>
    have hFails : ∃ failure, session.archive.retrieveText text trim = .error failure := by
      unfold Archive.retrieveText
      cases parseExecutionId text with
      | error failure => exact ⟨failure, rfl⟩
      | ok executionId => exact ⟨Store.refusal, hRefuses.retrieve executionId trim⟩
    obtain ⟨failure, hFails⟩ := hFails
    rw [answer]
    exact session.read_fails handle _ hFails
  | assemble handle executionId trim depth =>
    exact session.read_fails handle _ (hRefuses.assemble _ executionId trim)
  | execution handle executionId =>
    exact session.read_fails handle _ (hRefuses.execution executionId)
  | getRecord handle table key => exact session.read_fails handle _ (hRefuses.getRecord table key)
  | select handle executionId topLevel =>
    exact session.read_fails handle _ (hRefuses.select executionId topLevel)
  | _ => cases hAsks

end Session

/-- Whatever is asked after a store was closed, its rows and its counts of writes stay as they were,
and everything is refused but to write no rows: to write some rows fails after all attempts. A
submission fails in two ways only. If the store is closed, it is refused and nothing is written; if
the store is open, its rows could not be written, and its three records are there. -/
theorem Archive.closed_or_recorded :
    (∀ (session : Session) (requests : List Request),
      (∀ request ∈ requests, request.switches = false) →
        let after := (session.answer .close).2.answerAll requests
        session.archive.store.Froze after.archive.store ∧ after.archive.Refuses ∧
          ∀ request : Request, request.asksStore = true →
            ∃ refusal, (after.answer request).1 = .error refusal) ∧
      ∀ (archive : Archive) (submission : Submission) (failure : Failure),
        (archive.submit submission).1 = .error failure →
          (archive.store.closed = true ∧ failure = .store .closed ∧
              (archive.submit submission).2.store = archive.store) ∨
            archive.store.closed = false ∧
              failure = .writeFailed (submission.id archive.supply)
                (submission.rows archive.supply).length archive.attempts ∧
              ∀ record ∈ submission.records (submission.id archive.supply),
                (archive.submit submission).2.store.records.get?
                  (record.1, submission.id archive.supply) = some record.2 := by
  constructor
  · intro session requests hStay after
    have hFroze : session.archive.store.Froze after.archive.store :=
      Session.froze_answerAll (Store.froze_close _) hStay
    exact ⟨hFroze, after.archive.refuses_of_closed hFroze.closed,
      fun request => after.answer_fails_of_closed hFroze.closed⟩
  · intro archive submission failure hFails
    cases hClosed : archive.store.closed with
    | true =>
      obtain ⟨hResult, hStore⟩ := archive.submit_of_closed hClosed submission
      rw [hResult] at hFails
      exact .inl ⟨rfl, (Except.error.inj hFails).symm, hStore⟩
    | false => exact .inr ⟨rfl, archive.submit_fails_of_open hClosed hFails⟩

/-- Requests of which each would change an open store. -/
def Session.changes : List Request :=
  [.putRecord "main" .params (Store.markedRow 1), .insert "main" (Store.markedRow 2),
    .setWriteDelay 5, .submit "main" (Archive.plainSubmission none Archive.nestedPoints)]

/-- After the store was closed they change nothing, and to write a row fails after two passes. If
all rows are rejected, a submission to an open store fails and leaves its parameters. -/
theorem Archive.closed_or_recorded_changes :
    let session : Session := { archive := plainArchive none }
    let after := ((session.answer (.acquire "main")).2.answer .close).2.answerAll Session.changes
    after.archive.store.data = .empty ∧ after.archive.store.dataWrites = 0 ∧
      (after.archive.write .nil [plainRow 1] true).1 = .error (.writeFailed .nil 1 2) ∧
      ((plainArchive (some (.whenever fun _ => true))).submit
        (plainSubmission (some .nil) nestedPoints)).2.store.records.get? (.params, .nil) =
          some (plainParams.toRow .nil) := by
  intro session after
  obtain ⟨hSessions, hSubmissions⟩ := closed_or_recorded
  obtain ⟨hFroze, hRefuses, -⟩ :=
    hSessions (session.answer (.acquire "main")).2 Session.changes (by decide)
  refine ⟨hFroze.data, hFroze.dataWrites, ?_, ?_⟩
  · exact (hRefuses.write .nil (List.cons_ne_nil _ _) true).2
  · have hFails : ((plainArchive (some (.whenever fun _ => true))).submit
        (plainSubmission (some .nil) nestedPoints)).1 = .error (.writeFailed .nil 3 2) := by
      decide +kernel
    rcases hSubmissions _ _ _ hFails with ⟨hClosed, -⟩ | ⟨-, -, hRecords⟩
    · cases hClosed
    · exact hRecords (.params, plainParams.toRow .nil) (List.mem_cons_of_mem _ List.mem_cons_self)

end Collocation
