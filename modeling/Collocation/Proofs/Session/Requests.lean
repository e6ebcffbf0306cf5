import Collocation.Proofs.Store.Operations
import Collocation.Proofs.Writer.Passes
import Collocation.Session

/-!
# Requests and operations

What a request does to a store it does by operations of the store, one after the other: the writes
of an archive are writes of records and of data rows, and handles are acquired and released by
operations of their own. So what operations keep is kept by requests. Requests that go on with
another store are apart.
-/

set_option autoImplicit false

namespace Collocation

namespace Operation

/-- Whether a record or a data row is to be written. -/
def isWrite (operation : Operation) : Bool :=
  operation.row?.isSome

/-- Whether an operation is about the count of sessions. -/
def isAboutSessions : Operation → Bool
  | acquire | release => true
  | _ => false

/-- No write is about the count of sessions. -/
theorem isAboutSessions_of_isWrite {operation : Operation} (h : operation.isWrite = true) :
    operation.isAboutSessions = false := by
  cases operation <;> first | rfl | cases h

/-- Only what is about sessions changes their count. -/
theorem activeSessions_perform {operation : Operation} (h : operation.isAboutSessions = false)
    (store : Store) : (operation.perform store).2.activeSessions = store.activeSessions := by
  cases operation with
  | put table row => exact store.activeSessions_putRecord row table
  | insert row => exact store.activeSessions_insert row
  | acquire => cases h
  | release => cases h
  | _ => rfl

end Operation

/-! ## Writes -/

namespace Store

/-- A store comes of another one by operations of some kind. -/
def ComesBy (kind : Operation → Bool) (before after : Store) : Prop :=
  ∃ operations : List Operation, (∀ operation ∈ operations, kind operation = true) ∧
    after = before.performAll operations

variable {kind : Operation → Bool} {before after : Store}

/-- A store comes of itself by no operations. -/
theorem ComesBy.refl (kind : Operation → Bool) (store : Store) : store.ComesBy kind store :=
  ⟨[], List.forall_mem_nil _, rfl⟩

/-- One operation more. -/
theorem ComesBy.perform (h : before.ComesBy kind after) (operation : Operation)
    (hKind : kind operation = true) : before.ComesBy kind (operation.perform after).2 := by
  obtain ⟨operations, hOperations, rfl⟩ := h
  refine ⟨operations ++ [operation], ?_, (performAll_concat _ _ _).symm⟩
  rw [List.forall_mem_append]
  exact ⟨hOperations, List.forall_mem_singleton.2 hKind⟩

/-- What comes by operations of a kind comes by those of a wider kind. -/
theorem ComesBy.mono {other : Operation → Bool} (h : before.ComesBy kind after)
    (hKind : ∀ operation, kind operation = true → other operation = true) :
    before.ComesBy other after := by
  obtain ⟨operations, hOperations, hAfter⟩ := h
  exact ⟨operations, fun operation hMem => hKind operation (hOperations operation hMem), hAfter⟩

/-- What every operation of a kind keeps is kept by all of them. -/
theorem ComesBy.keeps {P : Store → Prop} (h : before.ComesBy kind after) (hBefore : P before)
    (hStep : ∀ operation store, kind operation = true → P store → P (operation.perform store).2) :
    P after := by
  obtain ⟨operations, hOperations, rfl⟩ := h
  induction operations using List.reverseRecOn with
  | nil => exact hBefore
  | append_singleton operations operation ih =>
    rw [List.forall_mem_append, List.forall_mem_singleton] at hOperations
    rw [performAll_concat]
    exact hStep operation _ hOperations.2 (ih hOperations.1)

/-- Records are written by writes, up to the first that fails. -/
theorem ComesBy.putRecords (h : before.ComesBy Operation.isWrite after)
    (records : List (Table × Row)) :
    before.ComesBy Operation.isWrite (after.putRecords records).2 := by
  induction records generalizing after with
  | nil => exact h
  | cons record records ih =>
    obtain ⟨table, row⟩ := record
    have hPut : before.ComesBy Operation.isWrite (after.putRecord table row).2 :=
      h.perform (.put table row) rfl
    unfold Store.putRecords
    split
    · next store hOk =>
      rw [hOk] at hPut
      exact ih hPut
    · next failure store hError =>
      rw [hError] at hPut
      exact hPut

/-- Rows are written by writes, in all passes. -/
theorem ComesBy.write (h : before.ComesBy Operation.isWrite after) (writer : Writer)
    (rows : List FlatRow) :
    before.ComesBy Operation.isWrite (writer.write rows after).store := by
  unfold Writer.write
  apply writer.writePasses_keeps
  · intro row _ store hStore
    exact hStore.perform (.insert row) rfl
  · exact h

end Store

namespace Archive

variable (archive : Archive)

/-- A submission only writes to the store. -/
theorem comesBy_submit (submission : Submission) :
    archive.store.ComesBy Operation.isWrite (archive.submit submission).2.store := by
  have hRecords := (Store.ComesBy.refl _ archive.store).putRecords
    (submission.records (submission.chooseId archive.supply).1)
  unfold submit
  simp only
  split
  · next failure store hError =>
    rw [hError] at hRecords
    exact hRecords
  · next store hOk =>
    rw [hOk] at hRecords
    exact hRecords.write archive.writer _

/-- The insertion of a row only writes to the store. -/
theorem comesBy_insert (row : Row) :
    archive.store.ComesBy Operation.isWrite (archive.insert row).2.store :=
  (Store.ComesBy.refl _ archive.store).perform (.insert row) rfl

/-- The putting of a record only writes to the store. -/
theorem comesBy_putRecord (table : Table) (row : Row) :
    archive.store.ComesBy Operation.isWrite (archive.putRecord table row).2.store := by
  unfold putRecord
  split
  · exact archive.comesBy_insert row
  · exact (Store.ComesBy.refl _ archive.store).perform (.put table row) rfl

end Archive

/-! ## Requests -/

namespace Request

/-- Whether a request goes on with another store. -/
def switches : Request → Bool
  | load _ | openFile _ | reopen => true
  | _ => false

/-- Whether a request acquires or releases a handle. -/
def isAboutHandles : Request → Bool
  | acquire _ | release _ => true
  | _ => false

end Request

namespace Session

/-- A session after some requests. -/
def answerAll (session : Session) (requests : List Request) : Session :=
  requests.foldl (fun session request => (session.answer request).2) session

/-- The last of some requests is answered after the others. -/
theorem answerAll_concat (session : Session) (requests : List Request) (request : Request) :
    session.answerAll (requests ++ [request]) =
      ((session.answerAll requests).answer request).2 := by
  rw [answerAll, List.foldl_append]
  rfl

/-- A session goes on with its handles, and with its store after some operations that are not about
sessions. -/
structure GoesOn (session after : Session) : Prop where
  handles : after.handles = session.handles
  store : session.archive.store.ComesBy (fun operation => !operation.isAboutSessions)
    after.archive.store

variable (session : Session)

/-- A session goes on as it is. -/
theorem GoesOn.refl : session.GoesOn session :=
  ⟨rfl, .refl _ _⟩

/-- A reading changes nothing. -/
theorem goesOn_read {α : Type} (handle : String) (reply : α → Reply)
    (ask : Archive → Except Failure α) : session.GoesOn (session.read handle reply ask).2 := by
  unfold read
  split <;> exact .refl session

/-- A change goes on with the session if it only writes to the store. -/
theorem goesOn_change {α : Type} (handle : String) (reply : α → Reply)
    {act : Archive → Except Failure α × Archive}
    (h : session.archive.store.ComesBy Operation.isWrite (act session.archive).2.store) :
    session.GoesOn (session.change handle reply act).2 := by
  unfold change
  split
  · refine ⟨rfl, h.mono fun operation hWrite => ?_⟩
    rw [Operation.isAboutSessions_of_isWrite hWrite]
    rfl
  · exact .refl session

/-- A request that settles for a session goes on if that does. -/
theorem goesOn_settle (reply : Session → Reply) {result : Except Failure Session}
    (h : ∀ after, result = .ok after → session.GoesOn after) :
    session.GoesOn (session.settle reply result).2 := by
  cases result with
  | error failure => exact .refl session
  | ok after => exact h after rfl

/-- A session goes on with what is neither about handles nor about another store. -/
theorem goesOn_answer {request : Request} (hStay : request.switches = false)
    (hOther : request.isAboutHandles = false) : session.GoesOn (session.answer request).2 := by
  have hRefl := Store.ComesBy.refl (fun operation => !operation.isAboutSessions)
    session.archive.store
  cases request with
  | acquire handle => cases hOther
  | release handle => cases hOther
  | load snapshot => cases hStay
  | openFile contents => cases hStay
  | reopen => cases hStay
  | configure config =>
    refine session.goesOn_settle _ fun after hAfter => ?_
    obtain ⟨archive, hArchive, rfl⟩ := map_eq_ok_iff.1 hAfter
    obtain ⟨writer, -, rfl⟩ := map_eq_ok_iff.1 (mapError_eq_ok_iff.1 hArchive)
    exact ⟨rfl, hRefl⟩
  | setFault fault => exact ⟨rfl, hRefl.perform (.setFault fault) rfl⟩
  | setWriteDelay millis => exact ⟨rfl, hRefl.perform (.setWriteDelay millis) rfl⟩
  | close => exact ⟨rfl, hRefl.perform .close rfl⟩
  | flatten executionId points => exact ⟨rfl, hRefl⟩
  | write handle executionId rows metered =>
    exact session.goesOn_change handle _
      ((Store.ComesBy.refl _ session.archive.store).write session.archive.writer rows)
  | submit handle submission =>
    exact session.goesOn_change handle _ (session.archive.comesBy_submit submission)
  | putRecord handle table row =>
    exact session.goesOn_change handle _ (session.archive.comesBy_putRecord table row)
  | insert handle row =>
    exact session.goesOn_change handle _ (session.archive.comesBy_insert row)
  | retrieve handle executionId trim =>
    rw [answer]
    exact session.goesOn_read handle _ _
  | retrieveText handle text trim =>
    rw [answer]
    exact session.goesOn_read handle _ _
  | assemble handle executionId trim depth =>
    rw [answer]
    exact session.goesOn_read handle _ _
  | execution handle executionId =>
    rw [answer]
    exact session.goesOn_read handle _ _
  | getRecord handle table key =>
    rw [answer]
    exact session.goesOn_read handle _ _
  | select handle executionId topLevel =>
    rw [answer]
    exact session.goesOn_read handle _ _

end Session

end Collocation
