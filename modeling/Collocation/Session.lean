import Collocation.Archive
import Collocation.Store.Snapshot

/-!
# Sessions

Callers work with an archive through handles, which they acquire by name and release. What is asked
of an archive is a request, and every request is answered; without the handle that it needs it is
refused. A store that is opened anew starts with the handle `main` only.
-/

set_option autoImplicit false

namespace Collocation

/-- An archive with the handles that are held, each with its number. -/
structure Session where
  archive : Archive
  handles : Ledger String Nat := .empty
  nextHandle : Nat := 0

/-- What is asked of a session. -/
inductive Request where
  | acquire (handle : String)
  | release (handle : String)
  | configure (config : Config)
  | setFault (fault : Option WriteFault)
  | setWriteDelay (millis : UInt64)
  | close
  /-- Goes on with the store of a snapshot. -/
  | load (snapshot : Snapshot)
  /-- Goes on with the store of a file, which may be missing. -/
  | openFile (contents : Option String)
  /-- Saves the store to a file, and goes on with the store of that file. -/
  | reopen
  | flatten (executionId : Uuid) (points : List Point)
  | write (handle : String) (executionId : Uuid) (rows : List FlatRow) (metered : Bool)
  | submit (handle : String) (submission : Submission)
  | retrieve (handle : String) (executionId : Uuid) (trim : Bool)
  | retrieveText (handle : String) (text : String) (trim : Bool)
  | assemble (handle : String) (executionId : Uuid) (trim : Bool) (depth : Option NestingDepth)
  | execution (handle : String) (executionId : Uuid)
  | putRecord (handle : String) (table : Table) (row : Row)
  | getRecord (handle : String) (table : Table) (key : Uuid)
  | insert (handle : String) (row : Row)
  | select (handle : String) (executionId : Uuid) (topLevel : Bool)

/-- What a request brings. -/
inductive Reply where
  | done
  /-- Whether the new handle differs from the others that are held. -/
  | acquired (fresh : Bool)
  /-- Whether the handle was held. -/
  | released (held : Bool)
  | flattened (flattened : Flattened)
  | written (report : Report)
  | stored (executionId : Uuid)
  | results (results : Results)
  | assembly (assembly : Assembly)
  | execution (execution : Execution)
  | record (row : Option Row)
  | rows (rows : List Row)

/-- Why a request is not met. -/
inductive Refusal where
  | noHandle
  | failed (failure : Failure)

/-- What comes of a request. -/
abbrev Answer := Except Refusal Reply

namespace Answer

/-- The answer to what may fail. -/
def ofExcept {α : Type} (reply : α → Reply) (result : Except Failure α) : Answer :=
  (result.map reply).mapError .failed

end Answer

namespace Session

/-! ## Handles -/

def isHeld (session : Session) (handle : String) : Bool :=
  session.handles.contains handle

def withStore (session : Session) (store : Store) : Session :=
  { session with archive := session.archive.withStore store }

/-- Releases a handle, if it is held. -/
def release (session : Session) (handle : String) : Session :=
  if session.isHeld handle then
    { session with
      archive := session.archive.withStore session.archive.store.release
      handles := session.handles.erase handle }
  else session

/-- Acquires a handle; one that has the name already is released after that. -/
def acquire (session : Session) (handle : String) : Except Failure Session := do
  let store ← session.archive.store.acquire
  let session := (session.withStore store).release handle
  return {
    session with
    handles := session.handles.upsert handle session.nextHandle
    nextHandle := session.nextHandle + 1 }

/-- Whether the number of a handle is no other's. -/
def isFresh (session : Session) (handle : String) : Bool :=
  let others := session.handles.erase handle
  (session.handles.get? handle).all fun number => !others.values.contains number

/-- Goes on with another store. All handles of the present store are released. -/
def switch (session : Session) (store : Store) : Except Failure Session :=
  { session with archive := session.archive.withStore store, handles := .empty }.acquire "main"

/-- A session with an empty store and the handle `main`. -/
def start (config : Config) (supply : Supply) : Except Failure Session := do
  let archive ← (Archive.ofConfig config supply).mapError .invalidConfig
  Session.acquire { archive } "main"

/-! ## Requests -/

/-- The session after something that may fail, or the session itself after a failure. -/
def settle (session : Session) (reply : Session → Reply) (result : Except Failure Session) :
    Answer × Session :=
  match result with
  | .ok after => (.ok (reply after), after)
  | .error failure => (.error (.failed failure), session)

/-- Reads from the archive through a handle. -/
def read {α : Type} (session : Session) (handle : String) (reply : α → Reply)
    (ask : Archive → Except Failure α) : Answer × Session :=
  if session.isHeld handle then (Answer.ofExcept reply (ask session.archive), session)
  else (.error .noHandle, session)

/-- Changes the archive through a handle. -/
def change {α : Type} (session : Session) (handle : String) (reply : α → Reply)
    (act : Archive → Except Failure α × Archive) : Answer × Session :=
  if session.isHeld handle then
    let (result, archive) := act session.archive
    (Answer.ofExcept reply result, { session with archive })
  else (.error .noHandle, session)

/-- The answer to a request, and the session after it. -/
def answer (session : Session) : Request → Answer × Session
  | .acquire handle =>
    session.settle (fun after => .acquired (after.isFresh handle)) (session.acquire handle)
  | .release handle => (.ok (.released (session.isHeld handle)), session.release handle)
  | .configure config =>
    session.settle (fun _ => .done) <|
      ((session.archive.configure config).mapError .invalidConfig).map fun archive =>
        { session with archive }
  | .setFault fault => (.ok .done, session.withStore (session.archive.store.setFault fault))
  | .setWriteDelay millis =>
    (.ok .done, session.withStore (session.archive.store.setWriteDelay millis))
  | .close => (.ok .done, session.withStore session.archive.store.close)
  | .load snapshot => session.settle (fun _ => .done) (snapshot.toStore.bind session.switch)
  | .openFile contents =>
    session.settle (fun _ => .done) ((Store.ofText? contents).bind session.switch)
  | .reopen =>
    session.settle (fun _ => .done) ((Store.ofText session.archive.store.text).bind session.switch)
  | .flatten executionId points =>
    let (flattened, archive) := session.archive.flatten executionId points
    (.ok (.flattened flattened), { session with archive })
  | .write handle executionId rows metered =>
    session.change handle .written fun archive => archive.write executionId rows metered
  | .submit handle submission =>
    session.change handle .stored fun archive => archive.submit submission
  | .retrieve handle executionId trim =>
    session.read handle .results fun archive => archive.retrieve executionId trim
  | .retrieveText handle text trim =>
    session.read handle .results fun archive => archive.retrieveText text trim
  | .assemble handle executionId trim depth =>
    session.read handle .assembly fun archive =>
      archive.store.assemble (depth.getD archive.depth) executionId trim
  | .execution handle executionId =>
    session.read handle .execution fun archive => archive.store.execution executionId
  | .putRecord handle table row =>
    session.change handle (fun _ => .done) fun archive => archive.putRecord table row
  | .getRecord handle table key =>
    session.read handle .record fun archive => archive.store.getRecord table key
  | .insert handle row =>
    session.change handle (fun _ => .done) fun archive => archive.insert row
  | .select handle executionId topLevel =>
    session.read handle .rows fun archive => archive.store.select executionId topLevel

end Session

end Collocation
