import Collocation.Proofs.Session.Requests
import Collocation.Proofs.Store.NormalForm

/-!
# Handles and the count of sessions

A store counts its sessions and knows nothing of handles: the count goes up when a handle is
acquired and down when one is released. A handle that takes the name of another one is acquired
before the other is released, so that for a moment there is a session more than there are handles.
After each request there are as many sessions as handles that are held, whether the store is open
or closed.
-/

set_option autoImplicit false

namespace Collocation

/-! ## Fresh stores -/

namespace Store

/-- A store that is loaded has no sessions. -/
theorem activeSessions_of_toStore {snapshot : Snapshot} {store : Store}
    (h : snapshot.toStore = .ok store) : store.activeSessions = 0 := by
  obtain ⟨records, data, -, -, -, rfl⟩ := exists_of_toStore h
  rfl

/-- A store that is loaded from a text has no sessions. -/
theorem activeSessions_of_ofText {text : String} {store : Store} (h : ofText text = .ok store) :
    store.activeSessions = 0 := by
  unfold ofText at h
  obtain ⟨snapshot, -, h⟩ := bind_eq_ok_iff.1 h
  exact activeSessions_of_toStore h

/-- A store that is opened from a file has no sessions, whether the file is there or not. -/
theorem activeSessions_of_ofText? {contents : Option String} {store : Store}
    (h : ofText? contents = .ok store) : store.activeSessions = 0 := by
  cases contents with
  | none =>
    cases h
    rfl
  | some text => exact activeSessions_of_ofText h

end Store

namespace Session

/-- How many sessions the store counts. -/
def active (session : Session) : Nat :=
  session.archive.store.activeSessions

/-- The store counts a session for each handle that is held, and so many more, which have no name
yet. -/
structure Accounted (session : Session) (pending : Nat) : Prop where
  active : session.active = session.handles.size + pending

variable {session : Session} {pending : Nat}

/-! ## Releases -/

/-- A name that is released is not there any more, and the others are as they were. -/
theorem get?_release (session : Session) (handle other : String) :
    (session.release handle).handles.get? other =
      if handle = other then none else session.handles.get? other := by
  unfold release
  by_cases hHeld : session.isHeld handle = true
  · rw [if_pos hHeld]
    exact Ledger.get?_erase _ _ _
  · have hNone : session.handles.get? handle = none := by
      rw [Ledger.get?_eq_none_iff, ← Ledger.contains_iff]
      exact hHeld
    rw [if_neg hHeld]
    split
    · next hSame => rw [← hSame, hNone]
    · rfl

/-- A handle that was released is not held. -/
theorem isHeld_release (session : Session) (handle : String) :
    (session.release handle).isHeld handle = false := by
  unfold isHeld Ledger.contains
  rw [get?_release, if_pos rfl]
  rfl

/-- The release of a handle that is held takes one session off, and there is one. -/
theorem Accounted.active_release (h : session.Accounted pending) {handle : String}
    (hHeld : session.isHeld handle = true) :
    (session.release handle).active + 1 = session.active := by
  have hSize := Ledger.size_erase (Ledger.contains_iff.1 hHeld)
  have hActive := h.active
  have hRelease : (session.release handle).active = session.active - 1 := by
    unfold release
    rw [if_pos hHeld]
    rfl
  omega

/-- The release of a handle that is not held changes nothing. -/
theorem release_of_not_held {handle : String} (hFree : session.isHeld handle = false) :
    session.release handle = session := by
  unfold release
  rw [hFree]
  rfl

/-- Sessions and handles go down together when one is released. -/
theorem Accounted.release (h : session.Accounted pending) (handle : String) :
    (session.release handle).Accounted pending := by
  by_cases hHeld : session.isHeld handle = true
  · have hSize := Ledger.size_erase (Ledger.contains_iff.1 hHeld)
    have hLess := h.active_release hHeld
    have hHandles : (session.release handle).handles = session.handles.erase handle := by
      unfold Session.release
      rw [if_pos hHeld]
    have hActive := h.active
    refine ⟨?_⟩
    rw [hHandles]
    omega
  · rw [release_of_not_held (Bool.eq_false_of_not_eq_true hHeld)]
    exact h

/-! ## Acquisitions -/

/-- A session whose store counts a session more. -/
def opened (session : Session) : Session :=
  session.withStore
    { session.archive.store with activeSessions := session.archive.store.activeSessions + 1 }

/-- A session after a handle was acquired. -/
def acquired (session : Session) (handle : String) : Session :=
  let released := session.opened.release handle
  { released with
    handles := released.handles.upsert handle released.nextHandle
    nextHandle := released.nextHandle + 1 }

/-- On an open store a handle is acquired. -/
theorem acquire_of_open (hOpen : session.archive.store.closed = false) (handle : String) :
    session.acquire handle = .ok (session.acquired handle) := by
  have hStore : session.archive.store.acquire = .ok session.opened.archive.store := by
    unfold Store.acquire
    rw [if_neg (Bool.eq_false_iff.1 hOpen)]
    rfl
  rw [acquire, hStore]
  rfl

/-- On a closed store it is refused. -/
theorem acquire_of_closed (hClosed : session.archive.store.closed = true) (handle : String) :
    session.acquire handle = .error Store.refusal := by
  rw [acquire, Store.acquire, hClosed]
  rfl

/-- If an acquisition succeeds, the handle is acquired. -/
theorem acquire_eq_ok {after : Session} {handle : String} (h : session.acquire handle = .ok after) :
    after = session.acquired handle := by
  cases hClosed : session.archive.store.closed with
  | false =>
    rw [acquire_of_open hClosed] at h
    exact (Except.ok.inj h).symm
  | true =>
    rw [acquire_of_closed hClosed] at h
    cases h

/-- The new handle has the name, and the others are as they were. -/
theorem get?_acquired (session : Session) (handle other : String) :
    (session.acquired handle).handles.get? other =
      if handle = other then some (session.opened.release handle).nextHandle
      else session.handles.get? other := by
  unfold acquired
  rw [Ledger.get?_upsert, get?_release]
  split <;> rfl

/-- A handle that takes the name of another one adds no session. -/
theorem active_acquired (session : Session) (handle : String) :
    (session.acquired handle).active =
      if session.isHeld handle then session.active else session.active + 1 := by
  have hHeld : session.opened.isHeld handle = session.isHeld handle := rfl
  unfold acquired Session.release
  rw [hHeld]
  cases session.isHeld handle <;> rfl

/-- The session that is acquired has no name until the handle has it. -/
theorem Accounted.acquired (h : session.Accounted 0) (handle : String) :
    (session.acquired handle).Accounted 0 := by
  have hOpened : session.opened.Accounted 1 := ⟨congrArg Nat.succ h.active⟩
  have hActive := (hOpened.release handle).active
  have hNew : handle ∉ (session.opened.release handle).handles.keys := by
    rw [← Ledger.contains_iff]
    exact Bool.eq_false_iff.1 (session.opened.isHeld_release handle)
  refine ⟨?_⟩
  have hSize := Ledger.size_upsert_of_not_mem hNew (session.opened.release handle).nextHandle
  unfold Session.acquired
  rw [hSize]
  exact hActive

/-! ## Requests -/

/-- Where a session goes on, the count stays. -/
theorem GoesOn.active {after : Session} (h : session.GoesOn after) :
    after.active = session.active := by
  apply h.store.keeps (P := fun store => store.activeSessions = session.active)
  · rfl
  · intro operation store hKind hStore
    rw [operation.activeSessions_perform (by simpa using hKind)]
    exact hStore

/-- Where a session goes on, its sessions stay accounted for. -/
theorem GoesOn.accounted {after : Session} (h : session.GoesOn after)
    (hSession : session.Accounted pending) : after.Accounted pending := by
  refine ⟨?_⟩
  rw [h.handles, h.active]
  exact hSession.active

/-- A session with another store, before it has a handle. -/
def moved (session : Session) (store : Store) : Session :=
  { session with archive := session.archive.withStore store, handles := .empty }

/-- What an answer can do to the handles and the count of sessions: nothing; or a handle is acquired
or released; or there is another store without sessions, of which the first handle is acquired. -/
inductive Leads (session : Session) : Session → Prop
  | goesOn {after : Session} (h : session.GoesOn after) : Leads session after
  | acquires (handle : String) : Leads session (session.acquired handle)
  | releases (handle : String) : Leads session (session.release handle)
  | moves (store : Store) (hStore : store.activeSessions = 0) :
    Leads session ((session.moved store).acquired "main")

/-- A request that fails leads nowhere, and one that succeeds where its result does. -/
theorem leads_settle (session : Session) (reply : Session → Reply)
    {result : Except Failure Session} (h : ∀ after, result = .ok after → session.Leads after) :
    session.Leads (session.settle reply result).2 := by
  cases result with
  | error failure => exact .goesOn (.refl session)
  | ok after => exact h after rfl

/-- What any answer can do to the handles and the count of sessions. -/
theorem leads_answer (session : Session) (request : Request) :
    session.Leads (session.answer request).2 := by
  have hMoves (reply : Session → Reply) (result : Except Failure Store)
      (hStore : ∀ store, result = .ok store → store.activeSessions = 0) :
      session.Leads (session.settle reply (result.bind session.switch)).2 := by
    refine session.leads_settle reply fun after hAfter => ?_
    obtain ⟨store, hResult, hSwitch⟩ := bind_eq_ok_iff.1 hAfter
    obtain rfl := acquire_eq_ok hSwitch
    exact .moves store (hStore store hResult)
  cases hStay : request.switches with
  | true =>
    cases request with
    | load snapshot => exact hMoves _ _ fun store => Store.activeSessions_of_toStore
    | openFile contents => exact hMoves _ _ fun store => Store.activeSessions_of_ofText?
    | reopen => exact hMoves _ _ fun store => Store.activeSessions_of_ofText
    | _ => cases hStay
  | false =>
    cases hOther : request.isAboutHandles with
    | true =>
      cases request with
      | acquire handle =>
        exact session.leads_settle _ fun after hAfter => acquire_eq_ok hAfter ▸ .acquires handle
      | release handle => exact .releases handle
      | _ => cases hOther
    | false => exact .goesOn (session.goesOn_answer hStay hOther)

/-- After an answer there are as many sessions as handles, if there were so before. -/
theorem Accounted.answer (h : session.Accounted 0) (request : Request) :
    (session.answer request).2.Accounted 0 := by
  have hLeads := session.leads_answer request
  generalize (session.answer request).2 = after at hLeads
  cases hLeads with
  | goesOn hGoesOn => exact hGoesOn.accounted h
  | acquires handle => exact h.acquired handle
  | releases handle => exact h.release handle
  | moves store hStore =>
    have hMoved : (session.moved store).Accounted 0 := ⟨hStore⟩
    exact hMoved.acquired "main"

/-- After all answers there are as many sessions as handles. -/
theorem Accounted.answerAll (h : session.Accounted 0) (requests : List Request) :
    (session.answerAll requests).Accounted 0 := by
  induction requests using List.reverseRecOn with
  | nil => exact h
  | append_singleton requests request ih =>
    rw [answerAll_concat]
    exact ih.answer request

/-! ## The size of the count -/

/-- The release of a handle adds no session. -/
theorem active_release_le (session : Session) (handle : String) :
    (session.release handle).active ≤ session.active := by
  unfold release
  split
  · exact Nat.sub_le session.active 1
  · exact Nat.le_refl _

/-- A handle that is acquired adds one session at most. -/
theorem active_acquired_le (session : Session) (handle : String) :
    (session.acquired handle).active ≤ session.active + 1 := by
  rw [active_acquired]
  split <;> omega

/-- A request adds one session at most. -/
theorem active_answer_le (session : Session) (request : Request) :
    (session.answer request).2.active ≤ session.active + 1 := by
  have hLeads := session.leads_answer request
  generalize (session.answer request).2 = after at hLeads
  cases hLeads with
  | goesOn hGoesOn => exact Nat.le_succ_of_le (Nat.le_of_eq hGoesOn.active)
  | acquires handle => exact session.active_acquired_le handle
  | releases handle => exact Nat.le_succ_of_le (session.active_release_le handle)
  | moves store hStore =>
    have hMoved : (session.moved store).active = 0 := hStore
    have hFirst := (session.moved store).active_acquired_le "main"
    omega

/-- There are no more sessions than there were at first and requests together, and while these are
fewer than a word can count, so are the sessions. -/
theorem active_answerAll_le (session : Session) (requests : List Request) :
    (session.answerAll requests).active ≤ session.active + requests.length := by
  induction requests using List.reverseRecOn with
  | nil => exact Nat.le_refl _
  | append_singleton requests request ih =>
    have hStep := (session.answerAll requests).active_answer_le request
    rw [answerAll_concat, List.length_append, List.length_singleton]
    omega

end Session

/-- The sessions of a store are the handles that are held, after all that was asked of a store
without sessions. A handle is refused just if the store is closed, and then all is as it was. One
that is acquired is a session more, unless it takes the name of another one, and one that is
released is a session less, also if the store was closed in between; there is a session then to be
taken off. The other handles stay, and no other request changes the count or the handles. -/
theorem Session.account_for_handles (archive : Archive)
    (hFresh : archive.store.activeSessions = 0) (requests : List Request) :
    let session := ({ archive } : Session).answerAll requests
    session.active = session.handles.size ∧
      (∀ handle,
        (session.archive.store.closed = true →
          session.answer (.acquire handle) = (.error (.failed (.store .closed)), session)) ∧
        (session.archive.store.closed = false → ∃ reply after,
          session.answer (.acquire handle) = (.ok reply, after) ∧
            after.isHeld handle = true ∧
            (∀ other, handle ≠ other → after.handles.get? other = session.handles.get? other) ∧
            after.active = if session.isHeld handle then session.active else session.active + 1)) ∧
      (∀ handle,
        (session.isHeld handle = true → ∃ after,
          session.answer (.release handle) = (.ok (.released true), after) ∧
            after.isHeld handle = false ∧
            (∀ other, handle ≠ other → after.handles.get? other = session.handles.get? other) ∧
            after.active + 1 = session.active) ∧
        (session.isHeld handle = false →
          session.answer (.release handle) = (.ok (.released false), session))) ∧
      ∀ request : Request, request.switches = false → request.isAboutHandles = false →
        (session.answer request).2.handles = session.handles ∧
          (session.answer request).2.active = session.active := by
  intro session
  have hStart : ({ archive } : Session).Accounted 0 := ⟨hFresh⟩
  have hSession : session.Accounted 0 := hStart.answerAll requests
  refine ⟨hSession.active, fun handle => ⟨fun hClosed => ?_, fun hOpen => ?_⟩,
    fun handle => ⟨fun hHeld => ?_, fun hFree => ?_⟩, fun request hStay hOther => ?_⟩
  · have hRefused := acquire_of_closed hClosed handle
    rw [answer, hRefused]
    rfl
  · have hAcquired := acquire_of_open hOpen handle
    refine ⟨_, session.acquired handle, by rw [answer, hAcquired]; rfl, ?_, fun other hOther => ?_,
      session.active_acquired handle⟩
    · unfold isHeld Ledger.contains
      rw [get?_acquired, if_pos rfl]
      rfl
    · rw [get?_acquired, if_neg hOther]
  · refine ⟨session.release handle, by rw [answer, hHeld], session.isHeld_release handle,
      fun other hOther => ?_, hSession.active_release hHeld⟩
    rw [get?_release, if_neg hOther]
  · rw [answer, hFree, release_of_not_held hFree]
  · have hGoesOn := session.goesOn_answer hStay hOther
    exact ⟨hGoesOn.handles, hGoesOn.active⟩

/-- Two handles, of which one is acquired anew, and a store that is closed. -/
def Session.heldAndClosed : List Request :=
  [.acquire "a", .acquire "b", .acquire "a", .submit "a" (Archive.plainSubmission none []), .close]

/-- Two sessions are left, a third one is refused, and after the release of one there is one. -/
theorem Session.account_for_handles_closed :
    let session := ({ archive := .plainArchive none } : Session).answerAll heldAndClosed
    session.active = 2 ∧ (session.answer (.acquire "c")).2.active = 2 ∧
      (session.answer (.release "b")).2.active = 1 := by
  intro session
  obtain ⟨hActive, hAcquire, hRelease, -⟩ :=
    account_for_handles (Archive.plainArchive none) rfl heldAndClosed
  have hTwo : session.active = 2 := hActive.trans (by decide +kernel)
  obtain ⟨after, hAfter, -, -, hLess⟩ := (hRelease "b").1 (by decide +kernel)
  have hRefused := (hAcquire "c").1 (by decide +kernel)
  refine ⟨hTwo, ?_, ?_⟩
  · rw [hRefused]
    exact hTwo
  · rw [hAfter]
    exact Nat.succ.inj (hLess.trans hTwo)

end Collocation
