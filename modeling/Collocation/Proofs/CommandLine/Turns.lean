import Collocation.Proofs.CommandLine.Folder
import Collocation.Proofs.CommandLine.OneStore

/-!
# Runs that follow each other

Runs follow each other at one snapshot file, which is not there at first; whatever else happens to
the folder between two of them, the second finds this file as the first left it. Then each run tells
what the same command tells on one store that is kept in memory from run to run: the snapshot file
stands for that store. What carries this from one run to the next is that the file and the store
keep the same submissions.
-/

set_option autoImplicit false

namespace Collocation.CommandLine

/-! ## Turns -/

/-- A run of the program: its arguments, the folder that it meets, and its supply of ids. -/
structure Turn where
  arguments : List String
  folder : Folder
  supply : Supply

namespace Turn

variable (turn : Turn)

/-- What comes of a turn. -/
def outcome : Outcome :=
  (turn.folder.run turn.arguments turn.supply).1

/-- The folder after a turn. -/
def after : Folder :=
  (turn.folder.run turn.arguments turn.supply).2

/-- All that is told in a turn. -/
def told : Outcome :=
  turn.outcome.told

/-- What comes of a turn on a kept store, and the store after it. -/
def runOn (kept : Store) : Outcome × Store :=
  CommandLine.runOn turn.arguments turn.folder.look turn.supply kept

/-- The submission that is stored in a turn, if one is. -/
def filing? : Option Filing :=
  CommandLine.filing? turn.arguments turn.folder.look turn.supply

/-- A turn is to store a submission. -/
def Stores : Prop :=
  ∃ overrides metrics snapshot input executionId, Invocation.ofArguments turn.arguments =
    .ok ⟨overrides, metrics, .store snapshot input executionId⟩

/-- If a turn runs a command, it does so at the snapshot file of a path; and if it stores a
submission, that file can be replaced, the times of the submission have years of four digits, and
its doubles are read back from their texts. -/
structure At (path : String) : Prop where
  snapshot (invocation : Invocation) (h : Invocation.ofArguments turn.arguments = .ok invocation) :
    invocation.command.snapshot = path
  replaceable (filing : Filing) (h : turn.filing? = some filing) : turn.folder.Replaceable path
  years (filing : Filing) (h : turn.filing? = some filing) :
    ∀ t ∈ filing.submission.instants, t.FourDigitYear
  readsBack (filing : Filing) (h : turn.filing? = some filing) :
    ∀ x ∈ filing.submission.doubles, x.isFinite = true → (Scalar.double x).ReadsBack

end Turn

/-- The first of some turns finds this at a path, and each of the others what the one before left.
-/
def Follow (path : String) : FileState → List Turn → Prop
  | _, [] => True
  | found, turn :: turns => turn.folder.look path = found ∧ Follow path (turn.after.look path) turns

/-- What comes of turns on a store that is kept from turn to turn. -/
def outcomesOn (kept : Store) : List Turn → List Outcome
  | [] => []
  | turn :: turns => (turn.runOn kept).1 :: outcomesOn (turn.runOn kept).2 turns

/-! ## One turn -/

/-- A submission that is stored from arguments is tidy, as it was read from a file. -/
theorem tidy_of_filing? {arguments : List String} {files : String → FileState} {supply : Supply}
    {filing : Filing} (h : filing? arguments files supply = some filing) :
    filing.submission.Tidy := by
  rw [filing?] at h
  cases hInvocation : Invocation.ofArguments arguments with
  | error stop =>
    rw [hInvocation] at h
    cases h
  | ok invocation =>
    rw [hInvocation] at h
    obtain ⟨_, _, _, _, -, -, hSubmission, -⟩ := Invocation.filing?_eq_some h
    exact tidy_of_readSubmission hSubmission

namespace Turn

variable {path : String} {turn : Turn}

/-- A turn is a run of its arguments, after which its file is saved. -/
theorem run_eq {invocation : Invocation}
    (h : Invocation.ofArguments turn.arguments = .ok invocation) :
    CommandLine.run turn.arguments turn.folder.look turn.supply =
        .ofInvocation invocation turn.folder.look turn.supply ∧
      (∀ kept, turn.runOn kept = invocation.runOn turn.folder.look turn.supply kept) ∧
      turn.filing? = invocation.filing? turn.folder.look turn.supply := by
  simp only [CommandLine.run, runOn, CommandLine.runOn, filing?, CommandLine.filing?, h,
    implies_true, and_self]

/-- A turn that stores nothing saves nothing. -/
theorem save_of_no_filing (h : turn.filing? = none) :
    (CommandLine.run turn.arguments turn.folder.look turn.supply).save = none := by
  cases hInvocation : Invocation.ofArguments turn.arguments with
  | error stop =>
    simp only [CommandLine.run, hInvocation]
    cases stop <;> rfl
  | ok invocation =>
    obtain ⟨hRun, -, hFiling⟩ := run_eq hInvocation
    rw [hRun]
    exact Invocation.save_of_no_filing (hFiling ▸ h)

/-- A turn that stores nothing leaves its folder as it is. -/
theorem run_of_no_filing (h : turn.filing? = none) :
    turn.outcome = CommandLine.run turn.arguments turn.folder.look turn.supply ∧
      turn.after = turn.folder := by
  rw [outcome, after, Folder.run_of_no_save (save_of_no_filing h)]
  exact ⟨rfl, rfl⟩

/-- A turn that stores nothing leaves a kept store as it is. -/
theorem runOn_of_no_filing (h : turn.filing? = none) (kept : Store) :
    (turn.runOn kept).2 = kept := by
  cases hInvocation : Invocation.ofArguments turn.arguments with
  | error stop => simp only [runOn, CommandLine.runOn, hInvocation]
  | ok invocation =>
    obtain ⟨-, hRunOn, hFiling⟩ := run_eq hInvocation
    rw [hRunOn]
    exact Invocation.runOn_of_no_filing (hFiling ▸ h) kept

/-- A turn that has a submission is to store one. -/
theorem stores_of_filing {filing : Filing} (h : turn.filing? = some filing) : turn.Stores := by
  cases hInvocation : Invocation.ofArguments turn.arguments with
  | error stop =>
    rw [filing?, CommandLine.filing?, hInvocation] at h
    cases h
  | ok invocation =>
    obtain ⟨-, -, hFiling⟩ := run_eq hInvocation
    obtain ⟨path, input, executionId, _, hCommand, -⟩ := Invocation.filing?_eq_some (hFiling ▸ h)
    obtain ⟨overrides, metrics, command⟩ := invocation
    exact ⟨overrides, metrics, path, input, executionId, hCommand ▸ hInvocation⟩

/-- A turn that is to store something and does not fails. -/
theorem exitCode_of_no_filing (h : turn.filing? = none) (hStores : turn.Stores) :
    turn.outcome.exitCode = 1 := by
  obtain ⟨overrides, metrics, snapshot, input, executionId, hInvocation⟩ := hStores
  obtain ⟨hRun, -, hFiling⟩ := run_eq hInvocation
  rw [(run_of_no_filing h).1, hRun]
  exact Invocation.exitCode_of_no_filing (hFiling ▸ h) rfl

/-- A turn that is to store something and succeeds does store it. -/
theorem exists_filing (hStores : turn.Stores) (hCode : turn.outcome.exitCode = 0) :
    ∃ filing, turn.filing? = some filing := by
  cases hFiling : turn.filing? with
  | some filing => exact ⟨filing, rfl⟩
  | none =>
    rw [exitCode_of_no_filing hFiling hStores] at hCode
    cases hCode

section Step

variable (hAt : turn.At path) {filed : List Filing}
  (hSaved : Saved filed (turn.folder.look path))
include hAt hSaved

/-- A turn that stores a submission tells its id, and the snapshot file has the submission then. -/
theorem step_of_filing {filing : Filing} (h : turn.filing? = some filing)
    (hLasting : Lasting (filed ++ [filing])) :
    turn.outcome.exitCode = 0 ∧ turn.outcome.output = filing.id.text ++ "\n" ∧
      turn.outcome = CommandLine.run turn.arguments turn.folder.look turn.supply ∧
      Saved (filed ++ [filing]) (turn.after.look path) := by
  obtain ⟨store, hStore, hOpen⟩ := hSaved.exists_open hLasting.left
  cases hInvocation : Invocation.ofArguments turn.arguments with
  | error stop =>
    rw [filing?, CommandLine.filing?, hInvocation] at h
    cases h
  | ok invocation =>
    obtain ⟨hRun, -, hFiling⟩ := run_eq hInvocation
    have hSnapshot := hAt.snapshot invocation hInvocation
    have hReplaceable := hAt.replaceable filing h
    rw [hFiling] at h
    obtain ⟨saved, hKeeps, hCode, hOutput, hSave⟩ := Invocation.ofInvocation_of_filing h hStore
      (hSnapshot ▸ hOpen) hLasting.nodup
    rw [hSnapshot, ← hRun] at hSave
    rw [outcome, after, Folder.run_of_save hReplaceable hSave]
    refine ⟨hRun ▸ hCode, hRun ▸ hOutput, rfl, ?_⟩
    change Saved _ ((turn.folder.save ⟨path, saved.text⟩).2.look path)
    rw [Folder.look_save hReplaceable]
    exact .text hKeeps

/-- One turn more tells the same on the snapshot file as on a kept store, and after it both keep the
same again. -/
theorem step {kept : Store} (hKept : kept.Keeps filed)
    (hLasting : Lasting (filed ++ turn.filing?.toList)) :
    turn.told = (turn.runOn kept).1 ∧ (turn.runOn kept).2.Keeps (filed ++ turn.filing?.toList) ∧
      Saved (filed ++ turn.filing?.toList) (turn.after.look path) := by
  obtain ⟨store, hStore, hOpen⟩ := hSaved.exists_open hLasting.left
  have hNodup : ∀ filing, turn.filing? = some filing →
      (Filing.rowIds (filed ++ [filing])).Nodup := by
    intro filing hFiling
    rw [hFiling] at hLasting
    exact hLasting.nodup
  have hTold : (CommandLine.run turn.arguments turn.folder.look turn.supply).told =
      (turn.runOn kept).1 := by
    cases hInvocation : Invocation.ofArguments turn.arguments with
    | error stop =>
      simp only [CommandLine.run, runOn, CommandLine.runOn, hInvocation]
      cases stop <;> rfl
    | ok invocation =>
      obtain ⟨hRun, hRunOn, hFiling⟩ := run_eq hInvocation
      have hSnapshot := hAt.snapshot invocation hInvocation
      rw [hRun, hRunOn]
      exact Invocation.told_eq hStore hKept (hSnapshot ▸ hOpen) (hFiling ▸ hNodup)
  cases hFiling : turn.filing? with
  | none =>
    obtain ⟨hOutcome, hAfter⟩ := run_of_no_filing hFiling
    rw [Option.toList_none, List.append_nil, runOn_of_no_filing hFiling, hAfter]
    exact ⟨by rw [told, hOutcome, hTold], hKept, hSaved⟩
  | some filing =>
    rw [hFiling] at hLasting
    obtain ⟨-, -, hOutcome, hAfter⟩ := step_of_filing hAt hSaved hFiling hLasting
    refine ⟨by rw [told, hOutcome, hTold], ?_, hAfter⟩
    cases hInvocation : Invocation.ofArguments turn.arguments with
    | error stop =>
      rw [filing?, CommandLine.filing?, hInvocation] at hFiling
      cases hFiling
    | ok invocation =>
      obtain ⟨-, hRunOn, hSame⟩ := run_eq hInvocation
      rw [hRunOn]
      exact Invocation.runOn_of_filing (hSame ▸ hFiling) hKept hLasting.nodup

end Step

end Turn

/-! ## Many turns -/

/-- What is mapped of a list comes from its head and then from its tail. -/
theorem filterMap_cons_toList {α β : Type} (f : α → Option β) (x : α) (xs : List α) :
    (x :: xs).filterMap f = (f x).toList ++ xs.filterMap f := by
  rw [List.filterMap_cons]
  cases f x <;> rfl

section Turns

variable {path : String} {turns : List Turn} (hAt : ∀ turn ∈ turns, turn.At path)
include hAt

/-- The submissions of turns can be saved and opened again. -/
theorem lasting_filings (hFresh : (Filing.rowIds (turns.filterMap Turn.filing?)).Nodup) :
    Lasting (turns.filterMap Turn.filing?) where
  nodup := hFresh
  tidy := by
    intro filing hFiling
    obtain ⟨turn, -, hFiling⟩ := List.mem_filterMap.1 hFiling
    exact tidy_of_filing? hFiling
  years := by
    intro filing hFiling
    obtain ⟨turn, hTurn, hFiling⟩ := List.mem_filterMap.1 hFiling
    exact (hAt turn hTurn).years filing hFiling
  readsBack := by
    intro filing hFiling x hx
    obtain ⟨turn, hTurn, hFiling⟩ := List.mem_filterMap.1 hFiling
    have hFinite := (tidy_of_filing? hFiling).isFinite_of_mem_doubles x hx
    exact (hAt turn hTurn).readsBack filing hFiling x hx hFinite

/-- Turn by turn, what is told on the snapshot file is what is told on the kept store, and the file
has the submissions of the turns before. -/
theorem simulates {filed : List Filing} {found : FileState} {kept : Store}
    (hFollow : Follow path found turns) (hSaved : Saved filed found)
    (hKept : kept.Keeps filed) (hLasting : Lasting (filed ++ turns.filterMap Turn.filing?)) :
    turns.map Turn.told = outcomesOn kept turns ∧
      ∀ before turn after, turns = before ++ turn :: after →
        Saved (filed ++ before.filterMap Turn.filing?) (turn.folder.look path) := by
  induction turns generalizing filed found kept with
  | nil => exact ⟨rfl, fun before turn after hTurns => by simp at hTurns⟩
  | cons first turns ih =>
    obtain ⟨hFirst, hOthers⟩ := List.forall_mem_cons.1 hAt
    obtain ⟨rfl, hFollow⟩ := hFollow
    rw [filterMap_cons_toList, ← List.append_assoc] at hLasting
    obtain ⟨hTold, hKeptAfter, hSavedAfter⟩ := Turn.step hFirst hSaved hKept hLasting.left
    obtain ⟨hAll, hBefore⟩ := ih hOthers hFollow hSavedAfter hKeptAfter hLasting
    refine ⟨by rw [List.map_cons, outcomesOn, hTold, hAll], fun before turn after hTurns => ?_⟩
    cases before with
    | nil =>
      obtain ⟨rfl, rfl⟩ := List.cons.inj hTurns
      rw [List.filterMap_nil, List.append_nil]
      exact hSaved
    | cons other before =>
      obtain ⟨rfl, hRest⟩ := List.cons.inj hTurns
      rw [filterMap_cons_toList, ← List.append_assoc]
      exact hBefore before turn after hRest

end Turns

/-! ## The whole run -/

section Run

variable {path : String} {turns : List Turn} (hFollow : Follow path .absent turns)
  (hAt : ∀ turn ∈ turns, turn.At path)
  (hFresh : (Filing.rowIds (turns.filterMap Turn.filing?)).Nodup)
include hFollow hAt hFresh

/-- The snapshot file has the submissions of the turns before. -/
theorem saved_before {before after : List Turn} {turn : Turn}
    (hTurns : turns = before ++ turn :: after) :
    Saved (before.filterMap Turn.filing?) (turn.folder.look path) ∧
      Lasting (before.filterMap Turn.filing? ++ turn.filing?.toList) := by
  have hLasting := lasting_filings hAt hFresh
  have hSaved :=
    (simulates hAt hFollow .absent keeps_empty hLasting).2 before turn after hTurns
  rw [hTurns, List.filterMap_append, filterMap_cons_toList, ← List.append_assoc] at hLasting
  exact ⟨hSaved, hLasting.left⟩

/-- A turn that has a submission stores it. -/
theorem stored_of_filing {turn : Turn} (hTurn : turn ∈ turns) {filing : Filing}
    (hFiling : turn.filing? = some filing) :
    turn.outcome.exitCode = 0 ∧ turn.outcome.output = filing.id.text ++ "\n" := by
  obtain ⟨before, after, hTurns⟩ := List.append_of_mem hTurn
  obtain ⟨hSaved, hLasting⟩ := saved_before hFollow hAt hFresh hTurns
  rw [hFiling] at hLasting
  obtain ⟨hCode, hOutput, -⟩ := Turn.step_of_filing (hAt turn hTurn) hSaved hFiling hLasting
  exact ⟨hCode, hOutput⟩

/-- A turn leaves all files as they are if it fails or is not to store anything. -/
theorem unchanged_of_failure {turn : Turn} (hTurn : turn ∈ turns)
    (h : turn.outcome.exitCode ≠ 0 ∨ ¬ turn.Stores) : turn.after = turn.folder := by
  cases hFiling : turn.filing? with
  | none => exact (Turn.run_of_no_filing hFiling).2
  | some filing =>
    rcases h with hFailed | hReads
    · exact absurd (stored_of_filing hFollow hAt hFresh hTurn hFiling).1 hFailed
    · exact absurd (Turn.stores_of_filing hFiling) hReads

section Reading

variable {before after : List Turn} {turn : Turn} (hTurns : turns = before ++ turn :: after)
  {overrides : Overrides} {metrics : Bool} {archive : Archive}
  (hArchive : overrides.archive turn.folder.look turn.supply = .ok archive)
include hTurns hArchive

/-- An id that was told is found. -/
theorem found_of_earlier {earlier : Turn} (hEarlier : earlier ∈ before) (hStores : earlier.Stores)
    (hCode : earlier.outcome.exitCode = 0) {text : String}
    (hText : earlier.outcome.output = text ++ "\n") {trim : Bool}
    (hRetrieve : Invocation.ofArguments turn.arguments =
      .ok ⟨overrides, metrics, .retrieve path text trim⟩) :
    turn.outcome.exitCode = 0 ∧ ∃ results : Results, results.executionId.text = text ∧
      turn.outcome.output = results.toJson.lines ++ "\n" := by
  obtain ⟨hSaved, hLasting⟩ := saved_before hFollow hAt hFresh hTurns
  obtain ⟨store, hStore, hOpen⟩ := hSaved.exists_open hLasting.left
  -- What was told is the id of a submission that the snapshot file has.
  have hMem : earlier ∈ turns := hTurns ▸ List.mem_append_left _ hEarlier
  obtain ⟨filing, hFiling⟩ := Turn.exists_filing hStores hCode
  have hFiled : filing ∈ before.filterMap Turn.filing? :=
    List.mem_filterMap.2 ⟨earlier, hEarlier, hFiling⟩
  rw [(stored_of_filing hFollow hAt hFresh hMem hFiling).2] at hText
  obtain rfl : filing.id.text = text := (String.append_left_inj "\n").1 hText
  have hReadable : ∀ filing ∈ before.filterMap Turn.filing?,
      ∀ o ∈ Forest.values filing.submission.points, o.Readable := fun filing hFiling =>
    (hLasting.left.tidy filing hFiling).readable (hLasting.left.readsBack filing hFiling)
  obtain ⟨hFound, results, hId, hOutput⟩ :=
    Invocation.retrieve_of_filed hArchive (hOpen archive) hStore hReadable hFiled metrics trim
  obtain ⟨hRun, -, hNone⟩ := Turn.run_eq hRetrieve
  rw [(Turn.run_of_no_filing hNone).1, hRun]
  exact ⟨hFound, results, congrArg Uuid.text hId, hOutput⟩

/-- What was submitted before is counted. -/
theorem inspected_before (hInspect : Invocation.ofArguments turn.arguments =
      .ok ⟨overrides, metrics, .inspect path⟩) :
    turn.outcome.exitCode = 0 ∧
      turn.outcome.output = String.join (Table.all.map fun table =>
        tableLine table (Filing.rowCount (before.filterMap Turn.filing?) table)) := by
  obtain ⟨hSaved, hLasting⟩ := saved_before hFollow hAt hFresh hTurns
  obtain ⟨store, hStore, hOpen⟩ := hSaved.exists_open hLasting.left
  obtain ⟨hRun, -, hNone⟩ := Turn.run_eq hInspect
  rw [(Turn.run_of_no_filing hNone).1, hRun]
  exact Invocation.inspect_of_keeps hArchive (hOpen archive) hStore metrics

end Reading

end Run

/-- Turns at a snapshot file are like turns on one store in memory. -/
structure LikeOneStore (path : String) (turns : List Turn) : Prop where
  /-- Each turn tells what the same command tells on one store that is kept from turn to turn. -/
  told : turns.map Turn.told = outcomesOn .empty turns
  /-- A turn that fails leaves all files as they are, and so does one that is not to store anything.
  -/
  unchanged (turn : Turn) (hTurn : turn ∈ turns)
    (h : turn.outcome.exitCode ≠ 0 ∨ ¬ turn.Stores) : turn.after = turn.folder
  /-- A turn that is to store something succeeds just if all that it names can be used. It tells the
  id of the execution. -/
  stored (turn : Turn) (hTurn : turn ∈ turns) (hStores : turn.Stores) :
    (turn.outcome.exitCode = 0 ↔ turn.filing?.isSome = true) ∧
      ∀ filing, turn.filing? = some filing → turn.outcome.output = filing.id.text ++ "\n"
  /-- An id that was told is found in every later turn. -/
  found (before : List Turn) (turn : Turn) (after : List Turn)
    (hTurns : turns = before ++ turn :: after) (earlier : Turn) (hEarlier : earlier ∈ before)
    (hStores : earlier.Stores) (hStored : earlier.outcome.exitCode = 0) (text : String)
    (hText : earlier.outcome.output = text ++ "\n") (overrides : Overrides) (metrics trim : Bool)
    (hRetrieve : Invocation.ofArguments turn.arguments =
      .ok ⟨overrides, metrics, .retrieve path text trim⟩) (archive : Archive)
    (hArchive : overrides.archive turn.folder.look turn.supply = .ok archive) :
    turn.outcome.exitCode = 0 ∧ ∃ results : Results, results.executionId.text = text ∧
      turn.outcome.output = results.toJson.lines ++ "\n"
  /-- An inspection counts the distinct ids that were stored before, and their points. -/
  inspected (before : List Turn) (turn : Turn) (after : List Turn)
    (hTurns : turns = before ++ turn :: after) (overrides : Overrides) (metrics : Bool)
    (hInspect : Invocation.ofArguments turn.arguments = .ok ⟨overrides, metrics, .inspect path⟩)
    (archive : Archive)
    (hArchive : overrides.archive turn.folder.look turn.supply = .ok archive) :
    turn.outcome.exitCode = 0 ∧
      turn.outcome.output = String.join (Table.all.map fun table =>
        tableLine table (Filing.rowCount (before.filterMap Turn.filing?) table))

/-- Turns that follow each other at a snapshot file, which is not there at first, are like turns on
one store in memory. Between them all files may change but the snapshot. -/
theorem likeOneStore_of_follow (path : String) (turns : List Turn)
    (hFollow : Follow path .absent turns) (hAt : ∀ turn ∈ turns, turn.At path)
    (hFresh : (Filing.rowIds (turns.filterMap Turn.filing?)).Nodup) :
    LikeOneStore path turns where
  told := (simulates hAt hFollow .absent keeps_empty (lasting_filings hAt hFresh)).1
  unchanged := fun _ hTurn h => unchanged_of_failure hFollow hAt hFresh hTurn h
  stored := by
    intro turn hTurn hStores
    have hStored := fun filing (hFiling : turn.filing? = some filing) =>
      stored_of_filing hFollow hAt hFresh hTurn hFiling
    refine ⟨⟨fun hCode => ?_, fun hFiling => ?_⟩, fun filing hFiling => (hStored filing hFiling).2⟩
    · exact Option.isSome_iff_exists.2 (Turn.exists_filing hStores hCode)
    · obtain ⟨filing, hFiling⟩ := Option.isSome_iff_exists.1 hFiling
      exact (hStored filing hFiling).1
  found := by
    intro before turn after hTurns earlier hEarlier hStores hCode text hText overrides metrics trim
      hRetrieve archive hArchive
    exact found_of_earlier hFollow hAt hFresh hTurns hArchive hEarlier hStores hCode hText
      hRetrieve
  inspected := by
    intro before turn after hTurns overrides metrics hInspect archive hArchive
    exact inspected_before hFollow hAt hFresh hTurns hArchive hInspect

/-! ## A small history -/

/-- Three points, one of them below another, as they are handed over. -/
def handedOver : Json :=
  (Archive.plainSubmission none Archive.nestedPoints).toJson

/-- A submission is stored from a folder that has its text and nothing else. -/
def storeTurn (text : String) : Turn :=
  { arguments := ["store", "--snapshot", "db.json", "--input", "in.json"]
    folder := .ofFiles [("in.json", text)]
    supply := .seeded 0 }

/-- It is to be stored again, in chunks of no size. -/
def refusedTurn (text : String) : Turn :=
  { arguments := ["store", "--snapshot=db.json", "--input=in.json", "--chunk-size=0"]
    folder := (storeTurn text).after
    supply := .seeded 1 }

/-- What was stored is counted. -/
def inspectTurn (text : String) : Turn :=
  { arguments := ["inspect", "--snapshot=db.json"]
    folder := (refusedTurn text).after
    supply := .seeded 1 }

/-- What was stored is retrieved, without its matches. -/
def retrieveTurn (text : String) : Turn :=
  { arguments :=
      ["retrieve", "--trim", "--snapshot=db.json", "--", (Supply.seeded 0).take.1.text]
    folder := (inspectTurn text).after
    supply := .seeded 1 }

/-- The four turns. -/
def history (text : String) : List Turn :=
  [storeTurn text, refusedTurn text, inspectTurn text, retrieveTurn text]

/-- The numbers in the document that is handed over are read back from their texts. -/
theorem readsBack_handedOver : handedOver.ReadsBack := by
  have hZero : (Scalar.double .zero).ReadsBack := by decide +kernel
  have hDouble : (Json.ofDouble .zero).ReadsBack := readsBack_ofDouble fun _ => hZero
  have hInt : (Json.ofInt64 0).ReadsBack := readsBack_ofInt64 0
  simp [handedOver, Submission.toJson, Archive.plainSubmission, Archive.plainParams,
    Archive.nestedPoints, Assembly.plainPoint, Params.toJson, Stats.toJson, Forest.toJson,
    Forest.toJsons, Tree.toJson, Observation.members, Json.option, Json.member?, Instant.toJson,
    Json.ofStrings, Json.ReadsBack, Json.ReadsBackMembers, Json.ReadsBackItems, Scalar.ReadsBack,
    hDouble, hInt]

/-- What the submission is read as. -/
theorem exists_submission : ∃ submission,
    Json.ofText Submission.read handedOver.compact = .ok submission ∧
      submission.executionId = none ∧ Forest.size submission.points = 3 ∧
      (∀ t ∈ submission.instants, t.FourDigitYear) ∧
      ∀ x ∈ submission.doubles, (Scalar.double x).ReadsBack := by
  have hRead : ((Submission.read ⟨.text, Json.maxLevels⟩ handedOver.toDraft).toOption.any
      fun submission => submission.executionId = none ∧ Forest.size submission.points = 3 ∧
        (∀ t ∈ submission.instants, t.FourDigitYear) ∧
        ∀ x ∈ submission.doubles, (Scalar.double x).ReadsBack) = true := by
    decide +kernel
  obtain ⟨submission, hSubmission, hFacts⟩ := (Option.any_eq_true _ _).1 hRead
  refine ⟨submission, ?_, of_decide_eq_true hFacts⟩
  rw [Json.ofText, Json.ofText_compact readsBack_handedOver]
  cases hDraft : Submission.read ⟨.text, Json.maxLevels⟩ handedOver.toDraft with
  | error fault =>
    rw [hDraft] at hSubmission
    cases hSubmission
  | ok found =>
    rw [hDraft] at hSubmission
    cases hSubmission
    rfl

section History

variable {text : String}

/-- The first turn is read as the storing of a file in a snapshot. -/
theorem ofArguments_storeTurn : Invocation.ofArguments (storeTurn text).arguments =
    .ok ⟨{}, false, .store "db.json" "in.json" none⟩ :=
  rfl

/-- The second one is read as the same with a size of chunks that cannot be used. -/
theorem ofArguments_refusedTurn : Invocation.ofArguments (refusedTurn text).arguments =
    .ok ⟨{ chunkSize := some 0 }, false, .store "db.json" "in.json" none⟩ :=
  rfl

/-- The third one is read as an inspection. -/
theorem ofArguments_inspectTurn : Invocation.ofArguments (inspectTurn text).arguments =
    .ok ⟨{}, false, .inspect "db.json"⟩ :=
  rfl

/-- The last one is read as a retrieval. -/
theorem ofArguments_retrieveTurn : Invocation.ofArguments (retrieveTurn text).arguments =
    .ok ⟨{}, false, .retrieve "db.json" (Supply.seeded 0).take.1.text true⟩ :=
  rfl

/-- Without a configuration file there is an archive. -/
theorem exists_archive (files : String → FileState) (supply : Supply) :
    ∃ archive, Overrides.archive {} files supply = .ok archive :=
  ⟨_, rfl⟩

/-- The first turn meets a folder without others. -/
theorem layout_storeTurn : (storeTurn text).folder.layout = Folder.alone :=
  rfl

/-- The turns follow each other at a file that is not there at first. -/
theorem follow_history : Follow "db.json" .absent (history text) := by
  have hPlace : Folder.alone.placeOf "db.json" = .file Folder.alone.home "db.json" := by
    decide +kernel
  have hAbsent : (storeTurn text).folder.look "db.json" = .absent := by
    rw [Folder.look, layout_storeTurn, hPlace]
    rfl
  exact ⟨hAbsent, rfl, rfl, rfl, trivial⟩

/-- The first turn stores what its file is read as. -/
theorem filing?_storeTurn {submission : Submission}
    (h : Json.ofText Submission.read text = .ok submission) :
    (storeTurn text).filing? = some ⟨submission, .seeded 0⟩ := by
  have hPlace : Folder.alone.placeOf "in.json" = .file Folder.alone.home "in.json" := by
    decide +kernel
  have hLook : (storeTurn text).folder.look "in.json" = .text text := by
    rw [Folder.look, layout_storeTurn, hPlace]
    rfl
  obtain ⟨archive, hArchive⟩ :=
    exists_archive (storeTurn text).folder.look (storeTurn text).supply
  have hSubmission : readSubmission (storeTurn text).folder.look "in.json" none = .ok submission :=
    readSubmission_of_ofText hLook h none
  rw [(Turn.run_eq ofArguments_storeTurn).2.2]
  simp only [Invocation.filing?, hArchive, hSubmission]
  rfl

/-- The second one stores nothing, as no archive has its configuration. -/
theorem filing?_refusedTurn : (refusedTurn text).filing? = none := by
  rw [(Turn.run_eq ofArguments_refusedTurn).2.2]
  rfl

/-- The third one is not to store anything. -/
theorem filing?_inspectTurn : (inspectTurn text).filing? = none :=
  (Turn.run_eq ofArguments_inspectTurn).2.2

/-- The last one is not to store anything. -/
theorem filing?_retrieveTurn : (retrieveTurn text).filing? = none :=
  (Turn.run_eq ofArguments_retrieveTurn).2.2

/-- One submission is stored in all. -/
theorem filings_history {submission : Submission}
    (h : Json.ofText Submission.read text = .ok submission) :
    (history text).filterMap Turn.filing? = [⟨submission, .seeded 0⟩] := by
  simp only [history, List.filterMap_cons, List.filterMap_nil, filing?_storeTurn h,
    filing?_refusedTurn, filing?_inspectTurn, filing?_retrieveTurn]

/-- The submission is stored in the first two turns. -/
theorem filings_before {submission : Submission}
    (h : Json.ofText Submission.read text = .ok submission) :
    [storeTurn text, refusedTurn text].filterMap Turn.filing? = [⟨submission, .seeded 0⟩] := by
  simp only [List.filterMap_cons, List.filterMap_nil, filing?_storeTurn h, filing?_refusedTurn]

/-- The snapshot file can be replaced in the turn that stores something. -/
theorem replaceable_history : ∀ turn ∈ history text, ∀ filing, turn.filing? = some filing →
    turn.folder.Replaceable "db.json" := by
  have hStore : (storeTurn text).folder.Replaceable "db.json" := by
    refine ⟨⟨Folder.alone.home, "db.json", ?_⟩, ⟨Folder.alone.home, "db.json.tmp", ?_⟩⟩ <;>
    · rw [layout_storeTurn]
      decide +kernel
  simp only [history, List.forall_mem_cons, filing?_refusedTurn, filing?_inspectTurn,
    filing?_retrieveTurn, reduceCtorEq, List.not_mem_nil, IsEmpty.forall_iff, implies_true,
    and_true]
  exact fun _ _ => hStore

/-- All turns are at the same snapshot, and what is stored can be saved and read back. -/
theorem at_history {submission : Submission}
    (h : Json.ofText Submission.read text = .ok submission)
    (hYears : ∀ t ∈ submission.instants, t.FourDigitYear)
    (hReads : ∀ x ∈ submission.doubles, (Scalar.double x).ReadsBack) :
    ∀ turn ∈ history text, turn.At "db.json" := by
  have hFiling : ∀ turn ∈ history text, ∀ filing, turn.filing? = some filing →
      filing.submission = submission := by
    intro turn hTurn filing hFiling
    have hMem := List.mem_filterMap.2 ⟨turn, hTurn, hFiling⟩
    rw [filings_history h, List.mem_singleton] at hMem
    rw [hMem]
  have hSnapshot : ∀ turn ∈ history text, ∃ invocation,
      Invocation.ofArguments turn.arguments = .ok invocation ∧
        invocation.command.snapshot = "db.json" := by
    simp only [history, List.forall_mem_cons]
    exact ⟨⟨_, ofArguments_storeTurn, rfl⟩, ⟨_, ofArguments_refusedTurn, rfl⟩,
      ⟨_, ofArguments_inspectTurn, rfl⟩, ⟨_, ofArguments_retrieveTurn, rfl⟩, by simp⟩
  intro turn hTurn
  refine ⟨fun invocation hInvocation => ?_, replaceable_history turn hTurn,
    fun filing hSome => ?_, fun filing hSome x hx _ => ?_⟩
  · obtain ⟨found, hFound, hPath⟩ := hSnapshot turn hTurn
    obtain rfl : found = invocation := Except.ok.inj (hFound.symm.trans hInvocation)
    exact hPath
  · rw [hFiling turn hTurn filing hSome]
    exact hYears
  · rw [hFiling turn hTurn filing hSome] at hx
    exact hReads x hx

end History

/-- What is stored is counted and found in the turns that follow. -/
theorem likeOneStore_of_follow_history :
    (storeTurn handedOver.compact).outcome.output = (Supply.seeded 0).take.1.text ++ "\n" ∧
      (refusedTurn handedOver.compact).after = (refusedTurn handedOver.compact).folder ∧
      (inspectTurn handedOver.compact).outcome.output =
        String.join (Table.all.map fun table => tableLine table (if table = .data then 3 else 1)) ∧
      (retrieveTurn handedOver.compact).outcome.exitCode = 0 := by
  obtain ⟨submission, hText, hId, hSize, hYears, hReads⟩ := exists_submission
  generalize handedOver.compact = text at hText
  have hFilings := filings_history hText
  have hIdCount : submission.idCount = 4 := by rw [Submission.idCount, hId, hSize]; rfl
  have hFresh : (Filing.rowIds ((history text).filterMap Turn.filing?)).Nodup := by
    rw [hFilings, Filing.rowIds, List.flatMap_singleton]
    apply Submission.rowIds_sublist.nodup
    show ((List.range' 0 submission.idCount).map (Supply.seeded 0).mint).Nodup
    rw [hIdCount]
    decide +kernel
  have hLike := likeOneStore_of_follow "db.json" (history text) follow_history
    (at_history hText hYears hReads) hFresh
  have hFiling := filing?_storeTurn hText
  have hStores : (storeTurn text).Stores := ⟨_, _, _, _, _, ofArguments_storeTurn⟩
  obtain ⟨hStored, hOutput⟩ := hLike.stored (storeTurn text) (by simp [history]) hStores
  have hCode := hStored.2 (hFiling ▸ rfl)
  have hTold := hOutput _ hFiling
  have hName : (Filing.mk submission (.seeded 0)).id = (Supply.seeded 0).take.1 := by
    rw [Filing.id, Submission.id, Submission.chooseId, hId]
  rw [hName] at hTold
  obtain ⟨archive, hArchive⟩ :=
    exists_archive (inspectTurn text).folder.look (inspectTurn text).supply
  obtain ⟨archive', hArchive'⟩ :=
    exists_archive (retrieveTurn text).folder.look (retrieveTurn text).supply
  refine ⟨hTold, ?_, ?_, ?_⟩
  · apply hLike.unchanged (refusedTurn text) (by simp [history])
    left
    rw [Turn.exitCode_of_no_filing filing?_refusedTurn ⟨_, _, _, _, _, ofArguments_refusedTurn⟩]
    decide
  · rw [(hLike.inspected [storeTurn text, refusedTurn text] (inspectTurn text) [retrieveTurn text]
      rfl _ _ ofArguments_inspectTurn archive hArchive).2]
    simp only [filings_before hText, Filing.rowCount_singleton, hSize]
  · exact (hLike.found [storeTurn text, refusedTurn text, inspectTurn text] (retrieveTurn text) []
      rfl (storeTurn text) (by simp) hStores hCode _ hTold _ _ _ ofArguments_retrieveTurn archive'
      hArchive').1

end Collocation.CommandLine
