import Collocation.CommandLine.Run
import Collocation.Proofs.Archive.Agreement
import Collocation.Proofs.Archive.Snapshots

/-!
# Commands on one store

What commands come to on a store that is kept in memory from one to the next, in place of a snapshot
file that each of them opens. A command tells the same in either case, if the store that it opens
keeps the same submissions as the one in memory.
-/

set_option autoImplicit false

namespace Collocation.CommandLine

/-! ## A store in memory -/

namespace Command

/-- The snapshot file of a command. -/
def snapshot : Command → String
  | store snapshot _ _ => snapshot
  | retrieve snapshot _ _ => snapshot
  | inspect snapshot => snapshot

/-- What a command prints on the store that an archive has, and the archive after it. -/
def performOn (command : Command) (files : String → FileState) (archive : Archive) :
    Except RunError String × Archive :=
  match command with
  | store _ input executionId =>
    match readSubmission files input executionId with
    | .error error => (.error error, archive)
    | .ok submission =>
      let (result, archive) := archive.submit submission
      ((plainly result).map fun id => id.text ++ "\n", archive)
  | retrieve _ executionId trim =>
    ( (plainly (archive.retrieveText executionId trim)).map fun results =>
        results.toJson.lines ++ "\n",
      archive )
  | inspect _ => (.ok (String.join (Table.all.map (inspectionLine archive.store))), archive)

end Command

/-- The outcome of an invocation on a kept store, and the store after it. An invocation that fails
changes nothing. -/
def Invocation.runOn (invocation : Invocation) (files : String → FileState) (supply : Supply)
    (kept : Store) : Outcome × Store :=
  match invocation.overrides.archive files supply with
  | .error error => ({ exitCode := 1, error := some error, supply }, kept)
  | .ok archive =>
    let (result, archive) := invocation.command.performOn files (archive.withStore kept)
    let metrics := if invocation.metrics then some archive.metrics else none
    let supply := archive.supply
    match result with
    | .error error => ({ exitCode := 1, error := some error, metrics, supply }, kept)
    | .ok output => ({ exitCode := 0, output, metrics, supply }, archive.store)

/-- The outcome of arguments on a kept store, and the store after it. -/
def runOn (arguments : List String) (files : String → FileState) (supply : Supply) (kept : Store) :
    Outcome × Store :=
  match Invocation.ofArguments arguments with
  | .error stop => (.ofStop supply stop, kept)
  | .ok invocation => invocation.runOn files supply kept

/-- All that is told of an outcome: everything but the file to be saved. -/
def Outcome.told (outcome : Outcome) : Outcome :=
  { outcome with save := none }

/-! ## What is submitted -/

/-- The submission of an invocation that stores one, if its configuration and its input can be used.
-/
def Invocation.filing? (invocation : Invocation) (files : String → FileState) (supply : Supply) :
    Option Filing :=
  match invocation.command with
  | .store _ input executionId =>
    match invocation.overrides.archive files supply, readSubmission files input executionId with
    | .ok _, .ok submission => some ⟨submission, supply⟩
    | _, _ => none
  | _ => none

/-- The submission of arguments that store one, if all that they name can be used. -/
def filing? (arguments : List String) (files : String → FileState) (supply : Supply) :
    Option Filing :=
  match Invocation.ofArguments arguments with
  | .error _ => none
  | .ok invocation => invocation.filing? files supply

/-- An archive starts with the supply that is given and with fresh metrics. -/
theorem Overrides.archive_eq_ok {overrides : Overrides} {files : String → FileState}
    {supply : Supply} {archive : Archive} (h : overrides.archive files supply = .ok archive) :
    archive.supply = supply ∧ archive.metrics = {} := by
  obtain ⟨config, -, h⟩ := bind_eq_ok_iff.1 h
  obtain ⟨_, -, rfl⟩ := map_eq_ok_iff.1 (mapError_eq_ok_iff.1 (mapError_eq_ok_iff.1 h))
  exact ⟨rfl, rfl⟩

/-- A submission that is read from a file is tidy. -/
theorem tidy_of_readSubmission {files : String → FileState} {path : String}
    {executionId : Option Uuid} {submission : Submission}
    (h : readSubmission files path executionId = .ok submission) : submission.Tidy := by
  obtain ⟨text, -, h⟩ := bind_eq_ok_iff.1 h
  obtain ⟨found, hFound, h⟩ := bind_eq_ok_iff.1 h
  cases h
  have hTidy := Submission.tidy_of_ofText (mapError_eq_ok_iff.1 (mapError_eq_ok_iff.1 hFound))
  exact ⟨hTidy.params, hTidy.points⟩

/-- A submission is read from a file as its text gives it, under the id that is given. -/
theorem readSubmission_of_ofText {files : String → FileState} {path text : String}
    (hFile : files path = .text text) {submission : Submission}
    (h : Json.ofText Submission.read text = .ok submission) (executionId : Option Uuid) :
    readSubmission files path executionId =
      .ok { submission with executionId := executionId.or submission.executionId } := by
  rw [readSubmission, hFile]
  change (during _ ((Json.ofText Submission.read text).mapError .json)).bind _ = _
  rw [h]
  rfl

section Filing

variable {invocation : Invocation} {files : String → FileState} {supply : Supply}

/-- An invocation that stores a submission has a configuration and an input that can be used. -/
theorem Invocation.filing?_eq_some {filing : Filing}
    (h : invocation.filing? files supply = some filing) :
    ∃ path input executionId archive, invocation.command = .store path input executionId ∧
      invocation.overrides.archive files supply = .ok archive ∧
      readSubmission files input executionId = .ok filing.submission ∧ filing.supply = supply := by
  rw [filing?] at h
  cases hCommand : invocation.command with
  | store path input executionId =>
    rw [hCommand] at h
    cases hArchive : invocation.overrides.archive files supply with
    | error error =>
      simp only [hArchive] at h
      cases h
    | ok archive =>
      cases hSubmission : readSubmission files input executionId with
      | error error =>
        simp only [hArchive, hSubmission] at h
        cases h
      | ok submission =>
        simp only [hArchive, hSubmission, Option.some.injEq] at h
        subst h
        exact ⟨path, input, executionId, archive, rfl, rfl, hSubmission, rfl⟩
  | retrieve | inspect =>
    rw [hCommand] at h
    cases h

end Filing

/-! ## Snapshot files -/

/-- Submissions with rows of their own, whose stores can be saved and opened again. -/
structure Lasting (filed : List Filing) : Prop where
  nodup : (Filing.rowIds filed).Nodup
  tidy (filing : Filing) (h : filing ∈ filed) : filing.submission.Tidy
  years (filing : Filing) (h : filing ∈ filed) :
    ∀ t ∈ filing.submission.instants, t.FourDigitYear
  readsBack (filing : Filing) (h : filing ∈ filed) :
    ∀ x ∈ filing.submission.doubles, (Scalar.double x).ReadsBack

/-- What lasts of some submissions and others lasts of the first ones. -/
theorem Lasting.left {filed others : List Filing} (h : Lasting (filed ++ others)) :
    Lasting filed where
  nodup := Filing.nodup_rowIds_left h.nodup
  tidy := fun filing hFiling => h.tidy filing (List.mem_append_left _ hFiling)
  years := fun filing hFiling => h.years filing (List.mem_append_left _ hFiling)
  readsBack := fun filing hFiling => h.readsBack filing (List.mem_append_left _ hFiling)

/-- What a snapshot file has after some submissions: nothing before the first one, then the text of
a store that keeps them. -/
inductive Saved : List Filing → FileState → Prop
  | absent : Saved [] .absent
  | text {filed : List Filing} {store : Store} (h : store.Keeps filed) :
    Saved filed (.text store.text)

/-- An empty store keeps no submissions. -/
theorem keeps_empty : Store.empty.Keeps [] :=
  Store.keeps_nil rfl rfl rfl rfl rfl

/-- A snapshot file is opened, and the store keeps what was saved. -/
theorem Saved.exists_open {filed : List Filing} {files : String → FileState} {path : String}
    (h : Saved filed (files path)) (hLasting : Lasting filed) :
    ∃ store : Store, store.Keeps filed ∧
      ∀ archive, openSnapshot files path archive = .ok (archive.withStore store) := by
  generalize hFile : files path = file at h
  cases h with
  | absent =>
    refine ⟨.empty, keeps_empty, fun archive => ?_⟩
    rw [openSnapshot, hFile]
    rfl
  | @text _ store hKeeps =>
    refine ⟨store.reopened, hKeeps.reopened, fun archive => ?_⟩
    have hText := hKeeps.ofText_text hLasting.tidy hLasting.years hLasting.readsBack
    rw [openSnapshot, hFile]
    change during _ ((Store.ofText store.text).map archive.withStore) = _
    rw [hText]
    rfl

/-! ## One command -/

section Agreement

variable {files : String → FileState} {archive : Archive} {store kept : Store}
  {filed : List Filing} (hStore : store.Keeps filed) (hKept : kept.Keeps filed)
include hStore hKept

/-- A command tells the same on a store that it opens and on a kept one. -/
theorem Command.perform_agrees {command : Command}
    (hOpen : openSnapshot files command.snapshot archive = .ok (archive.withStore store))
    (hNodup : ∀ path input executionId submission, command = .store path input executionId →
      readSubmission files input executionId = .ok submission →
        (Filing.rowIds (filed ++ [⟨submission, archive.supply⟩])).Nodup) :
    (command.perform files archive).1.map Effect.output =
        (command.performOn files (archive.withStore kept)).1 ∧
      (command.perform files archive).2.supply =
        (command.performOn files (archive.withStore kept)).2.supply ∧
      (command.perform files archive).2.metrics =
        (command.performOn files (archive.withStore kept)).2.metrics := by
  cases command with
  | store path input executionId =>
    cases hSubmission : readSubmission files input executionId with
    | error error =>
      simp only [perform, performOn, hSubmission]
      exact ⟨rfl, rfl, rfl⟩
    | ok submission =>
      have hWith : (archive.withStore store).Holds filed := hStore
      obtain ⟨hResult, hSupply, hMetrics⟩ := hWith.submit_congr hKept submission
        (hNodup path input executionId submission rfl hSubmission)
      have hOpened : openSnapshot files path archive = .ok (archive.withStore store) := hOpen
      change ((archive.withStore kept).submit submission).1 = _ at hResult
      simp only [perform, performOn, hSubmission, hOpened, hResult]
      refine ⟨?_, hSupply.symm, hMetrics.symm⟩
      cases ((archive.withStore store).submit submission).1 <;> rfl
  | retrieve path text trim =>
    have hOpened : openSnapshot files path archive = .ok (archive.withStore store) := hOpen
    have hResult : (archive.withStore kept).retrieveText text trim =
        (archive.withStore store).retrieveText text trim := by
      rw [Archive.retrieveText, Archive.retrieveText]
      refine bind_congr fun id => ?_
      exact hStore.retrieve_eq hKept archive.depth id trim
    simp only [perform, performOn, hOpened, hResult, bind, Except.bind]
    refine ⟨?_, rfl, rfl⟩
    cases plainly ((archive.withStore store).retrieveText text trim) <;> rfl
  | inspect path =>
    have hOpened : openSnapshot files path archive = .ok (archive.withStore store) := hOpen
    have hLines : inspectionLine store = inspectionLine kept := by
      funext table
      rw [inspectionLine, inspectionLine, hStore.tableSize_eq, hKept.tableSize_eq]
    refine ⟨?_, rfl, rfl⟩
    simp only [perform, performOn, hOpened, bind, Except.bind, Archive.withStore, hLines]
    rfl

/-- An invocation tells the same on a snapshot file and on a kept store. -/
theorem Invocation.told_eq {invocation : Invocation} {supply : Supply}
    (hOpen : ∀ archive, openSnapshot files invocation.command.snapshot archive =
      .ok (archive.withStore store))
    (hNodup : ∀ filing, invocation.filing? files supply = some filing →
      (Filing.rowIds (filed ++ [filing])).Nodup) :
    (Outcome.ofInvocation invocation files supply).told =
      (invocation.runOn files supply kept).1 := by
  cases hArchive : invocation.overrides.archive files supply with
  | error error =>
    simp only [Outcome.ofInvocation, runOn, hArchive]
    rfl
  | ok archive =>
    have hSupply := (Overrides.archive_eq_ok hArchive).1
    have hRows : ∀ path input executionId submission,
        invocation.command = .store path input executionId →
          readSubmission files input executionId = .ok submission →
            (Filing.rowIds (filed ++ [⟨submission, archive.supply⟩])).Nodup := by
      intro path input executionId submission hCommand hSubmission
      rw [hSupply]
      apply hNodup
      simp only [filing?, hCommand, hArchive, hSubmission]
    obtain ⟨hResult, hSupplies, hMetrics⟩ :=
      Command.perform_agrees hStore hKept (hOpen archive) hRows
    simp only [Outcome.ofInvocation, runOn, hArchive, ← hResult, ← hSupplies, ← hMetrics]
    cases (invocation.command.perform files archive).1 <;> rfl

end Agreement

/-! ## Commands that store nothing -/

section Filing

variable {invocation : Invocation} {files : String → FileState} {supply : Supply}
  (h : invocation.filing? files supply = none)
include h

/-- A command that is to store something and does not can use its configuration or its input, but
not both. -/
theorem Invocation.exists_error_of_no_filing {path input : String} {executionId : Option Uuid}
    (hCommand : invocation.command = .store path input executionId) {archive : Archive}
    (hArchive : invocation.overrides.archive files supply = .ok archive) :
    ∃ error, readSubmission files input executionId = .error error := by
  cases hSubmission : readSubmission files input executionId with
  | error error => exact ⟨error, rfl⟩
  | ok submission =>
    simp only [filing?, hCommand, hArchive, hSubmission] at h
    cases h

/-- If a command is to store something and does not, it fails. -/
theorem Invocation.exitCode_of_no_filing {path input : String} {executionId : Option Uuid}
    (hCommand : invocation.command = .store path input executionId) :
    (Outcome.ofInvocation invocation files supply).exitCode = 1 := by
  cases hArchive : invocation.overrides.archive files supply with
  | error error =>
    simp only [Outcome.ofInvocation, hArchive]
  | ok archive =>
    obtain ⟨error, hError⟩ := exists_error_of_no_filing h hCommand hArchive
    simp only [Outcome.ofInvocation, hArchive, hCommand, Command.perform, hError]

/-- A command that stores nothing saves nothing. -/
theorem Invocation.save_of_no_filing :
    (Outcome.ofInvocation invocation files supply).save = none := by
  cases hArchive : invocation.overrides.archive files supply with
  | error error =>
    simp only [Outcome.ofInvocation, hArchive]
  | ok archive =>
    have hSave : ∀ effect, (invocation.command.perform files archive).1 = .ok effect →
        effect.save = none := by
      intro effect hEffect
      cases hCommand : invocation.command with
      | store path input executionId =>
        obtain ⟨error, hError⟩ := exists_error_of_no_filing h hCommand hArchive
        simp only [hCommand, Command.perform, hError] at hEffect
        cases hEffect
      | retrieve path text trim =>
        simp only [hCommand, Command.perform, bind_eq_ok_iff] at hEffect
        obtain ⟨_, -, _, -, hEffect⟩ := hEffect
        rw [← Except.ok.inj hEffect]
      | inspect path =>
        simp only [hCommand, Command.perform, bind_eq_ok_iff] at hEffect
        obtain ⟨_, -, hEffect⟩ := hEffect
        rw [← Except.ok.inj hEffect]
    simp only [Outcome.ofInvocation, hArchive]
    cases hResult : (invocation.command.perform files archive).1 with
    | error error => rfl
    | ok effect => exact hSave effect hResult

/-- A command that stores nothing leaves a kept store as it is. -/
theorem Invocation.runOn_of_no_filing (kept : Store) :
    (invocation.runOn files supply kept).2 = kept := by
  cases hArchive : invocation.overrides.archive files supply with
  | error error =>
    simp only [runOn, hArchive]
  | ok archive =>
    have hStore : (invocation.command.performOn files (archive.withStore kept)).2.store = kept := by
      cases hCommand : invocation.command with
      | store path input executionId =>
        obtain ⟨error, hError⟩ := exists_error_of_no_filing h hCommand hArchive
        simp only [Command.performOn, hError]
        rfl
      | retrieve | inspect => rfl
    simp only [runOn, hArchive]
    cases (invocation.command.performOn files (archive.withStore kept)).1 with
    | error error => rfl
    | ok output => exact hStore

end Filing

/-! ## Commands that store something -/

section Filing

variable {invocation : Invocation} {files : String → FileState} {supply : Supply} {filing : Filing}
  (h : invocation.filing? files supply = some filing) {filed : List Filing}
include h

/-- A submission that can be used is stored, and its id is told. -/
theorem Invocation.ofInvocation_of_filing {store : Store} (hStore : store.Keeps filed)
    (hOpen : ∀ archive, openSnapshot files invocation.command.snapshot archive =
      .ok (archive.withStore store))
    (hNodup : (Filing.rowIds (filed ++ [filing])).Nodup) :
    ∃ after : Store, after.Keeps (filed ++ [filing]) ∧
      (Outcome.ofInvocation invocation files supply).exitCode = 0 ∧
      (Outcome.ofInvocation invocation files supply).output = filing.id.text ++ "\n" ∧
      (Outcome.ofInvocation invocation files supply).save =
        some ⟨invocation.command.snapshot, after.text⟩ := by
  obtain ⟨path, input, executionId, archive, hCommand, hArchive, hSubmission, hSupply⟩ :=
    filing?_eq_some h
  have hWith : (archive.withStore store).Holds filed := hStore
  have hOpened := hOpen archive
  rw [hCommand] at hOpened ⊢
  obtain ⟨hResult, hAfter⟩ := hWith.submit filing
    (hSupply.trans (Overrides.archive_eq_ok hArchive).1.symm) hNodup
  change openSnapshot files path archive = _ at hOpened
  refine ⟨_, hAfter, ?_⟩
  simp only [Outcome.ofInvocation, hArchive, hCommand, Command.perform, hSubmission, hOpened,
    hResult]
  exact ⟨rfl, rfl, rfl⟩

/-- It is stored in a kept store as well. -/
theorem Invocation.runOn_of_filing {kept : Store} (hKept : kept.Keeps filed)
    (hNodup : (Filing.rowIds (filed ++ [filing])).Nodup) :
    (invocation.runOn files supply kept).2.Keeps (filed ++ [filing]) := by
  obtain ⟨path, input, executionId, archive, hCommand, hArchive, hSubmission, hSupply⟩ :=
    filing?_eq_some h
  have hWith : (archive.withStore kept).Holds filed := hKept
  obtain ⟨hResult, hAfter⟩ := hWith.submit filing
    (hSupply.trans (Overrides.archive_eq_ok hArchive).1.symm) hNodup
  simp only [runOn, hArchive, hCommand, Command.performOn, hSubmission, hResult]
  exact hAfter

end Filing

/-! ## Commands that read -/

/-- The line of a table of so many rows. -/
def tableLine (table : Table) (rows : Nat) : String :=
  let padding := List.replicate (24 - table.name.length) ' '
  table.name ++ String.ofList padding ++ " " ++ toString rows ++ "\n"

/-- The line of a table tells how many rows the store has there. -/
theorem inspectionLine_eq (store : Store) (table : Table) :
    inspectionLine store table = tableLine table (store.tableSize table) :=
  rfl

section Reading

variable {overrides : Overrides} {files : String → FileState} {supply : Supply} {path : String}
  {archive : Archive} (hArchive : overrides.archive files supply = .ok archive) {store : Store}
  (hOpen : openSnapshot files path archive = .ok (archive.withStore store)) {filed : List Filing}
  (hStore : store.Keeps filed)
include hArchive hOpen hStore

/-- The id of what was submitted is found. -/
theorem Invocation.retrieve_of_filed
    (hReadable : ∀ filing ∈ filed, ∀ o ∈ Forest.values filing.submission.points, o.Readable)
    {filing : Filing} (hFiling : filing ∈ filed) (metrics trim : Bool) :
    let outcome := Outcome.ofInvocation ⟨overrides, metrics, .retrieve path filing.id.text trim⟩
      files supply
    outcome.exitCode = 0 ∧ ∃ results : Results, results.executionId = filing.id ∧
      outcome.output = results.toJson.lines ++ "\n" := by
  obtain ⟨results, hResults⟩ := hStore.exists_retrieve hReadable hFiling archive.depth trim
  have hText : (archive.withStore store).retrieveText filing.id.text trim = .ok results := by
    rw [Archive.retrieveText, parseExecutionId_text]
    exact hResults
  have hPlainly : plainly ((archive.withStore store).retrieveText filing.id.text trim) =
      .ok results := by
    rw [hText]
    rfl
  simp only [Outcome.ofInvocation, hArchive, Command.perform, hOpen, hPlainly, bind, Except.bind,
    pure, Except.pure, true_and]
  exact ⟨results, Store.executionId_of_retrieve hResults, rfl⟩

/-- What was submitted is counted. -/
theorem Invocation.inspect_of_keeps (metrics : Bool) :
    let outcome := Outcome.ofInvocation ⟨overrides, metrics, .inspect path⟩ files supply
    outcome.exitCode = 0 ∧ outcome.output =
      String.join (Table.all.map fun table => tableLine table (Filing.rowCount filed table)) := by
  have hLines : inspectionLine store =
      fun table => tableLine table (Filing.rowCount filed table) := by
    funext table
    rw [inspectionLine_eq, hStore.tableSize_eq]
  simp only [Outcome.ofInvocation, hArchive, Command.perform, hOpen, bind, Except.bind, pure,
    Except.pure, Archive.withStore, hLines, and_self]

end Reading

end Collocation.CommandLine
