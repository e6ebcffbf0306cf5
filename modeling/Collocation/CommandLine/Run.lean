import Collocation.Archive
import Collocation.CommandLine.Arguments
import Collocation.Store.Snapshot

/-!
# Runs

What a run of the program does, given what the files hold: it prints something, asks for a file to
be saved, or fails. Executions are kept in a snapshot file from one run to the next. A run that
fails saves nothing.
-/

set_option autoImplicit false

namespace Collocation.CommandLine

/-- What is found at a path. -/
inductive FileState where
  | absent
  | unreadable
  | text (contents : String)

/-- What was being done when a run failed. -/
inductive Step where
  | readingConfig (path : String)
  | readingSubmission (path : String)
  | parsingSubmission (path : String)
  | openingSnapshot (path : String)
  | savingSnapshot (path : String)

def Step.message : Step → String
  | readingConfig path => "reading config " ++ path
  | readingSubmission path => "reading submission " ++ path
  | parsingSubmission path => "parsing submission " ++ path
  | openingSnapshot path => "opening snapshot " ++ path
  | savingSnapshot path => "saving snapshot " ++ path

/-- Why a run failed: the cause, and the step at which it arose if that is told. -/
structure RunError where
  step : Option Step
  cause : Failure

/-- The first line of what is told of an error. -/
def RunError.message (error : RunError) : String :=
  match error.step with
  | some step => step.message
  | none => error.cause.message

/-- A result with the step at which it was sought. -/
def during {α : Type} (step : Step) (result : Except Failure α) : Except RunError α :=
  result.mapError fun cause => ⟨some step, cause⟩

/-- A result of which the cause alone is told. -/
def plainly {α : Type} (result : Except Failure α) : Except RunError α :=
  result.mapError fun cause => ⟨none, cause⟩

/-! ## Files -/

/-- What is written of a file that may be missing. -/
def FileState.contents? : FileState → Except Failure (Option String)
  | absent => .ok none
  | unreadable => .error .file
  | text contents => .ok (some contents)

/-- What is written in a file that has to be there. -/
def FileState.contents : FileState → Except Failure String
  | text contents => .ok contents
  | _ => .error .file

/-- A file that is to be replaced by way of a temporary one. -/
structure Save where
  path : String
  contents : String

/-! ## Configurations -/

namespace Overrides

/-- The configuration of a file, or the default one if there is none. -/
def base (overrides : Overrides) (files : String → FileState) : Except RunError Config :=
  match overrides.config with
  | none => .ok {}
  | some path => during (.readingConfig path) do
    match ← (files path).contents? with
    | none => return {}
    | some text => return (← Config.ofText text).val

/-- A configuration with what is given in place of its own. -/
def apply (overrides : Overrides) (config : Config) : Config :=
  { chunkSize := overrides.chunkSize.getD config.chunkSize
    maxAttempts := overrides.maxAttempts.getD config.maxAttempts
    retryBackoff := overrides.retryBackoff.getD config.retryBackoff
    rowTimeout := overrides.rowTimeout.or config.rowTimeout
    depth := overrides.depth.getD config.depth }

/-- The archive of a run, with an empty store. -/
def archive (overrides : Overrides) (files : String → FileState) (supply : Supply) :
    Except RunError Archive := do
  let config ← overrides.base files
  plainly ((Archive.ofConfig (overrides.apply config) supply).mapError .invalidConfig)

end Overrides

/-! ## Commands -/

/-- What a command that went well prints, and the file that it saves. -/
structure Effect where
  output : String
  save : Option Save := none

/-- The archive with the store of a snapshot file. -/
def openSnapshot (files : String → FileState) (path : String) (archive : Archive) :
    Except RunError Archive :=
  during (.openingSnapshot path) do
    let store ← Store.ofText? (← (files path).contents?)
    return archive.withStore store

/-- The submission in a file, with another id if one is given. -/
def readSubmission (files : String → FileState) (path : String) (executionId : Option Uuid) :
    Except RunError Submission := do
  let text ← during (.readingSubmission path) (files path).contents
  let submission ← during (.parsingSubmission path) <|
    (Json.ofText Submission.read text).mapError .json
  return { submission with executionId := executionId.or submission.executionId }

/-- A line of the table of an inspection. -/
def inspectionLine (store : Store) (table : Table) : String :=
  let padding := List.replicate (24 - table.name.length) ' '
  table.name ++ String.ofList padding ++ " " ++ toString (store.tableSize table) ++ "\n"

namespace Command

/-- The files that a command reads. -/
def inputs : Command → List String
  | store snapshot input _ => [input, snapshot]
  | retrieve snapshot _ _ => [snapshot]
  | inspect snapshot => [snapshot]

/-- What an archive prints for a command, and the archive after it. -/
def perform (command : Command) (files : String → FileState) (archive : Archive) :
    Except RunError Effect × Archive :=
  match command with
  | store snapshot input executionId =>
    match readSubmission files input executionId with
    | .error error => (.error error, archive)
    | .ok submission =>
      match openSnapshot files snapshot archive with
      | .error error => (.error error, archive)
      | .ok archive =>
        let (result, archive) := archive.submit submission
        ( (plainly result).map fun id =>
            { output := id.text ++ "\n", save := some ⟨snapshot, archive.store.text⟩ },
          archive )
  | retrieve snapshot executionId trim =>
    ( do
        let archive ← openSnapshot files snapshot archive
        let results ← plainly (archive.retrieveText executionId trim)
        return { output := results.toJson.lines ++ "\n" },
      archive )
  | inspect snapshot =>
    ( do
        let archive ← openSnapshot files snapshot archive
        return { output := String.join (Table.all.map (inspectionLine archive.store)) },
      archive )

end Command

/-! ## Whole runs -/

/-- What comes of a run. -/
structure Outcome where
  exitCode : UInt32
  output : String := ""
  error : Option RunError := none
  /-- The metrics, if they were asked for and there was an archive. -/
  metrics : Option Metrics := none
  save : Option Save := none
  supply : Supply

/-- The name and the version of the program. -/
def versionLine : String := "matchup-store 0.1.0\n"

/-- What is told of the usage. -/
def helpText : String :=
  "Persist and reconstruct matchup result trees\n\n" ++
    "matchup-store store --snapshot FILE --input FILE [--execution-id ID]\n" ++
    "matchup-store retrieve --snapshot FILE ID [--trim]\n" ++
    "matchup-store inspect --snapshot FILE\n"

namespace Outcome

/-- Of arguments that name no command to be run. -/
def ofStop (supply : Supply) : Stop → Outcome
  | .version => { exitCode := 0, output := versionLine, supply }
  | .help => { exitCode := 0, output := helpText, supply }
  | .usage => { exitCode := 2, supply }

/-- Of an invocation. -/
def ofInvocation (invocation : Invocation) (files : String → FileState) (supply : Supply) :
    Outcome :=
  match invocation.overrides.archive files supply with
  | .error error => { exitCode := 1, error := some error, supply }
  | .ok archive =>
    let (result, archive) := invocation.command.perform files archive
    let metrics := if invocation.metrics then some archive.metrics else none
    let supply := archive.supply
    match result with
    | .error error => { exitCode := 1, error := some error, metrics, supply }
    | .ok effect =>
      { exitCode := 0, output := effect.output, metrics, save := effect.save, supply }

/-- The outcome when its file could not be saved. -/
def unsaved (outcome : Outcome) : Outcome :=
  match outcome.save with
  | none => outcome
  | some save =>
    { outcome with
      exitCode := 1
      output := ""
      error := some ⟨some (.savingSnapshot save.path), .file⟩
      save := none }

end Outcome

/-- The files that an invocation reads. -/
def Invocation.inputs (invocation : Invocation) : List String :=
  invocation.overrides.config.toList ++ invocation.command.inputs

/-- The outcome of arguments, but for the saving of its file. -/
def run (arguments : List String) (files : String → FileState) (supply : Supply) : Outcome :=
  match Invocation.ofArguments arguments with
  | .error stop => .ofStop supply stop
  | .ok invocation => .ofInvocation invocation files supply

end Collocation.CommandLine
