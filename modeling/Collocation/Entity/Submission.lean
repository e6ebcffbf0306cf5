import Collocation.Entity.Entry
import Collocation.Entity.Params
import Collocation.Entity.Stats

/-!
# Submissions and results

What the pipeline hands over for one execution, and what is handed back.
-/

set_option autoImplicit false

namespace Collocation

open Json

/-- A whole execution, as it is handed over to be stored. -/
structure Submission where
  /-- An id of the caller's choice; a fresh one is taken when there is none. -/
  executionId : Option Uuid
  timeStarted : Instant
  timeCompleted : Instant
  userEmail : String
  params : Params
  stats : Stats
  points : List Point

namespace Submission

def toJson (submission : Submission) : Json :=
  .object
    [ ("executionId", .option .ofUuid submission.executionId),
      ("timeStarted", submission.timeStarted.toJson),
      ("timeCompleted", submission.timeCompleted.toJson),
      ("userEmail", .string submission.userEmail),
      ("params", submission.params.toJson),
      ("stats", submission.stats.toJson),
      ("points", Forest.toJson Observation.members submission.points) ]

def read : Reader Submission :=
  readRecord
    [ "executionId", "timeStarted", "timeCompleted", "userEmail", "params", "stats",
      "points" ] fun record =>
    Submission.mk
      <$> record.optional "executionId" readUuid
      <*> record.required "timeStarted" readTime
      <*> record.required "timeCompleted" readTime
      <*> record.required "userEmail" readString
      <*> record.required "params" Params.read
      <*> record.required "stats" Stats.read
      <*> record.defaulted "points" (readList Point.read) []

end Submission

/-- A whole execution, as it is read back. -/
structure Results where
  executionId : Uuid
  params : Params
  stats : Stats
  points : List EntryTree

def Results.toJson (results : Results) : Json :=
  .object
    [ ("executionId", .ofUuid results.executionId),
      ("params", results.params.toJson),
      ("stats", results.stats.toJson),
      ("points", Forest.toJson Entry.members results.points) ]

end Collocation
