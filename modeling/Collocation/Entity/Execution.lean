import Collocation.Entity.Time
import Collocation.Json.Write

/-!
# Executions

One run of the pipeline: when it began and ended, and who asked for it.
-/

set_option autoImplicit false

namespace Collocation

open Json

/-- Who ran a matchup, and when. -/
structure Execution where
  id : Uuid
  timeStarted : Instant
  timeCompleted : Instant
  userEmail : String
deriving DecidableEq

namespace Execution

def toJson (execution : Execution) : Json :=
  .object
    [ ("id", .ofUuid execution.id),
      ("time_started", execution.timeStarted.toJson),
      ("time_completed", execution.timeCompleted.toJson),
      ("user_email", .string execution.userEmail) ]

def read : Reader Execution :=
  readRecord ["id", "time_started", "time_completed", "user_email"] fun record =>
    Execution.mk
      <$> record.required "id" readUuid
      <*> record.required "time_started" readInstant
      <*> record.required "time_completed" readInstant
      <*> record.required "user_email" readString

end Execution

end Collocation
