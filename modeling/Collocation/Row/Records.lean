import Collocation.Entity.Execution
import Collocation.Entity.Params
import Collocation.Entity.Stats
import Collocation.Row.Table

/-!
# Records as rows

Executions, parameters and statistics each have one row, keyed by the id of the execution. The names
of the datasets to be matched share a column, with commas between them. Two columns of the
statistics are there for other writers and stay null.
-/

set_option autoImplicit false

namespace Collocation

namespace Execution

def toRow (execution : Execution) : Row :=
  .ofList
    [ ("id", .uuid execution.id),
      ("time_started", .timestamp execution.timeStarted),
      ("time_completed", .timestamp execution.timeCompleted),
      ("user_email", .text execution.userEmail) ]

def ofRow (row : Row) : Except Failure Execution := do
  let id ← row.uuid "id"
  let timeStarted ← row.timestamp "time_started"
  let timeCompleted ← row.timestamp "time_completed"
  let userEmail ← row.text "user_email"
  return { id, timeStarted, timeCompleted, userEmail }

end Execution

namespace Params

def toRow (executionId : Uuid) (params : Params) : Row :=
  .ofList
    [ ("execution_id", .uuid executionId),
      ("primary_dataset", .text params.primary),
      ("matchup_datasets", .text (Text.joinCommas params.matchup)),
      ("depth_min", .ofOption .double params.depthMin),
      ("depth_max", .ofOption .double params.depthMax),
      ("time_tolerance", .int params.timeTolerance),
      ("radius_tolerance", .double params.radiusTolerance),
      ("start_time", .timestamp params.startTime),
      ("end_time", .timestamp params.endTime),
      ("platforms", .text params.platforms),
      ("bounding_box", .text params.boundingBox),
      ("parameter", .text params.parameter) ]

/-- The last three columns are empty texts if they are absent. -/
def ofRow (row : Row) : Except Failure Params := do
  let primary ← row.text "primary_dataset"
  let matchup ← row.text "matchup_datasets"
  let depthMin ← row.double? "depth_min"
  let depthMax ← row.double? "depth_max"
  let timeTolerance ← row.int "time_tolerance"
  let radiusTolerance ← row.double "radius_tolerance"
  let startTime ← row.timestamp "start_time"
  let endTime ← row.timestamp "end_time"
  let platforms ← row.text? "platforms"
  let boundingBox ← row.text? "bounding_box"
  let parameter ← row.text? "parameter"
  return {
    primary
    matchup := Text.splitCommas matchup
    depthMin
    depthMax
    timeTolerance
    radiusTolerance
    startTime
    endTime
    platforms := platforms.getD ""
    boundingBox := boundingBox.getD ""
    parameter := parameter.getD "" }

end Params

namespace Stats

def toRow (executionId : Uuid) (stats : Stats) : Row :=
  .ofList
    [ ("execution_id", .uuid executionId),
      ("num_gridded_matched", .int stats.primaryMatched),
      ("num_gridded_checked", .null),
      ("num_insitu_matched", .int stats.secondaryMatched),
      ("num_insitu_checked", .null),
      ("time_to_complete", .int stats.timeToComplete) ]

/-- A count that is absent is zero. -/
def ofRow (row : Row) : Except Failure Stats := do
  let primaryMatched ← row.int? "num_gridded_matched"
  let secondaryMatched ← row.int? "num_insitu_matched"
  let timeToComplete ← row.int? "time_to_complete"
  return {
    primaryMatched := primaryMatched.getD 0
    secondaryMatched := secondaryMatched.getD 0
    timeToComplete := timeToComplete.getD 0 }

end Stats

end Collocation
