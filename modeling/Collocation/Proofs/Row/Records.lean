import Collocation.Proofs.Row.Columns

/-!
# Records that are read back

The rows of executions, of parameters and of statistics are read back as they were written, but for
the names of datasets, which are split at every comma again. Each record is keyed by its execution.
-/

set_option autoImplicit false

namespace Collocation

namespace Execution

variable (execution : Execution)

/-- The key of an execution's row is its id. -/
theorem key_toRow : execution.toRow.key .executions = .ok execution.id := by
  have hColumn : execution.toRow.get? "id" = some (.uuid execution.id) :=
    Row.get?_ofList_of_mem (by simp) (by simp)
  exact Row.uuid_eq_ok hColumn

/-- An execution is read back from its row. -/
theorem ofRow_toRow : ofRow execution.toRow = .ok execution := by
  have get {column : String} {value : ColumnValue}
      (hMem : (column, value) ∈
        [ ("id", .uuid execution.id),
          ("time_started", .timestamp execution.timeStarted),
          ("time_completed", .timestamp execution.timeCompleted),
          ("user_email", .text execution.userEmail) ]) :
      execution.toRow.get? column = some value :=
    Row.get?_ofList_of_mem (by simp) hMem
  have hId : execution.toRow.uuid "id" = .ok execution.id := Row.uuid_eq_ok (get (by simp))
  have hStarted : execution.toRow.timestamp "time_started" = .ok execution.timeStarted :=
    Row.timestamp_eq_ok (get (by simp))
  have hCompleted : execution.toRow.timestamp "time_completed" = .ok execution.timeCompleted :=
    Row.timestamp_eq_ok (get (by simp))
  have hEmail : execution.toRow.text "user_email" = .ok execution.userEmail :=
    Row.text_eq_ok (get (by simp))
  rw [ofRow, hId, hStarted, hCompleted, hEmail]
  rfl

end Execution

namespace Params

variable (executionId : Uuid) (params : Params)

/-- The key of the row of parameters is the id of their execution. -/
theorem key_toRow : (params.toRow executionId).key .params = .ok executionId := by
  have hColumn : (params.toRow executionId).get? "execution_id" = some (.uuid executionId) :=
    Row.get?_ofList_of_mem (by simp) (by simp)
  exact Row.uuid_eq_ok hColumn

/-- Parameters as they are read back: a name with a comma in it becomes several names. -/
def settled (params : Params) : Params :=
  { params with matchup := Text.splitCommas (Text.joinCommas params.matchup) }

/-- Parameters are read back from their row, with names as they are joined and parted. -/
theorem ofRow_toRow : ofRow (params.toRow executionId) = .ok params.settled := by
  have get {column : String} {value : ColumnValue}
      (hMem : (column, value) ∈
        [ ("execution_id", .uuid executionId),
          ("primary_dataset", .text params.primary),
          ("matchup_datasets", .text (Text.joinCommas params.matchup)),
          ("depth_min", .ofOption .double params.depthMin),
          ("depth_max", .ofOption .double params.depthMax),
          ("time_tolerance", .int params.timeTolerance),
          ("radius_tolerance", .double params.radiusTolerance),
          ("start_time", .timestamp params.startTime),
          ("end_time", .timestamp params.endTime),
          ("platforms", .text params.platforms),
          ("bounding_box", .text params.boundingBox),
          ("parameter", .text params.parameter) ]) :
      (params.toRow executionId).get? column = some value :=
    Row.get?_ofList_of_mem (by simp) hMem
  have hPrimary : (params.toRow executionId).text "primary_dataset" = .ok params.primary :=
    Row.text_eq_ok (get (by simp))
  have hMatchup : (params.toRow executionId).text "matchup_datasets" =
      .ok (Text.joinCommas params.matchup) := Row.text_eq_ok (get (by simp))
  have hDepthMin : (params.toRow executionId).double? "depth_min" = .ok params.depthMin :=
    Row.double?_eq_ok (get (by simp))
  have hDepthMax : (params.toRow executionId).double? "depth_max" = .ok params.depthMax :=
    Row.double?_eq_ok (get (by simp))
  have hTime : (params.toRow executionId).int "time_tolerance" = .ok params.timeTolerance :=
    Row.int_eq_ok (get (by simp))
  have hRadius : (params.toRow executionId).double "radius_tolerance" =
      .ok params.radiusTolerance := Row.double_eq_ok (get (by simp))
  have hStart : (params.toRow executionId).timestamp "start_time" = .ok params.startTime :=
    Row.timestamp_eq_ok (get (by simp))
  have hEnd : (params.toRow executionId).timestamp "end_time" = .ok params.endTime :=
    Row.timestamp_eq_ok (get (by simp))
  have hPlatforms : (params.toRow executionId).text? "platforms" = .ok (some params.platforms) :=
    Row.text?_eq_ok (get (by simp [ColumnValue.ofOption]))
  have hBox : (params.toRow executionId).text? "bounding_box" = .ok (some params.boundingBox) :=
    Row.text?_eq_ok (get (by simp [ColumnValue.ofOption]))
  have hParameter : (params.toRow executionId).text? "parameter" = .ok (some params.parameter) :=
    Row.text?_eq_ok (get (by simp [ColumnValue.ofOption]))
  rw [ofRow, hPrimary, hMatchup, hDepthMin, hDepthMax, hTime, hRadius, hStart, hEnd, hPlatforms,
    hBox, hParameter]
  rfl

end Params

namespace Stats

variable (executionId : Uuid) (stats : Stats)

/-- The key of the row of statistics is the id of their execution. -/
theorem key_toRow : (stats.toRow executionId).key .executionStats = .ok executionId := by
  have hColumn : (stats.toRow executionId).get? "execution_id" = some (.uuid executionId) :=
    Row.get?_ofList_of_mem (by simp) (by simp)
  exact Row.uuid_eq_ok hColumn

/-- Statistics are read back from their row. -/
theorem ofRow_toRow : ofRow (stats.toRow executionId) = .ok stats := by
  have get {column : String} {value : ColumnValue}
      (hMem : (column, value) ∈
        [ ("execution_id", .uuid executionId),
          ("num_gridded_matched", .int stats.primaryMatched),
          ("num_gridded_checked", .null),
          ("num_insitu_matched", .int stats.secondaryMatched),
          ("num_insitu_checked", .null),
          ("time_to_complete", .int stats.timeToComplete) ]) :
      (stats.toRow executionId).get? column = some value :=
    Row.get?_ofList_of_mem (by simp) hMem
  have hPrimary : (stats.toRow executionId).int? "num_gridded_matched" =
      .ok (some stats.primaryMatched) := Row.int?_eq_ok (get (by simp))
  have hSecondary : (stats.toRow executionId).int? "num_insitu_matched" =
      .ok (some stats.secondaryMatched) := Row.int?_eq_ok (get (by simp))
  have hTime : (stats.toRow executionId).int? "time_to_complete" =
      .ok (some stats.timeToComplete) := Row.int?_eq_ok (get (by simp))
  rw [ofRow, hPrimary, hSecondary, hTime]
  rfl

end Stats

end Collocation
