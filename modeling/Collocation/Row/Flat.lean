import Collocation.Entity.Point
import Collocation.Json.Printer
import Collocation.Row.Table

/-!
# Flat rows

What is written of one observation, without its matches: the observation, an id of its own, and the
id of the row it was matched with.
-/

set_option autoImplicit false

namespace Collocation

/-- A point without its matches, as a row that is to be written. -/
structure FlatRow where
  rowId : Uuid
  executionId : Uuid
  valueId : String
  /-- The row of the parent, unless the point is at the top. -/
  parent : Option Uuid
  /-- Whether the row is marked as that of a point at the top. -/
  isTopLevel : Bool
  longitude : Double
  latitude : Double
  source : String
  time : Instant
  platform : Option String
  device : Option String
  depth : Option Double
  fileUrl : Option String
  /-- The payload as JSON. -/
  measurements : String
deriving DecidableEq

namespace FlatRow

/-- The text of a payload. A point without one has the empty list. -/
def payloadText (data : Option Json) : String :=
  (data.getD (.array [])).compact

/-- The row of an observation. One without a parent is marked as at the top. -/
def ofObservation (executionId rowId : Uuid) (parent : Option Uuid) (o : Observation) : FlatRow :=
  { rowId
    executionId
    valueId := o.id
    parent
    isTopLevel := parent.isNone
    longitude := o.longitude
    latitude := o.latitude
    source := o.source
    time := o.time
    platform := o.platform
    device := o.device
    depth := o.depth
    fileUrl := o.fileUrl
    measurements := payloadText o.data }

/-- The columns of a data row as they are written today. -/
def columns : List String :=
  [ "id", "execution_id", "value_id", "primary_value_id", "x", "y", "source_dataset",
    "measurement_time", "platform", "device", "measurement_values_json", "is_primary", "depth",
    "file_url" ]

/-- The values of a data row, in the order of its columns. -/
def values (row : FlatRow) : List ColumnValue :=
  [ .uuid row.rowId,
    .uuid row.executionId,
    .text row.valueId,
    .ofOption .uuid row.parent,
    .double row.longitude,
    .double row.latitude,
    .text row.source,
    .timestamp row.time,
    .ofOption .text row.platform,
    .ofOption .text row.device,
    .text row.measurements,
    .bool row.isTopLevel,
    .ofOption .double row.depth,
    .ofOption .text row.fileUrl ]

def toRow (row : FlatRow) : Row :=
  .ofList (columns.zip row.values)

example : payloadText none = "[]" := by decide +kernel

end FlatRow

end Collocation
