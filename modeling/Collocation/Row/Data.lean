import Collocation.Json.Reader
import Collocation.Row.Table

/-!
# Data rows

What is read of one observation. Rows were written in two layouts. Today the payload is a JSON text
and the parent the id of a row; formerly the payload was a map of doubles and the parent the
identifier of a point at the top. Either is read, column by column.
-/

set_option autoImplicit false

namespace Collocation

/-- How a row refers to its parent. -/
inductive ParentRef where
  | row (id : Uuid)
  /-- By the identifier of a point at the top. -/
  | point (valueId : String)
deriving DecidableEq

/-- A data row that was read in either layout. -/
structure DataRow where
  rowId : Uuid
  valueId : String
  parent : Option ParentRef
  isTopLevel : Bool
  longitude : Double
  latitude : Double
  source : String
  time : Instant
  platform : Option String
  device : Option String
  depth : Option Double
  fileUrl : Option String
  payload : Json

namespace Row

/-- The reference of a row to its parent. -/
def parentRef (row : Row) : Except Failure (Option ParentRef) :=
  match row.get? "primary_value_id" with
  | some (.uuid id) => .ok (some (.row id))
  | some (.text valueId) => .ok (some (.point valueId))
  | some .null => .ok none
  | none => .ok none
  | some other => .error (row.undecodable (.unsupportedParent other))

/-- Measurements as an object, if all of them are finite. -/
def measurements (row : Row) (values : Dictionary Double) : Except Failure Json :=
  match values.entries.find? fun entry => !entry.2.isFinite with
  | some (name, _) => .error (row.undecodable (.notFinite name))
  | none => .ok (.object (values.entries.map fun entry => (entry.1, .double entry.2)))

/-- The payload of the former layout. -/
def formerPayload (row : Row) : Except Failure Json :=
  match row.get? "measurement_values" with
  | some (.doubleMap values) => row.measurements values
  | _ => .error (row.undecodable .noPayload)

/-- The payload of a row in either layout; a text is preferred. -/
def payload (row : Row) : Except Failure Json :=
  match row.get? "measurement_values_json" with
  | some (.text text) => match Json.parse? text with
    | some value => .ok value
    | none => .error (row.undecodable .malformedPayload)
  | some .null => row.formerPayload
  | none => row.formerPayload
  | some other => .error (row.undecodable (.payloadColumn other))

end Row

namespace DataRow

def ofRow (row : Row) : Except Failure DataRow := do
  let parent ← row.parentRef
  let rowId ← row.uuid "id"
  let valueId ← row.text "value_id"
  let isTopLevel ← row.boolean "is_primary"
  let longitude ← row.double "x"
  let latitude ← row.double "y"
  let source ← row.text "source_dataset"
  let time ← row.timestamp "measurement_time"
  let platform ← row.text? "platform"
  let device ← row.text? "device"
  let depth ← row.double? "depth"
  let fileUrl ← row.text? "file_url"
  let payload ← row.payload
  return {
    rowId, valueId, parent, isTopLevel, longitude, latitude, source, time, platform, device,
    depth, fileUrl, payload }

end DataRow

end Collocation
