import Collocation.Proofs.Chains
import Collocation.Proofs.Keyed.Dictionary
import Collocation.Row.Data
import Collocation.Row.Flat
import Collocation.Row.Records

/-!
# Columns of written rows

A row that is written as a list of columns holds the last value of each name, and what a column
holds is read of it.
-/

set_option autoImplicit false

namespace Collocation

/-! ## Columns by name -/

namespace Row

/-- A row without a column has all else as before. -/
theorem get?_remove (row : Row) (column column' : String) :
    (row.remove column).get? column' = if column = column' then none else row.get? column' :=
  Dictionary.get?_erase row.columns column column'

/-- A row that is written with no column twice holds each of its columns. -/
theorem get?_ofList_of_mem {columns : List (String × ColumnValue)}
    (hNames : (columns.map (·.1)).Nodup) {column : String} {value : ColumnValue}
    (hMem : (column, value) ∈ columns) : (ofList columns).get? column = some value :=
  Dictionary.get?_ofList_of_mem hNames hMem

/-! ## Reading what a column holds -/

section Reading

variable {row : Row} {column : String}

/-- An id in a column is read. -/
theorem uuid_eq_ok {value : Uuid} (h : row.get? column = some (.uuid value)) :
    row.uuid column = .ok value := by
  rw [uuid, h]

/-- A time in a column is read. -/
theorem timestamp_eq_ok {value : Instant} (h : row.get? column = some (.timestamp value)) :
    row.timestamp column = .ok value := by
  rw [timestamp, h]

/-- A truth value in a column is read. -/
theorem boolean_eq_ok {value : Bool} (h : row.get? column = some (.bool value)) :
    row.boolean column = .ok value := by
  rw [boolean, h]

/-- An optional text in a column is read. -/
theorem text?_eq_ok {value : Option String}
    (h : row.get? column = some (.ofOption .text value)) : row.text? column = .ok value := by
  rw [text?, h]
  cases value <;> rfl

/-- An optional double in a column is read. -/
theorem double?_eq_ok {value : Option Double}
    (h : row.get? column = some (.ofOption .double value)) : row.double? column = .ok value := by
  rw [double?, h]
  cases value <;> rfl

/-- A text in a column is read. -/
theorem text_eq_ok {value : String} (h : row.get? column = some (.text value)) :
    row.text column = .ok value := by
  have hText : row.text? column = .ok (some value) := text?_eq_ok h
  rw [text, hText]
  rfl

/-- A double in a column is read. -/
theorem double_eq_ok {value : Double} (h : row.get? column = some (.double value)) :
    row.double column = .ok value := by
  have hDouble : row.double? column = .ok (some value) := double?_eq_ok h
  rw [double, hDouble]
  rfl

/-- An integer in a column is read where one may be missing. -/
theorem int?_eq_ok {value : Int64} (h : row.get? column = some (.int value)) :
    row.int? column = .ok (some value) := by
  rw [int?, h]

/-- An integer in a column is read. -/
theorem int_eq_ok {value : Int64} (h : row.get? column = some (.int value)) :
    row.int column = .ok value := by
  rw [int, int?_eq_ok h]
  rfl

/-- The id of a parent in its column is read as the reference to a row. -/
theorem parentRef_eq_ok {parent : Option Uuid}
    (h : row.get? "primary_value_id" = some (.ofOption .uuid parent)) :
    row.parentRef = .ok (parent.map .row) := by
  rw [parentRef, h]
  cases parent <;> rfl

/-- A text of measurements is the payload that it says, if it says one. -/
theorem payload_of_text {text : String}
    (h : row.get? "measurement_values_json" = some (.text text)) :
    row.payload = match Json.parse? text with
      | some payload => .ok payload
      | none => .error (row.undecodable .malformedPayload) := by
  cases hText : Json.parse? text <;> simp only [Row.payload, h, hText]

/-- A payload is read from its text. -/
theorem payload_eq_ok {text : String} {payload : Json}
    (h : row.get? "measurement_values_json" = some (.text text))
    (hText : Json.parse? text = some payload) : row.payload = .ok payload := by
  rw [payload_of_text h, hText]

end Reading

end Row

/-! ## Data rows -/

/-- What is read of a flat row whose measurements are the text of a payload. -/
def FlatRow.dataRow (row : FlatRow) (payload : Json) : DataRow :=
  { rowId := row.rowId
    valueId := row.valueId
    parent := row.parent.map .row
    isTopLevel := row.isTopLevel
    longitude := row.longitude
    latitude := row.latitude
    source := row.source
    time := row.time
    platform := row.platform
    device := row.device
    depth := row.depth
    fileUrl := row.fileUrl
    payload }

/-- A flat row holds its values under their columns. -/
theorem FlatRow.get?_toRow {row : FlatRow} {column : String} {value : ColumnValue}
    (h : (column, value) ∈ FlatRow.columns.zip row.values) :
    row.toRow.get? column = some value := by
  refine Row.get?_ofList_of_mem ?_ h
  rw [List.map_fst_zip (by simp [FlatRow.columns, FlatRow.values])]
  decide

namespace FlatRow

/-- A flat row is filed under its own id. -/
theorem key_toRow (row : FlatRow) : row.toRow.key .data = .ok row.rowId :=
  Row.uuid_eq_ok (get?_toRow (by simp [columns, values, Table.keyColumn]))

/-- The payload is all that can be wrong with a flat row. -/
theorem ofRow_eq_map (row : FlatRow) :
    DataRow.ofRow row.toRow = row.toRow.payload.map row.dataRow := by
  have get {column : String} {value : ColumnValue}
      (hMem : (column, value) ∈ columns.zip row.values) : row.toRow.get? column = some value :=
    get?_toRow hMem
  simp only [columns, values, List.zip_cons_cons, List.zip_nil_right, List.mem_cons,
    List.not_mem_nil, or_false, Prod.mk.injEq] at get
  have hParent : row.toRow.parentRef = .ok (row.parent.map .row) :=
    Row.parentRef_eq_ok (get (by simp))
  have hId : row.toRow.uuid "id" = .ok row.rowId :=
    Row.uuid_eq_ok (get (by simp))
  have hValueId : row.toRow.text "value_id" = .ok row.valueId :=
    Row.text_eq_ok (get (by simp))
  have hFlag : row.toRow.boolean "is_primary" = .ok row.isTopLevel :=
    Row.boolean_eq_ok (get (by simp))
  have hX : row.toRow.double "x" = .ok row.longitude :=
    Row.double_eq_ok (get (by simp))
  have hY : row.toRow.double "y" = .ok row.latitude :=
    Row.double_eq_ok (get (by simp))
  have hSource : row.toRow.text "source_dataset" = .ok row.source :=
    Row.text_eq_ok (get (by simp))
  have hTime : row.toRow.timestamp "measurement_time" = .ok row.time :=
    Row.timestamp_eq_ok (get (by simp))
  have hPlatform : row.toRow.text? "platform" = .ok row.platform :=
    Row.text?_eq_ok (get (by simp))
  have hDevice : row.toRow.text? "device" = .ok row.device :=
    Row.text?_eq_ok (get (by simp))
  have hDepth : row.toRow.double? "depth" = .ok row.depth :=
    Row.double?_eq_ok (get (by simp))
  have hFileUrl : row.toRow.text? "file_url" = .ok row.fileUrl :=
    Row.text?_eq_ok (get (by simp))
  rw [DataRow.ofRow, hParent, hId, hValueId, hFlag, hX, hY, hSource, hTime, hPlatform, hDevice,
    hDepth, hFileUrl]
  cases row.toRow.payload <;> rfl

end FlatRow

/-- A flat row reads back as it was written. -/
theorem DataRow.ofRow_toRow {row : FlatRow} {payload : Json}
    (h : Json.parse? row.measurements = some payload) :
    DataRow.ofRow row.toRow = .ok (row.dataRow payload) := by
  have hText : row.toRow.get? "measurement_values_json" = some (.text row.measurements) :=
    FlatRow.get?_toRow (by simp [FlatRow.columns, FlatRow.values])
  rw [row.ofRow_eq_map, Row.payload_eq_ok hText h]
  rfl

end Collocation
