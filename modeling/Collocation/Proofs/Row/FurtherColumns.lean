import Collocation.Proofs.Json.CompactTexts
import Collocation.Proofs.Row.ColumnTypes
import Collocation.Proofs.Row.Records

/-!
# What a row says, and further columns

The rows of observations, executions and statistics say all that was written: a flat row has the
columns of its layout, each of them once, and only its payload may not be readable. What is decoded
of a row comes out of the columns that are read, so that columns of other names change nothing. The
column of the former payload is read only if there is no text in that of the present one.
-/

set_option autoImplicit false

namespace Collocation

namespace Row

/-! ## Further columns -/

/-- A row with further columns, of which a later one counts more. -/
def withColumns (row : Row) (further : List (String × ColumnValue)) : Row :=
  further.foldl (fun row column => row.set column.1 column.2) row

/-- Further columns do not change a column of another name. -/
theorem get?_withColumns (row : Row) {further : List (String × ColumnValue)} {column : String}
    (h : ∀ other ∈ further, other.1 ≠ column) :
    (row.withColumns further).get? column = row.get? column := by
  induction further generalizing row with
  | nil => rfl
  | cons first further ih =>
    obtain ⟨hFirst, hFurther⟩ := List.forall_mem_cons.1 h
    have hSet : (row.set first.1 first.2).get? column = row.get? column := by
      rw [get?_set, if_neg hFirst]
    exact (ih (row.set first.1 first.2) hFurther).trans hSet

/-- Columns whose names are none of some names leave the columns of these names as they are. -/
theorem get?_withColumns_of_mem (row : Row) {further : List (String × ColumnValue)}
    {names : List String} (h : ∀ column ∈ further, column.1 ∉ names) :
    ∀ column ∈ names, (row.withColumns further).get? column = row.get? column := by
  intro column hColumn
  refine row.get?_withColumns fun other hOther hName => h other hOther ?_
  rwa [hName]

/-! ## Readers of one column -/

section Columns

variable {row other : Row} {column : String} (h : other.get? column = row.get? column)
include h

/-- An optional text depends on its column only, but for what messages call the row. -/
theorem toOption_text?_congr : (other.text? column).toOption = (row.text? column).toOption := by
  rw [text?, text?, h]
  cases row.get? column with
  | none => rfl
  | some value => cases value <;> rfl

/-- An optional double depends on its column only, but for what messages call the row. -/
theorem toOption_double?_congr :
    (other.double? column).toOption = (row.double? column).toOption := by
  rw [double?, double?, h]
  cases row.get? column with
  | none => rfl
  | some value => cases value <;> rfl

/-- An optional integer depends on its column only, but for what messages call the row. -/
theorem toOption_int?_congr : (other.int? column).toOption = (row.int? column).toOption := by
  rw [int?, int?, h]
  cases row.get? column with
  | none => rfl
  | some value => cases value <;> rfl

/-- An id depends on its column only, but for what messages call the row. -/
theorem toOption_uuid_congr : (other.uuid column).toOption = (row.uuid column).toOption := by
  rw [uuid, uuid, h]
  cases row.get? column with
  | none => rfl
  | some value => cases value <;> rfl

/-- A truth value depends on its column only, but for what messages call the row. -/
theorem toOption_boolean_congr :
    (other.boolean column).toOption = (row.boolean column).toOption := by
  rw [boolean, boolean, h]
  cases row.get? column with
  | none => rfl
  | some value => cases value <;> rfl

/-- A time depends on its column only, but for what messages call the row. -/
theorem toOption_timestamp_congr :
    (other.timestamp column).toOption = (row.timestamp column).toOption := by
  rw [timestamp, timestamp, h]
  cases row.get? column with
  | none => rfl
  | some value => cases value <;> rfl

omit h in
/-- A column that is required has a value just if it is read and there is one. -/
theorem toOption_require {α : Type} (read : Except Failure (Option α)) :
    (row.require column read).toOption = read.toOption.join := by
  cases read with
  | error failure => rfl
  | ok found => cases found <;> rfl

/-- A text depends on its column only, but for what messages call the row. -/
theorem toOption_text_congr : (other.text column).toOption = (row.text column).toOption := by
  rw [text, text, toOption_require, toOption_require, toOption_text?_congr h]

/-- A double depends on its column only, but for what messages call the row. -/
theorem toOption_double_congr :
    (other.double column).toOption = (row.double column).toOption := by
  rw [double, double, toOption_require, toOption_require, toOption_double?_congr h]

end Columns

/-- The parent of a row depends on its column only, but for what messages call the row. -/
theorem toOption_parentRef_congr {row other : Row}
    (h : other.get? "primary_value_id" = row.get? "primary_value_id") :
    other.parentRef.toOption = row.parentRef.toOption := by
  rw [parentRef, parentRef, h]
  split <;> rfl

/-! ## Payloads -/

/-- The columns of which the payload of a row is read. -/
def payloadColumns (row : Row) : List String :=
  match row.get? "measurement_values_json" with
  | none | some .null => ["measurement_values_json", "measurement_values"]
  | some _ => ["measurement_values_json"]

/-- A payload of the former layout depends on its column only. -/
theorem toOption_formerPayload_congr {row other : Row}
    (h : other.get? "measurement_values" = row.get? "measurement_values") :
    other.formerPayload.toOption = row.formerPayload.toOption := by
  rw [formerPayload, formerPayload, h]
  split
  · rw [measurements, measurements]
    split <;> rfl
  · rfl

/-- A payload depends on the columns only from which it may be read. -/
theorem toOption_payload_congr {row other : Row}
    (h : ∀ column ∈ row.payloadColumns, other.get? column = row.get? column) :
    other.payload.toOption = row.payload.toOption := by
  have hText : other.get? "measurement_values_json" = row.get? "measurement_values_json" := by
    refine h _ ?_
    unfold payloadColumns
    split <;> exact List.mem_cons_self
  unfold payload
  rw [hText]
  cases hValue : row.get? "measurement_values_json" with
  | none => exact toOption_formerPayload_congr (h _ (by simp [payloadColumns, hValue]))
  | some value =>
    cases value with
    | null => exact toOption_formerPayload_congr (h _ (by simp [payloadColumns, hValue]))
    | text text => simp only; split <;> rfl
    | _ => rfl

end Row

/-! ## Decoders -/

/-- The columns of executions. -/
def Execution.layout : List (String × List (Option ColumnType)) :=
  [ ("id", Row.only [.uuid]),
    ("time_started", Row.only [.timestamp]),
    ("time_completed", Row.only [.timestamp]),
    ("user_email", Row.only [.text]) ]

/-- The names of the columns that are read of a data row. -/
def DataRow.columnsRead (row : Row) : List String :=
  layout.map (·.1) ++ row.payloadColumns

section Decoders

variable {row other : Row}

/-- An execution depends on its own columns only. -/
theorem Execution.toOption_ofRow_congr
    (h : ∀ column ∈ layout.map (·.1), other.get? column = row.get? column) :
    (ofRow other).toOption = (ofRow row).toOption := by
  refine toOption_bind_congr (Row.toOption_uuid_congr (h "id" (by decide))) fun _ => ?_
  refine toOption_bind_congr (Row.toOption_timestamp_congr (h "time_started" (by decide)))
    fun _ => ?_
  refine toOption_bind_congr (Row.toOption_timestamp_congr (h "time_completed" (by decide)))
    fun _ => ?_
  exact toOption_bind_congr (Row.toOption_text_congr (h "user_email" (by decide))) fun _ => rfl

/-- Statistics depend on their own columns only. -/
theorem Stats.toOption_ofRow_congr
    (h : ∀ column ∈ layout.map (·.1), other.get? column = row.get? column) :
    (ofRow other).toOption = (ofRow row).toOption := by
  refine toOption_bind_congr (Row.toOption_int?_congr (h "num_gridded_matched" (by decide)))
    fun _ => ?_
  refine toOption_bind_congr (Row.toOption_int?_congr (h "num_insitu_matched" (by decide)))
    fun _ => ?_
  exact toOption_bind_congr (Row.toOption_int?_congr (h "time_to_complete" (by decide)))
    fun _ => rfl

/-- A data row depends on its own columns only. -/
theorem DataRow.toOption_ofRow_congr
    (h : ∀ column ∈ columnsRead row, other.get? column = row.get? column) :
    (ofRow other).toOption = (ofRow row).toOption := by
  have get (column : String) (hColumn : column ∈ layout.map (·.1)) :
      other.get? column = row.get? column := h column (List.mem_append_left _ hColumn)
  refine toOption_bind_congr (Row.toOption_parentRef_congr (get "primary_value_id" (by decide)))
    fun _ => ?_
  refine toOption_bind_congr (Row.toOption_uuid_congr (get "id" (by decide))) fun _ => ?_
  refine toOption_bind_congr (Row.toOption_text_congr (get "value_id" (by decide))) fun _ => ?_
  refine toOption_bind_congr (Row.toOption_boolean_congr (get "is_primary" (by decide)))
    fun _ => ?_
  refine toOption_bind_congr (Row.toOption_double_congr (get "x" (by decide))) fun _ => ?_
  refine toOption_bind_congr (Row.toOption_double_congr (get "y" (by decide))) fun _ => ?_
  refine toOption_bind_congr (Row.toOption_text_congr (get "source_dataset" (by decide)))
    fun _ => ?_
  refine toOption_bind_congr (Row.toOption_timestamp_congr (get "measurement_time" (by decide)))
    fun _ => ?_
  refine toOption_bind_congr (Row.toOption_text?_congr (get "platform" (by decide))) fun _ => ?_
  refine toOption_bind_congr (Row.toOption_text?_congr (get "device" (by decide))) fun _ => ?_
  refine toOption_bind_congr (Row.toOption_double?_congr (get "depth" (by decide))) fun _ => ?_
  refine toOption_bind_congr (Row.toOption_text?_congr (get "file_url" (by decide))) fun _ => ?_
  have hPayload : other.payload.toOption = row.payload.toOption :=
    Row.toOption_payload_congr fun column hColumn => h column (List.mem_append_right _ hColumn)
  exact toOption_bind_congr hPayload fun _ => rfl

end Decoders

/-! ## Flat rows -/

namespace FlatRow

variable (row : FlatRow)

/-- A flat row has the columns of its layout, and each of them once. -/
theorem perm_names_toRow : (row.toRow.columns.entries.map (·.1)).Perm columns := by
  have hNames : (columns.zip row.values).map (·.1) = columns :=
    List.map_fst_zip (by simp [columns, values])
  have hNodup : columns.Nodup := by decide
  have hEntries : (Dictionary.ofList (columns.zip row.values)).entries.Perm
      (columns.zip row.values) := Dictionary.perm_entries_ofList (by rwa [hNames])
  have hMap := hEntries.map (·.1)
  rwa [hNames] at hMap

/-- The column of measurements holds the text of the payload. -/
theorem get?_measurements_toRow :
    row.toRow.get? "measurement_values_json" = some (.text row.measurements) :=
  get?_toRow (by simp [columns, values])

/-- A flat row is decoded just if its measurements are the text of a payload. -/
theorem exists_ofRow_toRow_iff :
    (∃ data, DataRow.ofRow row.toRow = .ok data) ↔
      ∃ payload, Json.parse? row.measurements = some payload := by
  rw [ofRow_eq_map, Row.payload_of_text row.get?_measurements_toRow]
  cases Json.parse? row.measurements <;> simp [Except.map]

end FlatRow

/-- The rows of data, executions and statistics say all that was written. A flat row has just the
columns of its layout, and is decoded just if its measurements are well-formed JSON: then all that
was written comes out, and the payload. The mark of the top is read as it was written, also against
the parent. Each row has the key of its table. Columns of names that are not read change nothing in
what is decoded of a row. -/
theorem Row.decoded_as_written :
    (∀ row : FlatRow,
      (row.toRow.columns.entries.map (·.1)).Perm FlatRow.columns ∧
      row.toRow.key .data = .ok row.rowId ∧
      ((∃ data, DataRow.ofRow row.toRow = .ok data) ↔
        ∃ payload, Json.parse? row.measurements = some payload) ∧
      ∀ payload, Json.parse? row.measurements = some payload →
        DataRow.ofRow row.toRow =
          .ok
            { rowId := row.rowId
              valueId := row.valueId
              parent := row.parent.map .row
              isTopLevel := row.isTopLevel
              longitude := row.longitude
              latitude := row.latitude
              source := row.source
              time := row.time
              platform := row.platform
              device := row.device
              depth := row.depth
              fileUrl := row.fileUrl
              payload }) ∧
    (∀ execution : Execution,
      execution.toRow.key .executions = .ok execution.id ∧
        Execution.ofRow execution.toRow = .ok execution) ∧
    (∀ (executionId : Uuid) (params : Params),
      (params.toRow executionId).key .params = .ok executionId) ∧
    (∀ (executionId : Uuid) (stats : Stats),
      (stats.toRow executionId).key .executionStats = .ok executionId ∧
        Stats.ofRow (stats.toRow executionId) = .ok stats) ∧
    ∀ (row : Row) (further : List (String × ColumnValue)),
      ((∀ column ∈ further, column.1 ∉ DataRow.columnsRead row) →
        (DataRow.ofRow (row.withColumns further)).toOption = (DataRow.ofRow row).toOption) ∧
      ((∀ column ∈ further, column.1 ∉ Execution.layout.map (·.1)) →
        (Execution.ofRow (row.withColumns further)).toOption = (Execution.ofRow row).toOption) ∧
      ((∀ column ∈ further, column.1 ∉ Stats.layout.map (·.1)) →
        (Stats.ofRow (row.withColumns further)).toOption = (Stats.ofRow row).toOption) := by
  refine ⟨fun row => ⟨row.perm_names_toRow, row.key_toRow, row.exists_ofRow_toRow_iff,
      fun payload hPayload => ?_⟩,
    fun execution => ⟨execution.key_toRow, execution.ofRow_toRow⟩,
    fun executionId params => params.key_toRow executionId,
    fun executionId stats => ⟨stats.key_toRow executionId, stats.ofRow_toRow executionId⟩,
    fun row further => ⟨fun h => ?_, fun h => ?_, fun h => ?_⟩⟩
  · exact DataRow.ofRow_toRow hPayload
  · exact DataRow.toOption_ofRow_congr (row.get?_withColumns_of_mem h)
  · exact Execution.toOption_ofRow_congr (row.get?_withColumns_of_mem h)
  · exact Stats.toOption_ofRow_congr (row.get?_withColumns_of_mem h)

/-- Measurements with a number in a list. -/
def FlatRow.shipPayload : Json :=
  .object [("sst", .array [.integer 20, .null])]

/-- The row of a match without a device, with measurements. It is marked as at the top. -/
def FlatRow.shipRow : FlatRow where
  rowId := .ofNat 3
  executionId := .ofNat 1
  valueId := "m1"
  parent := some (.ofNat 2)
  isTopLevel := true
  longitude := .ofInt 10
  latitude := .ofInt (-20)
  source := "B"
  time := .epoch
  platform := some "ship"
  device := none
  depth := some (.ofInt 5)
  fileUrl := some "f.nc"
  measurements := shipPayload.compact

/-- A match that is marked as at the top is read so, with its parent and its payload. A
map of doubles beside the text of its measurements, a second id of its execution and another column
change nothing, nor do they in a record that has none of what they are called. -/
theorem Row.decoded_as_written_measured :
    (∃ data, DataRow.ofRow FlatRow.shipRow.toRow = .ok data ∧
      data.isTopLevel = true ∧ data.parent = some (.row (.ofNat 2)) ∧ data.device = none) ∧
    (DataRow.ofRow (FlatRow.shipRow.toRow.withColumns
        [("measurement_values", .doubleMap .empty), ("execution_id", .null),
          ("note", .text "x")])).toOption =
      (DataRow.ofRow FlatRow.shipRow.toRow).toOption ∧
    (Execution.ofRow (Row.empty.withColumns [("execution_id", .null)])).toOption =
      (Execution.ofRow .empty).toOption ∧
    (Stats.ofRow (((Stats.mk 1 2 3).toRow .nil).withColumns [("id", .int 4)])).toOption =
      (Stats.ofRow ((Stats.mk 1 2 3).toRow .nil)).toOption := by
  obtain ⟨hFlat, -, -, -, hFurther⟩ := Row.decoded_as_written
  have hNumber : (Scalar.integer 20).ReadsBack := by decide +kernel
  have hLegible : FlatRow.shipPayload.Legible :=
    ⟨List.pairwise_singleton _ _, ⟨hNumber, trivial, trivial⟩, trivial⟩
  have hPayload : Json.parse? FlatRow.shipRow.measurements = some FlatRow.shipPayload :=
    Json.parse?_compact hLegible (by decide)
  obtain ⟨-, -, -, hDecoded⟩ := hFlat FlatRow.shipRow
  refine ⟨⟨_, hDecoded _ hPayload, rfl, rfl, rfl⟩, (hFurther _ _).1 ?_, (hFurther _ _).2.1 ?_,
    (hFurther _ _).2.2 ?_⟩
  · decide +kernel
  · decide
  · decide

end Collocation
