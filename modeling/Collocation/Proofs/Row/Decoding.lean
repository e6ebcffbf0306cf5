import Collocation.Assembly
import Collocation.Proofs.Row.Columns

/-!
# Decoding a data row

A data row is decoded column by column. What comes out depends on the columns that are read and on
what messages call the row, and on nothing else; and whatever goes wrong is a failure to decode this
row.
-/

set_option autoImplicit false

namespace Collocation

/-! ## Rows that agree -/

namespace Row

section Agreement

variable {row other : Row} {column : String} (hDescribe : other.describe = row.describe)
include hDescribe

/-- Two rows that messages call the same fail alike. -/
theorem undecodable_congr : other.undecodable = row.undecodable := by
  funext fault
  rw [undecodable, undecodable, hDescribe]

/-- Two rows that messages call the same fail alike at a column of another type. -/
theorem mismatch_congr : other.mismatch = row.mismatch := by
  funext column expected found
  rw [mismatch, mismatch, undecodable_congr hDescribe]

/-- Two rows that messages call the same fail alike where a column is required and missing. -/
theorem require_congr {α : Type} (read : Except Failure (Option α)) :
    other.require column read = row.require column read := by
  rw [require, require, undecodable_congr hDescribe]

variable (hColumn : other.get? column = row.get? column)
include hColumn

/-- An optional text is the same in rows that agree on its column. -/
theorem text?_congr : other.text? column = row.text? column := by
  rw [text?, text?, hColumn, mismatch_congr hDescribe]

/-- An optional double is the same in rows that agree on its column. -/
theorem double?_congr : other.double? column = row.double? column := by
  rw [double?, double?, hColumn, mismatch_congr hDescribe]

/-- A text is the same in rows that agree on its column. -/
theorem text_congr : other.text column = row.text column := by
  rw [text, text, require_congr hDescribe, text?_congr hDescribe hColumn]

/-- A double is the same in rows that agree on its column. -/
theorem double_congr : other.double column = row.double column := by
  rw [double, double, require_congr hDescribe, double?_congr hDescribe hColumn]

/-- An id is the same in rows that agree on its column. -/
theorem uuid_congr : other.uuid column = row.uuid column := by
  rw [uuid, uuid, hColumn, mismatch_congr hDescribe, undecodable_congr hDescribe]

/-- A time is the same in rows that agree on its column. -/
theorem timestamp_congr : other.timestamp column = row.timestamp column := by
  rw [timestamp, timestamp, hColumn, mismatch_congr hDescribe, undecodable_congr hDescribe]

end Agreement

/-- A flag is read of its column alone. -/
theorem boolean_of_get?_eq {row other : Row} {column : String} {flag : Bool}
    (hColumn : other.get? column = row.get? column) (h : row.boolean column = .ok flag) :
    other.boolean column = .ok flag := by
  unfold boolean at h ⊢
  rw [hColumn]
  split at h <;> cases h <;> simp_all

/-! ## Failures -/

/-- A failure says that a row cannot be decoded. -/
def Blames (row : Row) (failure : Failure) : Prop :=
  ∃ fault, failure = row.undecodable fault

section Failures

variable {row : Row} {column : String} {failure : Failure}

/-- The reading of an optional text only fails to decode its row. -/
theorem blames_text? (h : row.text? column = .error failure) : row.Blames failure := by
  unfold text? at h
  split at h <;> cases h
  exact ⟨_, rfl⟩

/-- The reading of an optional double only fails to decode its row. -/
theorem blames_double? (h : row.double? column = .error failure) : row.Blames failure := by
  rw [double?] at h
  cases hValue : row.get? column with
  | none =>
    rw [hValue] at h
    cases h
  | some value =>
    rw [hValue] at h
    cases value with
    | double | int | null => cases h
    | _ =>
      cases h
      exact ⟨_, rfl⟩

/-- The reading of an optional integer only fails to decode its row. -/
theorem blames_int? (h : row.int? column = .error failure) : row.Blames failure := by
  rw [int?] at h
  cases hValue : row.get? column with
  | none =>
    rw [hValue] at h
    cases h
  | some value =>
    rw [hValue] at h
    cases value with
    | int | null => cases h
    | _ =>
      cases h
      exact ⟨_, rfl⟩

/-- A column that is required only fails to decode its row, if its reading does. -/
theorem blames_require {α : Type} {read : Except Failure (Option α)}
    (hRead : ∀ failure, read = .error failure → row.Blames failure)
    (h : row.require column read = .error failure) : row.Blames failure := by
  cases read with
  | error other =>
    cases h
    exact hRead _ rfl
  | ok value =>
    cases value with
    | some value => cases h
    | none =>
      cases h
      exact ⟨_, rfl⟩

/-- The reading of a text only fails to decode its row. -/
theorem blames_text (h : row.text column = .error failure) : row.Blames failure :=
  blames_require (fun _ => blames_text?) h

/-- The reading of a double only fails to decode its row. -/
theorem blames_double (h : row.double column = .error failure) : row.Blames failure :=
  blames_require (fun _ => blames_double?) h

/-- The reading of an integer only fails to decode its row. -/
theorem blames_int (h : row.int column = .error failure) : row.Blames failure :=
  blames_require (fun _ => blames_int?) h

/-- The reading of an id only fails to decode its row. -/
theorem blames_uuid (h : row.uuid column = .error failure) : row.Blames failure := by
  unfold uuid at h
  split at h <;> cases h <;> exact ⟨_, rfl⟩

/-- The reading of a truth value only fails to decode its row. -/
theorem blames_boolean (h : row.boolean column = .error failure) : row.Blames failure := by
  unfold boolean at h
  split at h <;> cases h <;> exact ⟨_, rfl⟩

/-- The reading of a time only fails to decode its row. -/
theorem blames_timestamp (h : row.timestamp column = .error failure) : row.Blames failure := by
  unfold timestamp at h
  split at h <;> cases h <;> exact ⟨_, rfl⟩

/-- The reading of a parent only fails to decode its row. -/
theorem blames_parentRef (h : row.parentRef = .error failure) : row.Blames failure := by
  unfold parentRef at h
  split at h <;> cases h
  exact ⟨_, rfl⟩

/-- The reading of a payload in the former layout only fails to decode its row. -/
theorem blames_formerPayload (h : row.formerPayload = .error failure) : row.Blames failure := by
  unfold formerPayload at h
  split at h
  · unfold measurements at h
    split at h <;> cases h
    exact ⟨_, rfl⟩
  · cases h
    exact ⟨_, rfl⟩

/-- The reading of a payload only fails to decode its row, whatever the layout. -/
theorem blames_payload (h : row.payload = .error failure) : row.Blames failure := by
  unfold Row.payload at h
  split at h
  · split at h <;> cases h
    exact ⟨_, rfl⟩
  · exact blames_formerPayload h
  · exact blames_formerPayload h
  · cases h
    exact ⟨_, rfl⟩

end Failures

end Row

/-! ## Records -/

/-- The reading of parameters only fails to decode their row. -/
theorem Params.blames_ofRow {row : Row} {failure : Failure} (h : ofRow row = .error failure) :
    row.Blames failure := by
  simp only [ofRow, bind_eq_error_iff] at h
  rcases h with h | ⟨_, -, h | ⟨_, -, h | ⟨_, -, h | ⟨_, -, h | ⟨_, -, h | ⟨_, -, h | ⟨_, -, h |
    ⟨_, -, h | ⟨_, -, h | ⟨_, -, h⟩⟩⟩⟩⟩⟩⟩⟩⟩⟩
  · exact Row.blames_text h
  · exact Row.blames_text h
  · exact Row.blames_double? h
  · exact Row.blames_double? h
  · exact Row.blames_int h
  · exact Row.blames_double h
  · exact Row.blames_timestamp h
  · exact Row.blames_timestamp h
  · exact Row.blames_text? h
  · exact Row.blames_text? h
  · rcases h with h | ⟨_, -, h⟩
    · exact Row.blames_text? h
    · cases h

/-- The reading of statistics only fails to decode their row. -/
theorem Stats.blames_ofRow {row : Row} {failure : Failure} (h : ofRow row = .error failure) :
    row.Blames failure := by
  simp only [ofRow, bind_eq_error_iff] at h
  rcases h with h | ⟨_, -, h | ⟨_, -, h | ⟨_, -, h⟩⟩⟩
  · exact Row.blames_int? h
  · exact Row.blames_int? h
  · exact Row.blames_int? h
  · cases h

/-! ## Data rows -/

/-- The trimmed entry of a data row only fails to decode it. -/
theorem Assembly.blames_trimmedEntry {row : Row} {failure : Failure}
    (h : trimmedEntry row = .error failure) : row.Blames failure := by
  simp only [trimmedEntry, bind_eq_error_iff] at h
  rcases h with h | ⟨_, -, h | ⟨_, -, h | ⟨_, -, h | ⟨_, -, h | ⟨_, -, h⟩⟩⟩⟩⟩
  · exact Row.blames_text h
  · exact Row.blames_double h
  · exact Row.blames_double h
  · exact Row.blames_text h
  · exact Row.blames_timestamp h
  · cases h

namespace DataRow

/-- What a data row has, column by column, if it is decoded. -/
structure ReadFrom (row : Row) (data : DataRow) : Prop where
  parent : row.parentRef = .ok data.parent
  rowId : row.uuid "id" = .ok data.rowId
  valueId : row.text "value_id" = .ok data.valueId
  isTopLevel : row.boolean "is_primary" = .ok data.isTopLevel
  longitude : row.double "x" = .ok data.longitude
  latitude : row.double "y" = .ok data.latitude
  source : row.text "source_dataset" = .ok data.source
  time : row.timestamp "measurement_time" = .ok data.time
  platform : row.text? "platform" = .ok data.platform
  device : row.text? "device" = .ok data.device
  depth : row.double? "depth" = .ok data.depth
  fileUrl : row.text? "file_url" = .ok data.fileUrl
  payload : row.payload = .ok data.payload

/-- A data row is decoded just if each of its columns is read. -/
theorem ofRow_eq_ok_iff {row : Row} {data : DataRow} :
    ofRow row = .ok data ↔ ReadFrom row data := by
  constructor
  · intro h
    simp only [ofRow, bind_eq_ok_iff] at h
    obtain ⟨_, hParent, _, hRowId, _, hValueId, _, hFlag, _, hX, _, hY, _, hSource, _, hTime, _,
      hPlatform, _, hDevice, _, hDepth, _, hFileUrl, _, hPayload, hData⟩ := h
    cases hData
    exact ⟨hParent, hRowId, hValueId, hFlag, hX, hY, hSource, hTime, hPlatform, hDevice, hDepth,
      hFileUrl, hPayload⟩
  · intro h
    rw [ofRow, h.parent, h.rowId, h.valueId, h.isTopLevel, h.longitude, h.latitude, h.source,
      h.time, h.platform, h.device, h.depth, h.fileUrl, h.payload]
    rfl

/-- Whatever goes wrong is a failure to decode the row. -/
theorem blames_ofRow {row : Row} {failure : Failure} (h : ofRow row = .error failure) :
    row.Blames failure := by
  simp only [ofRow, bind_eq_error_iff] at h
  rcases h with h | ⟨_, -, h | ⟨_, -, h | ⟨_, -, h | ⟨_, -, h | ⟨_, -, h | ⟨_, -, h | ⟨_, -, h |
    ⟨_, -, h | ⟨_, -, h | ⟨_, -, h | ⟨_, -, h | ⟨_, -, h | ⟨_, -, h⟩⟩⟩⟩⟩⟩⟩⟩⟩⟩⟩⟩⟩
  · exact Row.blames_parentRef h
  · exact Row.blames_uuid h
  · exact Row.blames_text h
  · exact Row.blames_boolean h
  · exact Row.blames_double h
  · exact Row.blames_double h
  · exact Row.blames_text h
  · exact Row.blames_timestamp h
  · exact Row.blames_text? h
  · exact Row.blames_text? h
  · exact Row.blames_double? h
  · exact Row.blames_text? h
  · exact Row.blames_payload h
  · cases h

end DataRow

end Collocation
