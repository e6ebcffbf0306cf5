import Collocation.Proofs.Row.Decoding

/-!
# Types of columns

Whether a row can be read depends on the types of what its columns hold, and on nothing else but the
payload: a flag may be a whole number, a double too, and what may be absent may be null. A layout
says which types each column may have, and a row that fits the layout of a shape is read as it.
-/

set_option autoImplicit false

namespace Collocation

variable {α β ε : Type}

/-! ## Success -/

/-- A chain in which the second part succeeds or not whatever came of the first. -/
theorem exists_ok_bind_iff {first : Except ε α} {next : α → Except ε β} :
    (∃ result, (first >>= next) = .ok result) ↔
      ∃ value, first = .ok value ∧ ∃ result, next value = .ok result := by
  simp only [bind_eq_ok_iff]
  constructor
  · rintro ⟨result, value, hFirst, hNext⟩
    exact ⟨value, hFirst, result, hNext⟩
  · rintro ⟨value, hFirst, result, hNext⟩
    exact ⟨result, value, hFirst, hNext⟩

/-- A value that is given is a success. -/
theorem exists_ok_pure (value : α) : ∃ result, (pure value : Except ε α) = .ok result :=
  ⟨value, rfl⟩

namespace Row

/-! ## Single columns -/

/-- The type of what a column holds, if the column is there. -/
def typeOf (row : Row) (column : String) : Option ColumnType :=
  (row.get? column).map ColumnValue.type

/-- The types of a column that may be null or absent as well. -/
def orNothing (types : List ColumnType) : List (Option ColumnType) :=
  none :: some .null :: types.map some

/-- The types of a column that has to hold something. -/
def only (types : List ColumnType) : List (Option ColumnType) :=
  types.map some

section Columns

variable {row : Row} {column : String}

/-- An optional text is read just if the column has one or nothing. -/
theorem exists_text?_iff :
    (∃ value, row.text? column = .ok value) ↔ row.typeOf column ∈ orNothing [.text] := by
  rw [text?, typeOf]
  cases row.get? column with
  | none => simp [orNothing]
  | some value => cases value <;> simp [orNothing, ColumnValue.type]

/-- An optional double is read just if the column has a number or nothing. -/
theorem exists_double?_iff :
    (∃ value, row.double? column = .ok value) ↔
      row.typeOf column ∈ orNothing [.double, .bigint] := by
  rw [double?, typeOf]
  cases row.get? column with
  | none => simp [orNothing]
  | some value => cases value <;> simp [orNothing, ColumnValue.type]

/-- An optional integer is read just if the column has one or nothing. -/
theorem exists_int?_iff :
    (∃ value, row.int? column = .ok value) ↔ row.typeOf column ∈ orNothing [.bigint] := by
  rw [int?, typeOf]
  cases row.get? column with
  | none => simp [orNothing]
  | some value => cases value <;> simp [orNothing, ColumnValue.type]

/-- A text is read just if the column has one. -/
theorem exists_text_iff :
    (∃ value, row.text column = .ok value) ↔ row.typeOf column ∈ only [.text] := by
  rw [text, text?, typeOf]
  cases row.get? column with
  | none => simp [only, require, Except.bind]
  | some value => cases value <;> simp [only, require, Except.bind, ColumnValue.type]

/-- A double is read just if the column has a number. -/
theorem exists_double_iff :
    (∃ value, row.double column = .ok value) ↔ row.typeOf column ∈ only [.double, .bigint] := by
  rw [double, double?, typeOf]
  cases row.get? column with
  | none => simp [only, require, Except.bind]
  | some value => cases value <;> simp [only, require, Except.bind, ColumnValue.type]

/-- An integer is read just if the column has one. -/
theorem exists_int_iff :
    (∃ value, row.int column = .ok value) ↔ row.typeOf column ∈ only [.bigint] := by
  rw [int, int?, typeOf]
  cases row.get? column with
  | none => simp [only, require, Except.bind]
  | some value => cases value <;> simp [only, require, Except.bind, ColumnValue.type]

/-- An id is read just if the column has one. -/
theorem exists_uuid_iff :
    (∃ value, row.uuid column = .ok value) ↔ row.typeOf column ∈ only [.uuid] := by
  rw [uuid, typeOf]
  cases row.get? column with
  | none => simp [only]
  | some value => cases value <;> simp [only, ColumnValue.type]

/-- A truth value is read just if the column has one, or an integer in its place. -/
theorem exists_boolean_iff :
    (∃ value, row.boolean column = .ok value) ↔ row.typeOf column ∈ only [.boolean, .bigint] := by
  rw [boolean, typeOf]
  cases row.get? column with
  | none => simp [only]
  | some value => cases value <;> simp [only, ColumnValue.type]

/-- A time is read just if the column has one. -/
theorem exists_timestamp_iff :
    (∃ value, row.timestamp column = .ok value) ↔ row.typeOf column ∈ only [.timestamp] := by
  rw [timestamp, typeOf]
  cases row.get? column with
  | none => simp [only]
  | some value => cases value <;> simp [only, ColumnValue.type]

/-- A parent is read just if its column has an id, an identifier or nothing. -/
theorem exists_parentRef_iff :
    (∃ value, row.parentRef = .ok value) ↔
      row.typeOf "primary_value_id" ∈ orNothing [.uuid, .text] := by
  rw [parentRef, typeOf]
  cases row.get? "primary_value_id" with
  | none => simp [orNothing]
  | some value => cases value <;> simp [orNothing, ColumnValue.type]

end Columns

/-! ## Payloads -/

/-- A row has a payload in one of the two layouts: a text of JSON, or without a text a map of
doubles, all of them finite. -/
def HasPayload (row : Row) : Prop :=
  (∃ text, row.get? "measurement_values_json" = some (.text text) ∧
      (Json.parse? text).isSome = true) ∨
    row.typeOf "measurement_values_json" ∈ [none, some .null] ∧
      ∃ values, row.get? "measurement_values" = some (.doubleMap values) ∧
        ∀ entry ∈ values.entries, entry.2.isFinite = true

/-- Measurements are read just if all of them are finite. -/
theorem exists_measurements_iff {row : Row} {values : Dictionary Double} :
    (∃ payload, row.measurements values = .ok payload) ↔
      ∀ entry ∈ values.entries, entry.2.isFinite = true := by
  rw [measurements]
  cases hFind : values.entries.find? fun entry => !entry.2.isFinite with
  | none => simpa using hFind
  | some entry =>
    have hNot : entry.2.isFinite = false := by simpa using List.find?_some hFind
    refine iff_of_false (by simp) fun hAll => ?_
    rw [hAll entry (List.mem_of_find?_eq_some hFind)] at hNot
    cases hNot

/-- A payload of the former layout is read just if its column has finite measurements. -/
theorem exists_formerPayload_iff {row : Row} :
    (∃ payload, row.formerPayload = .ok payload) ↔
      ∃ values, row.get? "measurement_values" = some (.doubleMap values) ∧
        ∀ entry ∈ values.entries, entry.2.isFinite = true := by
  rw [formerPayload]
  split
  · next values hValues =>
    rw [exists_measurements_iff]
    constructor
    · exact fun hAll => ⟨values, hValues, hAll⟩
    · rintro ⟨other, hOther, hAll⟩
      rw [hValues] at hOther
      cases hOther
      exact hAll
  · next hNone => exact iff_of_false (by simp) fun ⟨values, hValues, _⟩ => hNone values hValues

/-- A payload is read just if the row has one. -/
theorem exists_payload_iff {row : Row} :
    (∃ payload, row.payload = .ok payload) ↔ row.HasPayload := by
  rw [payload, HasPayload, typeOf]
  split
  · next text hText =>
    cases hParse : Json.parse? text <;> simp [hText, hParse, ColumnValue.type]
  · next hNull => simp [hNull, exists_formerPayload_iff, ColumnValue.type]
  · next hNone => simp [hNone, exists_formerPayload_iff]
  · next other hText hNull hOther =>
    rw [hOther]
    refine iff_of_false (by simp) ?_
    rintro (⟨text, hEq, -⟩ | ⟨hType, -⟩)
    · exact hText text (Option.some.inj hEq)
    · cases other <;> simp_all [ColumnValue.type]

/-! ## Layouts -/

/-- What a row holds is of the types that a layout says. -/
def Fits (row : Row) (layout : List (String × List (Option ColumnType))) : Prop :=
  ∀ entry ∈ layout, row.typeOf entry.1 ∈ entry.2

instance (row : Row) (layout : List (String × List (Option ColumnType))) :
    Decidable (row.Fits layout) :=
  inferInstanceAs (Decidable (∀ entry ∈ layout, _))

end Row

open Row

/-- The columns of parameters. -/
def Params.layout : List (String × List (Option ColumnType)) :=
  [ ("primary_dataset", only [.text]),
    ("matchup_datasets", only [.text]),
    ("depth_min", orNothing [.double, .bigint]),
    ("depth_max", orNothing [.double, .bigint]),
    ("time_tolerance", only [.bigint]),
    ("radius_tolerance", only [.double, .bigint]),
    ("start_time", only [.timestamp]),
    ("end_time", only [.timestamp]),
    ("platforms", orNothing [.text]),
    ("bounding_box", orNothing [.text]),
    ("parameter", orNothing [.text]) ]

/-- The columns of statistics. -/
def Stats.layout : List (String × List (Option ColumnType)) :=
  [ ("num_gridded_matched", orNothing [.bigint]),
    ("num_insitu_matched", orNothing [.bigint]),
    ("time_to_complete", orNothing [.bigint]) ]

/-- The columns of a data row of which a trimmed forest is made. -/
def DataRow.outline : List (String × List (Option ColumnType)) :=
  [ ("value_id", only [.text]),
    ("x", only [.double, .bigint]),
    ("y", only [.double, .bigint]),
    ("source_dataset", only [.text]),
    ("measurement_time", only [.timestamp]) ]

/-- The columns of a data row, but for those of the payload. -/
def DataRow.layout : List (String × List (Option ColumnType)) :=
  outline ++
    [ ("id", only [.uuid]),
      ("primary_value_id", orNothing [.uuid, .text]),
      ("is_primary", only [.boolean, .bigint]),
      ("platform", orNothing [.text]),
      ("device", orNothing [.text]),
      ("depth", orNothing [.double, .bigint]),
      ("file_url", orNothing [.text]) ]

/-- The parameters of a row are read just if its columns have their types. -/
theorem Params.exists_ofRow_iff {row : Row} :
    (∃ params, ofRow row = .ok params) ↔ row.Fits layout := by
  simp only [ofRow, exists_ok_bind_iff, exists_ok_pure, and_true, exists_and_right,
    exists_text_iff, exists_double?_iff, exists_int_iff, exists_double_iff, exists_timestamp_iff,
    exists_text?_iff, Fits, layout, List.forall_mem_cons, List.not_mem_nil, false_implies,
    implies_true]

/-- The statistics of a row are read just if its columns have their types. -/
theorem Stats.exists_ofRow_iff {row : Row} :
    (∃ stats, ofRow row = .ok stats) ↔ row.Fits layout := by
  simp only [ofRow, exists_ok_bind_iff, exists_ok_pure, and_true, exists_and_right,
    exists_int?_iff, Fits, layout, List.forall_mem_cons, List.not_mem_nil, false_implies,
    implies_true]

/-- The trimmed entry of a data row is read just if its columns have their types. -/
theorem Assembly.exists_trimmedEntry_iff {row : Row} :
    (∃ entry, trimmedEntry row = .ok entry) ↔ row.Fits DataRow.outline := by
  simp only [trimmedEntry, exists_ok_bind_iff, exists_ok_pure, and_true, exists_and_right,
    exists_text_iff, exists_double_iff, exists_timestamp_iff, Fits, DataRow.outline,
    List.forall_mem_cons, List.not_mem_nil, false_implies, implies_true]

/-- A data row is read just if its columns have their types and there is a payload. -/
theorem DataRow.exists_ofRow_iff {row : Row} :
    (∃ data, ofRow row = .ok data) ↔ row.Fits layout ∧ row.HasPayload := by
  simp only [ofRow, exists_ok_bind_iff, exists_ok_pure, and_true, exists_and_right,
    exists_parentRef_iff, exists_uuid_iff, exists_text_iff, exists_boolean_iff, exists_double_iff,
    exists_timestamp_iff, exists_text?_iff, exists_double?_iff, exists_payload_iff, Fits, layout,
    outline, List.cons_append, List.nil_append, List.forall_mem_cons, List.not_mem_nil,
    false_implies, implies_true]
  tauto

end Collocation
