import Collocation.Assembly
import Collocation.Proofs.Json.CompactTexts
import Collocation.Proofs.Row.Decoding
import Collocation.Store.Basic

/-!
# Layouts of data rows

The layout of a data row is chosen column by column: where its measurements are, how it is said
whether it is at the top, and how its parent is named. A row is decoded alike in all layouts, but
for the reference to its parent, which is the one that was written.
-/

set_option autoImplicit false

namespace Collocation

/-! ## Writing a layout -/

/-- Where the measurements of a row are. -/
inductive PayloadLayout where
  /-- In the text of their object. -/
  | text
  /-- In a map of doubles. The column of the text is null or absent. -/
  | map (withNull : Bool)

/-- How it is said whether a row is at the top. -/
inductive FlagLayout where
  | bool
  /-- By a whole number, which is zero below the top. -/
  | number (yes : Int64) (nonzero : yes ≠ 0)

structure RowLayout where
  payload : PayloadLayout
  flag : FlagLayout
  /-- Whether a parent at the top is named by its identifier. -/
  byPoint : Bool

def PayloadLayout.write (values : Dictionary Double) (row : Row) : PayloadLayout → Row
  | text => row
  | map true =>
    (row.set "measurement_values_json" .null).set "measurement_values" (.doubleMap values)
  | map false => (row.remove "measurement_values_json").set "measurement_values" (.doubleMap values)

def FlagLayout.write (topLevel : Bool) (row : Row) : FlagLayout → Row
  | bool => row
  | number yes _ => row.set "is_primary" (.int (if topLevel then yes else 0))

/-- How a row refers to its parent, which is at the top if it has an identifier here. -/
def RowLayout.reference (layout : RowLayout) (top? : Option String) (parent : Option Uuid) :
    Option ParentRef :=
  match layout.byPoint, top? with
  | true, some valueId => some (.point valueId)
  | _, _ => parent.map .row

def RowLayout.writeParent (layout : RowLayout) (top? : Option String) (row : Row) : Row :=
  match layout.byPoint, top? with
  | true, some valueId => row.set "primary_value_id" (.text valueId)
  | _, _ => row

/-- A flat row in a layout. -/
def FlatRow.inLayout (row : FlatRow) (values : Dictionary Double) (top? : Option String)
    (layout : RowLayout) : Row :=
  layout.payload.write values (layout.flag.write row.isTopLevel (layout.writeParent top? row.toRow))

/-- The object of measurements. -/
def measuredPayload (values : Dictionary Double) : Json :=
  .object (values.entries.map fun entry => (entry.1, .double entry.2))

/-! ## Columns of a layout -/

section Columns

variable {row : Row} {column : String}

/-- The layout of the payload does not matter to other columns. -/
theorem PayloadLayout.get?_write (layout : PayloadLayout) (values : Dictionary Double)
    (hText : column ≠ "measurement_values_json") (hMap : column ≠ "measurement_values") :
    (layout.write values row).get? column = row.get? column := by
  cases layout with
  | text => rfl
  | map withNull =>
    cases withNull
    · rw [write, Row.get?_set, if_neg hMap.symm, Row.get?_remove, if_neg hText.symm]
    · rw [write, Row.get?_set, if_neg hMap.symm, Row.get?_set, if_neg hText.symm]

/-- The layout of the flag does not matter to other columns. -/
theorem FlagLayout.get?_write (layout : FlagLayout) (topLevel : Bool)
    (h : column ≠ "is_primary") : (layout.write topLevel row).get? column = row.get? column := by
  cases layout with
  | bool => rfl
  | number yes nonzero => rw [write, Row.get?_set, if_neg h.symm]

/-- The layout of the parent does not matter to other columns. -/
theorem RowLayout.get?_writeParent (layout : RowLayout) (top? : Option String)
    (h : column ≠ "primary_value_id") :
    (layout.writeParent top? row).get? column = row.get? column := by
  unfold writeParent
  split
  · rw [Row.get?_set, if_neg h.symm]
  · rfl

/-- The flag is read from its column in any layout. -/
theorem FlagLayout.boolean_write (layout : FlagLayout) {topLevel : Bool}
    (h : row.boolean "is_primary" = .ok topLevel) :
    (layout.write topLevel row).boolean "is_primary" = .ok topLevel := by
  cases layout with
  | bool => exact h
  | number yes nonzero =>
    rw [write, Row.boolean, Row.get?_set, if_pos rfl]
    cases topLevel
    · rfl
    · exact congrArg Except.ok (bne_iff_ne.2 nonzero)

/-- In a layout with a map the payload is made of the measurements. -/
theorem PayloadLayout.payload_write_map (withNull : Bool) (values : Dictionary Double) :
    ((PayloadLayout.map withNull).write values row).payload =
      ((PayloadLayout.map withNull).write values row).measurements values := by
  have hText : ((PayloadLayout.map withNull).write values row).get? "measurement_values_json" =
      if withNull then some .null else none := by
    cases withNull
    · rw [write, Row.get?_set, if_neg (by decide), Row.get?_remove]
      rfl
    · rw [write, Row.get?_set, if_neg (by decide), Row.get?_set]
      rfl
  have hMap : ((PayloadLayout.map withNull).write values row).get? "measurement_values" =
      some (.doubleMap values) := by
    cases withNull <;> rw [write, Row.get?_set, if_pos rfl]
  rw [Row.payload, hText]
  cases withNull <;> simp [Row.formerPayload, hMap]

end Columns

/-! ## Reading a layout -/

namespace FlatRow

variable (row : FlatRow) (values : Dictionary Double) (top? : Option String) (layout : RowLayout)

/-- Most columns are the same in all layouts. -/
theorem get?_inLayout {column : String}
    (h : column ∉ ["measurement_values_json", "measurement_values", "is_primary",
      "primary_value_id"]) :
    (row.inLayout values top? layout).get? column = row.toRow.get? column := by
  simp only [List.mem_cons, List.not_mem_nil, or_false, not_or] at h
  obtain ⟨hText, hMap, hFlag, hParent⟩ := h
  rw [inLayout, layout.payload.get?_write values hText hMap, layout.flag.get?_write _ hFlag,
    layout.get?_writeParent top? hParent]

/-- Messages call a row the same in any layout. -/
theorem describe_inLayout : (row.inLayout values top? layout).describe = row.toRow.describe := by
  rw [Row.describe, get?_inLayout _ _ _ _ (by decide), get?_inLayout _ _ _ _ (by decide),
    Row.describe]

/-- The parent of a row is read as its layout refers to it. -/
theorem parentRef_inLayout :
    (row.inLayout values top? layout).parentRef = .ok (layout.reference top? row.parent) := by
  have hColumn : (row.inLayout values top? layout).get? "primary_value_id" =
      (layout.writeParent top? row.toRow).get? "primary_value_id" := by
    rw [inLayout, layout.payload.get?_write values (by decide) (by decide),
      layout.flag.get?_write _ (by decide)]
  have hParent : row.toRow.get? "primary_value_id" = some (.ofOption .uuid row.parent) :=
    get?_toRow (by simp [columns, FlatRow.values])
  obtain ⟨payload, flag, byPoint⟩ := layout
  cases byPoint with
  | false => exact Row.parentRef_eq_ok (hColumn.trans hParent)
  | true =>
    cases top? with
    | none => exact Row.parentRef_eq_ok (hColumn.trans hParent)
    | some valueId =>
      have hNamed : (RowLayout.mk payload flag true).writeParent (some valueId) row.toRow =
          row.toRow.set "primary_value_id" (.text valueId) := rfl
      rw [Row.parentRef, hColumn, hNamed, Row.get?_set, if_pos rfl]
      rfl

/-- The flag of a row is the same in any layout. -/
theorem boolean_inLayout :
    (row.inLayout values top? layout).boolean "is_primary" = .ok row.isTopLevel := by
  have hColumn : (row.inLayout values top? layout).get? "is_primary" =
      (layout.flag.write row.isTopLevel (layout.writeParent top? row.toRow)).get?
        "is_primary" := by
    rw [inLayout, layout.payload.get?_write values (by decide) (by decide)]
  have hParent : (layout.writeParent top? row.toRow).boolean "is_primary" = .ok row.isTopLevel :=
    Row.boolean_eq_ok <| by
      rw [layout.get?_writeParent top? (by decide)]
      exact get?_toRow (by simp [columns, FlatRow.values])
  have hFlag := layout.flag.boolean_write hParent
  exact Row.boolean_of_get?_eq hColumn hFlag

/-- The key of a row is the same in any layout. -/
theorem key_inLayout : (row.inLayout values top? layout).key .data = .ok row.rowId := by
  have hId : row.toRow.get? "id" = some (.uuid row.rowId) :=
    get?_toRow (by simp [columns, FlatRow.values])
  rw [← row.get?_inLayout values top? layout (by decide)] at hId
  exact Row.uuid_eq_ok hId

/-- A row belongs to the same execution in any layout. -/
theorem belongsTo_inLayout (executionId : Uuid) :
    Store.belongsTo (row.inLayout values top? layout) executionId =
      decide (row.executionId = executionId) := by
  have hColumn : row.toRow.get? "execution_id" = some (.uuid row.executionId) :=
    get?_toRow (by simp [columns, FlatRow.values])
  simp [Store.belongsTo, row.get?_inLayout values top? layout, hColumn]

/-- A row is selected by its flag in any layout. -/
theorem hasFlag_inLayout (topLevel : Bool) :
    Store.hasFlag (row.inLayout values top? layout) topLevel = (row.isTopLevel == topLevel) := by
  rw [Store.hasFlag, boolean_inLayout]

/-- The trimmed entry of a row that was written is its outline. -/
theorem trimmedEntry_toRow :
    Assembly.trimmedEntry row.toRow =
      .ok (row.valueId,
        { longitude := row.longitude, latitude := row.latitude, source := row.source,
          time := row.time }) := by
  have get {column : String} {value : ColumnValue}
      (hMem : (column, value) ∈ FlatRow.columns.zip row.values) :
      row.toRow.get? column = some value := get?_toRow hMem
  simp only [columns, FlatRow.values, List.zip_cons_cons, List.zip_nil_right, List.mem_cons,
    List.not_mem_nil, or_false, Prod.mk.injEq] at get
  have hValueId : row.toRow.text "value_id" = .ok row.valueId := Row.text_eq_ok (get (by simp))
  have hX : row.toRow.double "x" = .ok row.longitude := Row.double_eq_ok (get (by simp))
  have hY : row.toRow.double "y" = .ok row.latitude := Row.double_eq_ok (get (by simp))
  have hSource : row.toRow.text "source_dataset" = .ok row.source := Row.text_eq_ok (get (by simp))
  have hTime : row.toRow.timestamp "measurement_time" = .ok row.time :=
    Row.timestamp_eq_ok (get (by simp))
  rw [Assembly.trimmedEntry, hValueId, hX, hY, hSource, hTime]
  rfl

/-- A trimmed entry is that of the current layout. -/
theorem trimmedEntry_inLayout :
    Assembly.trimmedEntry (row.inLayout values top? layout) =
      Assembly.trimmedEntry row.toRow := by
  have hDescribe := row.describe_inLayout values top? layout
  rw [Assembly.trimmedEntry, Assembly.trimmedEntry,
    Row.text_congr hDescribe (get?_inLayout _ _ _ _ (by decide)),
    Row.double_congr hDescribe (get?_inLayout _ _ _ _ (by decide)),
    Row.double_congr hDescribe (get?_inLayout _ _ _ _ (by decide)),
    Row.text_congr hDescribe (get?_inLayout _ _ _ _ (by decide)),
    Row.timestamp_congr hDescribe (get?_inLayout _ _ _ _ (by decide))]

variable {row values}

/-- In any layout there are the same measurements, if the row has their text and they are finite. -/
theorem payload_inLayout (hFinite : ∀ entry ∈ values.entries, entry.2.isFinite)
    (hText : Json.parse? row.measurements = some (measuredPayload values)) :
    (row.inLayout values top? layout).payload = .ok (measuredPayload values) := by
  obtain ⟨payload, flag, byPoint⟩ := layout
  cases payload with
  | text =>
    refine Row.payload_eq_ok ?_ hText
    rw [inLayout, PayloadLayout.write, flag.get?_write _ (by decide),
      RowLayout.get?_writeParent _ _ (by decide)]
    exact get?_toRow (by simp [columns, FlatRow.values])
  | map withNull =>
    have hNone : values.entries.find? (fun entry => !entry.2.isFinite) = none := by
      apply List.find?_eq_none.2
      intro entry hEntry
      simp [hFinite entry hEntry]
    rw [inLayout, PayloadLayout.payload_write_map, Row.measurements, hNone]
    rfl

/-- No payload is made of measurements of which one is not finite. -/
theorem payload_inLayout_of_not_finite {withNull : Bool} (hLayout : layout.payload = .map withNull)
    (hValue : ∃ entry ∈ values.entries, entry.2.isFinite = false) (payload : Json) :
    (row.inLayout values top? layout).payload ≠ .ok payload := by
  obtain ⟨entry, hEntry, hNot⟩ := hValue
  have hSome : (values.entries.find? fun entry => !entry.2.isFinite).isSome := by
    rw [List.find?_isSome]
    exact ⟨entry, hEntry, by rw [hNot]; rfl⟩
  obtain ⟨found, hFound⟩ := Option.isSome_iff_exists.1 hSome
  rw [inLayout, hLayout, PayloadLayout.payload_write_map, Row.measurements, hFound]
  rintro ⟨⟩

/-- A row is decoded alike in all layouts, with the reference that was written. -/
theorem ofRow_inLayout (hFinite : ∀ entry ∈ values.entries, entry.2.isFinite)
    (hText : Json.parse? row.measurements = some (measuredPayload values)) :
    DataRow.ofRow (row.inLayout values top? layout) =
      .ok { row.dataRow (measuredPayload values) with
        parent := layout.reference top? row.parent } := by
  have hCurrent := DataRow.ofRow_eq_ok_iff.1 (DataRow.ofRow_toRow hText)
  have hDescribe := row.describe_inLayout values top? layout
  have get {column : String} (h : column ∉ ["measurement_values_json", "measurement_values",
      "is_primary", "primary_value_id"]) :
      (row.inLayout values top? layout).get? column = row.toRow.get? column :=
    row.get?_inLayout values top? layout h
  refine DataRow.ofRow_eq_ok_iff.2 {
    parent := row.parentRef_inLayout values top? layout
    rowId := (Row.uuid_congr hDescribe (get (by decide))).trans hCurrent.rowId
    valueId := (Row.text_congr hDescribe (get (by decide))).trans hCurrent.valueId
    isTopLevel := row.boolean_inLayout values top? layout
    longitude := (Row.double_congr hDescribe (get (by decide))).trans hCurrent.longitude
    latitude := (Row.double_congr hDescribe (get (by decide))).trans hCurrent.latitude
    source := (Row.text_congr hDescribe (get (by decide))).trans hCurrent.source
    time := (Row.timestamp_congr hDescribe (get (by decide))).trans hCurrent.time
    platform := (Row.text?_congr hDescribe (get (by decide))).trans hCurrent.platform
    device := (Row.text?_congr hDescribe (get (by decide))).trans hCurrent.device
    depth := (Row.double?_congr hDescribe (get (by decide))).trans hCurrent.depth
    fileUrl := (Row.text?_congr hDescribe (get (by decide))).trans hCurrent.fileUrl
    payload := payload_inLayout top? layout hFinite hText }

end FlatRow

/-! ## The text of measurements -/

/-- The measurements of a payload are legible, and nested no deeper. -/
theorem legible_doubles {entries : List (String × Double)}
    (h : ∀ entry ∈ entries, (Scalar.double entry.2).ReadsBack) :
    Json.LegibleMembers (entries.map fun entry => (entry.1, .double entry.2)) ∧
      Json.Draft.depthMembers
        (Json.toMembers (entries.map fun entry => (entry.1, .double entry.2))) = 0 := by
  induction entries with
  | nil => exact ⟨trivial, rfl⟩
  | cons entry entries ih =>
    obtain ⟨hLegible, hDepth⟩ := ih fun x hx => h x (List.mem_cons_of_mem _ hx)
    refine ⟨⟨h entry List.mem_cons_self, hLegible⟩, ?_⟩
    rw [List.map_cons, Json.toMembers, Json.Draft.depthMembers, hDepth]
    rfl

/-- The text of measurements is read as they are, if each double is. -/
theorem parse?_measuredPayload {values : Dictionary Double}
    (h : ∀ entry ∈ values.entries, (Scalar.double entry.2).ReadsBack) :
    Json.parse? (measuredPayload values).compact = some (measuredPayload values) := by
  obtain ⟨hLegible, hDepth⟩ := legible_doubles h
  apply Json.parse?_compact
  · exact ⟨List.pairwise_map.2 values.ascending, hLegible⟩
  · rw [measuredPayload, Json.toDraft, Json.Draft.depth, hDepth]
    decide

end Collocation
