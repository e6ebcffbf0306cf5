import Collocation.Proofs.Assembly.Levels
import Collocation.Proofs.Assembly.ParentReferences
import Collocation.Proofs.Flattening.Preorder
import Collocation.Proofs.Row.Layouts

/-!
# Forests in mixed layouts

The rows of a forest are written in pre-order, each in a layout of its own. If the measurements are
finite, they are assembled like the rows as they are written today, behind any rows that were there.
What a parent is called makes no difference, because the id of a row at the top and its identifier
lead to the same root, even if the row was replaced by a later one.
-/

set_option autoImplicit false

namespace Collocation

open Flattened

/-- An observation with its measurements, and the layout of its row. -/
structure Measured where
  observation : Observation
  values : Dictionary Double
  layout : RowLayout

/-- The observation with its measurements as the payload. -/
def Measured.toObservation (measured : Measured) : Observation :=
  { measured.observation with data := some (measuredPayload measured.values) }

/-- All measurements of a forest are finite, and their texts are read back. -/
def FiniteMeasurements (points : Forest Measured) : Prop :=
  ∀ measured ∈ Forest.values points, ∀ entry ∈ measured.values.entries,
    entry.2.isFinite ∧ (Scalar.double entry.2).ReadsBack

/-- The identifier of the row at the top that a row refers to. -/
def topOf? (rows : List FlatRow) (row : FlatRow) : Option String :=
  (rows.find? fun top => top.isTopLevel && row.parent = some top.rowId).map FlatRow.valueId

/-- The identifier by which a row may name its parent is that of a row at the top, which is the
parent. -/
theorem exists_of_topOf? {rows : List FlatRow} {row : FlatRow} {valueId : String}
    (h : topOf? rows row = some valueId) :
    ∃ top ∈ rows, top.isTopLevel ∧ row.parent = some top.rowId ∧ top.valueId = valueId := by
  obtain ⟨top, hFind, hValueId⟩ := Option.map_eq_some_iff.1 h
  have hTop := List.find?_some hFind
  rw [Bool.and_eq_true, decide_eq_true_eq] at hTop
  exact ⟨top, List.mem_of_find?_eq_some hFind, hTop.1, hTop.2, hValueId⟩

/-! ## Rows in layouts -/

section Rows

variable (executionId : Uuid) (supply : Supply) (points : Forest Measured)

/-- The flat rows of a forest. -/
def measuredRows : List FlatRow :=
  (ofPoints executionId (Forest.map Measured.toObservation points) supply).1.rows

/-- The flat rows of a forest, each with what it is the row of. -/
def pairedRows : List (FlatRow × Measured) :=
  (measuredRows executionId supply points).zip (Forest.values points)

/-- A row in its layout. -/
def mixedRow (row : FlatRow × Measured) : Row :=
  row.1.inLayout row.2.values (topOf? (measuredRows executionId supply points) row.1) row.2.layout

/-- The rows of a forest in pre-order, each in its layout. -/
def mixedRows : List Row :=
  (pairedRows executionId supply points).map (mixedRow executionId supply points)

/-- The rows that are at the top, or those that are not. -/
def pairedAt (topLevel : Bool) : List (FlatRow × Measured) :=
  (pairedRows executionId supply points).filter fun row => row.1.isTopLevel == topLevel

def mixedAt (topLevel : Bool) : List Row :=
  (pairedAt executionId supply points topLevel).map (mixedRow executionId supply points)

/-- The same rows in the layout of today. -/
def currentAt (topLevel : Bool) : List Row :=
  (pairedAt executionId supply points topLevel).map fun row => row.1.toRow

variable {executionId supply points}

/-- There are as many rows as points. -/
theorem length_measuredRows :
    (measuredRows executionId supply points).length = (Forest.values points).length := by
  rw [measuredRows, rows_ofPoints, Forest.length_values, size_rowForest, Forest.size_map,
    Forest.length_values]

/-- The paired rows are the rows with their points. -/
theorem map_fst_pairedRows :
    (pairedRows executionId supply points).map (·.1) = measuredRows executionId supply points :=
  List.map_fst_zip (Nat.le_of_eq length_measuredRows)

/-- In the present layout each row is written as a flat row. -/
theorem map_toRow_pairedRows :
    (measuredRows executionId supply points).map FlatRow.toRow =
      (pairedRows executionId supply points).map fun row => row.1.toRow := by
  rw [← map_fst_pairedRows, List.map_map]
  rfl

/-- A paired row is a row of the points. -/
theorem mem_measuredRows {row : FlatRow × Measured}
    (h : row ∈ pairedRows executionId supply points) :
    row.1 ∈ measuredRows executionId supply points := by
  rw [← map_fst_pairedRows]
  exact List.mem_map_of_mem h

/-- Each point has a row. -/
theorem exists_row_of_mem_values (executionId : Uuid) (supply : Supply) {measured : Measured}
    (h : measured ∈ Forest.values points) :
    ∃ row ∈ pairedRows executionId supply points, row.2 = measured := by
  rw [← List.map_snd_zip (Nat.le_of_eq length_measuredRows.symm)] at h
  obtain ⟨row, hRow, rfl⟩ := List.mem_map.1 h
  exact ⟨row, hRow, rfl⟩

/-- Each paired row is written among the rows with its flag. -/
theorem mem_mixedAt {row : FlatRow × Measured} (h : row ∈ pairedRows executionId supply points) :
    mixedRow executionId supply points row ∈
      mixedAt executionId supply points row.1.isTopLevel :=
  List.mem_map_of_mem (List.mem_filter.2 ⟨h, beq_self_eq_true _⟩)

/-- Each row is that of its observation. -/
theorem exists_of_mem_pairedRows {row : FlatRow × Measured}
    (h : row ∈ pairedRows executionId supply points) :
    ∃ rowId parent, row.1 = .ofObservation executionId rowId parent row.2.toObservation := by
  -- Below a point all rows have it as their parent, so the parent is any in the induction.
  have key : ∀ (points : Forest Measured) (next : Nat) (parent : Option Uuid),
      List.Forall₂ (fun row measured => ∃ rowId parent,
          row = FlatRow.ofObservation executionId rowId parent (Measured.toObservation measured))
        (Forest.values (rowForest executionId supply.mint next parent
          (Forest.map Measured.toObservation points))) (Forest.values points) := by
    intro points
    induction points using Forest.induction with
    | nil => exact fun _ _ => .nil
    | cons measured children points hBelow hBeside =>
      intro next parent
      simp only [Forest.map, Tree.map, rowForest, rowTree, Forest.values, Tree.values,
        List.cons_append]
      exact .cons ⟨_, _, rfl⟩ (List.rel_append (hBelow _ _) (hBeside _ _))
  have hAll := key points supply.next none
  rw [← rows_ofPoints] at hAll
  exact (List.forall₂_iff_zip.1 hAll).2 h

section Paired

variable {row : FlatRow × Measured} (h : row ∈ pairedRows executionId supply points)
include h

/-- A row of the points is of their execution. -/
theorem executionId_of_mem_pairedRows : row.1.executionId = executionId := by
  obtain ⟨rowId, parent, hRow⟩ := exists_of_mem_pairedRows h
  rw [hRow]
  rfl

/-- A row that is marked as at the top has no parent. -/
theorem parent_of_mem_pairedRows (hTop : row.1.isTopLevel) : row.1.parent = none := by
  obtain ⟨rowId, parent, hRow⟩ := exists_of_mem_pairedRows h
  rw [hRow] at hTop ⊢
  exact Option.isNone_iff_eq_none.1 hTop

/-- The measurements of a row are the text of its point's payload. -/
theorem measurements_of_mem_pairedRows :
    row.1.measurements = (measuredPayload row.2.values).compact := by
  obtain ⟨rowId, parent, hRow⟩ := exists_of_mem_pairedRows h
  rw [hRow]
  rfl

end Paired

/-! ## What they are decoded to -/

/-- What a row is decoded to if it is written as today. -/
def currentData (row : FlatRow × Measured) : DataRow :=
  row.1.dataRow (measuredPayload row.2.values)

variable (executionId supply points) in
/-- What a row in its layout is decoded to. -/
def mixedData (row : FlatRow × Measured) : DataRow :=
  { currentData row with
    parent := row.2.layout.reference (topOf? (measuredRows executionId supply points) row.1)
      row.1.parent }

section Decoded

variable (hFinite : FiniteMeasurements points)
include hFinite

/-- The measurements of a row are read back as its point's payload. -/
theorem parse?_of_mem_pairedRows {row : FlatRow × Measured}
    (h : row ∈ pairedRows executionId supply points) :
    Json.parse? row.1.measurements = some (measuredPayload row.2.values) := by
  rw [measurements_of_mem_pairedRows h]
  exact parse?_measuredPayload fun entry hEntry => (hFinite _ (List.of_mem_zip h).2 entry hEntry).2

/-- The rows with a flag decode to the data of their layouts. -/
theorem mapM_ofRow_mixedAt (topLevel : Bool) :
    (mixedAt executionId supply points topLevel).mapM DataRow.ofRow =
      .ok ((pairedAt executionId supply points topLevel).map
        (mixedData executionId supply points)) := by
  apply mapM_eq_ok_of_forall₂
  rw [mixedAt, List.forall₂_map_left_iff, List.forall₂_map_right_iff, List.forall₂_same]
  intro row hRow
  have hPaired := (List.mem_filter.1 hRow).1
  exact FlatRow.ofRow_inLayout _ _
    (fun entry hEntry => (hFinite _ (List.of_mem_zip hPaired).2 entry hEntry).1)
    (parse?_of_mem_pairedRows hFinite hPaired)

/-- In the present layout they decode to the flat rows. -/
theorem mapM_ofRow_currentAt (topLevel : Bool) :
    (currentAt executionId supply points topLevel).mapM DataRow.ofRow =
      .ok ((pairedAt executionId supply points topLevel).map currentData) := by
  apply mapM_eq_ok_of_forall₂
  rw [currentAt, List.forall₂_map_left_iff, List.forall₂_map_right_iff, List.forall₂_same]
  exact fun row hRow =>
    DataRow.ofRow_toRow (parse?_of_mem_pairedRows hFinite (List.mem_filter.1 hRow).1)

end Decoded

/-- A row at the top has no parent in any layout. -/
theorem mixedData_of_isTopLevel {row : FlatRow × Measured}
    (hRow : row ∈ pairedRows executionId supply points) (h : row.1.isTopLevel) :
    mixedData executionId supply points row = currentData row := by
  have hParent : row.1.parent = none := parent_of_mem_pairedRows hRow h
  have hTop : topOf? (measuredRows executionId supply points) row.1 = none := by
    rw [topOf?, hParent]
    simp
  have hReference : row.2.layout.reference none none = none := by
    unfold RowLayout.reference
    split <;> simp_all
  rw [mixedData, currentData, hTop, hParent, hReference]
  simp [FlatRow.dataRow, hParent]

/-! ## Where their references lead -/

variable (executionId supply points) in
/-- The rows of the forest behind rows that were there before. -/
def behindRows (topRows nestedRows : List DataRow) (write : FlatRow × Measured → DataRow) :
    Assembly.Rows where
  tops := topRows ++ (pairedAt executionId supply points true).map currentData
  nested := nestedRows ++ (pairedAt executionId supply points false).map write

section Behind

variable {topRows nestedRows : List DataRow}
  (hNodup : ((measuredRows executionId supply points).map FlatRow.rowId).Nodup)
  (hEarlier : ∀ data ∈ topRows ++ nestedRows,
    data.rowId ∉ (measuredRows executionId supply points).map FlatRow.rowId)
include hNodup hEarlier

/-- The id of a row of the forest at the top and its identifier lead to the same place. -/
theorem resolve_row_of_isTopLevel {row : FlatRow × Measured}
    (h : row ∈ pairedRows executionId supply points) (hTop : row.1.isTopLevel) :
    (behindRows executionId supply points topRows nestedRows currentData).resolve
        (.row row.1.rowId) =
      (behindRows executionId supply points topRows nestedRows currentData).resolve
        (.point row.1.valueId) := by
  have hNew : ∀ data ∈ topRows ++ nestedRows, data.rowId ≠ row.1.rowId := by
    intro data hData hId
    refine hEarlier data hData ?_
    rw [hId]
    exact List.mem_map_of_mem (mem_measuredRows h)
  have hOnly : ∀ other ∈ pairedRows executionId supply points,
      other.1.rowId = row.1.rowId → other.1 = row.1 := fun other hOther hId =>
    List.inj_on_of_nodup_map hNodup (mem_measuredRows hOther) (mem_measuredRows h) hId
  have hTops : currentData row ∈
      (behindRows executionId supply points topRows nestedRows currentData).tops :=
    List.mem_append_right _ <| List.mem_map_of_mem <|
      List.mem_filter.2 ⟨h, by rw [hTop, beq_self_eq_true]⟩
  refine Assembly.Rows.resolve_row_eq_point _ hTops ?_ ?_
  · intro data hData hId
    rcases List.mem_append.1 hData with hData | hData
    · exact absurd hId (hNew data (List.mem_append_left _ hData))
    · obtain ⟨other, hOther, rfl⟩ := List.mem_map.1 hData
      exact congrArg FlatRow.valueId (hOnly other (List.mem_filter.1 hOther).1 hId)
  · intro data hData hId
    rcases List.mem_append.1 hData with hData | hData
    · exact hNew data (List.mem_append_right _ hData) hId
    · obtain ⟨other, hOther, rfl⟩ := List.mem_map.1 hData
      obtain ⟨hOther, hNested⟩ := List.mem_filter.1 hOther
      rw [hOnly other hOther hId, hTop] at hNested
      exact Bool.noConfusion hNested

/-- The reference of a row in its layout leads to where that of today leads. -/
theorem resolve_mixedData (row : FlatRow × Measured) :
    (mixedData executionId supply points row).parent.bind
        (behindRows executionId supply points topRows nestedRows currentData).resolve =
      (currentData row).parent.bind
        (behindRows executionId supply points topRows nestedRows currentData).resolve := by
  change (row.2.layout.reference _ row.1.parent).bind _ = (row.1.parent.map ParentRef.row).bind _
  unfold RowLayout.reference
  split
  · -- Only a parent at the top is called by its identifier.
    next valueId _ hTopOf =>
    obtain ⟨top, hMem, hTop, hParent, rfl⟩ := exists_of_topOf? hTopOf
    rw [← map_fst_pairedRows] at hMem
    obtain ⟨paired, hPaired, rfl⟩ := List.mem_map.1 hMem
    rw [hParent]
    exact (resolve_row_of_isTopLevel hNodup hEarlier hPaired hTop).symm
  · rfl

/-- Behind the same rows the layouts make no difference to what is assembled. -/
theorem ofDataRows_mixedData (depth : NestingDepth) :
    Assembly.ofDataRows depth (behindRows executionId supply points topRows nestedRows
        (mixedData executionId supply points)) =
      Assembly.ofDataRows depth
        (behindRows executionId supply points topRows nestedRows currentData) := by
  apply Assembly.Rows.ofDataRows_congr
  · rfl
  · refine List.rel_append (List.forall₂_same.2 fun data _ => ⟨rfl, rfl⟩) ?_
    rw [List.forall₂_map_left_iff, List.forall₂_map_right_iff, List.forall₂_same]
    intro row _
    exact ⟨rfl, resolve_mixedData hNodup hEarlier row⟩

end Behind

/-! ## Assemblies -/

/-- Behind rows that were there, the forest is assembled alike in all layouts. -/
theorem ofRows_mixedAt (hFinite : FiniteMeasurements points)
    (hNodup : ((measuredRows executionId supply points).map FlatRow.rowId).Nodup)
    {topRows nestedRows : List Row} (hEarlier : ∀ row ∈ topRows ++ nestedRows, ∀ data,
      DataRow.ofRow row = .ok data →
        data.rowId ∉ (measuredRows executionId supply points).map FlatRow.rowId)
    (depth : NestingDepth) :
    Assembly.ofRows depth (topRows ++ mixedAt executionId supply points true)
        (nestedRows ++ mixedAt executionId supply points false) =
      Assembly.ofRows depth (topRows ++ currentAt executionId supply points true)
        (nestedRows ++ currentAt executionId supply points false) := by
  have hTops : (mixedAt executionId supply points true).mapM DataRow.ofRow =
      .ok ((pairedAt executionId supply points true).map currentData) := by
    rw [mapM_ofRow_mixedAt hFinite]
    refine congrArg Except.ok (List.map_congr_left fun row hRow => ?_)
    obtain ⟨hPaired, hTop⟩ := List.mem_filter.1 hRow
    exact mixedData_of_isTopLevel hPaired (beq_iff_eq.1 hTop)
  rw [Assembly.ofRows_eq, Assembly.ofRows_eq, mapM_append_of_ok _ hTops,
    mapM_append_of_ok _ (mapM_ofRow_currentAt hFinite true),
    mapM_append_of_ok _ (mapM_ofRow_mixedAt hFinite false),
    mapM_append_of_ok _ (mapM_ofRow_currentAt hFinite false)]
  -- A row that was there and cannot be decoded makes both fail, with the same failure.
  cases hTopRows : topRows.mapM DataRow.ofRow with
  | error failure => rfl
  | ok tops =>
    cases hNestedRows : nestedRows.mapM DataRow.ofRow with
    | error failure => rfl
    | ok nested =>
      refine congrArg Except.ok (ofDataRows_mixedData hNodup ?_ depth)
      intro data hData
      rcases List.mem_append.1 hData with hData | hData
      · obtain ⟨row, hRow, hOk⟩ := exists_of_mem_mapM hTopRows hData
        exact hEarlier row (List.mem_append_left _ hRow) data hOk
      · obtain ⟨row, hRow, hOk⟩ := exists_of_mem_mapM hNestedRows hData
        exact hEarlier row (List.mem_append_right _ hRow) data hOk

/-- Of the rows of finite measurements alone something is assembled. -/
theorem ofRows_currentAt_eq_ok (hFinite : FiniteMeasurements points) (depth : NestingDepth) :
    ∃ assembly, Assembly.ofRows depth (currentAt executionId supply points true)
      (currentAt executionId supply points false) = .ok assembly :=
  ⟨_, Assembly.ofRows_eq_ok_iff.2 ⟨⟨_, _⟩, mapM_ofRow_currentAt hFinite true,
    mapM_ofRow_currentAt hFinite false, rfl⟩⟩

/-- A trimmed forest has nothing of what layouts differ in. -/
theorem trimmed_mixedAt (rows : List Row) :
    Assembly.trimmed (rows ++ mixedAt executionId supply points true) =
      Assembly.trimmed (rows ++ currentAt executionId supply points true) := by
  have hEarlier : List.Forall₂ (fun row other =>
      Assembly.trimmedEntry row = Assembly.trimmedEntry other) rows rows :=
    List.forall₂_same.2 fun _ _ => rfl
  have hWritten : List.Forall₂ (fun row other =>
      Assembly.trimmedEntry row = Assembly.trimmedEntry other)
        (mixedAt executionId supply points true) (currentAt executionId supply points true) := by
    rw [mixedAt, currentAt, List.forall₂_map_left_iff, List.forall₂_map_right_iff,
      List.forall₂_same]
    exact fun row _ => row.1.trimmedEntry_inLayout _ _ _
  have hAlike := List.rel_append hEarlier hWritten
  rw [Assembly.trimmed, Assembly.trimmed, mapM_congr_of_forall₂ hAlike]

/-- Of the rows of finite measurements at the top alone something is assembled, trimmed. -/
theorem trimmed_currentAt_eq_ok (topLevel : Bool) :
    ∃ assembly, Assembly.trimmed (currentAt executionId supply points topLevel) = .ok assembly := by
  have hEntries : (currentAt executionId supply points topLevel).mapM Assembly.trimmedEntry =
      .ok ((pairedAt executionId supply points topLevel).map fun row => (row.1.valueId,
        { longitude := row.1.longitude, latitude := row.1.latitude, source := row.1.source,
          time := row.1.time })) := by
    apply mapM_eq_ok_of_forall₂
    rw [currentAt, List.forall₂_map_left_iff, List.forall₂_map_right_iff, List.forall₂_same]
    exact fun row _ => row.1.trimmedEntry_toRow
  exact ⟨_, by rw [Assembly.trimmed, hEntries]; rfl⟩

/-- A map with a measurement that is not finite cannot be decoded, and no more can its forest. -/
theorem ofRows_mixedAt_of_not_finite {measured : Measured}
    (hMem : measured ∈ Forest.values points) {withNull : Bool}
    (hLayout : measured.layout.payload = .map withNull)
    (hValue : ∃ entry ∈ measured.values.entries, entry.2.isFinite = false) (depth : NestingDepth)
    (topRows nestedRows : List Row) :
    ∃ row fault, Assembly.ofRows depth (topRows ++ mixedAt executionId supply points true)
      (nestedRows ++ mixedAt executionId supply points false) =
        .error (.undecodable row fault) := by
  obtain ⟨row, hRow, rfl⟩ := exists_row_of_mem_values executionId supply hMem
  have hNot : ∀ data, DataRow.ofRow (mixedRow executionId supply points row) ≠ .ok data :=
    fun data hData => FlatRow.payload_inLayout_of_not_finite _ _ hLayout hValue data.payload
      (DataRow.ofRow_eq_ok_iff.1 hData).payload
  have hMixed : mixedRow executionId supply points row ∈
      (topRows ++ mixedAt executionId supply points true) ++
        (nestedRows ++ mixedAt executionId supply points false) := by
    have hAt := mem_mixedAt hRow
    cases hTop : row.1.isTopLevel with
    | true =>
      rw [hTop] at hAt
      exact List.mem_append_left _ (List.mem_append_right _ hAt)
    | false =>
      rw [hTop] at hAt
      exact List.mem_append_right _ (List.mem_append_right _ hAt)
  obtain ⟨other, -, fault, hFailure⟩ := Assembly.ofRows_eq_undecodable depth hMixed hNot
  exact ⟨other.describe, fault, hFailure⟩

end Rows

end Collocation
