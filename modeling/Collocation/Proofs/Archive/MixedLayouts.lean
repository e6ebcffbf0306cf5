import Collocation.Proofs.Archive.Loading
import Collocation.Proofs.Assembly.MixedRows

/-!
# Mixed layouts

A forest whose rows are written to a store in pre-order, each in a layout of its own, is loaded like
the forest whose rows are all written as they are today. Only measurements in a map have to be
finite: if some are not, the load fails.
-/

set_option autoImplicit false

namespace Collocation

open Flattened

section Stores

variable {executionId : Uuid} {supply : Supply} {points : Forest Measured}

/-- Rows in their layouts are written like rows of today. -/
theorem writes_mixedRow :
    Writes executionId (pairedRows executionId supply points) (fun row => row.1.rowId)
      (fun row => row.1.isTopLevel) (mixedRow executionId supply points) where
  key row _ := row.1.key_inLayout _ _ _
  belongs row h := by
    rw [mixedRow, FlatRow.belongsTo_inLayout, executionId_of_mem_pairedRows h, decide_eq_true rfl]
  flag row _ topLevel := row.1.hasFlag_inLayout _ _ _ topLevel

/-- The rows of points are rows of one execution, with their ids and flags, when they are written in
the present layout. -/
theorem writes_toRow :
    Writes executionId (pairedRows executionId supply points) (fun row => row.1.rowId)
      (fun row => row.1.isTopLevel) (fun row => row.1.toRow) where
  key row _ := row.1.key_toRow
  belongs row h := by
    rw [FlatRow.belongsTo_toRow, executionId_of_mem_pairedRows h, decide_eq_true rfl]
  flag row _ topLevel := row.1.hasFlag_toRow topLevel

variable {store : Store} (hOpen : store.closed = false) (hFault : store.fault = none)
  (hFresh : (store.data.keys ++
    (measuredRows executionId supply points).map FlatRow.rowId).Nodup)
include hFresh

/-- The ids of new points repeat neither each other nor one that is in use. -/
theorem nodup_keys_append_pairedRows :
    (store.data.keys ++
      (pairedRows executionId supply points).map fun row => row.1.rowId).Nodup := by
  rw [← map_fst_pairedRows, List.map_map] at hFresh
  exact hFresh

include hOpen hFault

/-- What is assembled after the points were written in mixed layouts: the rows that were there and
then these, each as its layout has it. -/
theorem assemble_insertAll_mixedRows (depth : NestingDepth) (trim : Bool) :
    (store.insertAll (mixedRows executionId supply points)).assemble depth executionId trim =
      if trim then
        Assembly.trimmed (((store.dataRows executionId).filter fun row => Store.hasFlag row true) ++
          mixedAt executionId supply points true)
      else
        Assembly.ofRows depth
          (((store.dataRows executionId).filter fun row => Store.hasFlag row true) ++
            mixedAt executionId supply points true)
          (((store.dataRows executionId).filter fun row => Store.hasFlag row false) ++
            mixedAt executionId supply points false) :=
  Store.assemble_insertAll hOpen hFault writes_mixedRow (nodup_keys_append_pairedRows hFresh) _ _

/-- What is assembled after the points were written in the present layout. -/
theorem assemble_insertAll_measuredRows (depth : NestingDepth) (trim : Bool) :
    (store.insertAll ((measuredRows executionId supply points).map FlatRow.toRow)).assemble depth
        executionId trim =
      if trim then
        Assembly.trimmed (((store.dataRows executionId).filter fun row => Store.hasFlag row true) ++
          currentAt executionId supply points true)
      else
        Assembly.ofRows depth
          (((store.dataRows executionId).filter fun row => Store.hasFlag row true) ++
            currentAt executionId supply points true)
          (((store.dataRows executionId).filter fun row => Store.hasFlag row false) ++
            currentAt executionId supply points false) := by
  rw [map_toRow_pairedRows]
  exact Store.assemble_insertAll hOpen hFault writes_toRow (nodup_keys_append_pairedRows hFresh) _ _

/-- The same is assembled whichever layouts the rows of new points have, if their measurements are
finite. -/
theorem assemble_mixedRows (hFiled : store.Filed) (hFinite : FiniteMeasurements points)
    (depth : NestingDepth) (trim : Bool) :
    (store.insertAll (mixedRows executionId supply points)).assemble depth executionId trim =
      (store.insertAll ((measuredRows executionId supply points).map FlatRow.toRow)).assemble depth
        executionId trim := by
  obtain ⟨-, hNodup, hDisjoint⟩ := List.nodup_append.1 hFresh
  rw [assemble_insertAll_mixedRows hOpen hFault hFresh,
    assemble_insertAll_measuredRows hOpen hFault hFresh]
  cases trim with
  | true => exact trimmed_mixedAt _
  | false =>
    refine ofRows_mixedAt hFinite hNodup ?_ depth
    intro row hRow data hData hMem
    have hThere : row ∈ store.dataRows executionId := by
      rcases List.mem_append.1 hRow with hRow | hRow <;> exact (List.mem_filter.1 hRow).1
    exact hDisjoint _ (hFiled.rowId_mem_keys hThere hData) _ hMem rfl

/-- If an execution has no rows, its forest is there after it was written. -/
theorem assemble_measuredRows_eq_ok (hFinite : FiniteMeasurements points)
    (hNone : store.dataRows executionId = []) (depth : NestingDepth) (trim : Bool) :
    ∃ assembly, (store.insertAll ((measuredRows executionId supply points).map
      FlatRow.toRow)).assemble depth executionId trim = .ok assembly := by
  rw [assemble_insertAll_measuredRows hOpen hFault hFresh, hNone]
  cases trim with
  | true => exact trimmed_currentAt_eq_ok true
  | false => exact ofRows_currentAt_eq_ok hFinite depth

/-- A forest that is written in any mixture of layouts is loaded, whole or trimmed and to any depth,
like the forest that is written as today; and it is loaded, if there is nothing else of its
execution. If a map has a measurement that is not finite, a row cannot be decoded instead. -/
theorem Store.assemble_mixed_layouts (hFiled : store.Filed) :
    (store.insertAll (mixedRows executionId supply points)).dataRows executionId =
        store.dataRows executionId ++ mixedRows executionId supply points ∧
      (FiniteMeasurements points → ∀ (depth : NestingDepth) (trim : Bool),
        (store.insertAll (mixedRows executionId supply points)).assemble depth executionId trim =
            (store.insertAll ((measuredRows executionId supply points).map
              FlatRow.toRow)).assemble depth executionId trim ∧
          (store.dataRows executionId = [] →
            ∃ assembly, (store.insertAll (mixedRows executionId supply points)).assemble depth
              executionId trim = .ok assembly)) ∧
      ∀ measured ∈ Forest.values points, ∀ withNull : Bool,
        measured.layout.payload = .map withNull →
          (∃ entry ∈ measured.values.entries, entry.2.isFinite = false) →
            ∀ depth : NestingDepth, ∃ row fault,
              (store.insertAll (mixedRows executionId supply points)).assemble depth executionId
                false = .error (.undecodable row fault) := by
  refine ⟨?_, ?_, ?_⟩
  · exact Store.dataRows_insertAll hOpen hFault writes_mixedRow
      (nodup_keys_append_pairedRows hFresh)
  · intro hFinite depth trim
    have hAlike := assemble_mixedRows hOpen hFault hFresh hFiled hFinite depth trim
    refine ⟨hAlike, fun hNone => ?_⟩
    rw [hAlike]
    exact assemble_measuredRows_eq_ok hOpen hFault hFresh hFinite hNone depth trim
  · intro measured hMem withNull hLayout hValue depth
    rw [assemble_insertAll_mixedRows hOpen hFault hFresh]
    exact ofRows_mixedAt_of_not_finite hMem hLayout hValue depth _ _

end Stores

/-- A point with one measurement, and a layout. -/
def plainMeasured (id : String) (value : Double) (layout : RowLayout) : Measured where
  observation :=
    { id, longitude := .zero, latitude := .zero, source := "survey", time := .epoch }
  values := Dictionary.empty.insert "sst" value
  layout

/-- Two points at the top have the same identifier. Of their matches one calls its parent by it. -/
def mixedPoints (value : Double) : Forest Measured :=
  [ .node (plainMeasured "a" value
        { payload := .map true, flag := .number 7 (by decide), byPoint := false })
      [ .node (plainMeasured "b" value
          { payload := .map false, flag := .bool, byPoint := true }) [] ],
    .node (plainMeasured "a" value { payload := .text, flag := .bool, byPoint := true })
      [ .node (plainMeasured "c" value
          { payload := .text, flag := .number 1 (by decide), byPoint := false }) [] ] ]

/-- The same mixture with a measurement that is finite, and with an infinite one. -/
theorem Store.assemble_mixed_layouts_repeated :
    (∃ assembly,
      (Store.empty.insertAll
          (mixedRows .nil (.seeded 0) (mixedPoints ⟨0x4034800000000000⟩))).assemble
            .full .nil false = .ok assembly ∧
      (Store.empty.insertAll ((measuredRows .nil (.seeded 0)
        (mixedPoints ⟨0x4034800000000000⟩)).map FlatRow.toRow)).assemble .full .nil false =
          .ok assembly) ∧
      ∃ row fault,
        (Store.empty.insertAll (mixedRows .nil (.seeded 0)
          (mixedPoints ⟨0x7FF0000000000000⟩))).assemble .full .nil false =
            .error (.undecodable row fault) := by
  have hOpen : Store.empty.closed = false := rfl
  have hFresh : ∀ value : Double, (Store.empty.data.keys ++
      (measuredRows .nil (.seeded 0) (mixedPoints value)).map FlatRow.rowId).Nodup := by
    intro value
    rw [measuredRows, rowIds_ofPoints]
    change ((List.range' 0 4).map (Supply.seeded 0).mint).Nodup
    decide +kernel
  have hReadsBack : (Scalar.double ⟨0x4034800000000000⟩).ReadsBack := by
    unfold Scalar.ReadsBack
    decide +kernel
  have hFinite : FiniteMeasurements (mixedPoints ⟨0x4034800000000000⟩) := by
    intro measured hMem entry hEntry
    have hValues : measured.values = Dictionary.empty.insert "sst" ⟨0x4034800000000000⟩ := by
      simp only [mixedPoints, Forest.values, Tree.values, List.append_nil, List.cons_append,
        List.nil_append, List.mem_cons, List.not_mem_nil, or_false] at hMem
      rcases hMem with rfl | rfl | rfl | rfl <;> rfl
    rw [hValues] at hEntry
    obtain rfl := List.mem_singleton.1 hEntry
    exact ⟨by decide, hReadsBack⟩
  constructor
  · obtain ⟨hAlike, hLoaded⟩ := (Store.assemble_mixed_layouts hOpen rfl (hFresh _)
      Store.filed_empty).2.1 hFinite .full false
    obtain ⟨assembly, hAssembly⟩ := hLoaded rfl
    exact ⟨assembly, hAssembly, hAlike.symm.trans hAssembly⟩
  · refine (Store.assemble_mixed_layouts hOpen rfl (hFresh _) Store.filed_empty).2.2 _
      List.mem_cons_self true rfl ⟨("sst", ⟨0x7FF0000000000000⟩), ?_, ?_⟩ .full
    · exact List.mem_singleton.2 rfl
    · decide

end Collocation
