import Collocation.Proofs.Archive.Submitting
import Collocation.Proofs.Assembly.KeptRows
import Collocation.Proofs.Assembly.RoundTrip
import Collocation.Proofs.Flattening.Preorder

/-!
# What is read back after faults

Whatever writes a fault rejects, and whether or not the attempts run out, the execution can be read
back. Of its points those are there that were accepted in some pass and above which every point was.
-/

set_option autoImplicit false

namespace Collocation.Archive

open WriteFault

variable {archive : Archive} {submission : Submission}

/-- The pass in which the row of a numbered point of a submission is accepted first, if it is in
any of the passes that happen. -/
def landingOf {α : Type} (archive : Archive) (submission : Submission) (point : α × Nat) :
    Option Nat :=
  landing? archive.store.fault (submission.rows archive.supply) (archive.passes submission) point.2

/-- A point can only land in a pass that was made. -/
theorem landingOf_lt {α : Type} (point : α × Nat) (pass : Nat)
    (h : landingOf archive submission point = some pass) : pass < archive.passes submission :=
  landing?_lt _ _ h

/-- The points of a submission as they are read back, with their numbers in pre-order. -/
def numberedPoints (submission : Submission) : Forest (Observation × Nat) :=
  Forest.numbered 0 (Forest.map Observation.settled submission.points)

/-- The rows that land are those of the points that do. -/
theorem landed_eq_taken :
    landed archive.store.fault (submission.rows archive.supply) (archive.passes submission) =
      Assembly.taken (landingOf archive submission) (archive.passes submission)
        (submission.forest archive.supply) := by
  rw [Assembly.taken, Forest.values_numbered, ← Submission.rows_eq_values]
  rfl

section Readable

variable (hReadable : ∀ observation ∈ Forest.values submission.points, observation.Readable)
include hReadable

/-- The rows of a submission, numbered in their order, have its points with the same numbers. -/
theorem numbered_forest :
    Forest.map (fun row => (row.1.observation, row.2))
        (Forest.numbered 0 (submission.forest archive.supply)) =
      numberedPoints submission := by
  rw [← Forest.numbered_map, Submission.map_forest hReadable, numberedPoints]

/-- The observations of the kept rows are those of the kept points. -/
theorem map_keptRows :
    Forest.map FlatRow.observation
        (Assembly.keptRows (landingOf archive submission) (archive.passes submission)
          (submission.forest archive.supply)) =
      Forest.map (·.1) (Forest.kept (landingOf archive submission) (archive.passes submission)
        (numberedPoints submission)) := by
  rw [← @numbered_forest archive _ hReadable, Forest.kept_map, Assembly.keptRows, Forest.map_map,
    Forest.map_map]
  rfl

/-- What never landed is as much of the rows as of the points. -/
theorem leftOver_forest :
    Forest.leftOver (landingOf archive submission)
        (Forest.numbered 0 (submission.forest archive.supply)) =
      Forest.leftOver (landingOf archive submission) (numberedPoints submission) := by
  rw [← @numbered_forest archive _ hReadable, Forest.leftOver_map]
  rfl

end Readable

/-- After a submission the rows that landed are the data rows of its execution. -/
theorem dataRows_submit (hOpen : archive.store.closed = false)
    (hPatient : archive.writer.Patient archive.store)
    (hNodup : ((submission.rows archive.supply).map FlatRow.rowId).Nodup)
    (hUnused : ∀ row ∈ submission.rows archive.supply, row.rowId ∉ archive.store.data.keys)
    (hNew : archive.store.dataRows (submission.id archive.supply) = []) :
    (archive.submit submission).2.store.dataRows (submission.id archive.supply) =
      (landed archive.store.fault (submission.rows archive.supply)
        (archive.passes submission)).map FlatRow.toRow := by
  have hEntries := archive.submit_entries submission hOpen hPatient hNodup hUnused
  have hOwn : ∀ row ∈ landed archive.store.fault (submission.rows archive.supply)
      (archive.passes submission), Store.belongsTo row.toRow (submission.id archive.supply) := by
    intro row hRow
    rw [landed_eq_taken] at hRow
    have hMem := Assembly.mem_of_mem_taken hRow
    rw [← Submission.rows_eq_values] at hMem
    rw [FlatRow.belongsTo_toRow]
    exact decide_eq_true (Submission.executionId_of_mem_rows hMem)
  rw [Store.dataRows, Ledger.values] at hNew ⊢
  rw [hEntries, List.map_append, List.filter_append, hNew, List.nil_append, List.map_map]
  apply List.filter_eq_self.2
  intro row hRow
  obtain ⟨flat, hFlat, rfl⟩ := List.mem_map.1 hRow
  exact hOwn flat hFlat

/-- The forest of a submission after its rows were written: what is kept of its points. -/
theorem assemble_submit (hOpen : archive.store.closed = false)
    (hPatient : archive.writer.Patient archive.store)
    (hNew : archive.store.dataRows (submission.id archive.supply) = [])
    (hNodup : ((submission.rows archive.supply).map FlatRow.rowId).Nodup)
    (hUnused : ∀ row ∈ submission.rows archive.supply, row.rowId ∉ archive.store.data.keys)
    (hDistinct : ((Forest.tops submission.points).map Observation.id).Nodup)
    (hReadable : ∀ observation ∈ Forest.values submission.points, observation.Readable) :
    (archive.submit submission).2.store.assemble .full (submission.id archive.supply) false =
      .ok
        { points := List.map Point.shown (Forest.map (·.1) (Forest.kept
            (landingOf archive submission) (archive.passes submission)
              (numberedPoints submission)))
          dropped := Forest.leftOver (landingOf archive submission)
            (numberedPoints submission) } := by
  have hRows := dataRows_submit hOpen hPatient hNodup hUnused hNew
  rw [landed_eq_taken] at hRows
  obtain ⟨hTops, hNested⟩ :=
    Store.select_of_dataRows (archive.submit_store submission hOpen hPatient).1 hRows
  have hIds : (Forest.ids FlatRow.rowId (submission.forest archive.supply)).Nodup := by
    rwa [Forest.ids, ← Submission.rows_eq_values]
  have hValueIds :
      ((Forest.tops (submission.forest archive.supply)).map FlatRow.valueId).Nodup := by
    rwa [← Forest.tops_map, Submission.forest, Flattened.map_rowForest (g := Observation.id)
      (fun _ _ _ _ => rfl), Forest.tops_map]
  have hRowsReadable : ∀ row ∈ Forest.values (submission.forest archive.supply), row.Readable := by
    rw [← Submission.rows_eq_values]
    exact Submission.readable_rows hReadable
  have hBound : ∀ (row : FlatRow × Nat) (pass : Nat),
      landingOf archive submission row = some pass → pass < archive.passes submission :=
    landingOf_lt
  have hTaken := Assembly.ofRows_taken hBound hIds (Flattened.linked_rowForest _ _ _) hValueIds
    hRowsReadable
  rw [map_keptRows hReadable, leftOver_forest hReadable] at hTaken
  simp only [Store.assemble, hTops, hNested, bind, Except.bind]
  exact hTaken

/-! ## Full passes -/

/-- The points of a submission are numbered below their count. -/
theorem mem_numberedPoints {point : Observation × Nat}
    (h : point ∈ Forest.values (numberedPoints submission)) :
    point.2 < Forest.size submission.points := by
  rw [numberedPoints, Forest.values_numbered] at h
  have hLt := List.snd_lt_of_mem_zipIdx h
  rwa [Forest.length_values, Forest.size_map] at hLt

/-- If some pass was full, every point is kept and none is left over. -/
theorem kept_of_full {pass : Nat} (hPass : pass < archive.passes submission)
    (hFull : fullIn archive.store.fault (submission.rows archive.supply) pass) :
    Forest.size (Forest.kept (landingOf archive submission) (archive.passes submission)
        (numberedPoints submission)) = Forest.size submission.points ∧
      Forest.leftOver (landingOf archive submission) (numberedPoints submission) = 0 := by
  have hBound : ∀ (point : Observation × Nat) (pass : Nat),
      landingOf archive submission point = some pass → pass < archive.passes submission :=
    landingOf_lt
  have hLands : ∀ point ∈ Forest.values (numberedPoints submission),
      (landingOf archive submission point).isSome := by
    intro point hPoint
    refine landing?_isSome_of_full _ _ hPass hFull ?_
    rw [Submission.length_rows]
    exact mem_numberedPoints hPoint
  have hNone := Forest.leftOver_of_all hLands
  have hSum := Forest.leftOver_add_size_kept hBound (numberedPoints submission)
  rw [hNone, Nat.zero_add, List.countP_eq_length.2 hLands] at hSum
  refine ⟨?_, hNone⟩
  rw [hSum, numberedPoints, Forest.values_numbered, List.length_zipIdx, Forest.length_values,
    Forest.size_map]

/-- If the first pass was full, the points are kept as they are. -/
theorem kept_of_first_full
    (hFull : ∀ number < Forest.size submission.points,
      acceptsIn archive.store.fault (submission.rows archive.supply) 0 number) :
    Forest.kept (landingOf archive submission) (archive.passes submission)
      (numberedPoints submission) = numberedPoints submission := by
  apply Forest.kept_of_first (archive.passes_pos submission)
  intro point hPoint
  have hAccepts := hFull point.2 (mem_numberedPoints hPoint)
  exact landing?_of_first _ _ (archive.passes_pos submission) hAccepts

/-- What can be read back after a submission, whatever its fault did: the points that landed below
such points only, in the order of the passes. Rows that landed below others are dropped. -/
theorem submit_then_retrieve (archive : Archive) (submission : Submission)
    (hOpen : archive.store.closed = false)
    (hDelay : archive.store.writeDelay = 0) (hDepth : archive.depth = .full)
    (hNew : archive.store.dataRows (submission.id archive.supply) = [])
    (hNodup : ((submission.rows archive.supply).map FlatRow.rowId).Nodup)
    (hUnused : ∀ row ∈ submission.rows archive.supply, row.rowId ∉ archive.store.data.keys)
    (hDistinct : ((Forest.tops submission.points).map Observation.id).Nodup)
    (hReadable : ∀ observation ∈ Forest.values submission.points, observation.Readable) :
    ∃ results dropped,
      ((archive.submit submission).1 = .ok (submission.id archive.supply) ∨
        (archive.submit submission).1 = .error (.writeFailed (submission.id archive.supply)
          (Forest.size submission.points) archive.attempts)) ∧
      (archive.submit submission).2.retrieve (submission.id archive.supply) false = .ok results ∧
      (archive.submit submission).2.store.assemble .full (submission.id archive.supply) false =
        .ok { points := results.points, dropped } ∧
      results.points = List.map Point.shown (Forest.map (·.1) (Forest.kept
        (landingOf archive submission) (archive.passes submission)
          (numberedPoints submission))) ∧
      dropped = Forest.leftOver (landingOf archive submission) (numberedPoints submission) ∧
      ((archive.submit submission).1 = .ok (submission.id archive.supply) →
        Forest.size results.points = Forest.size submission.points ∧ dropped = 0) ∧
      ((∀ number < Forest.size submission.points,
          acceptsIn archive.store.fault (submission.rows archive.supply) 0 number) →
        (archive.submit submission).1 = .ok (submission.id archive.supply) ∧
          results.points =
            List.map Point.shown (Forest.map Observation.settled submission.points)) := by
  have hPatient := archive.writer.patient_of_no_delay hDelay
  have hAssemble := assemble_submit hOpen hPatient hNew hNodup hUnused hDistinct hReadable
  obtain ⟨hResult, -, hWriter, -⟩ := archive.submit_eq submission hOpen hPatient
  obtain ⟨hOpen', -, hRecords, -⟩ := archive.submit_store submission hOpen hPatient
  obtain ⟨hParams, hStats⟩ := archive.store.get?_withRecords submission
    (submission.id archive.supply) (submission.id archive.supply)
  rw [if_pos rfl, ← hRecords] at hParams hStats
  have hRetrieve := Store.retrieve_eq_ok hOpen' hParams hStats hAssemble
  have hDepth' : (archive.submit submission).2.depth = .full := by
    rw [depth, hWriter]
    exact hDepth
  rw [Submission.length_rows] at hResult
  refine ⟨_, _, ?_, by rw [retrieve, hDepth']; exact hRetrieve, hAssemble, rfl, rfl, ?_, ?_⟩
  · rw [hResult]
    split
    · exact .inl rfl
    · exact .inr rfl
  · intro hOk
    have hSome : (fullPass? archive.store.fault (submission.rows archive.supply)
        archive.attempts).isSome := by
      by_contra hNone
      rw [hResult, if_neg hNone] at hOk
      cases hOk
    obtain ⟨pass, hPass⟩ := Option.isSome_iff_exists.1 hSome
    obtain ⟨hSize, hLeft⟩ := kept_of_full (lt_passCount _ _ hPass) (List.find?_some hPass)
    rw [Point.size_map_shown, Forest.size_map]
    exact ⟨hSize, hLeft⟩
  · intro hAccepts
    have hFull : fullIn archive.store.fault (submission.rows archive.supply) 0 := by
      rw [fullIn, List.all_eq_true, Submission.length_rows]
      exact fun number hNumber => hAccepts number (List.mem_range.1 hNumber)
    rw [hResult, if_pos (fullPass?_of_first _ _ archive.attempts_pos hFull),
      kept_of_first_full hAccepts, numberedPoints, Forest.map_fst_numbered]
    exact ⟨rfl, rfl⟩

/-- The first write is rejected, so that the first point lands after all others. -/
theorem submit_then_retrieve_nested :
    ∃ results,
      ((plainArchive (some (.first 1))).submit (plainSubmission none nestedPoints)).2.retrieve
          (Supply.seeded 0).take.1 false = .ok results ∧
        results.points = List.map Point.shown
          [ Assembly.plainPoint "c" (some (.array [])) [],
            Assembly.plainPoint "a" (some (.array []))
              [Assembly.plainPoint "b" (some (.array [])) []] ] := by
  have hRows : (plainSubmission none nestedPoints).rows (plainArchive (some (.first 1))).supply =
      Forest.values ((plainSubmission none nestedPoints).forest
        (plainArchive (some (.first 1))).supply) :=
    Submission.rows_eq_values
  have hNodup : (((plainSubmission none nestedPoints).rows (Supply.seeded 0)).map
      FlatRow.rowId).Nodup := by
    rw [Submission.rowIds_rows]
    show ((List.range' 1 3).map (Supply.seeded 0).mint).Nodup
    decide +kernel
  obtain ⟨results, dropped, -, hResults, -, hPoints, -⟩ :=
    submit_then_retrieve (plainArchive (some (.first 1))) (plainSubmission none nestedPoints)
      rfl rfl rfl rfl hNodup
      (fun _ _ => List.not_mem_nil) (by decide)
      (by simp [plainSubmission, nestedPoints, Assembly.plainPoint, Forest.values, Tree.values,
        Observation.Readable])
  refine ⟨results, hResults, hPoints.trans ?_⟩
  have hPasses :
      (plainArchive (some (.first 1))).passes (plainSubmission none nestedPoints) = 2 := by
    rw [passes, hRows]
    rfl
  have hLanding : landingOf (α := Observation) (plainArchive (some (.first 1)))
      (plainSubmission none nestedPoints) = fun point =>
        landing? (some (.first 1)) (Forest.values ((plainSubmission none nestedPoints).forest
          (plainArchive (some (.first 1))).supply)) 2 point.2 := by
    funext point
    rw [landingOf, hPasses, hRows]
    rfl
  rw [hLanding, hPasses]
  rfl

end Collocation.Archive
