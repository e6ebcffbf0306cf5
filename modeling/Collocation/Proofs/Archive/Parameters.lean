import Collocation.Proofs.Archive.Retrieval
import Collocation.Proofs.Archive.Submitting
import Collocation.Proofs.Row.Layouts
import Collocation.Proofs.Text.Split

/-!
# Parameters that are read back

All parameters of an execution are read back as they were written, but for the names of the datasets
to be matched, which share a text. These are the same just if the text can be split where it was
joined. What was read back once is written as the same row again. A submission writes its parameters
before any row, so that they can be read back whatever comes of its rows.
-/

set_option autoImplicit false

namespace Collocation

namespace Params

variable (executionId : Uuid) (params : Params)

/-- All but the names of datasets is read back as it was. -/
theorem others_settled : { params.settled with matchup := params.matchup } = params := by
  cases params
  rfl

/-- Parameters are read back the same just if there is a name and none has a comma in it. -/
theorem settled_eq_iff :
    params.settled = params ↔
      params.matchup ≠ [] ∧ ∀ name ∈ params.matchup, ',' ∉ name.toList := by
  rw [← Text.splitCommas_joinCommas_iff]
  constructor
  · intro h
    exact congrArg matchup h
  · intro h
    unfold settled
    rw [h]

/-- The names of parameters as they are read back are joined to the same text. -/
theorem joinCommas_settled :
    Text.joinCommas params.settled.matchup = Text.joinCommas params.matchup :=
  Text.joinCommas_splitCommas _

/-- Parameters as they are read back have the same row. -/
theorem toRow_settled : params.settled.toRow executionId = params.toRow executionId := by
  unfold toRow
  rw [joinCommas_settled]
  rfl

/-- To read back once more changes nothing. -/
theorem settled_settled : params.settled.settled = params.settled := by
  unfold settled
  rw [Text.joinCommas_splitCommas]

/-- No name becomes one empty name. -/
theorem settled_of_nil (h : params.matchup = []) :
    params.settled = { params with matchup := [""] } := by
  unfold settled
  rw [h]
  rfl

end Params

/-- What is retrieved of an execution has the parameters of its record. -/
theorem Store.params_of_retrieve {store : Store} (hOpen : store.closed = false)
    {depth : NestingDepth} {id : Uuid} {trim : Bool} {params : Params} {results : Results}
    (hParams : store.records.get? (.params, id) = some (params.toRow id))
    (h : store.retrieve depth id trim = .ok results) : results.params = params.settled := by
  have hRow : store.requireRecord .params id = .ok (params.toRow id) := by
    rw [requireRecord_of_ne hOpen (by decide), hParams]
  unfold retrieve at h
  obtain ⟨paramsRow, hParamsRow, h⟩ := bind_eq_ok_iff.1 h
  obtain ⟨statsRow, -, h⟩ := bind_eq_ok_iff.1 h
  obtain ⟨decoded, hDecoded, h⟩ := bind_eq_ok_iff.1 h
  obtain ⟨stats, -, h⟩ := bind_eq_ok_iff.1 h
  obtain ⟨assembly, -, h⟩ := bind_eq_ok_iff.1 h
  have hSame : params.toRow id = paramsRow := Except.ok.inj (hRow.symm.trans hParamsRow)
  rw [← hSame, params.ofRow_toRow] at hDecoded
  rw [← Except.ok.inj h, ← Except.ok.inj hDecoded]

namespace Archive

variable (archive : Archive) (submission : Submission) (hOpen : archive.store.closed = false)
include hOpen

/-- Whatever comes of its rows, a submission leaves its records and an open store. -/
theorem records_submit :
    (archive.submit submission).2.store.closed = false ∧
      (archive.submit submission).2.store.records =
        (archive.store.withRecords submission (submission.id archive.supply)).records := by
  rw [(archive.submit_of_open submission hOpen).2.1]
  apply archive.writer.writePasses_keeps (P := fun store => store.closed = false ∧ store.records =
    (archive.store.withRecords submission (submission.id archive.supply)).records)
  · rintro row - store ⟨hClosed, hRecords⟩
    rw [store.closed_insert, store.records_insert]
    exact ⟨hClosed, hRecords⟩
  · exact ⟨hOpen, rfl⟩

/-- The data rows of a new execution are rows of its submission. -/
theorem exists_of_mem_dataRows_submit
    (hNew : archive.store.dataRows (submission.id archive.supply) = []) :
    ∀ row ∈ (archive.submit submission).2.store.dataRows (submission.id archive.supply),
      ∃ flat ∈ submission.rows archive.supply, flat.toRow = row := by
  rw [(archive.submit_of_open submission hOpen).2.1]
  -- A new execution has no rows before, and each write brings the row that is written only.
  apply archive.writer.writePasses_keeps (P := fun store =>
    ∀ row ∈ store.dataRows (submission.id archive.supply),
      ∃ flat ∈ submission.rows archive.supply, flat.toRow = row)
  · intro row hRow store hStore other hOther
    rcases store.mem_dataRows_insert row hOther with hOld | rfl
    · exact hStore other hOld
    · exact List.mem_map.1 hRow
  · intro row hRow
    have hOld : row ∈ archive.store.dataRows (submission.id archive.supply) := hRow
    rw [hNew] at hOld
    cases hOld

/-- A new execution can be retrieved after its submission, trimmed at least. -/
theorem exists_retrieve_submit
    (hNew : archive.store.dataRows (submission.id archive.supply) = []) {trim : Bool}
    (hReadable : trim = true ∨
      ∀ observation ∈ Forest.values submission.points, observation.Readable) :
    ∃ results,
      (archive.submit submission).2.retrieve (submission.id archive.supply) trim = .ok results := by
  obtain ⟨hOpen', hRecords⟩ := archive.records_submit submission hOpen
  obtain ⟨hParams, hStats⟩ := archive.store.get?_withRecords submission
    (submission.id archive.supply) (submission.id archive.supply)
  rw [if_pos rfl, ← hRecords] at hParams hStats
  have hRows : ∀ topLevel, ∀ row ∈ (archive.submit submission).2.store.rowsAt
      (submission.id archive.supply) topLevel,
        ∃ flat ∈ submission.rows archive.supply, flat.toRow = row := fun topLevel row hRow =>
    archive.exists_of_mem_dataRows_submit submission hOpen hNew row (List.mem_of_mem_filter hRow)
  have hParamsRow : Reading.decode ⟨.params, submission.params.toRow
      (submission.id archive.supply)⟩ = .ok () :=
    outcome_eq_ok_iff.2 ⟨_, submission.params.ofRow_toRow _⟩
  have hStatsRow : Reading.decode ⟨.stats, submission.stats.toRow
      (submission.id archive.supply)⟩ = .ok () :=
    outcome_eq_ok_iff.2 ⟨_, submission.stats.ofRow_toRow _⟩
  rw [retrieve, ← outcome_eq_ok_iff, Store.outcome_retrieve hOpen' hParams hStats,
    forM_eq_ok_iff, Store.readings, List.forall_mem_cons, List.forall_mem_cons]
  refine ⟨hParamsRow, hStatsRow, ?_⟩
  cases trim with
  | true =>
    rw [if_pos rfl, List.forall_mem_map]
    intro row hRow
    obtain ⟨flat, -, rfl⟩ := hRows true row hRow
    exact outcome_eq_ok_iff.2 ⟨_, flat.trimmedEntry_toRow⟩
  | false =>
    have hFlat : ∀ flat ∈ submission.rows archive.supply, flat.Readable :=
      Submission.readable_rows (hReadable.resolve_left (by decide))
    rw [if_neg (by decide), List.forall_mem_map]
    intro row hRow
    obtain ⟨flat, hMem, rfl⟩ := (List.mem_append.1 hRow).elim (hRows true row) (hRows false row)
    exact outcome_eq_ok_iff.2 ⟨_, FlatRow.ofRow_toRow (hFlat flat hMem)⟩

end Archive

/-- Parameters are read back from their row with the same names of datasets just if there is a name
and none has a comma in it, and with the same others in any case. The names that are read back are
joined to the same text, so that they stay as they are from then on. If there is no name, one empty
name is read back, also of a whole submission. -/
theorem Params.read_back (executionId : Uuid) (params : Params) :
    (∃ decoded, Params.ofRow (params.toRow executionId) = .ok decoded ∧
      { decoded with matchup := params.matchup } = params ∧
      (decoded = params ↔ params.matchup ≠ [] ∧ ∀ name ∈ params.matchup, ',' ∉ name.toList) ∧
      Text.joinCommas decoded.matchup = Text.joinCommas params.matchup ∧
      decoded.toRow executionId = params.toRow executionId ∧
      Params.ofRow (decoded.toRow executionId) = .ok decoded) ∧
    ∀ (archive : Archive) (submission : Submission), archive.store.closed = false →
      submission.params = params → params.matchup = [] →
        (∀ trim results,
          (archive.submit submission).2.retrieve (submission.id archive.supply) trim =
            .ok results → results.params = { params with matchup := [""] }) ∧
        (archive.store.dataRows (submission.id archive.supply) = [] → ∀ trim,
          (trim = true ∨
            ∀ observation ∈ Forest.values submission.points, observation.Readable) →
          ∃ results,
            (archive.submit submission).2.retrieve (submission.id archive.supply) trim =
              .ok results) := by
  constructor
  · refine ⟨params.settled, params.ofRow_toRow executionId, params.others_settled,
      params.settled_eq_iff, params.joinCommas_settled, params.toRow_settled executionId, ?_⟩
    rw [params.settled.ofRow_toRow, params.settled_settled]
  · rintro archive submission hOpen rfl hNone
    refine ⟨?_, fun hNew _ => archive.exists_retrieve_submit submission hOpen hNew⟩
    intro trim results hResults
    obtain ⟨hOpen', hRecords⟩ := archive.records_submit submission hOpen
    have hParams := (archive.store.get?_withRecords submission
      (submission.id archive.supply) (submission.id archive.supply)).1
    rw [if_pos rfl, ← hRecords] at hParams
    rw [Store.params_of_retrieve hOpen' hParams hResults, Params.settled_of_nil _ hNone]

/-- A submission without names, of a point with a match and a point beside it. -/
theorem Params.read_back_nameless :
    ∃ results,
      ((Archive.plainArchive (some (.first 1))).submit
        { Archive.plainSubmission none Archive.nestedPoints with
          params := { Archive.plainParams with matchup := [] } }).2.retrieve
            (Supply.seeded 0).take.1 false = .ok results ∧
        results.params.matchup = [""] := by
  obtain ⟨-, hArchive⟩ := Params.read_back .nil { Archive.plainParams with matchup := [] }
  obtain ⟨hParams, hFound⟩ := hArchive (Archive.plainArchive (some (.first 1)))
    { Archive.plainSubmission none Archive.nestedPoints with
      params := { Archive.plainParams with matchup := [] } } rfl rfl rfl
  have hReadable : ∀ observation ∈ Forest.values Archive.nestedPoints,
      observation.Readable := by
    simp [Archive.nestedPoints, Assembly.plainPoint, Forest.values, Tree.values,
      Observation.Readable]
  obtain ⟨results, hResults⟩ := hFound rfl false (.inr hReadable)
  refine ⟨results, hResults, ?_⟩
  rw [hParams false results hResults]

end Collocation
