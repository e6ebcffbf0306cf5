import Collocation.Archive
import Collocation.Proofs.Row.ColumnTypes

/-!
# Failures of a retrieval

A retrieval reads the parameters and the statistics of an execution, then its rows at the top, then,
unless it is trimmed, its nested rows. It fails at the first of them that cannot be read, and not
otherwise. If one of the two records is missing, the execution is not found, whatever rows there
are. Nothing else in the store has a say.
-/

set_option autoImplicit false

namespace Collocation

variable {α β ε : Type}

/-! ## The first failure -/

/-- Whether something succeeds, and how it fails if it does not. -/
def outcome (result : Except ε α) : Except ε Unit :=
  result.map fun _ => ()

/-- An outcome is a success just if there is a value. -/
theorem outcome_eq_ok_iff {result : Except ε α} :
    outcome result = .ok () ↔ ∃ value, result = .ok value := by
  cases result <;> simp [outcome, Except.map]

/-- An outcome fails as the result does. -/
theorem outcome_eq_error_iff {result : Except ε α} {failure : ε} :
    outcome result = .error failure ↔ result = .error failure := by
  cases result <;> simp [outcome, Except.map]

/-- What comes of a chain whose rest succeeds or fails whatever came of its beginning. -/
theorem outcome_bind {first : Except ε α} {next : α → Except ε β} (rest : Except ε Unit)
    (h : ∀ value, outcome (next value) = rest) :
    outcome (first >>= next) = (outcome first >>= fun _ => rest) := by
  cases first with
  | error failure => rfl
  | ok value => exact h value

/-- Whether all items are read comes out item by item, and the first that fails decides. -/
theorem outcome_mapM (read : α → Except ε β) (items : List α) :
    outcome (items.mapM read) = forM items fun item => outcome (read item) := by
  induction items with
  | nil => rfl
  | cons item items ih =>
    rw [List.mapM_cons, List.forM_cons, outcome_bind]
    intro result
    rw [← ih]
    cases items.mapM read <;> rfl

/-- All checks succeed just if each of them does. -/
theorem forM_eq_ok_iff {check : α → Except ε Unit} {items : List α} :
    forM items check = .ok () ↔ ∀ item ∈ items, check item = .ok () := by
  induction items with
  | nil => simp [pure, Except.pure]
  | cons item items ih =>
    rw [List.forM_cons, bind_eq_ok_iff, List.forall_mem_cons, ← ih]
    exact ⟨fun ⟨_, hItem, hItems⟩ => ⟨hItem, hItems⟩, fun ⟨hItem, hItems⟩ => ⟨(), hItem, hItems⟩⟩

/-- Checks fail at the first one that does. -/
theorem forM_eq_error_iff {check : α → Except ε Unit} {items : List α} {failure : ε} :
    forM items check = .error failure ↔
      ∃ before item after, items = before ++ item :: after ∧
        (∀ other ∈ before, check other = .ok ()) ∧ check item = .error failure := by
  constructor
  · intro h
    induction items with
    | nil => cases h
    | cons first items ih =>
      rw [List.forM_cons, bind_eq_error_iff] at h
      rcases h with hFirst | ⟨_, hFirst, hItems⟩
      · exact ⟨[], first, items, rfl, by simp, hFirst⟩
      · obtain ⟨before, item, after, rfl, hBefore, hItem⟩ := ih hItems
        exact ⟨first :: before, item, after, rfl, List.forall_mem_cons.2 ⟨hFirst, hBefore⟩, hItem⟩
  · rintro ⟨before, item, after, rfl, hBefore, hItem⟩
    rw [List.forM_append, forM_eq_ok_iff.2 hBefore, List.forM_cons, hItem]
    rfl

/-! ## What is read -/

/-- What a row is read as. An outline is all of a point that a trimmed forest has. -/
inductive Shape where
  | params
  | stats
  | point
  | outline

/-- A row that is read, and as what. -/
structure Reading where
  shape : Shape
  row : Row

namespace Reading

/-- Reads a row as its shape. -/
def decode (reading : Reading) : Except Failure Unit :=
  match reading.shape with
  | .params => outcome (Params.ofRow reading.row)
  | .stats => outcome (Stats.ofRow reading.row)
  | .point => outcome (DataRow.ofRow reading.row)
  | .outline => outcome (Assembly.trimmedEntry reading.row)

/-- A row has what its shape needs. -/
def Decodes (reading : Reading) : Prop :=
  match reading.shape with
  | .params => reading.row.Fits Params.layout
  | .stats => reading.row.Fits Stats.layout
  | .point => reading.row.Fits DataRow.layout ∧ reading.row.HasPayload
  | .outline => reading.row.Fits DataRow.outline

/-- A reading succeeds just if its row decodes. -/
theorem decode_eq_ok_iff {reading : Reading} : reading.decode = .ok () ↔ reading.Decodes := by
  obtain ⟨shape, row⟩ := reading
  cases shape with
  | params => exact outcome_eq_ok_iff.trans Params.exists_ofRow_iff
  | stats => exact outcome_eq_ok_iff.trans Stats.exists_ofRow_iff
  | point => exact outcome_eq_ok_iff.trans DataRow.exists_ofRow_iff
  | outline => exact outcome_eq_ok_iff.trans Assembly.exists_trimmedEntry_iff

/-- A row that fails is blamed for it. -/
theorem blames_decode {reading : Reading} {failure : Failure}
    (h : reading.decode = .error failure) : reading.row.Blames failure := by
  obtain ⟨shape, row⟩ := reading
  cases shape with
  | params => exact Params.blames_ofRow (outcome_eq_error_iff.1 h)
  | stats => exact Stats.blames_ofRow (outcome_eq_error_iff.1 h)
  | point => exact DataRow.blames_ofRow (outcome_eq_error_iff.1 h)
  | outline => exact Assembly.blames_trimmedEntry (outcome_eq_error_iff.1 h)

/-- A row of which the reading fails does not decode. -/
theorem not_decodes_of_error {reading : Reading} {failure : Failure}
    (h : reading.decode = .error failure) : ¬ reading.Decodes := by
  rw [← decode_eq_ok_iff, h]
  exact fun hOk => by cases hOk

/-- Who has a whole point has its outline. -/
theorem decodes_outline {row : Row} (h : Decodes ⟨.point, row⟩) : Decodes ⟨.outline, row⟩ :=
  fun entry hEntry => h.1 entry (List.mem_append_left _ hEntry)

end Reading

namespace Store

/-- The rows of an execution at the top, or the others. -/
def rowsAt (store : Store) (executionId : Uuid) (topLevel : Bool) : List Row :=
  (store.dataRows executionId).filter fun row => hasFlag row topLevel

/-- What a retrieval reads, in its order. -/
def readings (store : Store) (executionId : Uuid) (trim : Bool) (params stats : Row) :
    List Reading :=
  ⟨.params, params⟩ :: ⟨.stats, stats⟩ ::
    if trim then (store.rowsAt executionId true).map (Reading.mk .outline)
    else (store.rowsAt executionId true ++ store.rowsAt executionId false).map (Reading.mk .point)

section Open

variable {store : Store} (hOpen : store.closed = false)
include hOpen

/-- What is assembled of an execution comes from its rows at the top alone, or from these and then
the others. -/
theorem assemble_eq (depth : NestingDepth) (id : Uuid) (trim : Bool) :
    store.assemble depth id trim =
      if trim then Assembly.trimmed (store.rowsAt id true)
      else Assembly.ofRows depth (store.rowsAt id true) (store.rowsAt id false) := by
  simp only [assemble, select, hOpen, Bool.false_eq_true, if_false]
  cases trim <;> rfl

/-- A forest is assembled if its rows can be read. -/
theorem outcome_assemble (depth : NestingDepth) (id : Uuid) (trim : Bool) :
    outcome (store.assemble depth id trim) =
      forM (if trim then (store.rowsAt id true).map (Reading.mk .outline)
        else (store.rowsAt id true ++ store.rowsAt id false).map (Reading.mk .point))
        Reading.decode := by
  rw [assemble_eq hOpen]
  cases trim with
  | true =>
    simp only [if_true, Assembly.trimmed, List.forM_map]
    rw [outcome_bind (.ok ()) fun _ => rfl, outcome_mapM]
    exact bind_pure _
  | false =>
    simp only [Bool.false_eq_true, if_false, Assembly.ofRows, List.forM_map, List.forM_append]
    rw [outcome_bind (forM (store.rowsAt id false) fun row => Reading.decode ⟨.point, row⟩),
      outcome_mapM]
    · rfl
    · intro tops
      rw [outcome_bind (.ok ()) fun _ => rfl, outcome_mapM]
      exact bind_pure _

/-- With both records a retrieval fails where what it reads first fails. -/
theorem outcome_retrieve {id : Uuid} {params stats : Row}
    (hParams : store.records.get? (.params, id) = some params)
    (hStats : store.records.get? (.executionStats, id) = some stats) (depth : NestingDepth)
    (trim : Bool) :
    outcome (store.retrieve depth id trim) =
      forM (store.readings id trim params stats) Reading.decode := by
  have hParamsRow : store.requireRecord .params id = .ok params := by
    rw [requireRecord_of_ne hOpen (by decide), hParams]
  have hStatsRow : store.requireRecord .executionStats id = .ok stats := by
    rw [requireRecord_of_ne hOpen (by decide), hStats]
  rw [retrieve, hParamsRow, hStatsRow, readings, List.forM_cons, List.forM_cons,
    ← outcome_assemble hOpen depth id trim]
  change outcome (Params.ofRow params >>= fun params => Stats.ofRow stats >>= fun stats =>
    store.assemble depth id trim >>= fun assembly => pure _) = _
  refine outcome_bind _ fun _ => outcome_bind _ fun _ => ?_
  cases store.assemble depth id trim <;> rfl

/-- Without one of its records an execution is not found. -/
theorem retrieve_of_missing {id : Uuid} (h : store.records.get? (.params, id) = none ∨
      store.records.get? (.executionStats, id) = none) (depth : NestingDepth) (trim : Bool) :
    store.retrieve depth id trim = .error (.executionNotFound id) := by
  rw [retrieve, requireRecord_of_ne hOpen (by decide), requireRecord_of_ne hOpen (by decide)]
  cases hParams : store.records.get? (.params, id) with
  | none => rfl
  | some params =>
    rw [hParams] at h
    rw [h.resolve_left (by simp)]
    rfl

/-- What is retrieved of an execution depends on its own records and rows only. -/
theorem retrieve_congr {other : Store} (hOther : other.closed = false) {id : Uuid}
    (hParams : other.records.get? (.params, id) = store.records.get? (.params, id))
    (hStats : other.records.get? (.executionStats, id) = store.records.get? (.executionStats, id))
    (hRows : other.dataRows id = store.dataRows id) (depth : NestingDepth) (trim : Bool) :
    other.retrieve depth id trim = store.retrieve depth id trim := by
  have hRowsAt : other.rowsAt id = store.rowsAt id := by
    funext topLevel
    rw [rowsAt, rowsAt, hRows]
  simp only [retrieve, requireRecord_of_ne hOpen (by decide : Table.params ≠ .data),
    requireRecord_of_ne hOther (by decide : Table.params ≠ .data),
    requireRecord_of_ne hOpen (by decide : Table.executionStats ≠ .data),
    requireRecord_of_ne hOther (by decide : Table.executionStats ≠ .data), hParams, hStats,
    assemble_eq hOpen, assemble_eq hOther, hRowsAt]

end Open

/-- Retrieval from an open store: an execution is not found just if one of its two records is
missing. With both there, it is retrieved just if all that is read of it can be read, and else the
failure is that of the first reading that fails. What can be retrieved whole can be retrieved
trimmed, and nothing that belongs to other executions counts. -/
theorem retrieve_first_failure (store : Store) (hOpen : store.closed = false)
    (depth : NestingDepth) (id : Uuid) (trim : Bool) :
    (store.retrieve depth id trim = .error (.executionNotFound id) ↔
      store.records.get? (.params, id) = none ∨
        store.records.get? (.executionStats, id) = none) ∧
      (∀ params stats : Row, store.records.get? (.params, id) = some params →
        store.records.get? (.executionStats, id) = some stats →
          ((∃ results, store.retrieve depth id trim = .ok results) ↔
            ∀ reading ∈ store.readings id trim params stats, reading.Decodes) ∧
          ∀ failure, store.retrieve depth id trim = .error failure ↔
            ∃ before reading after,
              store.readings id trim params stats = before ++ reading :: after ∧
                (∀ other ∈ before, other.Decodes) ∧ ¬ reading.Decodes ∧
                reading.decode = .error failure ∧
                ∃ fault, failure = .undecodable reading.row.describe fault) ∧
      ((∃ results, store.retrieve depth id false = .ok results) →
        ∃ results, store.retrieve depth id true = .ok results) ∧
      ∀ other : Store, other.closed = false →
        other.records.get? (.params, id) = store.records.get? (.params, id) →
        other.records.get? (.executionStats, id) = store.records.get? (.executionStats, id) →
        other.dataRows id = store.dataRows id →
          other.retrieve depth id trim = store.retrieve depth id trim := by
  have hFound : ∀ params stats : Row, store.records.get? (.params, id) = some params →
      store.records.get? (.executionStats, id) = some stats → ∀ trim : Bool,
        (∃ results, store.retrieve depth id trim = .ok results) ↔
          ∀ reading ∈ store.readings id trim params stats, reading.Decodes := by
    intro params stats hParams hStats trim
    rw [← outcome_eq_ok_iff, outcome_retrieve hOpen hParams hStats, forM_eq_ok_iff]
    simp only [Reading.decode_eq_ok_iff]
  have hFailed : ∀ params stats : Row, store.records.get? (.params, id) = some params →
      store.records.get? (.executionStats, id) = some stats → ∀ failure,
        store.retrieve depth id trim = .error failure ↔
          ∃ before reading after,
            store.readings id trim params stats = before ++ reading :: after ∧
              (∀ other ∈ before, other.Decodes) ∧ ¬ reading.Decodes ∧
              reading.decode = .error failure ∧
              ∃ fault, failure = .undecodable reading.row.describe fault := by
    intro params stats hParams hStats failure
    rw [← outcome_eq_error_iff, outcome_retrieve hOpen hParams hStats, forM_eq_error_iff]
    simp only [Reading.decode_eq_ok_iff]
    constructor
    · rintro ⟨before, reading, after, hReadings, hBefore, hError⟩
      exact ⟨before, reading, after, hReadings, hBefore, Reading.not_decodes_of_error hError,
        hError, Reading.blames_decode hError⟩
    · rintro ⟨before, reading, after, hReadings, hBefore, -, hError, -⟩
      exact ⟨before, reading, after, hReadings, hBefore, hError⟩
  refine ⟨⟨fun hError => ?_, fun hMissing => retrieve_of_missing hOpen hMissing depth trim⟩,
    fun params stats hParams hStats =>
      ⟨hFound params stats hParams hStats trim, hFailed params stats hParams hStats⟩, ?_,
    fun other hOther hParams hStats hRows =>
      retrieve_congr hOpen hOther hParams hStats hRows depth trim⟩
  · cases hParams : store.records.get? (.params, id) with
    | none => exact .inl rfl
    | some params =>
      cases hStats : store.records.get? (.executionStats, id) with
      | none => exact .inr rfl
      | some stats =>
        obtain ⟨_, _, _, _, _, _, _, _, ⟨⟩⟩ := (hFailed params stats hParams hStats _).1 hError
  · rintro ⟨results, hResults⟩
    cases hParams : store.records.get? (.params, id) with
    | none =>
      rw [retrieve_of_missing hOpen (.inl hParams)] at hResults
      cases hResults
    | some params =>
      cases hStats : store.records.get? (.executionStats, id) with
      | none =>
        rw [retrieve_of_missing hOpen (.inr hStats)] at hResults
        cases hResults
      | some stats =>
        have hAll := (hFound params stats hParams hStats false).1 ⟨results, hResults⟩
        rw [hFound params stats hParams hStats true]
        simp only [readings, Bool.false_eq_true, if_false, if_true, List.forall_mem_cons,
          List.forall_mem_map, List.forall_mem_append] at hAll ⊢
        obtain ⟨hParamsRow, hStatsRow, hTops, -⟩ := hAll
        exact ⟨hParamsRow, hStatsRow, fun row hRow => Reading.decodes_outline (hTops row hRow)⟩

/-- Parameters of which nothing is given that may be left out. -/
def sparseParams : Row :=
  .ofList
    [ ("primary_dataset", .text "survey"),
      ("matchup_datasets", .text "buoys"),
      ("time_tolerance", .int 0),
      ("radius_tolerance", .int 0),
      ("start_time", .timestamp .epoch),
      ("end_time", .timestamp .epoch) ]

/-- A point at the top with its outline only; the flag and the position are whole numbers. -/
def sparsePoint : Row :=
  .ofList
    [ ("execution_id", .uuid .nil),
      ("id", .uuid .nil),
      ("is_primary", .int 7),
      ("value_id", .text "a"),
      ("x", .int 1),
      ("y", .int 2),
      ("source_dataset", .text "survey"),
      ("measurement_time", .timestamp .epoch) ]

/-- A store with this point, and statistics in which nothing is counted. -/
def sparseStore : Store :=
  { records := ⟨[((.params, .nil), sparseParams), ((.executionStats, .nil), .empty)], by decide⟩
    data := ⟨[(.nil, sparsePoint)], by decide⟩ }

/-- A point without a payload cannot be retrieved whole, and can be retrieved trimmed. -/
theorem retrieve_first_failure_outline :
    sparseStore.retrieve .full .nil false =
        .error (.undecodable "00000000-0000-0000-0000-000000000000" .noPayload) ∧
      ∃ results, sparseStore.retrieve .full .nil true = .ok results := by
  have hParams : Reading.Decodes ⟨.params, sparseParams⟩ := by
    change sparseParams.Fits Params.layout
    decide +kernel
  have hStats : Reading.Decodes ⟨.stats, .empty⟩ := by
    change Row.empty.Fits Stats.layout
    decide +kernel
  have hOutline : Reading.Decodes ⟨.outline, sparsePoint⟩ := by
    change sparsePoint.Fits DataRow.outline
    decide +kernel
  have hDecode : Reading.decode ⟨.point, sparsePoint⟩ =
      .error (.undecodable "00000000-0000-0000-0000-000000000000" .noPayload) := by
    decide +kernel
  have hTops : sparseStore.rowsAt .nil true = [sparsePoint] := by decide +kernel
  have hNested : sparseStore.rowsAt .nil false = [] := by decide +kernel
  constructor
  · refine (((retrieve_first_failure sparseStore rfl .full .nil false).2.1 sparseParams .empty rfl
      rfl).2 _).2 ⟨[⟨.params, sparseParams⟩, ⟨.stats, .empty⟩], ⟨.point, sparsePoint⟩, [], ?_, ?_,
        Reading.not_decodes_of_error hDecode, hDecode, .noPayload, ?_⟩
    · rw [readings, hTops, hNested]
      rfl
    · simpa using ⟨hParams, hStats⟩
    · decide +kernel
  · refine (((retrieve_first_failure sparseStore rfl .full .nil true).2.1 sparseParams .empty rfl
      rfl).1).2 ?_
    rw [readings, hTops]
    simpa using ⟨hParams, hStats, hOutline⟩

end Store

end Collocation
