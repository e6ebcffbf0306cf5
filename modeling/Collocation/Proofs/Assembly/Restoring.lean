import Collocation.Proofs.Assembly.Levels
import Collocation.Proofs.Assembly.RoundTrip

/-!
# Forests that are stored again

An assembled forest has no identifier twice at the top and a payload everywhere, whatever rows it
was made of. So it is a forest of points that is read back as it is when it is flattened and stored
in its turn.
-/

set_option autoImplicit false

namespace Collocation.Assembly

open Flattened

/-! ## The points of an assembly -/

section Points

variable (links : List (Place × Nat × DataRow))

/-- The nested rows below a row, each with its place. -/
def rowsBelow (placed : Place × DataRow) : List (Place × DataRow) :=
  (linkedTo placed.1 links).map fun entry => (.nested entry.1, entry.2)

/-- A tree that is grown below the top shows the observations of its rows. -/
theorem grow_nested (levels number : Nat) (row : DataRow) :
    grow links levels (.nested number) row =
      (Tree.unfold (rowsBelow links) levels (.nested number, row)).map fun placed =>
        placed.2.observation.entry false := by
  induction levels generalizing number row with
  | zero => rfl
  | succ levels ih =>
    rw [grow, Tree.unfold, Tree.map, Forest.map_eq_map, rowsBelow, List.map_map, List.map_map]
    exact congrArg (Tree.node _) (List.map_congr_left fun entry _ => ih entry.1 entry.2)

/-- A tree that is grown at the top shows a point. -/
theorem grow_root (levels : Nat) (valueId : String) (row : DataRow) :
    grow links levels (.root valueId) row =
      Point.shown ((Tree.unfold (rowsBelow links) levels (.root valueId, row)).map fun placed =>
        placed.2.observation) := by
  cases levels with
  | zero => rfl
  | succ levels =>
    rw [grow, Tree.unfold, Tree.map, Point.shown, Tree.value, Tree.children, Forest.map_map,
      Forest.map_eq_map, rowsBelow, List.map_map, List.map_map]
    exact congrArg (Tree.node _) <| List.map_congr_left fun entry _ =>
      grow_nested links levels entry.1 entry.2

end Points

namespace Rows

variable (depth : NestingDepth) (rows : Rows)

/-- The points that an assembly shows. -/
def assembled : List Point :=
  Forest.map (fun placed => placed.2.observation) <|
    Forest.unfold (rowsBelow rows.links) (levels depth rows) <|
      rows.roots.entries.map fun entry => (.root entry.1, entry.2)

/-- The points of rows are the assembled observations as they are shown. -/
theorem points_eq_map_shown :
    (ofDataRows depth rows).points = List.map Point.shown (rows.assembled depth) := by
  rw [assembled, Forest.map_eq_map, Forest.unfold, List.map_map, List.map_map, List.map_map]
  exact List.map_congr_left fun entry _ => grow_root rows.links _ entry.1 entry.2

/-- A root is filed under its identifier. -/
theorem valueId_of_mem_roots {entry : String × DataRow} (h : entry ∈ rows.roots.entries) :
    entry.2.valueId = entry.1 := by
  rw [← Ledger.get?_eq_some_iff, get?_roots, Option.bind_eq_some_iff] at h
  obtain ⟨i, hStays, hRow⟩ := h
  obtain ⟨top, hTop, hValueId⟩ := rows.staying?_valueId hStays
  rw [hRow] at hTop
  rw [Option.some.inj hTop, hValueId]

/-- At the top no identifier comes twice. -/
theorem nodup_tops_assembled :
    ((Forest.tops (rows.assembled depth)).map Observation.id).Nodup := by
  have hKeys : (Forest.tops (rows.assembled depth)).map Observation.id = rows.roots.keys := by
    rw [assembled, Forest.tops_map, Forest.tops_unfold, List.map_map, List.map_map]
    exact List.map_congr_left fun entry hEntry => rows.valueId_of_mem_roots hEntry
  rw [hKeys]
  exact rows.roots.nodup_keys

/-- An assembled observation has a payload, so that to settle it changes nothing. -/
theorem data_of_mem_assembled {observation : Observation}
    (h : observation ∈ Forest.values (rows.assembled depth)) :
    observation.settled = observation := by
  rw [assembled, Forest.values_map] at h
  obtain ⟨placed, -, rfl⟩ := List.mem_map.1 h
  rfl

end Rows

/-! ## Storing them again -/

/-- A forest in which no identifier comes twice at the top, and no payload is absent, is read back
as it is. -/
theorem ofRows_ofPoints_settled (executionId : Uuid) (supply : Supply) {points : List Point}
    (hFresh : ((ofPoints executionId points supply).1.rows.map FlatRow.rowId).Nodup)
    (hReadable : ∀ observation ∈ Forest.values points, observation.Readable)
    (hDistinct : ((Forest.tops points).map Observation.id).Nodup)
    (hSettled : ∀ observation ∈ Forest.values points, observation.settled = observation) :
    ofRows .full
        (((ofPoints executionId points supply).1.rows.filter FlatRow.isTopLevel).map FlatRow.toRow)
        (((ofPoints executionId points supply).1.rows.filter fun row => !row.isTopLevel).map
          FlatRow.toRow) =
      .ok { points := List.map Point.shown points, dropped := 0 } := by
  have hTrees : Forest.map FlatRow.observation
      (rowForest executionId supply.mint supply.next none points) = points := by
    have hSame : ∀ observation ∈ Forest.values points, ∀ rowId parent,
        (FlatRow.ofObservation executionId rowId parent observation).observation = observation := by
      intro observation hMem rowId parent
      rw [FlatRow.observation_ofObservation (hReadable observation hMem),
        hSettled observation hMem]
    rw [map_rowForest hSame, Forest.map_id]
  have hRows : ∀ row ∈ Forest.values
      (rowForest executionId supply.mint supply.next none points), row.Readable := by
    intro row hRow
    obtain ⟨observation, hMem, rowId, parent, rfl⟩ := exists_of_mem_rowForest hRow
    exact FlatRow.readable_ofObservation (hReadable observation hMem)
  have hIds : (Forest.tops (rowForest executionId supply.mint supply.next none points)).map
      FlatRow.valueId = (Forest.tops points).map Observation.id := by
    rw [← Forest.tops_map, map_rowForest (g := Observation.id) (fun _ _ _ _ => rfl),
      Forest.tops_map]
  rw [rows_ofPoints] at hFresh ⊢
  obtain ⟨assembly, hAssembly, hPoints, hDropped⟩ :=
    ofRows_of_linked hFresh (linked_rowForest _ _ _) hRows
  rw [hTrees, Forest.mergeBy_of_nodup Observation.id hDistinct] at hPoints
  rw [eraseDups_of_nodup (hIds ▸ hDistinct), List.length_map, Forest.tops,
    List.length_map] at hDropped
  have hNone : assembly.dropped = 0 := by omega
  rw [hAssembly, ← hPoints, ← hNone]

/-- What was assembled is a fixed point of storing it again and reading it with the same depth: the
points lead back to a forest, which is read as the same points, and no row of it is dropped. -/
theorem ofRows_ofPoints_assembled {depth : NestingDepth} {tops nested : List Row}
    {assembly : Assembly} (h : ofRows depth tops nested = .ok assembly) :
    ∃ points : List Point,
      assembly.points.map EntryTree.toPoint? = points.map some ∧
      ((∀ observation ∈ Forest.values points, observation.Readable) →
        ∀ (executionId : Uuid) (supply : Supply),
          ((ofPoints executionId points supply).1.rows.map FlatRow.rowId).Nodup →
          ofRows depth
              (((ofPoints executionId points supply).1.rows.filter FlatRow.isTopLevel).map
                FlatRow.toRow)
              (((ofPoints executionId points supply).1.rows.filter fun row =>
                !row.isTopLevel).map FlatRow.toRow) =
            .ok { points := assembly.points, dropped := 0 }) := by
  obtain ⟨rows, -, -, rfl⟩ := ofRows_eq_ok_iff.1 h
  have hShown := rows.points_eq_map_shown depth
  refine ⟨rows.assembled depth, ?_, fun hReadable executionId supply hFresh => ?_⟩
  · rw [hShown, List.map_map]
    exact List.map_congr_left fun point _ => Point.toPoint?_shown point
  · have hFull := ofRows_ofPoints_settled executionId supply hFresh hReadable
      (rows.nodup_tops_assembled depth) fun _ hMem => rows.data_of_mem_assembled depth hMem
    rw [← hShown] at hFull
    cases depth with
    | full => exact hFull
    | single =>
      have hPruned : List.map (Tree.prune 1) (ofDataRows .single rows).points =
          (ofDataRows .single rows).points := by
        rw [points_single, List.map_map]
        exact List.map_congr_left fun tree _ => Tree.prune_prune 1 1 tree
      have hDropped := dropped_of_ofRows hFull
      rw [ofRows_single hFull, hPruned, ← hDropped]

/-- What is shown of the tangle. -/
def tangledPoints : List Point :=
  [ plainPoint "a" (some (.array [])) [plainPoint "c" (some (.array [])) []],
    plainPoint "b" (some (.array [])) [] ]

/-- A tangle of rows, read with one level of matches and stored again. -/
theorem ofRows_ofPoints_assembled_tangled :
    ∃ assembly : Assembly,
      ofRows .single (tangledTops.map FlatRow.toRow) (tangledNested.map FlatRow.toRow) =
        .ok assembly ∧
      ofRows .single
          (((ofPoints .nil tangledPoints (.seeded 0)).1.rows.filter FlatRow.isTopLevel).map
            FlatRow.toRow)
          (((ofPoints .nil tangledPoints (.seeded 0)).1.rows.filter fun row =>
            !row.isTopLevel).map FlatRow.toRow) =
        .ok { points := assembly.points, dropped := 0 } := by
  have hAssembly : ofRows .single (tangledTops.map FlatRow.toRow)
      (tangledNested.map FlatRow.toRow) = .ok (ofDataRows .single tangledRows) := by
    refine ofRows_eq_ok_iff.2 ⟨tangledRows, ?_, ?_, rfl⟩
    · simp only [tangledTops, List.map_cons, List.map_nil, List.mapM_cons, List.mapM_nil,
        ofRow_bareRow]
      rfl
    · simp only [tangledNested, List.map_cons, List.map_nil, List.mapM_cons, List.mapM_nil,
        ofRow_bareRow]
      rfl
  have hShown : (ofDataRows .single tangledRows).points.map EntryTree.toPoint? =
      tangledPoints.map some := by rfl
  have hText : Json.parse? (Json.array []).compact = some (.array []) := by cbv
  have hReadable : ∀ observation ∈ Forest.values tangledPoints, observation.Readable := by
    simp [tangledPoints, plainPoint, Forest.values, Tree.values, Observation.Readable, hText]
  have hFresh : ((ofPoints .nil tangledPoints (.seeded 0)).1.rows.map FlatRow.rowId).Nodup := by
    rw [rowIds_ofPoints]
    decide +kernel
  obtain ⟨points, hPoints, hAgain⟩ := ofRows_ofPoints_assembled hAssembly
  obtain rfl : tangledPoints = points :=
    List.map_injective_iff.2 (fun _ _ => Option.some.inj) (hShown.symm.trans hPoints)
  exact ⟨_, hAssembly, hAgain hReadable .nil (.seeded 0) hFresh⟩

end Collocation.Assembly
