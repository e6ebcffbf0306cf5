import Collocation.Proofs.Assembly.DistinctRows
import Collocation.Proofs.Flattening.Preorder

/-!
# Round trips

A forest of points that was flattened, written and read back is the forest itself, but for two
things: points at the top with the same identifier are merged, and an absent payload is the empty
list. This is proved of any forest of rows that are linked by their ids, so that it holds of several
flattened forests side by side too.
-/

set_option autoImplicit false

namespace Collocation.Assembly

open Flattened

/-! ## Linked forests of rows -/

section Linked

variable {trees : Forest FlatRow}
  (hNodup : (Forest.ids FlatRow.rowId trees).Nodup)
  (hLinked : Flattened.Linked none trees)

include hNodup in
/-- The rows at the top and the others have distinct ids together. -/
theorem nodup_tops_append_nested :
    ((Forest.tops trees ++ Forest.values (trees.flatMap Tree.children)).map
      FlatRow.rowId).Nodup :=
  (((Forest.values_perm trees).map _).nodup_iff).1 hNodup

include hLinked

/-- The rows that are flagged are those at the top, and the others those below them. -/
theorem filter_isTopLevel :
    (Forest.values trees).filter FlatRow.isTopLevel = Forest.tops trees ∧
      ((Forest.values trees).filter fun row => !row.isTopLevel) =
        Forest.values (trees.flatMap Tree.children) := by
  refine ⟨hLinked.filter_isTopLevel, ?_⟩
  rw [← hLinked.filter_parent.2]
  apply List.filter_congr
  intro row hRow
  rw [hLinked.isTopLevel row hRow]
  cases row.parent <;> rfl

/-- Rows that have some parent are nested. -/
theorem filter_nested_any (isOne : Uuid → Bool) :
    ((Forest.values (trees.flatMap Tree.children)).filter fun row => row.parent.any isOne) =
      (Forest.values trees).filter fun row => row.parent.any isOne := by
  rw [← hLinked.filter_parent.2, List.filter_filter]
  apply List.filter_congr
  intro row _
  cases row.parent <;> simp

include hNodup

/-- What is gathered from the rows of a forest is the merged forest. -/
theorem gathered_mergeBy :
    Gathered (Forest.tops trees) (Forest.values (trees.flatMap Tree.children))
      (Forest.mergeBy FlatRow.valueId trees) where
  top := Forest.tops_mergeBy FlatRow.valueId trees
  roots := by
    intro tree hTree
    obtain ⟨hTopIds, -, hDisjoint⟩ := List.nodup_append.1 <|
      (List.map_append ..) ▸ nodup_tops_append_nested hNodup
    have hBelow : ∀ id ∈ Forest.ids FlatRow.rowId (trees.flatMap Tree.children),
        (decide (∃ top ∈ Forest.tops trees,
          top.valueId = tree.value.valueId ∧ top.rowId = id) : Bool) = false := by
      intro id hId
      apply decide_eq_false
      rintro ⟨top, hTop, -, rfl⟩
      exact hDisjoint _ (List.mem_map_of_mem hTop) _ hId rfl
    have hSharing : Forest.sharing FlatRow.valueId trees tree.value.valueId =
        List.filter (fun other => decide (∃ top ∈ Forest.tops trees,
          top.valueId = tree.value.valueId ∧ top.rowId = other.value.rowId)) trees := by
      rw [Forest.sharing]
      refine List.filter_congr fun other hOther => decide_eq_decide.2 ?_
      have hTop : other.value ∈ Forest.tops trees := List.mem_map_of_mem hOther
      constructor
      · exact fun hId => ⟨other.value, hTop, hId, rfl⟩
      · rintro ⟨top, hMem, hId, hRow⟩
        rw [← List.inj_on_of_nodup_map hTopIds hMem hTop hRow, hId]
    rw [filter_nested_any hLinked, hLinked.filter_any_eq_flatMap hNodup hBelow, ← hSharing,
      Forest.children_of_mem_mergeBy _ hTree, Forest.tops, List.map_flatMap]
    rfl
  below := by
    intro tree hTree below hBelow
    have hMem : below ∈ Forest.subtrees trees := by
      rw [Forest.children_of_mem_mergeBy _ hTree] at hBelow
      obtain ⟨above, hAbove, hBelow⟩ := Forest.mem_subtrees.1 hBelow
      obtain ⟨root, hRoot, hChild⟩ := List.mem_flatMap.1 hAbove
      exact Forest.mem_subtrees_of_below (List.mem_filter.1 hRoot).1
        (Forest.mem_subtrees.2 ⟨above, hChild, hBelow⟩)
    have hKids := hLinked.having_eq_tops hNodup
      (fun _ h => (Option.some_ne_none _ h.symm).elim) hMem
    have hAny : ∀ row : FlatRow, (decide (row.parent = some below.value.rowId) : Bool) =
        row.parent.any fun id => id = below.value.rowId := by
      intro row
      cases row.parent <;> simp
    rw [← hKids, Forest.having]
    simp only [hAny]
    exact (filter_nested_any hLinked _).symm

/-- Linked rows are assembled to their forest, with the trees at the top merged by identifier. -/
theorem ofRows_of_linked (hReadable : ∀ row ∈ Forest.values trees, row.Readable) :
    ∃ assembly : Assembly,
      ofRows .full (((Forest.values trees).filter FlatRow.isTopLevel).map FlatRow.toRow)
        (((Forest.values trees).filter fun row => !row.isTopLevel).map FlatRow.toRow) =
          .ok assembly ∧
      assembly.points =
        List.map Point.shown
          (Forest.mergeBy Observation.id (Forest.map FlatRow.observation trees)) ∧
      assembly.dropped + ((Forest.tops trees).map FlatRow.valueId).eraseDups.length =
        trees.length := by
  obtain ⟨hTops, hNested⟩ := filter_isTopLevel hLinked
  have hRows : ∀ row ∈ Forest.tops trees ++ Forest.values (trees.flatMap Tree.children),
      row.Readable := fun row hRow =>
    hReadable row ((Forest.values_perm trees).mem_iff.2 hRow)
  have hAssembly := ofRows_of_gathered (nodup_tops_append_nested hNodup) hRows
    (gathered_mergeBy hNodup hLinked)
  rw [← hTops, ← hNested] at hAssembly
  refine ⟨_, hAssembly, ?_, ?_⟩
  · rw [Forest.mergeBy_map]
    rfl
  · have hSize := Forest.size_mergeBy FlatRow.valueId trees
    have hTopsLength : (Forest.tops trees).length = trees.length := List.length_map ..
    have hBelow := Forest.size_flatMap_children trees
    have hLe := length_eraseDups_le ((Forest.tops trees).map FlatRow.valueId)
    rw [List.length_map, hTopsLength] at hLe
    simp only [hTops, hNested, hTopsLength, Forest.length_values]
    omega

end Linked

/-! ## Flattened forests -/

/-- A flattened forest is assembled to itself, with payloads settled and points at the top merged by
identifier. Of the points at the top with one identifier all but one are dropped. -/
theorem ofRows_ofPoints (executionId : Uuid) (supply : Supply) (points : List Point)
    (hFresh : ((ofPoints executionId points supply).1.rows.map FlatRow.rowId).Nodup)
    (hReadable : ∀ observation ∈ Forest.values points, observation.Readable) :
    ∃ assembly : Assembly,
      ofRows .full
        (((ofPoints executionId points supply).1.rows.filter FlatRow.isTopLevel).map FlatRow.toRow)
        (((ofPoints executionId points supply).1.rows.filter fun row => !row.isTopLevel).map
          FlatRow.toRow) = .ok assembly ∧
      assembly.points.map EntryTree.toPoint? =
        List.map some (Forest.mergeBy Observation.id (Forest.map Observation.settled points)) ∧
      assembly.dropped + ((Forest.tops points).map Observation.id).eraseDups.length =
        points.length ∧
      (((Forest.tops points).map Observation.id).Nodup →
        assembly.points.map EntryTree.toPoint? =
          List.map some (Forest.map Observation.settled points) ∧ assembly.dropped = 0) := by
  have hTrees : Forest.map FlatRow.observation
      (rowForest executionId supply.mint supply.next none points) =
        Forest.map Observation.settled points :=
    map_rowForest (fun observation hMem rowId parent =>
      FlatRow.observation_ofObservation (hReadable observation hMem)) _ _
  have hIds : (Forest.tops (rowForest executionId supply.mint supply.next none points)).map
      FlatRow.valueId = (Forest.tops points).map Observation.id := by
    rw [← Forest.tops_map, map_rowForest (g := Observation.id) (fun _ _ _ _ => rfl),
      Forest.tops_map]
  have hRows : ∀ row ∈ Forest.values
      (rowForest executionId supply.mint supply.next none points), row.Readable := by
    intro row hRow
    obtain ⟨observation, hMem, rowId, parent, rfl⟩ := exists_of_mem_rowForest hRow
    exact FlatRow.readable_ofObservation (hReadable observation hMem)
  rw [rows_ofPoints] at hFresh ⊢
  obtain ⟨assembly, hAssembly, hPoints, hDropped⟩ :=
    ofRows_of_linked hFresh (linked_rowForest _ _ _) hRows
  have hLength : (rowForest executionId supply.mint supply.next none points).length =
      points.length := by
    have hLength := congrArg List.length hIds
    rwa [List.length_map, List.length_map, Forest.tops, Forest.tops, List.length_map,
      List.length_map] at hLength
  have hToPoint : assembly.points.map EntryTree.toPoint? =
      List.map some (Forest.mergeBy Observation.id (Forest.map Observation.settled points)) := by
    rw [hPoints, hTrees, List.map_map]
    exact List.map_congr_left fun point _ => Point.toPoint?_shown point
  rw [hIds, hLength] at hDropped
  refine ⟨assembly, hAssembly, hToPoint, hDropped, fun hDistinct => ⟨?_, ?_⟩⟩
  · rw [hToPoint, Forest.mergeBy_of_nodup]
    rw [Forest.tops_map, List.map_map]
    exact hDistinct
  · rw [eraseDups_of_nodup hDistinct, List.length_map, Forest.tops, List.length_map] at hDropped
    omega

/-- A point of which little is known. -/
def plainPoint (id : String) (data : Option Json) (points : List Point) : Point :=
  .node { id, longitude := .zero, latitude := .zero, source := "survey", time := .epoch, data }
    points

/-- Two points at the top have the same identifier, and so has a match of one of them. -/
def repeatedPoints : List Point :=
  [ plainPoint "a" none [plainPoint "a" none [], plainPoint "c" (some (.bool true)) []],
    plainPoint "b" none [],
    plainPoint "a" (some (.bool true)) [plainPoint "d" none []] ]

/-- A forest with a repeated identifier at the top comes back with the later point in place of the
earlier one, the children of both below it, and one point dropped. -/
theorem ofRows_ofPoints_repeated :
    ∃ assembly : Assembly,
      ofRows .full
        (((ofPoints .nil repeatedPoints (.seeded 0)).1.rows.filter FlatRow.isTopLevel).map
          FlatRow.toRow)
        (((ofPoints .nil repeatedPoints (.seeded 0)).1.rows.filter fun row =>
          !row.isTopLevel).map FlatRow.toRow) = .ok assembly ∧
      assembly.points.map EntryTree.toPoint? = List.map some
        [ plainPoint "a" (some (.bool true))
            [ plainPoint "a" (some (.array [])) [],
              plainPoint "c" (some (.bool true)) [],
              plainPoint "d" (some (.array [])) [] ],
          plainPoint "b" (some (.array [])) [] ] ∧
      assembly.dropped = 1 := by
  have hFresh : ((ofPoints .nil repeatedPoints (.seeded 0)).1.rows.map FlatRow.rowId).Nodup := by
    rw [rowIds_ofPoints]
    decide +kernel
  have hTrue : Json.parse? (Json.bool true).compact = some (.bool true) := by cbv
  have hReadable : ∀ observation ∈ Forest.values repeatedPoints, observation.Readable := by
    simp [repeatedPoints, plainPoint, Forest.values, Tree.values, Observation.Readable, hTrue]
  obtain ⟨assembly, hAssembly, hPoints, hDropped, -⟩ :=
    ofRows_ofPoints .nil (.seeded 0) repeatedPoints hFresh hReadable
  refine ⟨assembly, hAssembly, hPoints.trans ?_, ?_⟩
  · rfl
  · have hDistinct : ((Forest.tops repeatedPoints).map Observation.id).eraseDups.length = 2 := by
      decide
    rw [hDistinct] at hDropped
    exact Nat.add_right_cancel hDropped

end Collocation.Assembly
