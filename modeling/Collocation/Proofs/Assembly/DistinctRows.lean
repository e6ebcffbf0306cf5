import Collocation.Proofs.Assembly.Observations
import Collocation.Proofs.Forest.Merging

/-!
# Rows with distinct ids

If no id of a row comes twice and rows refer to rows by ids only, a reference leads to the row with
the id, or to the row that stays for it at the top. Then any forest is the assembled one which has
the staying rows at the top, below each of them the nested rows that refer to some row with its
identifier, and below a nested row those that refer to it.
-/

set_option autoImplicit false

namespace Collocation.Assembly

namespace Rows

variable (rows : Rows)

/-! ## Targets -/

/-- Just a reference by its id leads to a nested row. -/
theorem target?_eq_some_of_nested (hNodup : (rows.read.map DataRow.rowId).Nodup) {i : Nat}
    {row : DataRow} (hRow : rows.read[i]? = some row) (hNested : rows.tops.length ≤ i) (id : Uuid) :
    rows.target? (.row id) = some i ↔ row.rowId = id := by
  have hLast := lastIndex?_eq_some_iff hNodup hRow (k := id)
  have hNone : rows.tops[i]? = none := List.getElem?_eq_none hNested
  rw [target?, Option.bind_eq_some_iff]
  constructor
  · rintro ⟨j, hj, hTarget⟩
    cases hTop : rows.tops[j]? with
    | none =>
      simp only [hTop, Option.some.injEq] at hTarget
      exact hLast.1 (hTarget ▸ hj)
    | some top =>
      simp only [hTop] at hTarget
      have := rows.staying?_lt hTarget
      omega
  · intro hId
    exact ⟨i, hLast.2 hId, by simp only [hNone]⟩

/-- A reference by the id of any row with the identifier leads to the row that stays. -/
theorem target?_eq_some_of_staying (hNodup : (rows.read.map DataRow.rowId).Nodup)
    {valueId : String} {i : Nat} (hStays : rows.staying? valueId = some i) (id : Uuid) :
    rows.target? (.row id) = some i ↔
      ∃ top ∈ rows.tops, top.valueId = valueId ∧ top.rowId = id := by
  have hLt := rows.staying?_lt hStays
  rw [target?, Option.bind_eq_some_iff]
  constructor
  · rintro ⟨j, hj, hTarget⟩
    cases hTop : rows.tops[j]? with
    | none =>
      simp only [hTop, Option.some.injEq] at hTarget
      have := List.getElem?_eq_none_iff.1 hTop
      omega
    | some top =>
      simp only [hTop] at hTarget
      exact ⟨top, List.mem_of_getElem? hTop, rows.staying?_inj hTarget hStays,
        (lastIndex?_eq_some_iff hNodup (rows.read_of_tops hTop)).1 hj⟩
  · rintro ⟨top, hMem, rfl, hId⟩
    obtain ⟨j, hj⟩ := List.mem_iff_getElem?.1 hMem
    exact ⟨j, (lastIndex?_eq_some_iff hNodup (rows.read_of_tops hj)).2 hId,
      by simp only [hj, hStays]⟩

/-! ## Rows at positions -/

/-- At the positions that stay stand the last rows of each identifier. -/
theorem map_read_stayingPositions :
    rows.stayingPositions.map (fun i => rows.read[i]?) =
      (lastOfEach DataRow.valueId rows.tops).map some := by
  have hRoots : rows.stayingPositions.map (fun i => rows.read[i]?) =
      rows.roots.entries.map fun entry => some entry.2 := by
    rw [← List.forall₂_eq_eq_eq, List.forall₂_map_left_iff, List.forall₂_map_right_iff]
    apply rows.forall₂_roots.flip.imp
    rintro i entry ⟨-, hRow⟩
    exact rows.read_of_tops hRow
  rw [hRoots, ← Ledger.values_ofItems_eq_lastOfEach, ← roots_eq_ofItems, Ledger.values,
    List.map_map]
  rfl

/-- At the positions below one stand the rows whose references lead to it, in their order. -/
theorem map_read_kidsOf (i : Nat) :
    (rows.kidsOf i).map (fun j => rows.read[j]?) =
      (rows.nested.filter fun row => row.parent.bind rows.target? = some i).map some := by
  have hPositions : rows.nestedPositions.map (fun j => rows.read[j]?) = rows.nested.map some := by
    apply List.ext_getElem (by simp [nestedPositions])
    intro j h _
    have hj : j < rows.nested.length := by simpa [nestedPositions] using h
    simp [nestedPositions, read, hj]
  have hKids : (rows.kidsOf i).map (fun j => rows.read[j]?) =
      (rows.nestedPositions.map fun j => rows.read[j]?).filter fun row? =>
        (row?.bind DataRow.parent).bind rows.target? = some i := by
    rw [List.filter_map]
    rfl
  rw [hKids, hPositions, List.filter_map]
  rfl

end Rows

/-! ## Flat rows -/

section FlatRows

variable {tops nested : List FlatRow}

/-- The data rows of flat rows. -/
def decodedRows (tops nested : List FlatRow) : Rows :=
  { tops := tops.map FlatRow.decoded, nested := nested.map FlatRow.decoded }

/-- Of decoded rows those refer to a position whose parents do, if the parents that lead there are
known. -/
theorem filter_nested_decoded (i : Nat) (isParent : Uuid → Bool)
    (h : ∀ id, (decodedRows tops nested).target? (.row id) = some i ↔ isParent id) :
    ((decodedRows tops nested).nested.filter fun row =>
        row.parent.bind (decodedRows tops nested).target? = some i) =
      (nested.filter fun row => row.parent.any isParent).map FlatRow.decoded := by
  rw [decodedRows, List.filter_map]
  refine congrArg (List.map FlatRow.decoded) (List.filter_congr fun row _ => ?_)
  have hParent : row.decoded.parent = row.parent.map .row := rfl
  rw [Function.comp_apply, hParent]
  cases row.parent with
  | none => rfl
  | some id =>
    have hId := h id
    rw [decodedRows] at hId
    simp only [Option.map_some, Option.bind_some, Option.any_some, hId, Bool.decide_eq_true]

/-- A forest has the staying rows at the top. Below such a row there are the nested rows that refer
to any row with its identifier, and below a nested row those that refer to it. -/
structure Gathered (tops nested : List FlatRow) (trees : Forest FlatRow) : Prop where
  top : Forest.tops trees = lastOfEach FlatRow.valueId tops
  roots : ∀ tree ∈ trees, Forest.tops tree.children = nested.filter fun row =>
    row.parent.any fun id => ∃ top ∈ tops, top.valueId = tree.value.valueId ∧ top.rowId = id
  below : ∀ tree ∈ trees, ∀ below ∈ Forest.subtrees tree.children,
    Forest.tops below.children = nested.filter fun row => row.parent = some below.value.rowId

/-- In such a forest a subtree is one of its trees, or it has a nested row at its top. -/
theorem Gathered.mem_subtrees {trees : Forest FlatRow} (h : Gathered tops nested trees)
    {tree : Tree FlatRow} (hTree : tree ∈ Forest.subtrees trees) :
    tree ∈ trees ∨
      ∃ root ∈ trees, tree ∈ Forest.subtrees root.children ∧ tree.value ∈ nested := by
  obtain ⟨root, hRoot, hTree⟩ := Forest.mem_subtrees.1 hTree
  rw [Tree.subtrees_eq, List.mem_cons] at hTree
  rcases hTree with rfl | hTree
  · exact .inl hRoot
  · refine .inr ⟨root, hRoot, hTree, ?_⟩
    have hValue : tree.value ∈ Forest.values root.children := by
      rw [← Forest.map_value_subtrees]
      exact List.mem_map_of_mem hTree
    rcases Forest.mem_tops_or_children hValue with hTop | ⟨below, hBelow, hTop⟩
    · rw [h.roots root hRoot] at hTop
      exact (List.mem_filter.1 hTop).1
    · rw [h.below root hRoot below hBelow] at hTop
      exact (List.mem_filter.1 hTop).1

section Distinct

variable (hNodup : ((tops ++ nested).map FlatRow.rowId).Nodup)
include hNodup

/-- Decoded rows have distinct ids if the flat rows do. -/
theorem nodup_read_decodedRows : ((decodedRows tops nested).read.map DataRow.rowId).Nodup := by
  rw [Rows.read, decodedRows, ← List.map_append, List.map_map]
  exact hNodup

/-- A row is at one position only. -/
theorem position_unique {i j : Nat} {row : DataRow}
    (hi : (decodedRows tops nested).read[i]? = some row)
    (hj : (decodedRows tops nested).read[j]? = some row) : i = j := by
  have hIds := nodup_read_decodedRows hNodup
  have hLast := (lastIndex?_eq_some_iff hIds hi (k := row.rowId)).2 rfl
  rw [(lastIndex?_eq_some_iff hIds hj (k := row.rowId)).2 rfl] at hLast
  exact (Option.some.inj hLast).symm

/-- The nested rows that lead to the position of a staying row. -/
theorem filter_nested_of_staying {row : FlatRow} (hRow : row ∈ lastOfEach FlatRow.valueId tops)
    {i : Nat} (hi : (decodedRows tops nested).read[i]? = some row.decoded) :
    ((decodedRows tops nested).nested.filter fun row =>
        row.parent.bind (decodedRows tops nested).target? = some i) =
      (nested.filter fun other => other.parent.any fun id =>
        ∃ top ∈ tops, top.valueId = row.valueId ∧ top.rowId = id).map FlatRow.decoded := by
  have hMem : some row.decoded ∈ (decodedRows tops nested).stayingPositions.map
      fun i => (decodedRows tops nested).read[i]? := by
    rw [Rows.map_read_stayingPositions, decodedRows, lastOfEach_map]
    exact List.mem_map_of_mem (List.mem_map_of_mem hRow)
  obtain ⟨j, hStaying, hj⟩ := List.mem_map.1 hMem
  obtain rfl := position_unique hNodup hi hj
  obtain ⟨valueId, -, hStays⟩ := List.mem_filterMap.1 hStaying
  obtain ⟨top, hTop, hValueId⟩ := Rows.staying?_valueId _ hStays
  have hSame : top = row.decoded := by
    rw [Rows.read_of_tops _ hTop] at hi
    exact Option.some.inj hi
  apply filter_nested_decoded i _
  intro id
  rw [Rows.target?_eq_some_of_staying _ (nodup_read_decodedRows hNodup) hStays, ← hValueId, hSame,
    decodedRows]
  simp only [List.mem_map, exists_exists_and_eq_and, decide_eq_true_eq]
  rfl

/-- The nested rows that lead to the position of a nested row. -/
theorem filter_nested_of_nested {row : FlatRow} (hRow : row ∈ nested) {i : Nat}
    (hi : (decodedRows tops nested).read[i]? = some row.decoded) :
    ((decodedRows tops nested).nested.filter fun row =>
        row.parent.bind (decodedRows tops nested).target? = some i) =
      (nested.filter fun other => other.parent = some row.rowId).map FlatRow.decoded := by
  obtain ⟨number, hNumber⟩ := List.mem_iff_getElem?.1 hRow
  have hRead : (decodedRows tops nested).read[tops.length + number]? = some row.decoded := by
    rw [Rows.read, decodedRows, List.getElem?_append_right (by simp)]
    simp [hNumber]
  obtain rfl := position_unique hNodup hi hRead
  rw [filter_nested_decoded _ (fun id => row.rowId = id) fun id => ?_]
  · refine congrArg (List.map FlatRow.decoded) (List.filter_congr fun other _ => ?_)
    cases other.parent with
    | none => rfl
    | some id => simp [eq_comm]
  · rw [Rows.target?_eq_some_of_nested _ (nodup_read_decodedRows hNodup) hRead
      (by simp [decodedRows]), decide_eq_true_eq]
    rfl

/-- Rows with distinct ids are assembled to the forest that is gathered from them. -/
theorem points_of_gathered {trees : Forest FlatRow} (h : Gathered tops nested trees) :
    (ofDataRows .full (decodedRows tops nested)).points =
      List.map Point.shown (Forest.map FlatRow.observation trees) := by
  have hTraverse : Forest.traverse (fun i => (decodedRows tops nested).read[i]?)
      (decodedRows tops nested).shape = some (Forest.map FlatRow.decoded trees) := by
    refine Forest.traverse_eq_some_of_children ?_ ?_
    · rw [Rows.shape, Forest.tops_unfold, Rows.map_read_stayingPositions, Forest.tops_map, h.top,
        decodedRows, lastOfEach_map]
      rfl
    · intro position hPosition image hImage hValue
      rw [Forest.subtrees_map] at hImage
      obtain ⟨tree, hTree, rfl⟩ := List.mem_map.1 hImage
      have hFollows : Forest.tops position.children =
          (decodedRows tops nested).kidsOf position.value :=
        Forest.follows_unfold (fun _ _ => (decodedRows tops nested).level_le) position hPosition
      rw [hFollows, Rows.map_read_kidsOf, Tree.children_map, Forest.tops_map]
      rw [Tree.value_map] at hValue
      rcases h.mem_subtrees hTree with hRoot | ⟨root, hRoot, hTree, hNested⟩
      · have hStays : tree.value ∈ lastOfEach FlatRow.valueId tops := by
          rw [← h.top]
          exact List.mem_map_of_mem hRoot
        rw [filter_nested_of_staying hNodup hStays hValue, h.roots tree hRoot]
      · rw [filter_nested_of_nested hNodup hNested hValue, h.below root hRoot tree hTree]
  rw [Rows.points_eq_shown _ hTraverse, Forest.map_map]
  rfl

/-- Rows with distinct ids are read and assembled, and those that are not gathered are dropped. -/
theorem ofRows_of_gathered (hReadable : ∀ row ∈ tops ++ nested, row.Readable)
    {trees : Forest FlatRow} (h : Gathered tops nested trees) :
    ofRows .full (tops.map FlatRow.toRow) (nested.map FlatRow.toRow) =
      .ok
        { points := List.map Point.shown (Forest.map FlatRow.observation trees)
          dropped := tops.length + nested.length - Forest.size trees } := by
  have hTops := FlatRow.mapM_ofRow_toRow fun row hRow => hReadable row (List.mem_append_left _ hRow)
  have hNested := FlatRow.mapM_ofRow_toRow fun row hRow =>
    hReadable row (List.mem_append_right _ hRow)
  have hPoints := points_of_gathered hNodup h
  have hAssembly : ofDataRows .full (decodedRows tops nested) =
      { points := (ofDataRows .full (decodedRows tops nested)).points
        dropped := (decodedRows tops nested).tops.length +
          (decodedRows tops nested).nested.length -
            Forest.size (ofDataRows .full (decodedRows tops nested)).points } := rfl
  rw [hPoints, Point.size_map_shown, Forest.size_map, decodedRows, List.length_map,
    List.length_map] at hAssembly
  rw [ofRows_eq, hTops, hNested, ← hAssembly]
  rfl

end Distinct

end FlatRows

end Collocation.Assembly
