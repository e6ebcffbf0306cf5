import Collocation.Proofs.Flattening.Preorder
import Mathlib.Algebra.BigOperators.Group.List.Basic
import Mathlib.Algebra.Ring.Nat

/-!
# The recursive traversal

Flattening goes through a forest with a list of what is pending. A recursion over points and their
matches makes the same rows in the same order, takes the same ids, and leaves the same supply. From
it follow the places of parents, and that the shape which is told with the rows is the shape of the
forest: the walk that counts points goes through them in another order, and comes to their number.
-/

set_option autoImplicit false

namespace Collocation

/-! ## Counting -/

/-- The walk with a stack counts every value in the trees on the stack once. -/
theorem Forest.countFrom_eq {α : Type} (counted : Nat) (stack : Forest α) :
    Forest.countFrom counted stack = counted + Forest.size stack := by
  fun_induction Forest.countFrom counted stack with
  | case1 counted => rfl
  | case2 counted tree stack ih =>
    obtain ⟨value, children⟩ := tree
    rw [ih, Tree.children, Forest.size_append, Forest.size_reverse, Forest.size, Tree.size]
    omega

/-- The count of a subtree by way of a stack is its size. -/
theorem Tree.count_eq {α : Type} (tree : Tree α) : tree.count = tree.size := by
  unfold Tree.count
  rw [Forest.countFrom_eq, Forest.size, Forest.size]
  omega

/-- The counts of the trees of a forest add up to its size. -/
theorem Forest.sum_count {α : Type} (trees : Forest α) :
    (List.map Tree.count trees).sum = Forest.size trees := by
  induction trees with
  | nil => rfl
  | cons tree trees ih => rw [List.map_cons, List.sum_cons, ih, tree.count_eq, Forest.size]

/-! ## Levels -/

/-- A forest that is not empty has a level. -/
theorem Forest.levels_ne_nil {α : Type} (level : Nat) {trees : Forest α} (h : trees ≠ []) :
    Forest.levels level trees ≠ [] := by
  obtain ⟨⟨value, children⟩, others, rfl⟩ := List.exists_cons_of_ne_nil h
  exact List.cons_ne_nil _ _

namespace Flattened

/-- The deepest of some levels is their maximum, and zero without any. -/
theorem deepest_eq (levels : List Nat) : deepest levels = levels.max?.getD 0 := by
  unfold deepest
  rw [List.foldl_max, Nat.zero_max]

/-- Of some levels the greatest is told, unless there is none. -/
theorem greatest_deepest {levels : List Nat} (h : levels ≠ []) :
    deepest levels ∈ levels ∧ ∀ level ∈ levels, level ≤ deepest levels := by
  rw [deepest_eq]
  cases hMax : levels.max? with
  | none => exact absurd (List.max?_eq_none_iff.1 hMax) h
  | some greatest => exact List.max?_eq_some_iff.1 hMax

/-! ## The traversal -/

mutual

/-- The rows of a point, and what is left of the supply: its own row with the next id, and then the
rows of its matches with this id above them. -/
def traversePoint (executionId : Uuid) (parent : Option Uuid) :
    Point → Supply → List FlatRow × Supply
  | .node observation matched, supply =>
    let (rowId, supply) := supply.take
    let (rows, supply) := traverse executionId (some rowId) matched supply
    (.ofObservation executionId rowId parent observation :: rows, supply)

/-- The rows of points that are side by side, one point after the other. -/
def traverse (executionId : Uuid) (parent : Option Uuid) :
    List Point → Supply → List FlatRow × Supply
  | [], supply => ([], supply)
  | point :: points, supply =>
    let (rows, supply) := traversePoint executionId parent point supply
    let (more, supply) := traverse executionId parent points supply
    (rows ++ more, supply)

end

variable (executionId : Uuid) (points : List Point) (supply : Supply)

/-- The traversal makes the forest of rows, and takes as many ids as there are points. -/
theorem traverse_eq (parent : Option Uuid) :
    traverse executionId parent points supply =
      (Forest.values (rowForest executionId supply.mint supply.next parent points),
        supply.skip (Forest.size points)) := by
  -- What is above a forest and which ids are left differ below and beside a point, so both are any.
  induction points using Forest.induction generalizing parent supply with
  | nil => rfl
  | cons observation matched points hBelow hBeside =>
    have hNext : supply.next + 1 + Forest.size matched =
        supply.next + (Forest.size matched + 1) := by omega
    simp only [traverse, traversePoint, Supply.take, hBelow, hBeside, rowForest, rowTree,
      Forest.values, Tree.values, Forest.size, Tree.size, Supply.skip, hNext, Nat.add_assoc]

/-! ## What is told of a forest -/

/-- The walk makes one row of each point. -/
theorem size_ofPoints :
    (ofPoints executionId points supply).1.size = Forest.size points := by
  unfold size
  rw [rows_ofPoints, Forest.length_values, size_rowForest]

/-- To flatten points takes an id from the supply for each of them. -/
theorem supply_ofPoints :
    (ofPoints executionId points supply).2 = supply.skip (Forest.size points) := by
  rw [ofPoints, visit_below, Forest.length_levels, size_rowForest]

/-- The rows of points are at the levels of the points. -/
theorem map_fst_levels_rowForest (mint : Nat → Uuid) (level next : Nat) (parent : Option Uuid) :
    (Forest.levels level (rowForest executionId mint next parent points)).map (·.1) =
      (Forest.levels level points).map (·.1) := by
  induction points using Forest.induction generalizing level next parent with
  | nil => rfl
  | cons observation matched points hBelow hBeside =>
    simp only [rowForest, rowTree, Forest.levels, Tree.levels, List.map_append, List.map_cons,
      hBelow, hBeside]

/-- A row is on the level of its point. -/
theorem maxLevel_ofPoints :
    (ofPoints executionId points supply).1.maxLevel =
      deepest ((Forest.levels 0 points).map (·.1)) := by
  rw [ofPoints, visit_below, map_fst_levels_rowForest]

/-- There are as many rows at the top as points. -/
@[simp] theorem length_rowForest (mint : Nat → Uuid) (next : Nat) (parent : Option Uuid) :
    (rowForest executionId mint next parent points).length = points.length := by
  induction points generalizing next with
  | nil => rfl
  | cons point points ih => rw [rowForest, List.length_cons, ih, List.length_cons]

/-- The rows that are marked are as many as the points at the top. -/
theorem countP_isTopLevel :
    (ofPoints executionId points supply).1.rows.countP FlatRow.isTopLevel = points.length := by
  rw [rows_ofPoints, List.countP_eq_length_filter, (linked_rowForest _ _ _).filter_isTopLevel,
    Forest.tops, List.length_map, length_rowForest]

/-- The rows that are marked are those without a parent. -/
theorem isTopLevel_iff {row : FlatRow}
    (hRow : row ∈ (ofPoints executionId points supply).1.rows) :
    row.isTopLevel = true ↔ row.parent = none := by
  rw [rows_ofPoints] at hRow
  rw [(linked_rowForest _ _ _).isTopLevel row hRow, Option.isNone_iff_eq_none]

/-- A parent is the row of an earlier number. -/
theorem exists_parent {number : Nat} {row : FlatRow} {id : Uuid}
    (hRow : (ofPoints executionId points supply).1.rows[number]? = some row)
    (hParent : row.parent = some id) :
    ∃ earlier < number, ∃ above,
      (ofPoints executionId points supply).1.rows[earlier]? = some above ∧ above.rowId = id := by
  have hLinked : Linked none (rowForest executionId supply.mint supply.next none points) :=
    linked_rowForest _ _ _
  rw [rows_ofPoints] at hRow ⊢
  rcases hLinked.parent_of_getElem? hRow with hNone | ⟨earlier, hEarlier, above, hAbove, hSome⟩
  · rw [hParent] at hNone
    cases hNone
  · rw [hParent] at hSome
    exact ⟨earlier, hEarlier, above, hAbove, (Option.some.inj hSome).symm⟩

/-- Flattening is the recursive traversal. The ids are taken in the order of the rows, a parent is
an earlier row, and only the rows at the top have none. The shape that is told is that of the
forest. -/
theorem ofPoints_eq_traverse :
    ∃ flattened rest, ofPoints executionId points supply = (flattened, rest) ∧
      traverse executionId none points supply = (flattened.rows, rest) ∧
      flattened.rows.map FlatRow.rowId =
        (List.range' supply.next flattened.size).map supply.mint ∧
      (∀ (number : Nat) (row : FlatRow) (id : Uuid),
        flattened.rows[number]? = some row → row.parent = some id →
          ∃ earlier < number, ∃ above : FlatRow,
            flattened.rows[earlier]? = some above ∧ above.rowId = id) ∧
      (∀ row ∈ flattened.rows, row.isTopLevel = true ↔ row.parent = none) ∧
      flattened.rows.countP FlatRow.isTopLevel = points.length ∧
      flattened.size = (points.map Tree.count).sum ∧
      flattened.topLevel = points.length ∧
      (points = [] → flattened.maxLevel = 0) ∧
      (points ≠ [] → ∃ observation, (flattened.maxLevel, observation) ∈ Forest.levels 0 points) ∧
      (∀ level observation, (level, observation) ∈ Forest.levels 0 points →
        level ≤ flattened.maxLevel) := by
  have hSize := size_ofPoints executionId points supply
  have hMax := maxLevel_ofPoints executionId points supply
  refine ⟨(ofPoints executionId points supply).1, (ofPoints executionId points supply).2, rfl,
    ?_, ?_, fun number row id => exists_parent executionId points supply,
    fun row hRow => isTopLevel_iff executionId points supply hRow,
    countP_isTopLevel executionId points supply, ?_, rfl, ?_, ?_, ?_⟩
  · rw [traverse_eq, rows_ofPoints, supply_ofPoints]
  · rw [hSize]
    exact rowIds_ofPoints points supply
  · rw [hSize]
    exact (Forest.sum_count points).symm
  · rintro rfl
    rw [hMax]
    rfl
  · intro hSome
    rw [hMax]
    have hLevels : (Forest.levels 0 points).map (·.1) ≠ [] :=
      mt List.map_eq_nil_iff.1 (Forest.levels_ne_nil 0 hSome)
    obtain ⟨⟨level, observation⟩, hMem, hLevel⟩ := List.mem_map.1 (greatest_deepest hLevels).1
    exact ⟨observation, hLevel ▸ hMem⟩
  · intro level observation hMem
    rw [hMax]
    have hLevel := List.mem_map_of_mem (f := (·.1)) hMem
    exact (greatest_deepest (List.ne_nil_of_mem hLevel)).2 level hLevel

end Flattened

end Collocation
