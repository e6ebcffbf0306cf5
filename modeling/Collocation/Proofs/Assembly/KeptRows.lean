import Collocation.Proofs.Assembly.DistinctRows
import Collocation.Proofs.Flattening.Preorder
import Collocation.Proofs.Forest.Kept

/-!
# Rows that were taken in rounds

Of the rows of a forest some were taken, in rounds, and stand in the order in which they were. They
are assembled to what is kept of the forest, and the rows that are left over are dropped.
-/

set_option autoImplicit false

namespace Collocation.Assembly

section Taken

variable (round? : FlatRow × Nat → Option Nat) (rounds : Nat) (trees : Forest FlatRow)

/-- The rows of a forest that were taken, in the order in which they were. -/
def taken : List FlatRow :=
  (inRounds round? rounds (Forest.values (Forest.numbered 0 trees))).map (·.1)

/-- What is kept of a forest of rows. -/
def keptRows : Forest FlatRow :=
  Forest.map (·.1) (Forest.kept round? rounds (Forest.numbered 0 trees))

variable {round? rounds trees}

/-- The rows that are taken and satisfy a test are taken from those that satisfy it. -/
theorem filter_taken (keep : FlatRow → Bool) :
    (taken round? rounds trees).filter keep =
      (inRounds round? rounds
        ((Forest.values (Forest.numbered 0 trees)).filter fun row => keep row.1)).map (·.1) := by
  rw [taken, List.filter_map, filter_inRounds]
  rfl

/-- The rows of a forest are its numbered rows without their numbers. -/
theorem values_eq_map_numbered :
    Forest.values trees = (Forest.values (Forest.numbered 0 trees)).map (·.1) := by
  rw [← Forest.values_map, Forest.map_fst_numbered]

/-- Rows are taken from the forest. -/
theorem mem_of_mem_taken {row : FlatRow} (h : row ∈ taken round? rounds trees) :
    row ∈ Forest.values trees := by
  obtain ⟨numbered, hMem, rfl⟩ := List.mem_map.1 h
  rw [values_eq_map_numbered]
  exact List.mem_map_of_mem (mem_inRounds.1 hMem).1

section Bound

variable (hBound : ∀ row round, round? row = some round → round < rounds)
include hBound

/-- The rows that were taken are some of the rows, in another order. -/
theorem taken_perm :
    (taken round? rounds trees).Perm
      (((Forest.values (Forest.numbered 0 trees)).filter fun row =>
        (round? row).isSome).map (·.1)) :=
  (inRounds_perm fun row _ => hBound row).map _

/-- Rows with distinct ids are taken with distinct ids. -/
theorem nodup_taken (hNodup : (Forest.ids FlatRow.rowId trees).Nodup) :
    ((taken round? rounds trees).map FlatRow.rowId).Nodup := by
  rw [((taken_perm hBound).map _).nodup_iff, List.map_map]
  rw [Forest.ids, values_eq_map_numbered, List.map_map] at hNodup
  exact hNodup.sublist (List.filter_sublist.map _)

/-- As many rows are taken as have a round. -/
theorem length_taken :
    (taken round? rounds trees).length =
      (Forest.values (Forest.numbered 0 trees)).countP fun row => (round? row).isSome := by
  rw [(taken_perm hBound).length_eq, List.length_map, List.countP_eq_length_filter]

end Bound

section Linked

variable (hNodup : (Forest.ids FlatRow.rowId trees).Nodup)
  (hLinked : Flattened.Linked none trees)
include hLinked

/-- Numbers do not change which row is whose parent. -/
theorem linked_numbered :
    Forest.Linked (fun row : FlatRow × Nat => row.1.rowId) (fun row => row.1.parent) none
      (Forest.numbered 0 trees) := by
  obtain ⟨hLinked, -⟩ := hLinked
  rw [← Forest.map_fst_numbered 0 trees] at hLinked
  exact (Forest.linked_map_iff _).1 hLinked

/-- The taken rows at the top are those of the kept forest. -/
theorem filter_taken_isTopLevel :
    (taken round? rounds trees).filter FlatRow.isTopLevel =
      Forest.tops (keptRows round? rounds trees) := by
  have hTops : ((Forest.values (Forest.numbered 0 trees)).filter fun row =>
      row.1.isTopLevel) = Forest.tops (Forest.numbered 0 trees) := by
    rw [← (linked_numbered hLinked).filter_parent.1]
    refine List.filter_congr fun row hRow => hLinked.isTopLevel row.1 ?_
    rw [values_eq_map_numbered]
    exact List.mem_map_of_mem hRow
  rw [filter_taken, hTops, keptRows, Forest.tops_map, Forest.tops_kept]

include hNodup

/-- The taken rows below a row are those of the kept forest. -/
theorem filter_taken_parent {tree : Tree (FlatRow × Nat)}
    (hTree : tree ∈ Forest.subtrees (Forest.numbered 0 trees)) :
    (((taken round? rounds trees).filter fun row => !row.isTopLevel).filter fun row =>
        row.parent = some tree.value.1.rowId) =
      Forest.tops (Forest.map (·.1) (Forest.kept round? rounds tree.children)) := by
  have hIds : (Forest.ids (fun row : FlatRow × Nat => row.1.rowId)
      (Forest.numbered 0 trees)).Nodup := by
    rw [Forest.ids, values_eq_map_numbered, List.map_map] at hNodup
    exact hNodup
  have hKids := (linked_numbered hLinked).having_eq_tops hIds
    (fun _ h => (Option.some_ne_none _ h.symm).elim) hTree
  have hNested : ∀ row ∈ taken round? rounds trees,
      (decide (row.parent = some tree.value.1.rowId) && !row.isTopLevel) =
        decide (row.parent = some tree.value.1.rowId) := by
    intro row hRow
    rw [hLinked.isTopLevel row (mem_of_mem_taken hRow)]
    cases row.parent <;> simp
  rw [List.filter_filter, List.filter_congr hNested, filter_taken, Forest.tops_map,
    Forest.tops_kept, ← hKids]
  rfl

end Linked

section Distinct

variable (hBound : ∀ row round, round? row = some round → round < rounds)
  (hNodup : (Forest.ids FlatRow.rowId trees).Nodup)
  (hLinked : Flattened.Linked none trees)
  (hDistinct : ((Forest.tops trees).map FlatRow.valueId).Nodup)

/-- A kept row at the top was at the top. -/
theorem mem_tops_of_mem_keptRows {row : FlatRow}
    (h : row ∈ Forest.tops (keptRows round? rounds trees)) : row ∈ Forest.tops trees := by
  rw [keptRows, Forest.tops_map, Forest.tops_kept] at h
  rw [← Forest.map_fst_numbered 0 trees, Forest.tops_map]
  obtain ⟨numbered, hMem, rfl⟩ := List.mem_map.1 h
  exact List.mem_map_of_mem (mem_inRounds.1 hMem).1

include hBound hDistinct in
/-- The kept rows at the top have distinct identifiers if all at the top have. -/
theorem nodup_tops_keptRows :
    ((Forest.tops (keptRows round? rounds trees)).map FlatRow.valueId).Nodup := by
  rw [← Forest.map_fst_numbered 0 trees, Forest.tops_map] at hDistinct
  rw [keptRows, Forest.tops_map, Forest.tops_kept,
    (((inRounds_perm fun row _ => hBound row).map _).map _).nodup_iff]
  exact hDistinct.sublist ((List.filter_sublist.map _).map _)

include hBound hNodup hLinked hDistinct

/-- What is gathered from the taken rows is the kept forest. -/
theorem gathered_keptRows :
    Gathered ((taken round? rounds trees).filter FlatRow.isTopLevel)
      ((taken round? rounds trees).filter fun row => !row.isTopLevel)
      (keptRows round? rounds trees) where
  top := by
    rw [filter_taken_isTopLevel hLinked,
      lastOfEach_of_nodup (nodup_tops_keptRows hBound hDistinct)]
  roots := by
    intro tree hTree
    have hTop : tree.value ∈ Forest.tops (keptRows round? rounds trees) :=
      List.mem_map_of_mem hTree
    -- No other row at the top has the identifier.
    have hOnly : ∀ row : FlatRow, (row.parent.any fun id =>
        ∃ top ∈ (taken round? rounds trees).filter FlatRow.isTopLevel,
          top.valueId = tree.value.valueId ∧ top.rowId = id) =
        decide (row.parent = some tree.value.rowId) := by
      intro row
      rw [filter_taken_isTopLevel hLinked]
      cases row.parent with
      | none => rfl
      | some id =>
        rw [Option.any_some, decide_eq_decide, Option.some.injEq]
        constructor
        · rintro ⟨top, hMem, hValueId, rfl⟩
          rw [List.inj_on_of_nodup_map hDistinct (mem_tops_of_mem_keptRows hMem)
            (mem_tops_of_mem_keptRows hTop) hValueId]
        · rintro rfl
          exact ⟨tree.value, hTop, rfl, rfl⟩
    rw [List.filter_congr fun row _ => hOnly row]
    rw [keptRows, Forest.map_eq_map, Forest.kept_eq_map] at hTree
    obtain ⟨_, hKept, rfl⟩ := List.mem_map.1 hTree
    obtain ⟨whole, hWhole, rfl⟩ := List.mem_map.1 hKept
    have hMem := Forest.mem_subtrees_of_mem (mem_inRounds.1 hWhole).1
    rw [Tree.value_map, Tree.value_kept, Tree.children_map, Tree.children_kept]
    exact (filter_taken_parent hNodup hLinked hMem).symm
  below := by
    intro tree hTree below hBelow
    have hSubtree : below ∈ Forest.subtrees (keptRows round? rounds trees) :=
      Forest.mem_subtrees_of_below hTree hBelow
    rw [keptRows, Forest.subtrees_map] at hSubtree
    obtain ⟨kept, hKept, rfl⟩ := List.mem_map.1 hSubtree
    obtain ⟨whole, hMem, rfl⟩ := Forest.exists_of_mem_subtrees_kept hKept
    rw [Tree.value_map, Tree.value_kept, Tree.children_map, Tree.children_kept]
    exact (filter_taken_parent hNodup hLinked hMem).symm

/-- Rows that were taken are assembled to what is kept of their forest. -/
theorem ofRows_taken (hReadable : ∀ row ∈ Forest.values trees, row.Readable) :
    ofRows .full
        (((taken round? rounds trees).filter FlatRow.isTopLevel).map FlatRow.toRow)
        (((taken round? rounds trees).filter fun row => !row.isTopLevel).map FlatRow.toRow) =
      .ok
        { points := List.map Point.shown
            (Forest.map FlatRow.observation (keptRows round? rounds trees))
          dropped := Forest.leftOver round? (Forest.numbered 0 trees) } := by
  have hPerm : ((taken round? rounds trees).filter FlatRow.isTopLevel ++
      (taken round? rounds trees).filter fun row => !row.isTopLevel).Perm
        (taken round? rounds trees) := List.filter_append_perm _ _
  have hIds : (((taken round? rounds trees).filter FlatRow.isTopLevel ++
      (taken round? rounds trees).filter fun row => !row.isTopLevel).map FlatRow.rowId).Nodup :=
    ((hPerm.map _).nodup_iff).2 (nodup_taken hBound hNodup)
  have hLeft := Forest.leftOver_add_size_kept hBound (Forest.numbered 0 trees)
  have hLength := hPerm.length_eq
  rw [List.length_append, length_taken hBound] at hLength
  rw [ofRows_of_gathered hIds
    (fun row hRow => hReadable row (mem_of_mem_taken (hPerm.mem_iff.1 hRow)))
    (gathered_keptRows hBound hNodup hLinked hDistinct), hLength, keptRows, Forest.size_map,
    ← hLeft, Nat.add_sub_cancel]

end Distinct

end Taken

end Collocation.Assembly
