import Collocation.Proofs.Assembly.Visits
import Collocation.Proofs.Keyed.SlotTable

/-!
# Arenas

What is in the arena of some rows: at each position the row that was read there, and in the slot of
an identifier the position of the row that stays under it. So a reference leads from the arena where
it leads among the rows, and below a position there are the rows that refer to it.
-/

set_option autoImplicit false

namespace Collocation

/-! ## Indices by folds -/

/-- The number of the last item with a property is its last index. -/
theorem getLast?_filter_zipIdx {α : Type} (has : α → Bool) (items : List α) :
    ((items.zipIdx.filter fun entry => has entry.1).getLast?).map (·.2) = lastIndex? has items := by
  induction items using List.reverseRecOn with
  | nil => rfl
  | append_singleton items item ih =>
    rw [List.zipIdx_append, List.filter_append, lastIndex?_concat]
    by_cases hItem : has item
    · simp [hItem]
    · simpa [hItem] using ih

/-- Below a position there are the numbers that were put there, in their order. -/
theorem getElem?_foldl_putBelow (parent? : Nat → Option Nat) (numbers : List Nat) {size i : Nat}
    (h : i < size) :
    (numbers.foldl (fun kids number => Arena.putBelow kids number (parent? number))
      (Array.replicate size []))[i]? =
        some (numbers.filter fun number => parent? number = some i) := by
  induction numbers using List.reverseRecOn with
  | nil => simp [h]
  | append_singleton numbers number ih =>
    rw [List.foldl_append, List.filter_append, List.foldl_cons, List.foldl_nil]
    generalize numbers.foldl _ _ = kids at ih ⊢
    cases hParent : parent? number with
    | none => simp [Arena.putBelow, ih, hParent]
    | some parent =>
      by_cases hHere : parent = i <;>
        simp [Arena.putBelow, Array.getElem?_modify, ih, hParent, hHere]

namespace Arena

/-! ## Rows in an arena -/

/-- What is in an arena of rows of the top. -/
structure HoldsTops (arena : Arena) (tops : List DataRow) : Prop where
  nodes : arena.nodes.toList = tops.map fun row => some ⟨row, true⟩
  /-- Under each identifier there is the position of the last row that has it. -/
  roots : arena.roots =
    SlotTable.ofItems (fun entry => entry.1.valueId) (fun entry => entry.2) tops.zipIdx
  topSlots : arena.topSlots.toList.map some =
    tops.map fun row => arena.roots.slot? row.valueId

/-- An arena holds the row that is put into it. -/
theorem HoldsTops.addTop {arena : Arena} {tops : List DataRow} (h : arena.HoldsTops tops)
    (row : DataRow) : (arena.addTop row).HoldsTops (tops ++ [row]) := by
  have hSize : arena.nodes.size = tops.length := by
    rw [← Array.length_toList, h.nodes, List.length_map]
  refine ⟨?_, ?_, ?_⟩
  · rw [Arena.addTop, Array.toList_push, h.nodes, List.map_append]
    rfl
  · rw [Arena.addTop, h.roots, hSize, SlotTable.ofItems, SlotTable.ofItems, List.zipIdx_append,
      List.foldl_append, Nat.zero_add]
    rfl
  · have hKept : ∀ other ∈ tops, arena.roots.slot? other.valueId =
        (arena.roots.put row.valueId arena.nodes.size).slot? other.valueId := by
      intro other hOther
      have hMem : arena.roots.slot? other.valueId ∈ arena.topSlots.toList.map some := by
        rw [h.topSlots]
        exact List.mem_map_of_mem hOther
      obtain ⟨slot, -, hSlot⟩ := List.mem_map.1 hMem
      rw [← hSlot, SlotTable.slot?_put_of_slot? hSlot.symm]
    simp only [Arena.addTop, Array.toList_push, List.map_append, List.map_cons, List.map_nil,
      SlotTable.slot?_put, h.topSlots, List.map_congr_left hKept]

/-- An arena holds the rows of the top that are put into it one after the other. -/
theorem holdsTops_foldl (tops : List DataRow) :
    (tops.foldl Arena.addTop .empty).HoldsTops tops := by
  induction tops using List.reverseRecOn with
  | nil => exact ⟨rfl, rfl, rfl⟩
  | append_singleton tops row ih =>
    rw [List.foldl_append]
    exact ih.addTop row

/-- Nested rows come behind the others, and change nothing else. -/
theorem foldl_addNested (arena : Arena) (nested : List DataRow) :
    nested.foldl Arena.addNested arena =
      { arena with
        nodes := arena.nodes ++ (nested.map fun row => some (Node.mk row false)).toArray } := by
  induction nested using List.reverseRecOn with
  | nil => simp
  | append_singleton nested row ih =>
    rw [List.foldl_append, ih]
    simp [Arena.addNested]

end Arena

namespace Assembly.Rows

variable (rows : Rows)

/-- The arena of the rows. -/
def arena : Arena :=
  .ofDataRows rows.tops rows.nested

/-- The nodes of the arena are the rows in the order of reading. -/
theorem nodes_arena :
    rows.arena.nodes.toList =
      (rows.tops.map fun row => some (Node.mk row true)) ++
        rows.nested.map fun row => some (Node.mk row false) := by
  rw [arena, Arena.ofDataRows, Arena.foldl_addNested, Array.toList_append,
    (Arena.holdsTops_foldl rows.tops).nodes]

/-- Under each identifier there is the position of the last row that has it. -/
theorem roots_arena :
    rows.arena.roots =
      SlotTable.ofItems (fun entry => entry.1.valueId) (fun entry => entry.2)
        rows.tops.zipIdx := by
  rw [arena, Arena.ofDataRows, Arena.foldl_addNested]
  exact (Arena.holdsTops_foldl rows.tops).roots

/-- The slots of the rows of the top are those of their identifiers. -/
theorem topSlots_arena :
    rows.arena.topSlots.toList.map some =
      rows.tops.map fun row => rows.arena.roots.slot? row.valueId := by
  rw [arena, Arena.ofDataRows, Arena.foldl_addNested]
  exact (Arena.holdsTops_foldl rows.tops).topSlots

/-- The arena has a node for each row that was read. -/
theorem size_nodes_arena : rows.arena.nodes.size = rows.read.length := by
  rw [← Array.length_toList, nodes_arena, read]
  simp

/-- Each row at the top has a slot, at first its own. -/
theorem size_topSlots_arena : rows.arena.topSlots.size = rows.tops.length := by
  have hLength := congrArg List.length rows.topSlots_arena
  rwa [List.length_map, List.length_map, Array.length_toList] at hLength

/-- At each position there is the row that was read there. -/
theorem getElem?_nodes_arena (i : Nat) :
    rows.arena.nodes[i]? =
      rows.read[i]?.map fun row => some (Node.mk row (decide (i < rows.tops.length))) := by
  rw [← Array.getElem?_toList, nodes_arena, read]
  by_cases hTop : i < rows.tops.length
  · rw [List.getElem?_append_left (by simpa using hTop), List.getElem?_append_left hTop,
      List.getElem?_map]
    simp [hTop]
  · rw [List.getElem?_append_right (by simpa using hTop),
      List.getElem?_append_right (Nat.le_of_not_lt hTop), List.getElem?_map, List.length_map]
    simp [hTop]

/-! ## References -/

/-- Under each identifier the arena has the position of the row that stays. -/
theorem get?_roots_arena (valueId : String) :
    rows.arena.roots.get? valueId = rows.staying? valueId := by
  rw [roots_arena, ← SlotTable.get?_toLedger, SlotTable.toLedger_ofItems, Ledger.get?_ofItems]
  exact getLast?_filter_zipIdx (fun row : DataRow => row.valueId = valueId) rows.tops

/-- The roots are the positions of the rows that stay. -/
theorem items_roots_arena : rows.arena.roots.items.toList = rows.stayingPositions := by
  have hKeys : rows.arena.roots.toLedger.keys = (rows.tops.map DataRow.valueId).eraseDups := by
    rw [roots_arena, SlotTable.toLedger_ofItems, Ledger.keys_ofItems]
    have hIds : (rows.tops.zipIdx.map fun entry => entry.1.valueId) =
        rows.tops.map DataRow.valueId := by
      conv_rhs => rw [← List.zipIdx_map_fst 0 rows.tops, List.map_map]
      rfl
    rw [hIds]
  rw [← SlotTable.values_toLedger, Ledger.values_eq_filterMap, hKeys, stayingPositions]
  refine List.filterMap_congr fun valueId _ => ?_
  rw [SlotTable.get?_toLedger, get?_roots_arena]

/-- The last row with an id is found at its position. -/
theorem get?_byRowId_arena (id : Uuid) :
    rows.arena.byRowId.get? id = lastIndex? (fun row => row.rowId = id) rows.read := by
  have hIds : (rows.arena.nodes.toList.zipIdx.filterMap fun entry =>
      entry.1.map fun node => (node.row.rowId, entry.2)) =
        rows.read.zipIdx.map fun entry => (entry.1.rowId, entry.2) := by
    rw [nodes_arena, read, List.zipIdx_append, List.zipIdx_append, List.filterMap_append,
      List.map_append, List.zipIdx_map, List.zipIdx_map, List.filterMap_map, List.filterMap_map,
      List.length_map]
    congr 1 <;> exact congrFun
      (List.filterMap_eq_map (f := fun entry : DataRow × Nat => (entry.1.rowId, entry.2))) _
  have hFold : rows.arena.byRowId = Ledger.ofItems (fun entry => entry.1) (fun entry => entry.2)
      (rows.read.zipIdx.map fun entry => (entry.1.rowId, entry.2)) := by
    rw [← hIds]
    rfl
  rw [hFold, Ledger.get?_ofItems, List.filter_map, List.getLast?_map, Option.map_map]
  exact getLast?_filter_zipIdx (fun row : DataRow => row.rowId = id) rows.read

/-- In the arena a reference leads where it leads among the rows. -/
theorem target?_arena (reference : ParentRef) :
    rows.arena.target? rows.arena.byRowId reference = rows.target? reference := by
  cases reference with
  | point valueId => exact rows.get?_roots_arena valueId
  | row id =>
    rw [Arena.target?, target?, get?_byRowId_arena]
    refine Option.bind_congr fun i _ => ?_
    have hSlots := congrArg (fun slots => slots[i]?) rows.topSlots_arena
    simp only [List.getElem?_map, Array.getElem?_toList] at hSlots
    cases hTop : rows.tops[i]? with
    | none =>
      rw [hTop, Option.map_none, Option.map_eq_none_iff] at hSlots
      simp only [hSlots]
    | some row =>
      rw [hTop, Option.map_some] at hSlots
      obtain ⟨slot, hSlot, hRoot⟩ := Option.map_eq_some_iff.1 hSlots
      have hStays := rows.get?_roots_arena row.valueId
      rw [SlotTable.get?, ← hRoot, Option.bind_some] at hStays
      simp only [hSlot, hStays]

/-- In the arena a row has the parent that it has among the rows, unless it is its own parent. -/
theorem parent?_arena (i : Nat) :
    rows.arena.parent? rows.arena.byRowId i =
      (rows.parentOf? i).filter fun parent => parent ≠ i := by
  have hTarget : rows.arena.target? rows.arena.byRowId = rows.target? :=
    funext rows.target?_arena
  rw [Arena.parent?, hTarget, parentOf?, Arena.node?, getElem?_nodes_arena]
  cases rows.read[i]? <;> rfl

/-- Below a position there are the nested rows that refer to it, but not the row itself. -/
theorem getElem?_kids_arena {i : Nat} (h : i < rows.read.length) :
    rows.arena.kids[i]? = some ((rows.kidsOf i).filter fun j => i ≠ j) := by
  have hLength : rows.read.length - rows.tops.length = rows.nested.length := by
    rw [read, List.length_append, Nat.add_sub_cancel_left]
  rw [Arena.kids, size_nodes_arena, size_topSlots_arena, hLength,
    getElem?_foldl_putBelow _ _ h, kidsOf, List.filter_filter]
  refine congrArg some (List.filter_congr fun j _ => ?_)
  rw [parent?_arena]
  simp [Option.filter_eq_some_iff, Bool.and_comm]

end Assembly.Rows

end Collocation
