import Collocation.Flattening
import Collocation.Proofs.Forest.Parents

/-!
# Rows in pre-order

The rows of a forest of points, first as a forest of the same shape and then as the list of its
values. The walk with its pending points makes just this list.
-/

set_option autoImplicit false

namespace Collocation

namespace Flattened

variable (executionId : Uuid) (mint : Nat → Uuid)

mutual

/-- The row of a point with the rows of its matches below it. The ids that are minted from a number
on are used up in pre-order. -/
def rowTree (next : Nat) (parent : Option Uuid) : Point → Tree FlatRow
  | .node observation points =>
    .node (.ofObservation executionId (mint next) parent observation)
      (rowForest (next + 1) (some (mint next)) points)

/-- The rows of points that are side by side. -/
def rowForest (next : Nat) (parent : Option Uuid) : List Point → Forest FlatRow
  | [] => []
  | point :: points => rowTree next parent point :: rowForest (next + point.size) parent points

end

variable {mint}

/-! ## The walk -/

/-- The walk visits points below the same row in pre-order, and what was pending after them. -/
theorem visit_below_append (supply : Supply) (parent : Option Uuid) (level : Nat)
    (points : List Point) (pending : List Pending) :
    visit executionId supply (below parent level points ++ pending) =
      Forest.levels level (rowForest executionId supply.mint supply.next parent points) ++
        visit executionId (supply.skip (Forest.size points)) pending := by
  induction points using Forest.induction generalizing supply parent level pending with
  | nil => rfl
  | cons observation children points hBelow hBeside =>
    have hVisit : visit executionId supply
        (below parent level (.node observation children :: points) ++ pending) =
      (level, .ofObservation executionId (supply.mint supply.next) parent observation) ::
        visit executionId (supply.skip 1)
          (below (some (supply.mint supply.next)) (level + 1) children ++
            (below parent level points ++ pending)) := by
      rw [below, List.map_cons, List.cons_append, visit]
      rfl
    rw [hVisit, hBelow, hBeside]
    simp only [rowForest, rowTree, Forest.levels, Tree.levels, Forest.size, Tree.size, Supply.skip,
      List.cons_append, List.append_assoc]
    have hNext : supply.next + 1 + Forest.size children =
        supply.next + (Forest.size children + 1) := by omega
    rw [hNext, Nat.add_assoc]

/-- The whole walk visits the rows of a forest in pre-order, each with its level. -/
theorem visit_below (points : List Point) (supply : Supply) :
    visit executionId supply (below none 0 points) =
      Forest.levels 0 (rowForest executionId supply.mint supply.next none points) := by
  have hAppend := visit_below_append executionId supply none 0 points []
  rwa [List.append_nil, visit, List.append_nil] at hAppend

/-- The rows of a forest in pre-order. -/
theorem rows_ofPoints (points : List Point) (supply : Supply) :
    (ofPoints executionId points supply).1.rows =
      Forest.values (rowForest executionId supply.mint supply.next none points) := by
  rw [ofPoints, visit_below, Forest.map_snd_levels]

variable {executionId}

/-! ## Its rows -/

/-- The rows of a forest have the ids of those above them, and just the rows without a parent are
marked as at the top. -/
structure Linked (above : Option Uuid) (trees : Forest FlatRow) : Prop
    extends Forest.Linked FlatRow.rowId FlatRow.parent above trees where
  isTopLevel : ∀ row ∈ Forest.values trees, row.isTopLevel = row.parent.isNone

/-- Of no rows each is linked. -/
theorem linked_nil {above : Option Uuid} : Linked above [] :=
  ⟨Forest.linked_nil, fun _ h => (List.not_mem_nil h).elim⟩

/-- The rows of a forest are linked by their ids. -/
theorem linked_rowForest (next : Nat) (parent : Option Uuid) (points : List Point) :
    Linked parent (rowForest executionId mint next parent points) := by
  induction points using Forest.induction generalizing next parent with
  | nil => exact linked_nil
  | cons observation children points hBelow hBeside =>
    obtain ⟨hBelow, hMarkedBelow⟩ := hBelow (next + 1) (some (mint next))
    obtain ⟨hBeside, hMarkedBeside⟩ :=
      hBeside (next + (Tree.node observation children).size) parent
    rw [rowForest, rowTree]
    refine ⟨Forest.linked_cons.2 ⟨rfl, hBelow, hBeside⟩, fun row hRow => ?_⟩
    rcases Forest.mem_values_cons.1 hRow with rfl | hRow | hRow
    · rfl
    · exact hMarkedBelow row hRow
    · exact hMarkedBeside row hRow

/-- The rows that are marked are those at the top. -/
theorem Linked.filter_isTopLevel {trees : Forest FlatRow} (h : Linked none trees) :
    (Forest.values trees).filter FlatRow.isTopLevel = Forest.tops trees :=
  (List.filter_congr h.isTopLevel).trans h.filter_parent.1

/-- Linked forests side by side are linked. -/
theorem Linked.append {trees others : Forest FlatRow} {above : Option Uuid}
    (h : Linked above trees) (hOthers : Linked above others) : Linked above (trees ++ others) where
  toLinked := h.toLinked.append hOthers.toLinked
  isTopLevel := by
    intro row hRow
    rw [Forest.values_append, List.mem_append] at hRow
    exact hRow.elim (h.isTopLevel row) (hOthers.isTopLevel row)

/-- There are as many rows as points. -/
@[simp] theorem size_rowForest (next : Nat) (parent : Option Uuid) (points : List Point) :
    Forest.size (rowForest executionId mint next parent points) = Forest.size points := by
  induction points using Forest.induction generalizing next parent with
  | nil => rfl
  | cons observation children points hBelow hBeside =>
    simp only [rowForest, rowTree, Forest.size, Tree.size, hBelow, hBeside]

/-- Rows take the ids one after the other. -/
theorem ids_rowForest (next : Nat) (parent : Option Uuid) (points : List Point) :
    Forest.ids FlatRow.rowId (rowForest executionId mint next parent points) =
      (List.range' next (Forest.size points)).map mint := by
  induction points using Forest.induction generalizing next parent with
  | nil => rfl
  | cons observation children points hBelow hBeside =>
    rw [rowForest, rowTree, Forest.ids_cons, hBelow, hBeside, Tree.size, Forest.size, Tree.size,
      ← List.map_append, Nat.add_right_comm, List.range'_succ, List.map_cons,
      ← List.range'_append_1]
    congr 4
    omega

/-- The rows of a forest take the next ids of the supply. -/
theorem rowIds_ofPoints (points : List Point) (supply : Supply) :
    (ofPoints executionId points supply).1.rows.map FlatRow.rowId =
      (List.range' supply.next (Forest.size points)).map supply.mint := by
  rw [rows_ofPoints]
  exact ids_rowForest _ _ _

/-- What rows have of their observations stays where it was. -/
theorem map_rowForest {α : Type} {f : FlatRow → α} {g : Observation → α} {points : List Point}
    (h : ∀ observation ∈ Forest.values points, ∀ rowId parent,
      f (.ofObservation executionId rowId parent observation) = g observation)
    (next : Nat) (parent : Option Uuid) :
    Forest.map f (rowForest executionId mint next parent points) = Forest.map g points := by
  induction points using Forest.induction generalizing next parent with
  | nil => rfl
  | cons observation children points hBelow hBeside =>
    simp only [Forest.mem_values_cons] at h
    have hChildren := hBelow (fun o ho => h o (.inr (.inl ho)))
    have hPoints := hBeside (fun o ho => h o (.inr (.inr ho)))
    simp only [rowForest, rowTree, Forest.map, Tree.map, hChildren, hPoints,
      h observation (.inl rfl)]

/-- Each row is that of an observation. -/
theorem exists_of_mem_rowForest {next : Nat} {parent : Option Uuid} {points : List Point}
    {row : FlatRow}
    (h : row ∈ Forest.values (rowForest executionId mint next parent points)) :
    ∃ observation ∈ Forest.values points, ∃ rowId parent,
      row = .ofObservation executionId rowId parent observation := by
  induction points using Forest.induction generalizing next parent with
  | nil => cases h
  | cons observation children points hBelow hBeside =>
    simp only [rowForest, rowTree, Forest.mem_values_cons] at h ⊢
    rcases h with rfl | h | h
    · exact ⟨observation, .inl rfl, _, _, rfl⟩
    · obtain ⟨o, ho, hRow⟩ := hBelow h
      exact ⟨o, .inr (.inl ho), hRow⟩
    · obtain ⟨o, ho, hRow⟩ := hBeside h
      exact ⟨o, .inr (.inr ho), hRow⟩

end Flattened

end Collocation
