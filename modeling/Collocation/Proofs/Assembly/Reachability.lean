import Collocation.Proofs.Assembly.Building
import Collocation.Proofs.Row.Columns

/-!
# Reachability

What an assembly of all levels is, said without the way in which it is made: one root for each
identifier at the top, below every row just the rows that refer to it, and of the nested rows those
from which references lead to a root. This holds of all rows that can be decoded, whatever they
refer to.
-/

set_option autoImplicit false

namespace Collocation.Assembly

/-- A forest of positions is the one that the references between the rows describe. -/
structure Rows.Arranged (rows : Rows) (shape : Forest Nat) : Prop where
  /-- Each identifier at the top has one root, in the order in which identifiers first come. It is
  the last row that has the identifier. -/
  roots : (Forest.tops shape).map some =
    (rows.tops.map DataRow.valueId).eraseDups.map rows.staying?
  /-- Below a row there are the rows that refer to it, in the order of reading. -/
  children : ∀ tree ∈ Forest.subtrees shape, (Forest.tops tree.children).Pairwise (· < ·) ∧
    ∀ j, j ∈ Forest.tops tree.children ↔ rows.Refers j tree.value
  /-- No row comes twice. -/
  once : (Forest.values shape).Nodup
  /-- A nested row is there just if references lead from it to a root in finitely many steps. -/
  reach : ∀ j, rows.tops.length ≤ j → (j ∈ Forest.values shape ↔
    ∃ root ∈ Forest.tops shape, Relation.TransGen rows.Refers j root)

namespace Rows

variable (rows : Rows)

/-- The positions in the shape are those that are reached from a position that stays. -/
theorem mem_values_shape {i : Nat} :
    i ∈ Forest.values rows.shape ↔ ∃ level, Level rows.kidsOf rows.stayingPositions level i := by
  rw [shape, Forest.mem_values_unfold]
  constructor
  · rintro ⟨level, -, hLevel⟩
    exact ⟨level, hLevel⟩
  · rintro ⟨level, hLevel⟩
    exact ⟨level, rows.level_le hLevel, hLevel⟩

/-- The positions that unfold from those that stay are arranged as the references say. -/
theorem arranged_shape : rows.Arranged rows.shape where
  roots := by
    rw [shape, Forest.tops_unfold]
    exact rows.map_some_stayingPositions
  children := by
    intro tree hTree
    have hFollows := Forest.follows_unfold (fun _ _ => rows.level_le) tree hTree
    rw [hFollows]
    exact ⟨rows.pairwise_kidsOf tree.value, fun j => rows.mem_kidsOf⟩
  once := rows.lineage.nodup_values_unfold _ rows.lineage.nodup_roots fun _ => .root
  reach := by
    intro j hNested
    have hTops : ∀ root ∈ rows.stayingPositions, j ≠ root := by
      rintro root hRoot rfl
      obtain ⟨valueId, -, hStays⟩ := List.mem_filterMap.1 hRoot
      have := rows.staying?_lt hStays
      omega
    have hRelation : (fun x parent => x ∈ rows.kidsOf parent) = rows.Refers := by
      funext x parent
      exact propext rows.mem_kidsOf
    rw [rows.mem_values_shape, exists_level_iff, shape, Forest.tops_unfold, hRelation]
    refine exists_congr fun root => and_congr_right fun hRoot => ?_
    rw [Relation.reflTransGen_iff_eq_or_transGen]
    exact or_iff_right fun hEq => hTops root hRoot hEq.symm

/-- The rows that have no place in the forest are the dropped ones. -/
theorem dropped_add_size :
    (ofDataRows .full rows).dropped + Forest.size rows.shape =
      rows.tops.length + rows.nested.length := by
  have hLe := rows.size_shapeTo_le .full
  have hDropped : (ofDataRows .full rows).dropped =
      rows.tops.length + rows.nested.length - Forest.size (ofDataRows .full rows).points := rfl
  rw [hDropped, size_points]
  exact Nat.sub_add_cancel hLe

end Rows

/-! ## Payloads -/

/-- Below the root of a grown tree payloads are secondary. -/
theorem secondary_of_mem_children (links : List (Place × Nat × DataRow)) (levels : Nat)
    (place : Place) (row : DataRow) :
    ∀ entry ∈ Forest.values (grow links levels place row).children,
      entry.primary = none ∧ entry.secondary.isSome := by
  induction levels generalizing place row with
  | zero =>
    intro entry hEntry
    cases hEntry
  | succ levels ih =>
    intro entry hEntry
    obtain ⟨tree, hTree, hEntry⟩ := Forest.mem_values.1 hEntry
    obtain ⟨⟨number, nested⟩, -, rfl⟩ := List.mem_map.1 hTree
    rw [Tree.values_eq, List.mem_cons] at hEntry
    rcases hEntry with rfl | hEntry
    · cases levels <;> exact ⟨rfl, rfl⟩
    · exact ih (.nested number) nested entry hEntry

/-- At the top payloads are primary. -/
theorem primary_of_mem_points (depth : NestingDepth) (rows : Rows) :
    ∀ tree ∈ (ofDataRows depth rows).points,
      tree.value.primary.isSome ∧ tree.value.secondary = none ∧
        ∀ entry ∈ Forest.values tree.children, entry.primary = none ∧ entry.secondary.isSome := by
  intro tree hTree
  obtain ⟨⟨valueId, row⟩, -, rfl⟩ := List.mem_map.1 hTree
  refine ⟨?_, ?_, secondary_of_mem_children _ _ _ _⟩
  · cases levels depth rows <;> rfl
  · cases levels depth rows <;> rfl

/-- Rows that can be decoded, with whatever ids and references, are assembled to the forest that the
references describe: its entries show the rows at their positions, with the payload in its slot, and
the rows that are not in it are counted. -/
theorem ofRows_full_arranged {tops nested : List Row} {rows : Rows}
    (hTops : List.Forall₂ (fun row data => DataRow.ofRow row = .ok data) tops rows.tops)
    (hNested : List.Forall₂ (fun row data => DataRow.ofRow row = .ok data) nested rows.nested) :
    ∃ (assembly : Assembly) (shape : Forest Nat),
      ofRows .full tops nested = .ok assembly ∧
      rows.Arranged shape ∧
      Forest.traverse rows.entryAt? shape = some assembly.points ∧
      (∀ tree ∈ assembly.points, tree.value.primary.isSome ∧ tree.value.secondary = none ∧
        ∀ entry ∈ Forest.values tree.children, entry.primary = none ∧ entry.secondary.isSome) ∧
      assembly.dropped + Forest.size shape = tops.length + nested.length := by
  refine ⟨ofDataRows .full rows, rows.shape, ?_, rows.arranged_shape, rows.traverse_shape,
    primary_of_mem_points .full rows, ?_⟩
  · rw [ofRows_eq, mapM_eq_ok_of_forall₂ hTops, mapM_eq_ok_of_forall₂ hNested]
    rfl
  · rw [rows.dropped_add_size, hTops.length_eq, hNested.length_eq]

/-! ## A tangle of rows -/

/-- The row of a point of which nothing was measured. -/
def bareRow (id : Nat) (valueId : String) (parent : Option Nat) : FlatRow :=
  .ofObservation .nil (.ofNat id) (parent.map .ofNat)
    { id := valueId, longitude := .zero, latitude := .zero, source := "survey", time := .epoch }

/-- A bare row decodes with an empty payload. -/
theorem ofRow_bareRow (id : Nat) (valueId : String) (parent : Option Nat) :
    DataRow.ofRow (bareRow id valueId parent).toRow =
      .ok ((bareRow id valueId parent).dataRow (.array [])) := by
  have hText : Json.parse? "[]" = some (.array []) := by cbv
  exact DataRow.ofRow_toRow hText

/-- Of these rows at the top the last replaces the first. -/
def tangledTops : List FlatRow :=
  [bareRow 1 "a" none, bareRow 2 "b" none, bareRow 3 "a" none]

/-- The first of these nested rows refers to a row that was replaced, two refer to each other, and
one to itself. -/
def tangledNested : List FlatRow :=
  [bareRow 4 "c" (some 1), bareRow 5 "d" (some 6), bareRow 6 "e" (some 5), bareRow 7 "f" (some 7)]

/-- What is read of the rows of the tangle. -/
def tangledRows : Rows :=
  { tops := tangledTops.map (FlatRow.dataRow · (.array []))
    nested := tangledNested.map (FlatRow.dataRow · (.array [])) }

/-- Of seven rows of which some have no way to the top, those are assembled that have one, and the
others are counted. -/
theorem ofRows_full_arranged_tangled :
    ∃ (assembly : Assembly) (shape : Forest Nat),
      ofRows .full (tangledTops.map FlatRow.toRow) (tangledNested.map FlatRow.toRow) =
        .ok assembly ∧
      tangledRows.Arranged shape ∧
      assembly.dropped + Forest.size shape = 7 := by
  have hTops : List.Forall₂ (fun row data => DataRow.ofRow row = .ok data)
      (tangledTops.map FlatRow.toRow) tangledRows.tops := by
    simp only [tangledTops, tangledRows, List.map_cons, List.map_nil, List.forall₂_cons,
      ofRow_bareRow, true_and, List.Forall₂.nil]
  have hNested : List.Forall₂ (fun row data => DataRow.ofRow row = .ok data)
      (tangledNested.map FlatRow.toRow) tangledRows.nested := by
    simp only [tangledNested, tangledRows, List.map_cons, List.map_nil, List.forall₂_cons,
      ofRow_bareRow, true_and, List.Forall₂.nil]
  obtain ⟨assembly, shape, hRows, hArranged, -, -, hDropped⟩ := ofRows_full_arranged hTops hNested
  exact ⟨assembly, shape, hRows, hArranged, hDropped⟩

end Collocation.Assembly
