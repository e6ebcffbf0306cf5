import Collocation.Proofs.Assembly.Growth
import Collocation.Proofs.Assembly.Levels

/-!
# References to parents

An assembly depends on the references of its nested rows only by the places that they lead to. A
reference to a row at the top leads to the same place by the id of the row and by its identifier,
if no other row has that id.
-/

set_option autoImplicit false

namespace Collocation

/-- A row without the reference to its parent. -/
def DataRow.orphan (row : DataRow) : DataRow :=
  { row with parent := none }

/-- The entry of a row does not depend on its parent. -/
theorem DataRow.entry_orphan (row : DataRow) (place : Place) :
    row.orphan.entry place = row.entry place := by
  cases place <;> rfl

namespace Assembly

/-! ## Links without references -/

/-- A link whose row is without its reference. -/
def orphanLink (link : Place × Nat × DataRow) : Place × Nat × DataRow :=
  (link.1, link.2.1, link.2.2.orphan)

/-- Links without the parents of their rows lead to the same places. -/
theorem linkedTo_map_orphanLink (place : Place) (links : List (Place × Nat × DataRow)) :
    linkedTo place (links.map orphanLink) =
      (linkedTo place links).map fun entry => (entry.1, entry.2.orphan) := by
  rw [linkedTo, linkedTo, List.filter_map, List.map_map, List.map_map]
  rfl

/-- Trees grow alike without the references of the rows that are linked. -/
theorem grow_map_orphanLink (links : List (Place × Nat × DataRow)) (levels : Nat) (place : Place)
    (row : DataRow) :
    grow (links.map orphanLink) levels place row.orphan = grow links levels place row := by
  induction levels generalizing place row with
  | zero => rw [grow, grow, row.entry_orphan]
  | succ levels ih =>
    rw [grow, grow, row.entry_orphan, linkedTo_map_orphanLink, List.map_map]
    exact congrArg (Tree.node _) (List.map_congr_left fun entry _ => ih _ entry.2)

namespace Rows

section Congruence

variable {rows other : Rows} (hTops : other.tops = rows.tops)
  (hNested : List.Forall₂ (fun row row' => row'.orphan = row.orphan ∧
    row'.parent.bind rows.resolve = row.parent.bind rows.resolve) rows.nested other.nested)
include hTops

/-- The same rows are at the roots if the rows at the top have the same identifiers and entries. -/
theorem roots_congr : other.roots = rows.roots := by
  rw [roots, roots, hTops]

include hNested

/-- References lead to the same places in both. -/
theorem resolve_congr : other.resolve = rows.resolve := by
  have hIds : other.nested.map DataRow.rowId = rows.nested.map DataRow.rowId := by
    rw [← List.forall₂_eq_eq_eq, List.forall₂_map_left_iff, List.forall₂_map_right_iff]
    refine hNested.flip.imp fun row' row h => ?_
    have hId := congrArg DataRow.rowId h.1
    exact hId
  have hLast : ∀ id : Uuid, lastIndex? (fun row : DataRow => row.rowId = id) other.nested =
      lastIndex? (fun row : DataRow => row.rowId = id) rows.nested := by
    intro id
    have hMap := lastIndex?_map (fun k : Uuid => (k = id : Bool)) DataRow.rowId
    rw [← hMap, hIds, hMap]
  funext reference
  cases reference with
  | point valueId => rw [resolve, resolve, roots_congr hTops]
  | row id => rw [resolve, resolve, placeOfRow_eq, placeOfRow_eq, hLast, hTops]

/-- The links are the same, but for the parents of the rows, if all references lead to the same
places. -/
theorem links_congr : other.links.map orphanLink = rows.links.map orphanLink := by
  have key : ∀ {nested nested' : List DataRow} (start : Nat),
      List.Forall₂ (fun row row' => row'.orphan = row.orphan ∧
        row'.parent.bind rows.resolve = row.parent.bind rows.resolve) nested nested' →
      ((nested'.zipIdx start).map Prod.swap).filterMap
          (fun entry => (rows.parentPlace entry.1 entry.2).map fun place =>
            orphanLink (place, entry.1, entry.2)) =
        ((nested.zipIdx start).map Prod.swap).filterMap
          (fun entry => (rows.parentPlace entry.1 entry.2).map fun place =>
            orphanLink (place, entry.1, entry.2)) := by
    intro nested nested' start h
    induction h generalizing start with
    | nil => rfl
    | @cons row row' _ _ hRow _ ih =>
      have hPlace : rows.parentPlace start row' = rows.parentPlace start row := by
        rw [parentPlace, parentPlace, hRow.2]
      simp only [List.zipIdx_cons, List.map_cons, Prod.swap_prod_mk, List.filterMap_cons,
        orphanLink, hRow.1, hPlace]
      cases rows.parentPlace start row with
      | none => exact ih (start + 1)
      | some place => exact congrArg (_ :: ·) (ih (start + 1))
  have hPlaces : other.parentPlace = rows.parentPlace := by
    funext number row
    rw [parentPlace, parentPlace, resolve_congr hTops hNested]
  simp only [links, List.map_filterMap, Option.map_map, Function.comp_def, hPlaces]
  exact key 0 hNested

/-- Rows whose references lead to the same places are assembled to the same forest. -/
theorem ofDataRows_congr (depth : NestingDepth) :
    ofDataRows depth other = ofDataRows depth rows := by
  have hLength := hNested.length_eq
  have hLevels : levels depth other = levels depth rows := by
    cases depth with
    | single => rfl
    | full => exact hLength.symm
  have hPoints : (ofDataRows depth other).points = (ofDataRows depth rows).points := by
    simp only [ofDataRows, roots_congr hTops, hLevels]
    refine List.map_congr_left fun entry _ => ?_
    rw [← grow_map_orphanLink, links_congr hTops hNested, grow_map_orphanLink]
  have hDropped : (ofDataRows depth other).dropped = (ofDataRows depth rows).dropped := by
    change other.tops.length + other.nested.length - Forest.size (ofDataRows depth other).points =
      rows.tops.length + rows.nested.length - Forest.size (ofDataRows depth rows).points
    rw [hTops, hLength, hPoints]
  change Assembly.mk (ofDataRows depth other).points (ofDataRows depth other).dropped =
    Assembly.mk (ofDataRows depth rows).points (ofDataRows depth rows).dropped
  rw [hPoints, hDropped]

end Congruence

/-- A row at the top whose id no other row has is found by its id as by its identifier. -/
theorem resolve_row_eq_point (rows : Rows) {top : DataRow} (hTop : top ∈ rows.tops)
    (hTops : ∀ row ∈ rows.tops, row.rowId = top.rowId → row.valueId = top.valueId)
    (hNested : ∀ row ∈ rows.nested, row.rowId ≠ top.rowId) :
    rows.resolve (.row top.rowId) = rows.resolve (.point top.valueId) := by
  have hNone : lastIndex? (fun row : DataRow => row.rowId = top.rowId) rows.nested = none :=
    (lastIndex?_eq_none_iff _).2 fun row hRow => decide_eq_false (hNested row hRow)
  have hContains : rows.roots.contains top.valueId = true := by
    rw [contains_roots, rows.isSome_staying? hTop]
  rw [resolve, resolve, placeOfRow_eq, hNone, hContains, if_pos rfl]
  cases hLast : lastIndex? (fun row : DataRow => row.rowId = top.rowId) rows.tops with
  | none =>
    have hNot := (lastIndex?_eq_none_iff _).1 hLast top hTop
    exact absurd rfl (of_decide_eq_false hNot)
  | some i =>
    obtain ⟨row, hRow, hId⟩ := exists_of_lastIndex? _ hLast
    have hValueId := hTops row (List.mem_of_getElem? hRow) (of_decide_eq_true hId)
    simp only [Option.bind_some, hRow, Option.map_some, hValueId]

end Rows

end Assembly

end Collocation
