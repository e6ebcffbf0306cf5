import Collocation.Row.Flat

/-!
# Flattening

A forest of points becomes a list of flat rows: every point before its matches, and the matches in
their order. Each row takes a fresh id, and a match refers to the row of the point above it. The
walk keeps its own list of the points that are still to be visited.
-/

set_option autoImplicit false

namespace Collocation

/-- The rows of a forest, and its shape. -/
structure Flattened where
  rows : List FlatRow
  topLevel : Nat
  /-- The lowest level of a point; points at the top are on level zero. -/
  maxLevel : Nat

namespace Flattened

/-- A point that is still to be visited. -/
structure Pending where
  parent : Option Uuid
  level : Nat
  point : Point

/-- The points that are still to be visited, with all their matches. -/
def remaining (pending : List Pending) : Nat :=
  Forest.size (pending.map Pending.point)

/-- Points below the same row, to be visited in their order. -/
def below (parent : Option Uuid) (level : Nat) (points : List Point) : List Pending :=
  points.map fun point => { parent, level, point }

/-- Points in front of others that are pending add as many to what remains as they are. -/
theorem remaining_below_append (parent : Option Uuid) (level : Nat) (points : List Point)
    (pending : List Pending) :
    remaining (below parent level points ++ pending) = Forest.size points + remaining pending := by
  have map : (below parent level points).map Pending.point = points := by
    simp [below, Function.comp_def]
  rw [remaining, List.map_append, map, Forest.size_append, remaining]

/-- Visits the pending points. The first of them takes the next id of the supply, and its matches
come before the others. -/
def visit (executionId : Uuid) (supply : Supply) : List Pending → List (Nat × FlatRow)
  | [] => []
  | ⟨parent, level, .node observation points⟩ :: pending =>
    let (rowId, supply) := supply.take
    (level, .ofObservation executionId rowId parent observation) ::
      visit executionId supply (below (some rowId) (level + 1) points ++ pending)
termination_by pending => remaining pending
decreasing_by
  rw [remaining_below_append]
  simp only [remaining, List.map_cons, Forest.size, Tree.size]
  omega

/-- The greatest of some levels, and zero of none. -/
def deepest (levels : List Nat) : Nat :=
  levels.foldl max 0

/-- The rows of a forest, and the supply without the ids that they took. -/
def ofPoints (executionId : Uuid) (points : List Point) (supply : Supply) : Flattened × Supply :=
  let visited := visit executionId supply (below none 0 points)
  ( { rows := visited.map (·.2)
      topLevel := points.length
      maxLevel := deepest (visited.map (·.1)) },
    supply.skip visited.length )

/-- The length of the list of rows. -/
def size (flattened : Flattened) : Nat :=
  flattened.rows.length

end Flattened

end Collocation
