import Collocation.Proofs.Assembly.Growth
import Collocation.Proofs.Forest.Walks

/-!
# Visits

A walk from the top goes from each row to the nested rows that refer to it, and keeps no account of
where it has been. It ends all the same, and comes to no row twice: a nested row refers to one other
at most, and a row at the top to none. It visits just the positions of the forest.
-/

set_option autoImplicit false

namespace Collocation.Assembly.Rows

variable (rows : Rows) (depth : NestingDepth)

/-! ## Positions in a forest -/

/-- The positions that stay are those of the distinct identifiers, in the order in which these come
first. -/
theorem map_some_stayingPositions :
    rows.stayingPositions.map some =
      (rows.tops.map DataRow.valueId).eraseDups.map rows.staying? := by
  have hSome : ∀ valueId ∈ (rows.tops.map DataRow.valueId).eraseDups,
      (rows.staying? valueId).isSome := by
    intro valueId hMem
    obtain ⟨row, hRow, rfl⟩ := List.mem_map.1 (List.mem_eraseDups.1 hMem)
    exact rows.isSome_staying? hRow
  rw [stayingPositions]
  generalize (rows.tops.map DataRow.valueId).eraseDups = valueIds at hSome
  induction valueIds with
  | nil => rfl
  | cons valueId valueIds ih =>
    obtain ⟨i, hi⟩ := Option.isSome_iff_exists.1 (hSome valueId List.mem_cons_self)
    have hRest := ih fun x hx => hSome x (List.mem_cons_of_mem _ hx)
    simp only [List.filterMap_cons, hi, List.map_cons, hRest]

/-- To whatever depth, no row comes twice. -/
theorem nodup_values_shapeTo (depth : NestingDepth) :
    (Forest.values (rows.shapeTo depth)).Nodup :=
  rows.lineage.nodup_values_unfold _ rows.lineage.nodup_roots fun _ => .root

/-- A position on some level is that of a row. -/
theorem lt_of_level {level i : Nat} (h : Level rows.kidsOf rows.stayingPositions level i) :
    i < rows.read.length := by
  cases h with
  | root hRoot =>
    obtain ⟨valueId, -, hStays⟩ := List.mem_filterMap.1 hRoot
    have hLt := rows.staying?_lt hStays
    rw [read, List.length_append]
    omega
  | kid _ hKid => exact rows.lt_of_refers (rows.mem_kidsOf.1 hKid)

/-- The positions of a forest are those of rows. -/
theorem lt_of_mem_shapeTo {depth : NestingDepth} {i : Nat}
    (h : i ∈ Forest.values (rows.shapeTo depth)) : i < rows.read.length := by
  obtain ⟨level, -, hLevel⟩ := Forest.mem_values_unfold.1 h
  exact rows.lt_of_level hLevel

/-- There are as many points as positions to the depth of the nesting. -/
theorem size_points (depth : NestingDepth) :
    Forest.size (ofDataRows depth rows).points = Forest.size (rows.shapeTo depth) :=
  Forest.size_of_traverse (rows.traverse_shapeTo depth)

/-- There are no more positions in the forest than rows. -/
theorem size_shapeTo_le (depth : NestingDepth) :
    Forest.size (rows.shapeTo depth) ≤ rows.tops.length + rows.nested.length := by
  have hSubset : Forest.values (rows.shapeTo depth) ⊆ List.range rows.read.length :=
    fun i hi => List.mem_range.2 (rows.lt_of_mem_shapeTo hi)
  have hLe := ((rows.nodup_values_shapeTo depth).subperm hSubset).length_le
  rwa [Forest.length_values, List.length_range, read, List.length_append] at hLe

/-! ## The walk through the rows -/

/-- Where a walk goes from a position on some level: to the nested rows that refer to it, if there
may be matches below this level. -/
def below : Nat × Nat → List (Nat × Nat)
  | (level, i) => if depth.allows level then (rows.kidsOf i).map fun j => (level + 1, j) else []

/-- The walk before its first step, with the rows that stay at the top before it. -/
def walk : Walk (Nat × Nat) :=
  ⟨rows.stayingPositions.map fun i => (0, i), []⟩

/-- The positions of a forest with their levels. -/
def visits : Forest (Nat × Nat) :=
  Forest.unfold (rows.below depth) (levels depth rows) rows.walk.pending

/-- A position that the walk comes to is on the level that it has there, and no lower than a forest
goes. -/
theorem level_of_visited {steps : Nat} {visit : Nat × Nat}
    (h : Level (rows.below depth) rows.walk.pending steps visit) :
    visit.1 = steps ∧ Level rows.kidsOf rows.stayingPositions steps visit.2 ∧
      (∀ above < steps, depth.allows above) := by
  induction h with
  | root hRoot =>
    obtain ⟨i, hi, rfl⟩ := List.mem_map.1 hRoot
    exact ⟨rfl, .root hi, fun above hAbove => absurd hAbove (Nat.not_lt_zero above)⟩
  | @kid steps parent visit _ hKid ih =>
    obtain ⟨rfl, hLevel, hAbove⟩ := ih
    rw [below] at hKid
    split at hKid
    · next hAllows =>
      obtain ⟨j, hj, rfl⟩ := List.mem_map.1 hKid
      refine ⟨rfl, hLevel.kid hj, fun above hLt => ?_⟩
      rcases Nat.lt_succ_iff_lt_or_eq.1 hLt with hLt | rfl
      · exact hAbove above hLt
      · exact hAllows
    · cases hKid

/-- No visit takes more steps than there are levels. -/
theorem visited_le {steps : Nat} {visit : Nat × Nat}
    (h : Level (rows.below depth) rows.walk.pending steps visit) : steps ≤ levels depth rows := by
  obtain ⟨-, hLevel, hAbove⟩ := rows.level_of_visited depth h
  cases depth with
  | full => exact rows.level_le hLevel
  | single =>
    by_contra hMore
    have hSecond := hAbove 1 (Nat.lt_of_not_le hMore)
    exact absurd hSecond (by decide)

/-- Without their levels, the visits below a position are what unfolds from it. -/
theorem map_snd_unfold {levels above : Nat} (h : ∀ level < above + levels, depth.allows level)
    (i : Nat) :
    (Tree.unfold (rows.below depth) levels (above, i)).map Prod.snd =
      Tree.unfold rows.kidsOf levels i := by
  induction levels generalizing above i with
  | zero => rfl
  | succ levels ih =>
    have hAllows : depth.allows above := h above (by omega)
    have hBelow : ∀ level < above + 1 + levels, depth.allows level :=
      fun level hLt => h level (by omega)
    have hKids : rows.below depth (above, i) = (rows.kidsOf i).map fun j => (above + 1, j) := by
      rw [below, if_pos hAllows]
    simp only [Tree.unfold, Tree.map, hKids, Forest.map_eq_map, List.map_map]
    exact congrArg (Tree.node i) (List.map_congr_left fun j _ => ih hBelow j)

/-- Without their levels the visits are the positions to the depth of the nesting. -/
theorem map_snd_visits : Forest.map Prod.snd (rows.visits depth) = rows.shapeTo depth := by
  have hAllows : ∀ level < 0 + levels depth rows, depth.allows level := by
    intro level hLt
    cases depth with
    | full => rfl
    | single =>
      rw [Nat.zero_add] at hLt
      exact decide_eq_true hLt
  rw [Forest.map_eq_map, visits, walk, Forest.unfold, List.map_map, List.map_map, shapeTo,
    Forest.unfold]
  exact List.map_congr_left fun i _ => rows.map_snd_unfold depth hAllows i

/-- The walk ends. It takes as many steps as the forest has positions, and visits just these. -/
theorem iterate_walk :
    (Walk.step (rows.below depth))^[Forest.size (rows.shapeTo depth)] rows.walk =
      ⟨[], Forest.values (rows.visits depth)⟩ := by
  have hFollows : Forest.Follows (rows.below depth) (rows.visits depth) :=
    Forest.follows_unfold fun _ _ => rows.visited_le depth
  have hWalk := Walk.iterate_step hFollows [] []
  have hTops : Forest.tops (rows.visits depth) = rows.walk.pending := Forest.tops_unfold _ _ _
  have hSize : Forest.size (rows.visits depth) = Forest.size (rows.shapeTo depth) := by
    rw [← rows.map_snd_visits depth, Forest.size_map]
  rwa [hTops, List.append_nil, List.nil_append, hSize] at hWalk

end Collocation.Assembly.Rows
