import Collocation.Proofs.Assembly.Arena

/-!
# The walk through an arena

The walk through an arena goes step by step beside the walk through the rows. It comes to the same
positions on the same levels, and takes the kids of a position off only when it is there, on the
last level. So it has ended after as many steps as there are rows, the positions of the forest are
what it visited, and each of them has the kids that it has in the forest.
-/

set_option autoImplicit false

namespace Collocation.Assembly.Rows

open Arena

variable (rows : Rows) (depth : NestingDepth)

/-- No position on a level is a kid of its own. -/
theorem ne_of_level {level i j : Nat} (h : Level rows.kidsOf rows.stayingPositions level i)
    (hKid : j ∈ rows.kidsOf i) : i ≠ j := by
  rintro rfl
  have hLevels := rows.lineage.level_unique h (h.kid hKid)
  omega

/-- In the arena the kids of a position on a level are the rows that refer to it. -/
theorem getElem?_kids_arena_of_level {level i : Nat}
    (h : Level rows.kidsOf rows.stayingPositions level i) :
    rows.arena.kids[i]? = some (rows.kidsOf i) := by
  rw [rows.getElem?_kids_arena (rows.lt_of_level h), List.filter_eq_self.2]
  exact fun j hKid => decide_eq_true (rows.ne_of_level h hKid)

/-- A walk through the arena beside a walk through the rows. -/
structure Beside (descent : Descent) (walk : Walk (Nat × Nat)) : Prop where
  stack : descent.stack = walk.pending
  order : descent.order.reverse = walk.visited.map Prod.snd
  levels : ∀ visit ∈ walk.pending ++ walk.visited,
    Level rows.kidsOf rows.stayingPositions visit.1 visit.2
  /-- The kids of a position are those of the arena until it is visited. Then they are where the
  walk went on to. -/
  kids : ∀ level i, Level rows.kidsOf rows.stayingPositions level i →
    descent.kids[i]? =
      some (if (level, i) ∈ walk.visited then (rows.below depth (level, i)).map Prod.snd
        else rows.kidsOf i)

variable {rows depth}

/-- Where a walk goes from a position that may have matches below it. -/
theorem below_of_allows {level i : Nat} (h : depth.allows level) :
    rows.below depth (level, i) = (rows.kidsOf i).map fun j => (level + 1, j) :=
  if_pos h

/-- From a position on the last level a walk goes nowhere. -/
theorem below_of_not_allows {level i : Nat} (h : ¬ depth.allows level) :
    rows.below depth (level, i) = [] :=
  if_neg h

/-- A walk goes on to all kids of a position that may have matches below it. -/
theorem map_snd_below_of_allows {level i : Nat} (h : depth.allows level) :
    (rows.below depth (level, i)).map Prod.snd = rows.kidsOf i := by
  rw [below_of_allows h, List.map_map]
  exact List.map_id _

/-- The positions to which a walk goes on are on their levels. -/
theorem level_of_mem_below {level i : Nat}
    (h : Level rows.kidsOf rows.stayingPositions level i) {visit : Nat × Nat}
    (hVisit : visit ∈ rows.below depth (level, i)) :
    Level rows.kidsOf rows.stayingPositions visit.1 visit.2 := by
  by_cases hAllows : depth.allows level
  · rw [below_of_allows hAllows] at hVisit
    obtain ⟨j, hj, rfl⟩ := List.mem_map.1 hVisit
    exact h.kid hj
  · rw [below_of_not_allows hAllows] at hVisit
    exact (List.not_mem_nil hVisit).elim

/-- A visit keeps the walks beside each other, when it leaves the position with the kids to which
the walk goes on, and the other positions with theirs. -/
theorem Beside.visit {descent : Descent} {level i : Nat} {pending visited : List (Nat × Nat)}
    (h : rows.Beside depth descent ⟨(level, i) :: pending, visited⟩) {kids : Array (List Nat)}
    (hHere : kids[i]? = some ((rows.below depth (level, i)).map Prod.snd))
    (hOthers : ∀ j, j ≠ i → kids[j]? = descent.kids[j]?) :
    rows.Beside depth
      { kids
        stack := rows.below depth (level, i) ++ pending
        order := i :: descent.order }
      ⟨rows.below depth (level, i) ++ pending, visited ++ [(level, i)]⟩ := by
  have hLevel := h.levels (level, i) List.mem_cons_self
  refine ⟨rfl, ?_, ?_, ?_⟩
  · rw [List.reverse_cons, h.order, List.map_append]
    rfl
  · intro visit hVisit
    rw [List.append_assoc, List.mem_append] at hVisit
    rcases hVisit with hBelow | hVisit
    · exact level_of_mem_below hLevel hBelow
    · apply h.levels visit
      simp only [List.mem_append, List.mem_cons, List.not_mem_nil, or_false] at hVisit ⊢
      tauto
  · intro level' j hLevel'
    by_cases hSame : j = i
    · -- A position has one level only, so that this is the visit that was just made.
      subst hSame
      obtain rfl := rows.lineage.level_unique hLevel hLevel'
      simp [hHere]
    · have hOther : (level', j) ≠ (level, i) := fun hEq => hSame (Prod.mk.inj hEq).2
      rw [hOthers j hSame, h.kids level' j hLevel']
      simp [hOther]

/-- The walks stay beside each other. -/
theorem Beside.step {descent : Descent} {walk : Walk (Nat × Nat)}
    (h : rows.Beside depth descent walk) :
    rows.Beside depth (descent.step depth) (walk.step (rows.below depth)) := by
  obtain ⟨pending, visited⟩ := walk
  cases pending with
  | nil =>
    have hEnded : descent.step depth = descent := by rw [Descent.step, h.stack]
    rw [hEnded]
    exact h
  | cons visit pending =>
    obtain ⟨level, i⟩ := visit
    have hKids := h.kids level i (h.levels (level, i) List.mem_cons_self)
    rw [Walk.step, Descent.step, h.stack]
    by_cases hAllows : depth.allows level
    · rw [map_snd_below_of_allows hAllows, ite_self] at hKids
      have hHere : descent.kids.getD i [] = rows.kidsOf i := by
        rw [Array.getD_eq_getD_getElem?, hKids, Option.getD_some]
      simp only [hAllows, if_true]
      rw [hHere, ← below_of_allows hAllows]
      exact h.visit (by rw [hKids, map_snd_below_of_allows hAllows]) fun _ _ => rfl
    · have hSize : i < descent.kids.size := (Array.getElem?_eq_some_iff.1 hKids).1
      have hBelow : rows.below depth (level, i) = [] := below_of_not_allows hAllows
      have hHere : (descent.kids.setIfInBounds i [])[i]? =
          some ((rows.below depth (level, i)).map Prod.snd) := by
        rw [Array.getElem?_setIfInBounds_self_of_lt hSize, hBelow, List.map_nil]
      have hVisit := h.visit hHere fun j hj => Array.getElem?_setIfInBounds_ne (Ne.symm hj)
      rw [hBelow] at hVisit ⊢
      simp only [hAllows, Bool.false_eq_true, if_false]
      exact hVisit

/-- Two walks side by side stay so after any number of steps. -/
theorem Beside.steps (count : Nat) {descent : Descent} {walk : Walk (Nat × Nat)}
    (h : rows.Beside depth descent walk) :
    rows.Beside depth (Descent.steps depth count descent)
      ((Walk.step (rows.below depth))^[count] walk) := by
  induction count generalizing descent walk with
  | zero => exact h
  | succ count ih => exact ih h.step

variable (rows depth)

/-- The walks begin beside each other. -/
theorem beside_walk :
    rows.Beside depth
      { kids := rows.arena.kids
        stack := rows.arena.roots.items.toList.map fun i => (0, i)
        order := [] } rows.walk where
  stack := by rw [items_roots_arena, walk]
  order := rfl
  levels := by
    intro visit hVisit
    rw [walk, List.append_nil] at hVisit
    obtain ⟨i, hi, rfl⟩ := List.mem_map.1 hVisit
    exact .root hi
  kids := fun level i hLevel => rows.getElem?_kids_arena_of_level hLevel

/-- After as many steps as there are rows the walk through the rows has ended. -/
theorem iterate_walk_length :
    (Walk.step (rows.below depth))^[rows.read.length] rows.walk =
      ⟨[], Forest.values (rows.visits depth)⟩ := by
  have hLe := rows.size_shapeTo_le depth
  rw [← List.length_append] at hLe
  obtain ⟨more, hMore⟩ := Nat.exists_eq_add_of_le' hLe
  rw [read, hMore, Function.iterate_add_apply, iterate_walk]
  exact Function.iterate_fixed rfl more

/-- The walk through the arena has ended. It visited the positions of the forest, and each of them
has the kids that it has there. -/
theorem walk_arena :
    (rows.arena.walk depth).stack = [] ∧
      (rows.arena.walk depth).order.reverse = Forest.values (rows.shapeTo depth) ∧
      Forest.Follows (fun i => (rows.arena.walk depth).kids.getD i []) (rows.shapeTo depth) := by
  have hBeside := (rows.beside_walk depth).steps rows.arena.nodes.size
  rw [size_nodes_arena, iterate_walk_length] at hBeside
  have hWalk : rows.arena.walk depth = Descent.steps depth rows.read.length
      { kids := rows.arena.kids
        stack := rows.arena.roots.items.toList.map fun i => (0, i)
        order := [] } := by
    rw [Arena.walk, size_nodes_arena]
  rw [hWalk]
  refine ⟨hBeside.stack, ?_, ?_⟩
  · rw [hBeside.order, ← Forest.values_map, map_snd_visits]
  · have hFollows : Forest.Follows (rows.below depth) (rows.visits depth) :=
      Forest.follows_unfold fun _ _ => rows.visited_le depth
    rw [← rows.map_snd_visits depth]
    intro tree hTree
    rw [Forest.subtrees_map] at hTree
    obtain ⟨⟨⟨level, i⟩, children⟩, hVisit, rfl⟩ := List.mem_map.1 hTree
    have hVisited : (level, i) ∈ Forest.values (rows.visits depth) := by
      rw [← Forest.map_value_subtrees]
      exact List.mem_map_of_mem hVisit
    have hKids := hBeside.kids level i (hBeside.levels (level, i) hVisited)
    have hBelow : Forest.tops children = rows.below depth (level, i) := hFollows _ hVisit
    rw [if_pos hVisited, ← hBelow] at hKids
    rw [Tree.map, Tree.children, Tree.value, Forest.tops_map]
    change _ = (Descent.steps depth _ _).kids.getD i []
    rw [Array.getD_eq_getD_getElem?, hKids]
    rfl

end Collocation.Assembly.Rows
