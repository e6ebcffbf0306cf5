import Collocation.Proofs.Assembly.Outlines

/-!
# Balance

The entries of a forest are the rows that a walk from the top visits, each of them once. The others
are dropped, so that together they are all that were read.
-/

set_option autoImplicit false

namespace Collocation.Assembly

/-! ## Rows that are used -/

/-- Every row is used for one entry at most, and dropped if it is used for none. The rows are told
by their positions. -/
structure Balanced (assembly : Assembly) (entryAt? : Nat → Option Entry) (total : Nat)
    (used : List Nat) : Prop where
  /-- The entries are those of the used rows, one by one and in pre-order. -/
  entries : used.map entryAt? = (Forest.values assembly.points).map some
  /-- No row is used twice. -/
  once : used.Nodup
  within : ∀ i ∈ used, i < total
  dropped : assembly.dropped = ((List.range total).filter fun i => i ∉ used).length

/-- Of so many positions each is used or left over. -/
theorem length_add_leftover {used : List Nat} {total : Nat} (hOnce : used.Nodup)
    (hWithin : ∀ i ∈ used, i < total) :
    used.length + ((List.range total).filter fun i => i ∉ used).length = total := by
  have hUsed : used.Perm ((List.range total).filter fun i => i ∈ used) := by
    refine (List.perm_ext_iff_of_nodup hOnce (List.nodup_range.filter _)).2 fun i => ?_
    simp only [List.mem_filter, List.mem_range, decide_eq_true_eq]
    exact ⟨fun hi => ⟨hWithin i hi, hi⟩, And.right⟩
  have hAll := (List.filter_append_perm (fun i => decide (i ∈ used)) (List.range total)).length_eq
  rw [List.length_append, List.length_range, ← hUsed.length_eq] at hAll
  simpa only [decide_not] using hAll

section Balanced

variable {assembly : Assembly} {entryAt? : Nat → Option Entry} {total : Nat} {used : List Nat}

/-- There are as many entries as rows that show them. -/
theorem length_eq_size (h : used.map entryAt? = (Forest.values assembly.points).map some) :
    used.length = Forest.size assembly.points := by
  have hLengths := congrArg List.length h
  rwa [List.length_map, List.length_map, Forest.length_values] at hLengths

/-- Entries and dropped rows are all rows together. -/
theorem Balanced.size_add_dropped (h : assembly.Balanced entryAt? total used) :
    Forest.size assembly.points + assembly.dropped = total := by
  rw [← length_eq_size h.entries, h.dropped]
  exact length_add_leftover h.once h.within

/-- Rows that are used once balance if the dropped ones are counted right. -/
theorem balanced_of_dropped
    (hEntries : used.map entryAt? = (Forest.values assembly.points).map some)
    (hOnce : used.Nodup) (hWithin : ∀ i ∈ used, i < total)
    (hDropped : assembly.dropped = total - Forest.size assembly.points) :
    assembly.Balanced entryAt? total used := by
  have hAll := length_add_leftover hOnce hWithin
  rw [length_eq_size hEntries] at hAll
  refine ⟨hEntries, hOnce, hWithin, ?_⟩
  omega

end Balanced

namespace Rows

variable (rows : Rows)

/-- The rows that a walk visits are used, to whatever depth it goes. -/
theorem balanced_ofDataRows (depth : NestingDepth) :
    (ofDataRows depth rows).Balanced rows.entryAt? (rows.tops.length + rows.nested.length)
      ((Forest.values (rows.visits depth)).map Prod.snd) := by
  have hUsed : (Forest.values (rows.visits depth)).map Prod.snd =
      Forest.values (rows.shapeTo depth) := by
    rw [← Forest.values_map, rows.map_snd_visits]
  rw [hUsed]
  refine balanced_of_dropped (Forest.map_values_of_traverse (rows.traverse_shapeTo depth))
    (rows.nodup_values_shapeTo depth) (fun i hi => ?_) rfl
  have hLt := rows.lt_of_mem_shapeTo hi
  rwa [read, List.length_append] at hLt

/-- The outline of the row at a position at the top. -/
def outlineAt? (i : Nat) : Option Entry :=
  rows.tops[i]?.map DataRow.outlined

/-- The outlines at the positions that stay are those of the rows at the roots. -/
theorem map_outlineAt? :
    rows.stayingPositions.map rows.outlineAt? =
      (rows.roots.values.map DataRow.outlined).map some := by
  rw [Ledger.values, List.map_map, List.map_map, ← List.forall₂_eq_eq_eq,
    List.forall₂_map_left_iff, List.forall₂_map_right_iff]
  refine rows.forall₂_roots.flip.imp fun i entry hAt => ?_
  obtain ⟨-, hRow⟩ := hAt
  rw [outlineAt?, hRow]
  rfl

end Rows

/-- The entries of a forest and the rows that were dropped for it are all rows. -/
theorem size_add_dropped_of_ofRows {depth : NestingDepth} {tops nested : List Row}
    {assembly : Assembly} (h : ofRows depth tops nested = .ok assembly) :
    Forest.size assembly.points + assembly.dropped = tops.length + nested.length := by
  obtain ⟨rows, hTops, hNested, rfl⟩ := ofRows_eq_ok_iff.1 h
  rw [(forall₂_of_mapM_eq_ok hTops).length_eq, (forall₂_of_mapM_eq_ok hNested).length_eq]
  exact (rows.balanced_ofDataRows depth).size_add_dropped

/-- The rows that stay are used for a trimmed forest. -/
theorem balanced_trimmed {tops : List Row} {rows : Rows} {assembly : Assembly}
    (hTops : List.Forall₂ (fun row data => DataRow.ofRow row = .ok data) tops rows.tops)
    (h : trimmed tops = .ok assembly) :
    assembly.Balanced rows.outlineAt? tops.length rows.stayingPositions := by
  rw [trimmed_of_forall₂ hTops] at h
  cases h
  have hValues : Forest.values (rows.roots.values.map fun row => .node row.outlined []) =
      rows.roots.values.map DataRow.outlined := by
    rw [← Forest.values_unfold_zero (fun _ => []) (rows.roots.values.map DataRow.outlined),
      Forest.unfold, List.map_map]
    rfl
  have hSize : Forest.size (rows.roots.values.map fun row => .node row.outlined []) =
      rows.roots.size := by
    rw [← Forest.length_values, hValues, List.length_map]
    exact List.length_map _
  refine balanced_of_dropped ?_ rows.lineage.nodup_roots ?_ ?_
  · rw [hValues, rows.map_outlineAt?]
  · intro i hi
    obtain ⟨valueId, -, hStays⟩ := List.mem_filterMap.1 hi
    rw [hTops.length_eq]
    exact rows.staying?_lt hStays
  · rw [hSize]

/-! ## One level -/

/-- An assembly to one level of matches fails just if and as the one of all levels does. Otherwise
it has the points of that one, with nothing below their matches, and drops the rows that are there
besides those that are dropped anyway. -/
theorem ofRows_single_eq (tops nested : List Row) :
    ofRows .single tops nested =
      (ofRows .full tops nested).map fun full =>
        { points := List.map (Tree.prune 1) full.points
          dropped := full.dropped +
            (Forest.levels 0 full.points).countP fun entry => 2 ≤ entry.1 } := by
  cases hFull : ofRows .full tops nested with
  | error failure => exact ofRows_error_congr .single hFull
  | ok full =>
    have hSingle := ofRows_single hFull
    have hAll := size_add_dropped_of_ofRows hFull
    have hOne := size_add_dropped_of_ofRows hSingle
    have hDeeper := Forest.size_prune_add 1 0 full.points
    rw [hSingle]
    refine congrArg Except.ok (congrArg (Assembly.mk _) ?_)
    change _ = full.dropped + (Forest.levels 0 full.points).countP fun entry => 0 + 1 < entry.1
    omega

end Collocation.Assembly
