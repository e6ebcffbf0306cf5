import Collocation.Proofs.Assembly.Building
import Collocation.Proofs.Row.Decoding
import Mathlib.Data.List.Forall2

/-!
# Levels of an assembly

An assembly of one level of matches is the one of all levels, cut off below the first. It fails just
if that one does. What is cut off of a forest is what stands on its lower levels.
-/

set_option autoImplicit false

namespace Collocation

/-! ## Pruning -/

/-- A tree without what is more than so many levels below its root. -/
def Tree.prune {α : Type} : Nat → Tree α → Tree α
  | 0, tree => .node tree.value []
  | levels + 1, tree => .node tree.value (List.map (prune levels) tree.children)

/-- A tree that is pruned twice keeps the smaller number of levels. -/
theorem Tree.prune_prune {α : Type} (levels other : Nat) (tree : Tree α) :
    (tree.prune other).prune levels = tree.prune (min levels other) := by
  induction levels generalizing other tree with
  | zero =>
    rw [Nat.zero_min]
    cases other <;> rfl
  | succ levels ih =>
    cases other with
    | zero => rfl
    | succ other =>
      have hChildren : List.map (prune levels) (List.map (prune other) tree.children) =
          List.map (prune (min levels other)) tree.children := by
        rw [List.map_map]
        exact List.map_congr_left fun child _ => ih other child
      rw [Nat.succ_min_succ, prune, prune, prune]
      exact congrArg (Tree.node tree.value) hChildren

/-- No node of a forest lies above the level at which this begins. -/
theorem Forest.le_of_mem_levels {α : Type} {level : Nat} {trees : Forest α} {entry : Nat × α}
    (h : entry ∈ Forest.levels level trees) : level ≤ entry.1 := by
  induction trees using Forest.induction generalizing level with
  | nil => cases h
  | cons value children trees below beside =>
    rw [Forest.levels, Tree.levels, List.cons_append, List.mem_cons, List.mem_append] at h
    rcases h with rfl | h | h
    · exact Nat.le_refl level
    · exact Nat.le_of_succ_le (below h)
    · exact beside h

/-- What is pruned is as much as there is on lower levels. -/
theorem Forest.size_prune_add {α : Type} (levels above : Nat) (trees : Forest α) :
    Forest.size (List.map (Tree.prune levels) trees) +
      (Forest.levels above trees).countP (fun entry => above + levels < entry.1) =
        Forest.size trees := by
  induction trees using Forest.induction generalizing levels above with
  | nil => rfl
  | cons value children trees below beside =>
    have hTrees := beside levels above
    have hSelf : ¬ above + levels < above := by omega
    simp only [List.map_cons, Forest.size, Tree.size, Forest.levels, Tree.levels,
      List.cons_append, List.countP_cons, List.countP_append, hSelf, decide_false,
      Bool.false_eq_true, if_false]
    cases levels with
    | zero =>
      -- Nothing is left below the root, and all that was there is on a lower level.
      have hChildren : (Forest.levels (above + 1) children).countP
          (fun entry => above + 0 < entry.1) = Forest.size children := by
        rw [← Forest.length_levels (above + 1) children, List.countP_eq_length]
        intro entry hEntry
        exact decide_eq_true (Forest.le_of_mem_levels hEntry)
      have hPruned : (Tree.prune 0 (.node value children)).size = 1 := rfl
      omega
    | succ levels =>
      have hChildren := below levels (above + 1)
      rw [Nat.add_right_comm, Nat.add_assoc] at hChildren
      have hPruned : (Tree.prune (levels + 1) (.node value children)).size =
          Forest.size (List.map (Tree.prune levels) children) + 1 := rfl
      omega

namespace Assembly

/-- To prune what grew to some levels is to let it grow to the smaller number of levels. -/
theorem prune_grow (links : List (Place × Nat × DataRow)) (levels other : Nat) (place : Place)
    (row : DataRow) :
    (grow links other place row).prune levels = grow links (min levels other) place row := by
  induction levels generalizing other place row with
  | zero =>
    rw [Nat.zero_min]
    cases other <;> rfl
  | succ levels ih =>
    cases other with
    | zero => rfl
    | succ other =>
      rw [Nat.succ_min_succ, grow, grow, Tree.prune, Tree.children, List.map_map]
      exact congrArg (Tree.node _) (List.map_congr_left fun entry _ => ih other _ _)

/-! ## One level -/

/-- With one level of matches there are the points of all levels, pruned. -/
theorem points_single (rows : Rows) :
    (ofDataRows .single rows).points = List.map (Tree.prune 1) (ofDataRows .full rows).points := by
  simp only [ofDataRows, levels, List.map_map, Function.comp_def, prune_grow]
  -- Without nested rows there is no level below the top, so that both have fewer than one.
  cases hNested : rows.nested with
  | nil =>
    have hLinks : rows.links = [] := by
      rw [Rows.links, Rows.numbered, hNested]
      rfl
    simp only [hLinks]
    rfl
  | cons row nested =>
    have hMin : min 1 (row :: nested).length = 1 := Nat.min_eq_left (Nat.le_add_left _ _)
    rw [hMin]

/-- Rows are assembled just if each can be decoded. -/
theorem ofRows_eq_ok_iff {depth : NestingDepth} {tops nested : List Row} {assembly : Assembly} :
    ofRows depth tops nested = .ok assembly ↔
      ∃ rows : Rows, tops.mapM DataRow.ofRow = .ok rows.tops ∧
        nested.mapM DataRow.ofRow = .ok rows.nested ∧ assembly = ofDataRows depth rows := by
  simp only [ofRows_eq, bind_eq_ok_iff]
  constructor
  · rintro ⟨topRows, hTops, nestedRows, hNested, hAssembly⟩
    cases hAssembly
    exact ⟨⟨topRows, nestedRows⟩, hTops, hNested, rfl⟩
  · rintro ⟨rows, hTops, hNested, rfl⟩
    exact ⟨rows.tops, hTops, rows.nested, hNested, rfl⟩

/-- Rows that can be decoded are assembled. -/
theorem ofRows_of_forall₂ (depth : NestingDepth) {tops nested : List Row} {rows : Rows}
    (hTops : List.Forall₂ (fun row data => DataRow.ofRow row = .ok data) tops rows.tops)
    (hNested : List.Forall₂ (fun row data => DataRow.ofRow row = .ok data) nested rows.nested) :
    ofRows depth tops nested = .ok (ofDataRows depth rows) :=
  ofRows_eq_ok_iff.2 ⟨rows, mapM_eq_ok_of_forall₂ hTops, mapM_eq_ok_of_forall₂ hNested, rfl⟩

/-- Rows are not assembled because of one of them. -/
theorem exists_of_ofRows_eq_error {depth : NestingDepth} {tops nested : List Row}
    {failure : Failure} (h : ofRows depth tops nested = .error failure) :
    ∃ row ∈ tops ++ nested, DataRow.ofRow row = .error failure := by
  simp only [ofRows_eq, bind_eq_error_iff] at h
  rcases h with hTops | ⟨topRows, -, hNested | ⟨nestedRows, -, ⟨⟩⟩⟩
  · obtain ⟨row, hMem, hRow⟩ := exists_of_mapM_eq_error hTops
    exact ⟨row, List.mem_append_left _ hMem, hRow⟩
  · obtain ⟨row, hMem, hRow⟩ := exists_of_mapM_eq_error hNested
    exact ⟨row, List.mem_append_right _ hMem, hRow⟩

/-- A row that cannot be decoded makes the assembly fail, because of it or of another such row. -/
theorem ofRows_eq_undecodable (depth : NestingDepth) {tops nested : List Row} {row : Row}
    (hMem : row ∈ tops ++ nested) (hNot : ∀ data, DataRow.ofRow row ≠ .ok data) :
    ∃ other ∈ tops ++ nested, ∃ fault,
      ofRows depth tops nested = .error (other.undecodable fault) := by
  cases hRows : ofRows depth tops nested with
  | ok assembly =>
    obtain ⟨rows, hTops, hNested, -⟩ := ofRows_eq_ok_iff.1 hRows
    obtain ⟨data, hData⟩ : ∃ data, DataRow.ofRow row = .ok data := by
      rcases List.mem_append.1 hMem with hMem | hMem
      · exact exists_ok_of_mapM hTops hMem
      · exact exists_ok_of_mapM hNested hMem
    exact absurd hData (hNot data)
  | error failure =>
    obtain ⟨other, hOther, hFailure⟩ := exists_of_ofRows_eq_error hRows
    obtain ⟨fault, rfl⟩ := DataRow.blames_ofRow hFailure
    exact ⟨other, hOther, fault, rfl⟩

/-- The rows that are not among the points were dropped. -/
theorem dropped_of_ofRows {depth : NestingDepth} {tops nested : List Row} {assembly : Assembly}
    (h : ofRows depth tops nested = .ok assembly) :
    assembly.dropped = tops.length + nested.length - Forest.size assembly.points := by
  obtain ⟨rows, hTops, hNested, rfl⟩ := ofRows_eq_ok_iff.1 h
  rw [(forall₂_of_mapM_eq_ok hTops).length_eq, (forall₂_of_mapM_eq_ok hNested).length_eq]
  rfl

/-- With nesting of a single level the points are those of full nesting, pruned to one level below
the top. -/
theorem ofRows_single {tops nested : List Row} {full : Assembly}
    (h : ofRows .full tops nested = .ok full) :
    ofRows .single tops nested =
      .ok
        { points := List.map (Tree.prune 1) full.points
          dropped := tops.length + nested.length -
            Forest.size (List.map (Tree.prune 1) full.points) } := by
  obtain ⟨rows, hTops, hNested, rfl⟩ := ofRows_eq_ok_iff.1 h
  refine ofRows_eq_ok_iff.2 ⟨rows, hTops, hNested, ?_⟩
  rw [← points_single, (forall₂_of_mapM_eq_ok hTops).length_eq,
    (forall₂_of_mapM_eq_ok hNested).length_eq]
  rfl

/-- Which rows can be decoded does not depend on the depth. -/
theorem ofRows_error_congr {depth : NestingDepth} (other : NestingDepth) {tops nested : List Row}
    {failure : Failure} (h : ofRows depth tops nested = .error failure) :
    ofRows other tops nested = .error failure := by
  simp only [ofRows_eq, bind_eq_error_iff] at h ⊢
  rcases h with hTops | ⟨topRows, hTops, hNested | ⟨_, -, ⟨⟩⟩⟩
  · exact .inl hTops
  · exact .inr ⟨topRows, hTops, .inl hNested⟩

end Assembly

end Collocation
