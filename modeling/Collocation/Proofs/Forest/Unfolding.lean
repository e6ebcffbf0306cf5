import Collocation.Proofs.Forest.Values
import Mathlib.Data.List.Nodup
import Mathlib.Data.List.Perm.Subperm
import Mathlib.Logic.Relation

/-!
# Unfolding

A function that tells the kids of every value unfolds a value to the tree of what comes from it, cut
off below some level. Suppose that every value is a kid of one other at most and the roots of none.
Then a value has one level only, no value comes twice, and no path has more values than there are
kids at all: so cutting off below that many levels cuts nothing off, whatever cycles the kids have
elsewhere.
-/

set_option autoImplicit false

namespace Collocation

variable {α : Type}

/-- The tree of what comes from a value, with so many levels below it at most. -/
def Tree.unfold (kids : α → List α) : Nat → α → Tree α
  | 0, value => .node value []
  | levels + 1, value => .node value ((kids value).map (Tree.unfold kids levels))

/-- The trees of what comes from some values. -/
def Forest.unfold (kids : α → List α) (levels : Nat) (values : List α) : Forest α :=
  values.map (Tree.unfold kids levels)

/-- Below each of its values a forest has just the kids of the value, in their order. -/
def Forest.Follows (kids : α → List α) (trees : Forest α) : Prop :=
  ∀ tree ∈ Forest.subtrees trees, Forest.tops tree.children = kids tree.value

/-- A value comes from some roots, in so many steps. -/
inductive Level (kids : α → List α) (roots : List α) : Nat → α → Prop where
  | root {value : α} : value ∈ roots → Level kids roots 0 value
  | kid {level : Nat} {parent value : α} :
    Level kids roots level parent → value ∈ kids parent → Level kids roots (level + 1) value

/-- No value has two parents, and no root has one. -/
structure Lineage (kids : α → List α) (roots : List α) : Prop where
  single : ∀ {value parent other : α}, value ∈ kids parent → value ∈ kids other → parent = other
  orphan : ∀ {root parent : α}, root ∈ roots → root ∉ kids parent
  nodup_kids : ∀ value, (kids value).Nodup
  nodup_roots : roots.Nodup

/-- A tree that unfolds from a value has it at its root. -/
@[simp] theorem Tree.value_unfold (kids : α → List α) (levels : Nat) (value : α) :
    (Tree.unfold kids levels value).value = value := by
  cases levels <;> rfl

/-- A forest that unfolds from values has them at the top. -/
@[simp] theorem Forest.tops_unfold (kids : α → List α) (levels : Nat) (values : List α) :
    Forest.tops (Forest.unfold kids levels values) = values := by
  simp [Forest.tops, Forest.unfold, Function.comp_def]

/-! ## Levels -/

section Levels

variable {kids : α → List α} {roots : List α}

/-- What comes from the kids of some values comes from the values in one step more. -/
theorem Level.of_kids {values : List α} {level : Nat} {value : α}
    (h : Level kids (values.flatMap kids) level value) : Level kids values (level + 1) value := by
  induction h with
  | root hMem =>
    obtain ⟨parent, hParent, hKid⟩ := List.mem_flatMap.1 hMem
    exact .kid (.root hParent) hKid
  | kid _ hKid ih => exact .kid ih hKid

/-- What is some levels below the kids of some values is one level more below the values. -/
theorem level_flatMap_iff {values : List α} {level : Nat} {value : α} :
    Level kids (values.flatMap kids) level value ↔ Level kids values (level + 1) value := by
  refine ⟨Level.of_kids, fun h => ?_⟩
  induction level generalizing value with
  | zero =>
    obtain - | ⟨hParent, hKid⟩ := h
    obtain ⟨hMem⟩ := hParent
    exact .root (List.mem_flatMap.2 ⟨_, hMem, hKid⟩)
  | succ level ih =>
    obtain - | ⟨hParent, hKid⟩ := h
    exact .kid (ih hParent) hKid

/-- At level zero are the roots themselves. -/
theorem level_zero_iff {value : α} : Level kids roots 0 value ↔ value ∈ roots := by
  refine ⟨fun h => ?_, .root⟩
  obtain ⟨hMem⟩ := h
  exact hMem

/-- Levels below values that are on a level themselves add up. -/
theorem Level.trans {values : List α} {above level : Nat} {value : α}
    (hAbove : ∀ x ∈ values, Level kids roots above x) (h : Level kids values level value) :
    Level kids roots (above + level) value := by
  induction h with
  | root hMem => exact hAbove _ hMem
  | kid _ hKid ih => exact .kid ih hKid

/-- To come from a root is to lead back to it, from kid to parent. -/
theorem exists_level_iff {value : α} :
    (∃ level, Level kids roots level value) ↔
      ∃ root ∈ roots, Relation.ReflTransGen (fun x parent => x ∈ kids parent) value root := by
  constructor
  · rintro ⟨level, h⟩
    induction h with
    | root hMem => exact ⟨_, hMem, .refl⟩
    | kid _ hKid ih =>
      obtain ⟨root, hRoot, hReach⟩ := ih
      exact ⟨root, hRoot, .head hKid hReach⟩
  · rintro ⟨root, hRoot, hReach⟩
    induction hReach using Relation.ReflTransGen.head_induction_on with
    | refl => exact ⟨0, .root hRoot⟩
    | head hKid _ ih =>
      obtain ⟨level, h⟩ := ih
      exact ⟨level + 1, .kid h hKid⟩

namespace Lineage

variable (lineage : Lineage kids roots)
include lineage

/-- Nothing is at two levels, if no value has two parents and no root has one. -/
theorem level_unique {level other : Nat} {value : α} (h : Level kids roots level value)
    (hOther : Level kids roots other value) : level = other := by
  induction h generalizing other with
  | root hMem =>
    cases hOther with
    | root => rfl
    | kid _ hKid => exact absurd hKid (lineage.orphan hMem)
  | kid _ hKid ih =>
    cases hOther with
    | root hMem => exact absurd hKid (lineage.orphan hMem)
    | kid hParent hKid' =>
      obtain rfl := lineage.single hKid hKid'
      rw [ih hParent]

/-- The values on the way to a value, without the root. -/
theorem exists_path {members : List α} (hMembers : ∀ parent, kids parent ⊆ members) {level : Nat}
    {value : α} (h : Level kids roots level value) :
    ∃ path : List α, path.length = level ∧ path.Nodup ∧ path ⊆ members ∧
      ∀ x ∈ path, ∃ above ≤ level, Level kids roots above x := by
  induction h with
  | root => exact ⟨[], rfl, List.nodup_nil, List.nil_subset _, by simp⟩
  | @kid level parent value hParent hKid ih =>
    obtain ⟨path, hLength, hNodup, hSubset, hLevels⟩ := ih
    have hLevel : Level kids roots (level + 1) value := .kid hParent hKid
    have hNew : value ∉ path := by
      intro hMem
      obtain ⟨above, hLe, hAbove⟩ := hLevels value hMem
      have := lineage.level_unique hAbove hLevel
      omega
    refine ⟨value :: path, by rw [List.length_cons, hLength], List.nodup_cons.2 ⟨hNew, hNodup⟩,
      List.cons_subset.2 ⟨hMembers _ hKid, hSubset⟩, ?_⟩
    intro x hx
    rcases List.mem_cons.1 hx with rfl | hx
    · exact ⟨level + 1, Nat.le_refl _, hLevel⟩
    · obtain ⟨above, hLe, hAbove⟩ := hLevels x hx
      exact ⟨above, Nat.le_succ_of_le hLe, hAbove⟩

/-- No value is on a lower level than there are kids. -/
theorem level_le {members : List α} (hMembers : ∀ parent, kids parent ⊆ members) {level : Nat}
    {value : α} (h : Level kids roots level value) : level ≤ members.length := by
  obtain ⟨path, hLength, hNodup, hSubset, -⟩ := lineage.exists_path hMembers h
  rw [← hLength]
  exact (hNodup.subperm hSubset).length_le

end Lineage

end Levels

/-! ## Values of an unfolded forest -/

section Values

variable {kids : α → List α} {roots : List α}

/-- What unfolds to no levels has the values themselves. -/
theorem Forest.values_unfold_zero (kids : α → List α) (values : List α) :
    Forest.values (Forest.unfold kids 0 values) = values := by
  induction values with
  | nil => rfl
  | cons value values ih => exact congrArg (value :: ·) ih

/-- With one level more there are the values, and all that was there of their kids before. -/
theorem Forest.values_unfold_succ (kids : α → List α) (levels : Nat) (values : List α) :
    (Forest.values (Forest.unfold kids (levels + 1) values)).Perm
      (values ++ Forest.values (Forest.unfold kids levels (values.flatMap kids))) := by
  induction values with
  | nil => exact .refl _
  | cons value values ih =>
    simp only [Forest.unfold, List.map_cons, Forest.values, Tree.unfold, Tree.values,
      List.flatMap_cons, List.map_append, Forest.values_append, List.cons_append] at ih ⊢
    refine (List.Perm.append_left _ ih).trans ?_ |>.cons value
    rw [← List.append_assoc, ← List.append_assoc]
    exact List.perm_append_comm.append_right _

/-- In a forest that unfolds to some levels are the values of these levels. -/
theorem Forest.mem_values_unfold {levels : Nat} {values : List α} {value : α} :
    value ∈ Forest.values (Forest.unfold kids levels values) ↔
      ∃ level ≤ levels, Level kids values level value := by
  induction levels generalizing values with
  | zero =>
    simp [Forest.values_unfold_zero, level_zero_iff]
  | succ levels ih =>
    rw [(Forest.values_unfold_succ kids levels values).mem_iff, List.mem_append, ih]
    constructor
    · rintro (hMem | ⟨level, hLe, hLevel⟩)
      · exact ⟨0, Nat.zero_le _, .root hMem⟩
      · exact ⟨level + 1, Nat.succ_le_succ hLe, level_flatMap_iff.1 hLevel⟩
    · rintro ⟨level, hLe, hLevel⟩
      cases level with
      | zero => exact .inl (level_zero_iff.1 hLevel)
      | succ level =>
        exact .inr ⟨level, Nat.le_of_succ_le_succ hLe, level_flatMap_iff.2 hLevel⟩

/-- No value comes twice among what comes from values of one level. -/
theorem Lineage.nodup_values_unfold (lineage : Lineage kids roots) (levels : Nat) {above : Nat}
    {values : List α} (hNodup : values.Nodup) (hAbove : ∀ x ∈ values, Level kids roots above x) :
    (Forest.values (Forest.unfold kids levels values)).Nodup := by
  induction levels generalizing above values with
  | zero =>
    rwa [Forest.values_unfold_zero]
  | succ levels ih =>
    have hKids : (values.flatMap kids).Nodup := by
      refine List.nodup_flatMap.2 ⟨fun x _ => lineage.nodup_kids x, ?_⟩
      refine hNodup.imp fun {x y} hNe => ?_
      intro kid hx hy
      exact hNe (lineage.single hx hy)
    have hBelow : ∀ x ∈ values.flatMap kids, Level kids roots (above + 1) x := by
      intro x hx
      obtain ⟨parent, hParent, hKid⟩ := List.mem_flatMap.1 hx
      exact .kid (hAbove parent hParent) hKid
    rw [(Forest.values_unfold_succ kids levels values).nodup_iff]
    refine List.nodup_append.2 ⟨hNodup, ih hKids hBelow, ?_⟩
    rintro x hx y hy rfl
    obtain ⟨level, -, hLevel⟩ := Forest.mem_values_unfold.1 hy
    have := lineage.level_unique (hAbove x hx) (Level.trans hBelow hLevel)
    omega

/-- If no level is below the last one, nothing is cut off. -/
theorem Forest.follows_unfold {last : Nat}
    (hLast : ∀ level value, Level kids roots level value → level ≤ last) :
    Forest.Follows kids (Forest.unfold kids last roots) := by
  have key : ∀ (levels above : Nat) (value : α), Level kids roots above value →
      above + levels = last → ∀ tree ∈ (Tree.unfold kids levels value).subtrees,
        Forest.tops tree.children = kids tree.value := by
    intro levels
    induction levels with
    | zero =>
      intro above value hValue hSum tree hTree
      obtain rfl : tree = .node value [] := List.mem_singleton.1 hTree
      have hNone : kids value = [] := by
        apply List.eq_nil_iff_forall_not_mem.2
        intro kid hKid
        have := hLast _ _ (hValue.kid hKid)
        omega
      exact hNone.symm
    | succ levels ih =>
      intro above value hValue hSum tree hTree
      rcases List.mem_cons.1 hTree with rfl | hTree
      · exact Forest.tops_unfold kids levels (kids value)
      · obtain ⟨_, hMem, hTree⟩ := Forest.mem_subtrees.1 hTree
        obtain ⟨kid, hKid, rfl⟩ := List.mem_map.1 hMem
        exact ih (above + 1) kid (hValue.kid hKid) (by omega) tree hTree
  intro tree hTree
  obtain ⟨_, hMem, hTree⟩ := Forest.mem_subtrees.1 hTree
  obtain ⟨root, hRoot, rfl⟩ := List.mem_map.1 hMem
  exact key last 0 root (.root hRoot) (Nat.zero_add _) tree hTree

end Values

end Collocation
