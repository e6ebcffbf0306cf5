import Collocation.Proofs.Forest.Values
import Collocation.Proofs.Keyed.Occurrences

/-!
# What is kept of a forest

Some values of a forest are taken in rounds, and others never are. Kept are the values that were
taken and above which every value was. They stay below the same value; side by side they are in the
order of the rounds, and within a round in the order in which they were. Values that were taken
below one that never was are left over.
-/

set_option autoImplicit false

namespace Collocation

variable {α β : Type}

/-! ## Definitions -/

mutual

/-- A tree with the number of each value in pre-order. -/
def Tree.numbered (next : Nat) : Tree α → Tree (α × Nat)
  | .node value children => .node (value, next) (Forest.numbered (next + 1) children)

/-- A forest with the number of each value in pre-order. -/
def Forest.numbered (next : Nat) : Forest α → Forest (α × Nat)
  | [] => []
  | tree :: trees => tree.numbered next :: Forest.numbered (next + tree.size) trees

end

mutual

/-- What is kept below the top of a tree, which is taken itself. -/
def Tree.kept (round? : α → Option Nat) (rounds : Nat) : Tree α → Tree α
  | .node value children =>
    .node value <| inRounds (fun tree => round? tree.value) rounds <|
      Forest.keptEach round? rounds children

/-- Trees side by side, of each of them what is kept below its top. -/
def Forest.keptEach (round? : α → Option Nat) (rounds : Nat) : Forest α → Forest α
  | [] => []
  | tree :: trees => tree.kept round? rounds :: Forest.keptEach round? rounds trees

end

/-- What is kept of a forest whose values are taken in rounds. -/
def Forest.kept (round? : α → Option Nat) (rounds : Nat) (trees : Forest α) : Forest α :=
  inRounds (fun tree => round? tree.value) rounds (Forest.keptEach round? rounds trees)

mutual

/-- The values of a tree in pre-order, each behind those above it. -/
def Tree.lines (above : List α) : Tree α → List (List α × α)
  | .node value children => (above, value) :: Forest.lines (value :: above) children

/-- The values of a forest in pre-order, each behind those above it. -/
def Forest.lines (above : List α) : Forest α → List (List α × α)
  | [] => []
  | tree :: trees => tree.lines above ++ Forest.lines above trees

end

/-- How many values of a forest were taken, though some value above them never was. -/
def Forest.leftOver (round? : α → Option Nat) (trees : Forest α) : Nat :=
  (Forest.lines [] trees).countP fun line =>
    (round? line.2).isSome && line.1.any fun value => (round? value).isNone

/-! ## Numbers -/

namespace Forest

/-- The numbered values of a forest are its values, numbered in their order. -/
theorem values_numbered (next : Nat) (trees : Forest α) :
    Forest.values (numbered next trees) = (Forest.values trees).zipIdx next := by
  induction trees using Forest.induction generalizing next with
  | nil => rfl
  | cons value children trees below beside =>
    simp only [numbered, Tree.numbered, values, Tree.values, below, beside, List.cons_append,
      List.zipIdx_cons, List.zipIdx_append, length_values, Tree.size]
    congr 3
    omega

/-- Without the numbers the forest is as it was. -/
theorem map_fst_numbered (next : Nat) (trees : Forest α) :
    Forest.map (·.1) (numbered next trees) = trees := by
  induction trees using Forest.induction generalizing next with
  | nil => rfl
  | cons value children trees below beside =>
    simp only [numbered, Tree.numbered, Forest.map, Tree.map, below, beside]

/-- To map values and to number them may change places. -/
theorem numbered_map (f : α → β) (next : Nat) (trees : Forest α) :
    numbered next (Forest.map f trees) =
      Forest.map (fun value => (f value.1, value.2)) (numbered next trees) := by
  induction trees using Forest.induction generalizing next with
  | nil => rfl
  | cons value children trees below beside =>
    have hSize : (Tree.node (f value) (Forest.map f children)).size =
        (Tree.node value children).size := by
      rw [Tree.size, Tree.size, size_map]
    simp only [numbered, Tree.numbered, Forest.map, Tree.map, below, beside, hSize]

end Forest

/-! ## Kept values -/

section Kept

variable {round? : α → Option Nat} {rounds : Nat}

/-- The value of a tree stays when others are taken away below it. -/
@[simp] theorem Tree.value_kept (tree : Tree α) : (tree.kept round? rounds).value = tree.value := by
  cases tree
  rfl

/-- The children that stay of a tree are what is kept of its children. -/
@[simp] theorem Tree.children_kept (tree : Tree α) :
    (tree.kept round? rounds).children = Forest.kept round? rounds tree.children := by
  cases tree
  rfl

namespace Forest

/-- Each of some trees is kept by itself. -/
theorem keptEach_eq_map (trees : Forest α) :
    keptEach round? rounds trees = List.map (Tree.kept round? rounds) trees := by
  induction trees with
  | nil => rfl
  | cons tree trees ih => rw [keptEach, ih, List.map_cons]

/-- Of the trees of a forest those are kept whose value was taken. -/
theorem kept_eq_map (trees : Forest α) :
    kept round? rounds trees =
      List.map (Tree.kept round? rounds)
        (inRounds (fun tree => round? tree.value) rounds trees) := by
  rw [kept, keptEach_eq_map, map_inRounds]
  simp only [Tree.value_kept]

/-- At the top those values are kept that have a round, in the order of the rounds. -/
theorem tops_kept (trees : Forest α) :
    Forest.tops (kept round? rounds trees) = inRounds round? rounds (Forest.tops trees) := by
  rw [kept_eq_map, tops, List.map_map, tops, map_inRounds]
  apply List.map_congr_left
  intro tree _
  rw [Function.comp_apply, Tree.value_kept]

/-- A subtree of what is kept is what is kept of a subtree. -/
theorem exists_of_mem_subtrees_kept {tree : Tree α} {trees : Forest α}
    (h : tree ∈ Forest.subtrees (kept round? rounds trees)) :
    ∃ whole ∈ Forest.subtrees trees, tree = whole.kept round? rounds := by
  have hSome : ∃ above ∈ trees, tree ∈ (above.kept round? rounds).subtrees := by
    obtain ⟨above, hAbove, hTree⟩ := mem_subtrees.1 h
    rw [kept_eq_map] at hAbove
    obtain ⟨whole, hWhole, rfl⟩ := List.mem_map.1 hAbove
    exact ⟨whole, (mem_inRounds.1 hWhole).1, hTree⟩
  clear h
  induction trees using Forest.induction with
  | nil =>
    obtain ⟨above, hAbove, -⟩ := hSome
    cases hAbove
  | cons value children trees below beside =>
    simp only [mem_subtrees_cons]
    obtain ⟨above, hAbove, hTree⟩ := hSome
    rcases List.mem_cons.1 hAbove with rfl | hAbove
    · rw [Tree.subtrees_eq, List.mem_cons, Tree.children_kept] at hTree
      rcases hTree with rfl | hTree
      · exact ⟨_, .inl rfl, rfl⟩
      · obtain ⟨above, hAbove, hTree⟩ := mem_subtrees.1 hTree
        rw [kept_eq_map] at hAbove
        obtain ⟨whole, hWhole, rfl⟩ := List.mem_map.1 hAbove
        obtain ⟨found, hFound, hEq⟩ := below ⟨whole, (mem_inRounds.1 hWhole).1, hTree⟩
        exact ⟨found, .inr (.inl hFound), hEq⟩
    · obtain ⟨found, hFound, hEq⟩ := beside ⟨above, hAbove, hTree⟩
      exact ⟨found, .inr (.inr hFound), hEq⟩

/-- The same is kept whether values are replaced before or after. -/
theorem kept_map (f : β → α) (trees : Forest β) :
    kept round? rounds (Forest.map f trees) =
      Forest.map f (kept (fun value => round? (f value)) rounds trees) := by
  have hRounds : ∀ others : Forest β,
      inRounds (fun tree => round? tree.value) rounds (Forest.map f others) =
        Forest.map f (inRounds (fun tree => round? (f tree.value)) rounds others) := by
    intro others
    rw [map_eq_map, map_inRounds, map_eq_map]
    simp only [Tree.value_map]
  have hEach : keptEach round? rounds (Forest.map f trees) =
      Forest.map f (keptEach (fun value => round? (f value)) rounds trees) := by
    induction trees using Forest.induction with
    | nil => rfl
    | cons value children trees below beside =>
      simp only [Forest.map, Tree.map, keptEach, Tree.kept, below, beside, hRounds]
  rw [kept, hEach, hRounds, kept]

/-- If all values are taken in the first round, all of the forest is kept as it is. -/
theorem kept_of_first (hRounds : 0 < rounds) {trees : Forest α}
    (h : ∀ value ∈ Forest.values trees, round? value = some 0) :
    kept round? rounds trees = trees := by
  have hTops : ∀ others : Forest α, (∀ value ∈ Forest.values others, round? value = some 0) →
      inRounds (fun tree => round? tree.value) rounds others = others := fun others hOthers =>
    inRounds_of_first hRounds fun tree hTree =>
      hOthers _ (mem_values_of_mem_tops (List.mem_map_of_mem hTree))
  have hEach : keptEach round? rounds trees = trees := by
    induction trees using Forest.induction with
    | nil => rfl
    | cons value children trees below beside =>
      simp only [mem_values_cons] at h
      have hChildren : ∀ x ∈ Forest.values children, round? x = some 0 :=
        fun x hx => h x (.inr (.inl hx))
      rw [keptEach, Tree.kept, below hChildren, hTops children hChildren,
        beside fun x hx => h x (.inr (.inr hx))]
  rw [kept, hEach, hTops trees h]

/-! ## How many are kept -/

/-- Whether a value was taken and all those above it were. -/
def keeps (round? : α → Option Nat) (line : List α × α) : Bool :=
  (round? line.2).isSome && line.1.all fun value => (round? value).isSome

/-- The lines of a forest end in its values. -/
theorem map_snd_lines (above : List α) (trees : Forest α) :
    (lines above trees).map (·.2) = Forest.values trees := by
  induction trees using Forest.induction generalizing above with
  | nil => rfl
  | cons value children trees below beside =>
    simp only [lines, Tree.lines, values, Tree.values, List.map_append, List.map_cons, below,
      beside]

/-- The lines of a forest that was mapped are its lines, mapped. -/
theorem lines_map (f : β → α) (above : List β) (trees : Forest β) :
    lines (above.map f) (Forest.map f trees) =
      (lines above trees).map fun line => (line.1.map f, f line.2) := by
  induction trees using Forest.induction generalizing above with
  | nil => rfl
  | cons value children trees below beside =>
    simp only [Forest.map, Tree.map, lines, Tree.lines, List.map_append, List.map_cons, beside,
      ← below]

/-- The same is left over whether values are replaced before or after. -/
theorem leftOver_map (f : β → α) (trees : Forest β) :
    leftOver round? (Forest.map f trees) = leftOver (fun value => round? (f value)) trees := by
  have hLines := lines_map f [] trees
  rw [List.map_nil] at hLines
  rw [leftOver, hLines, List.countP_map, leftOver]
  apply List.countP_congr
  intro line _
  simp only [Function.comp_apply, List.any_map]
  rfl

/-- What is above a value is in the forest too. -/
theorem mem_of_mem_lines {above : List α} {trees : Forest α} {line : List α × α}
    (h : line ∈ lines above trees) {value : α} (hValue : value ∈ line.1) :
    value ∈ above ∨ value ∈ Forest.values trees := by
  induction trees using Forest.induction generalizing above with
  | nil => cases h
  | cons first children trees below beside =>
    simp only [lines, Tree.lines, List.cons_append, List.mem_cons, List.mem_append] at h
    rw [mem_values_cons]
    rcases h with rfl | h | h
    · exact .inl hValue
    · rcases below h with hAbove | hBelow
      · exact (List.mem_cons.1 hAbove).elim (fun hEq => .inr (.inl hEq)) .inl
      · exact .inr (.inr (.inl hBelow))
    · rcases beside h with hAbove | hBeside
      · exact .inl hAbove
      · exact .inr (.inr (.inr hBeside))

/-- If all values were taken, none is left over. -/
theorem leftOver_of_all {trees : Forest α}
    (h : ∀ value ∈ Forest.values trees, (round? value).isSome) : leftOver round? trees = 0 := by
  rw [leftOver, List.countP_eq_zero]
  intro line hLine
  have hAbove : (line.1.any fun value => (round? value).isNone) = false := by
    apply List.any_eq_false.2
    intro value hValue
    have hMem := (mem_of_mem_lines hLine hValue).resolve_left List.not_mem_nil
    rw [Option.isNone_iff_eq_none, ← Ne, ← Option.isSome_iff_ne_none]
    exact h value hMem
  rw [hAbove, Bool.and_false]
  exact Bool.false_ne_true

/-- Below a value that was not taken nothing is kept. -/
theorem countP_keeps_of_not_all {above : List α}
    (h : (above.all fun value => (round? value).isSome) = false) (trees : Forest α) :
    (lines above trees).countP (keeps round?) = 0 := by
  induction trees using Forest.induction generalizing above with
  | nil => rfl
  | cons value children trees below beside =>
    have hBelow : ((value :: above).all fun value => (round? value).isSome) = false := by
      rw [List.all_cons, h, Bool.and_false]
    simp only [lines, Tree.lines, List.cons_append, List.countP_cons, List.countP_append,
      below hBelow, beside h, keeps, h, Bool.and_false, Bool.false_eq_true, if_false]

variable (hBound : ∀ value round, round? value = some round → round < rounds)
include hBound

/-- The size of what is kept of a forest, by its first tree. -/
theorem size_kept_cons (value : α) (children trees : Forest α) :
    Forest.size (kept round? rounds (.node value children :: trees)) =
      (if (round? value).isSome then Forest.size (kept round? rounds children) + 1 else 0) +
        Forest.size (kept round? rounds trees) := by
  have hFilter : ∀ others : Forest α, Forest.size (kept round? rounds others) =
      Forest.size (List.filter (fun tree => (round? tree.value).isSome)
        (keptEach round? rounds others)) := fun others =>
    size_perm (inRounds_perm fun tree _ => hBound tree.value)
  rw [hFilter (.node value children :: trees), keptEach, Tree.kept, List.filter_cons, Tree.value,
    hFilter trees]
  by_cases h : (round? value).isSome
  · rw [if_pos h, if_pos h, Forest.size, Tree.size]
    rfl
  · rw [if_neg h, if_neg h, Nat.zero_add]

/-- The values that are kept are those that were taken below such ones only. -/
theorem countP_keeps {above : List α}
    (h : (above.all fun value => (round? value).isSome) = true) (trees : Forest α) :
    (lines above trees).countP (keeps round?) = Forest.size (kept round? rounds trees) := by
  induction trees using Forest.induction generalizing above with
  | nil =>
    have hNone : kept round? rounds [] = [] := List.flatMap_eq_nil_iff.2 fun _ _ => rfl
    rw [hNone]
    rfl
  | cons value children trees below beside =>
    rw [size_kept_cons hBound, ← beside h]
    simp only [lines, Tree.lines, List.cons_append, List.countP_cons, List.countP_append]
    -- Below a value that was not taken nothing is kept, however it was taken itself.
    by_cases hValue : (round? value).isSome
    · have hBelow : ((value :: above).all fun value => (round? value).isSome) = true := by
        rw [List.all_cons, h, hValue, Bool.and_true]
      simp only [below hBelow, keeps, h, hValue, Bool.and_true, if_true]
      omega
    · have hBelow : ((value :: above).all fun value => (round? value).isSome) = false := by
        rw [List.all_cons, Bool.eq_false_iff.2 hValue, Bool.false_and]
      simp only [countP_keeps_of_not_all hBelow, keeps, hValue, Bool.false_and, Bool.false_eq_true,
        if_false]
      omega

/-- A value that was taken is kept or left over. -/
theorem leftOver_add_size_kept (trees : Forest α) :
    leftOver round? trees + Forest.size (kept round? rounds trees) =
      (Forest.values trees).countP fun value => (round? value).isSome := by
  have hKept : (lines [] trees).countP (keeps round?) = Forest.size (kept round? rounds trees) :=
    countP_keeps hBound rfl trees
  rw [← hKept, ← map_snd_lines [] trees, List.countP_map, leftOver]
  induction lines [] trees with
  | nil => rfl
  | cons line lines ih =>
    have hAny : (line.1.any fun value => (round? value).isNone) =
        !(line.1.all fun value => (round? value).isSome) := by
      rw [List.not_all_eq_any_not]
      simp only [Option.not_isSome]
    simp only [List.countP_cons, keeps, ← ih, hAny, Function.comp_apply]
    by_cases hTaken : (round? line.2).isSome
    · by_cases hAll : line.1.all fun value => (round? value).isSome
      · simp only [hTaken, hAll, Bool.not_true, Bool.and_false, Bool.and_true, Bool.false_eq_true,
          if_false, if_true]
        omega
      · simp only [hTaken, hAll, Bool.not_false, Bool.and_false, Bool.and_true, Bool.false_eq_true,
          if_false, if_true]
        omega
    · simp only [hTaken, Bool.false_and, Bool.false_eq_true, if_false]
      omega

end Forest

end Kept

end Collocation
