/-!
# Trees and forests

A tree is a value with an ordered list of trees below it, and a forest is an ordered list of trees.
-/

set_option autoImplicit false

namespace Collocation

/-- A value with any number of trees below it, in an order. -/
inductive Tree (α : Type) where
  | node (value : α) (children : List (Tree α))

/-- Trees side by side. -/
abbrev Forest (α : Type) := List (Tree α)

variable {α β : Type}

namespace Tree

def value : Tree α → α
  | node value _ => value

def children : Tree α → Forest α
  | node _ children => children

end Tree

mutual

/-- The number of values in a tree. -/
def Tree.size : Tree α → Nat
  | .node _ children => Forest.size children + 1

/-- The number of values in a forest. -/
def Forest.size : Forest α → Nat
  | [] => 0
  | tree :: trees => tree.size + Forest.size trees

end

namespace Forest

/-- Two forests side by side have as many nodes as both together. -/
@[simp] theorem size_append (trees others : Forest α) :
    size (trees ++ others) = size trees + size others := by
  induction trees with
  | nil => simp [size]
  | cons tree trees ih => simp [size, ih, Nat.add_assoc]

/-- A forest in reverse has as many nodes. -/
@[simp] theorem size_reverse (trees : Forest α) : size trees.reverse = size trees := by
  induction trees with
  | nil => rfl
  | cons tree trees ih => simp [size, ih, Nat.add_comm]

/-- Counts the values of the trees on a stack, from the top down. The trees below a value take the
place of its tree one after the other, so that the last of them is on top. -/
def countFrom (counted : Nat) : Forest α → Nat
  | [] => counted
  | tree :: stack => countFrom (counted + 1) (tree.children.reverse ++ stack)
termination_by stack => size stack
decreasing_by
  cases tree
  simp [size, Tree.size, Tree.children]

end Forest

/-- The number of values in a tree, as a walk with a stack counts them. -/
def Tree.count (tree : Tree α) : Nat :=
  Forest.countFrom 0 [tree]

mutual

/-- A tree whose values are changed one by one. If one has no image the tree has none. -/
def Tree.traverse (f : α → Option β) : Tree α → Option (Tree β)
  | .node value children => do
    let value ← f value
    let children ← Forest.traverse f children
    return .node value children

def Forest.traverse (f : α → Option β) : Forest α → Option (Forest β)
  | [] => some []
  | tree :: trees => do
    let tree ← tree.traverse f
    let trees ← Forest.traverse f trees
    return tree :: trees

end

mutual

/-- The values of a tree in pre-order, each with its level. The level of the root is given. -/
def Tree.levels (level : Nat) : Tree α → List (Nat × α)
  | .node value children => (level, value) :: Forest.levels (level + 1) children

/-- The values of a forest in pre-order, each with its level. -/
def Forest.levels (level : Nat) : Forest α → List (Nat × α)
  | [] => []
  | tree :: trees => tree.levels level ++ Forest.levels level trees

end

mutual

/-- The levels of a tree are as many as its nodes. -/
theorem Tree.length_levels (level : Nat) : ∀ tree : Tree α, (tree.levels level).length = tree.size
  | .node _ children => by simp [Tree.levels, Tree.size, Forest.length_levels]

/-- The levels of a forest are as many as its nodes. -/
theorem Forest.length_levels (level : Nat) :
    ∀ trees : Forest α, (Forest.levels level trees).length = Forest.size trees
  | [] => rfl
  | tree :: trees => by
    simp [Forest.levels, Forest.size, Tree.length_levels level tree, Forest.length_levels]

end

end Collocation
