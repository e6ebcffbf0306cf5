import Collocation.Tree
import Mathlib.Data.List.Forall2

/-!
# Values and subtrees

What a forest holds: its values in pre-order, its subtrees, and its images under functions on
values. All of it is proved by one induction, which takes the first tree of a forest apart into its
value, the forest below it and the forest beside it.
-/

set_option autoImplicit false

namespace Collocation

variable {α β γ : Type}

/-! ## Definitions -/

mutual

/-- A tree with its values replaced one by one. -/
def Tree.map (f : α → β) : Tree α → Tree β
  | .node value children => .node (f value) (Forest.map f children)

/-- A forest with its values replaced one by one. -/
def Forest.map (f : α → β) : Forest α → Forest β
  | [] => []
  | tree :: trees => tree.map f :: Forest.map f trees

end

mutual

/-- The values of a tree in pre-order. -/
def Tree.values : Tree α → List α
  | .node value children => value :: Forest.values children

/-- The values of a forest in pre-order. -/
def Forest.values : Forest α → List α
  | [] => []
  | tree :: trees => tree.values ++ Forest.values trees

end

mutual

/-- The tree itself and the trees below it, in pre-order. -/
def Tree.subtrees : Tree α → List (Tree α)
  | .node value children => .node value children :: Forest.subtrees children

/-- All trees in a forest, in pre-order. -/
def Forest.subtrees : Forest α → List (Tree α)
  | [] => []
  | tree :: trees => tree.subtrees ++ Forest.subtrees trees

end

/-- The values at the top of a forest. -/
def Forest.tops (trees : Forest α) : List α :=
  List.map Tree.value trees

/-! ## Induction -/

mutual

/-- What holds of the forest beside any tree with this forest below it. -/
theorem Tree.induction_below {motive : Forest α → Prop} (nil : motive [])
    (cons : ∀ value children trees, motive children → motive trees →
      motive (.node value children :: trees)) :
    ∀ tree : Tree α, motive tree.children
  | .node _ children => Forest.induction nil cons children

/-- Induction on a forest: what holds of the forest below the first tree, and of the forest beside
it, holds of the whole forest. -/
@[elab_as_elim]
theorem Forest.induction {motive : Forest α → Prop} (nil : motive [])
    (cons : ∀ value children trees, motive children → motive trees →
      motive (.node value children :: trees)) :
    ∀ trees : Forest α, motive trees
  | [] => nil
  | tree :: trees => by
    have hBelow := Tree.induction_below nil cons tree
    have hBeside := Forest.induction nil cons trees
    obtain ⟨value, children⟩ := tree
    exact cons value children trees hBelow hBeside

end

/-! ## Images -/

/-- The value of a tree that was mapped is the value mapped. -/
@[simp] theorem Tree.value_map (f : α → β) (tree : Tree α) : (tree.map f).value = f tree.value := by
  cases tree
  rfl

/-- The children of a tree that was mapped are its children mapped. -/
@[simp] theorem Tree.children_map (f : α → β) (tree : Tree α) :
    (tree.map f).children = Forest.map f tree.children := by
  cases tree
  rfl

/-- A forest is replaced tree by tree. -/
theorem Forest.map_eq_map (f : α → β) (trees : Forest α) :
    Forest.map f trees = List.map (Tree.map f) trees := by
  induction trees with
  | nil => rfl
  | cons tree trees ih => rw [Forest.map, ih, List.map_cons]

/-- Forests side by side are mapped one by one. -/
theorem Forest.map_append (f : α → β) (trees others : Forest α) :
    Forest.map f (trees ++ others) = Forest.map f trees ++ Forest.map f others := by
  simp only [Forest.map_eq_map, List.map_append]

/-- To map twice is to map by both. -/
theorem Forest.map_map (f : α → β) (g : β → γ) (trees : Forest α) :
    Forest.map g (Forest.map f trees) = Forest.map (fun value => g (f value)) trees := by
  induction trees using Forest.induction with
  | nil => rfl
  | cons value children trees below beside =>
    simp only [Forest.map, Tree.map, below, beside]

/-- To map each value to itself changes nothing. -/
theorem Forest.map_id (trees : Forest α) : Forest.map (fun value => value) trees = trees := by
  induction trees using Forest.induction with
  | nil => rfl
  | cons value children trees below beside => simp only [Forest.map, Tree.map, below, beside]

/-! ## Values -/

/-- The values of forests side by side are those of one and then of the other. -/
theorem Forest.values_append (trees others : Forest α) :
    Forest.values (trees ++ others) = Forest.values trees ++ Forest.values others := by
  induction trees with
  | nil => rfl
  | cons tree trees ih => rw [List.cons_append, Forest.values, ih, Forest.values, List.append_assoc]

/-- What holds of the values of all trees holds of the values of the forest. -/
theorem Forest.forall_mem_values_iff {P : α → Prop} {trees : Forest α} :
    (∀ value ∈ Forest.values trees, P value) ↔
      ∀ tree ∈ trees, ∀ value ∈ tree.values, P value := by
  induction trees with
  | nil => simp [Forest.values]
  | cons tree trees ih => rw [Forest.values, List.forall_mem_append, ih, List.forall_mem_cons]

/-- The values of a forest that was mapped are its values, mapped. -/
theorem Forest.values_map (f : α → β) (trees : Forest α) :
    Forest.values (Forest.map f trees) = (Forest.values trees).map f := by
  induction trees using Forest.induction with
  | nil => rfl
  | cons value children trees below beside =>
    simp only [Forest.map, Tree.map, Forest.values, Tree.values, below, beside, List.map_append,
      List.map_cons]

/-- The size of a forest is the number of its values. -/
theorem Forest.length_values (trees : Forest α) :
    (Forest.values trees).length = Forest.size trees := by
  induction trees using Forest.induction with
  | nil => rfl
  | cons value children trees below beside =>
    simp only [Forest.values, Tree.values, Forest.size, Tree.size, List.length_append,
      List.length_cons, below, beside]

/-- A forest that was mapped has its size. -/
@[simp] theorem Forest.size_map (f : α → β) (trees : Forest α) :
    Forest.size (Forest.map f trees) = Forest.size trees := by
  rw [← Forest.length_values, Forest.values_map, List.length_map, Forest.length_values]

/-- Trees in another order have the same size together. -/
theorem Forest.size_perm {trees others : Forest α} (h : trees.Perm others) :
    Forest.size trees = Forest.size others := by
  induction h with
  | nil => rfl
  | cons tree _ ih => rw [Forest.size, Forest.size, ih]
  | swap tree other trees =>
    simp only [Forest.size]
    omega
  | trans _ _ ih ih' => exact ih.trans ih'

/-- A value of a forest is the first one, or one below it, or one beside it. -/
theorem Forest.mem_values_cons {value first : α} {children trees : Forest α} :
    value ∈ Forest.values (.node first children :: trees) ↔
      value = first ∨ value ∈ Forest.values children ∨ value ∈ Forest.values trees := by
  rw [Forest.values, Tree.values, List.cons_append, List.mem_cons, List.mem_append]

/-- A value of a forest is one of its trees. -/
theorem Forest.mem_values {value : α} {trees : Forest α} :
    value ∈ Forest.values trees ↔ ∃ tree ∈ trees, value ∈ tree.values := by
  induction trees with
  | nil => simp [Forest.values]
  | cons tree trees ih => simp [Forest.values, ih]

/-- The values of a tree are that of its root and those below it. -/
theorem Tree.values_eq (tree : Tree α) :
    tree.values = tree.value :: Forest.values tree.children := by
  cases tree
  rfl

/-- The value at its root is one of a tree. -/
theorem Tree.value_mem_values (tree : Tree α) : tree.value ∈ tree.values := by
  rw [Tree.values_eq]
  exact List.mem_cons_self

/-- The values at the top of a forest that was mapped are those at its top, mapped. -/
@[simp] theorem Forest.tops_map (f : α → β) (trees : Forest α) :
    Forest.tops (Forest.map f trees) = (Forest.tops trees).map f := by
  simp [Forest.tops, Forest.map_eq_map, Function.comp_def]

/-- A value at the top is one of the forest. -/
theorem Forest.mem_values_of_mem_tops {value : α} {trees : Forest α}
    (h : value ∈ Forest.tops trees) : value ∈ Forest.values trees := by
  obtain ⟨tree, hTree, rfl⟩ := List.mem_map.1 h
  exact Forest.mem_values.2 ⟨tree, hTree, tree.value_mem_values⟩

/-- Values that have no level any more are in pre-order still. -/
theorem Forest.map_snd_levels (level : Nat) (trees : Forest α) :
    (Forest.levels level trees).map (·.2) = Forest.values trees := by
  induction trees using Forest.induction generalizing level with
  | nil => rfl
  | cons value children trees below beside =>
    simp only [Forest.levels, Tree.levels, Forest.values, Tree.values, List.map_append,
      List.map_cons, below, beside]

/-- The values of a forest are those at the top and those below. -/
theorem Forest.values_perm (trees : Forest α) :
    (Forest.values trees).Perm
      (Forest.tops trees ++ Forest.values (trees.flatMap Tree.children)) := by
  induction trees with
  | nil => exact .refl _
  | cons tree trees ih =>
    rw [Forest.values, Tree.values_eq, Forest.tops, List.map_cons, List.flatMap_cons,
      Forest.values_append, List.cons_append, List.cons_append]
    refine (List.Perm.append_left _ ih).trans ?_ |>.cons tree.value
    rw [← List.append_assoc, ← List.append_assoc]
    exact List.perm_append_comm.append_right _

/-! ## Subtrees -/

/-- A tree is one of its subtrees. -/
theorem Tree.mem_subtrees_self (tree : Tree α) : tree ∈ tree.subtrees := by
  cases tree
  exact List.mem_cons_self

/-- The subtrees of a tree are itself and those below it. -/
theorem Tree.subtrees_eq (tree : Tree α) :
    tree.subtrees = tree :: Forest.subtrees tree.children := by
  cases tree
  rfl

/-- A subtree of a forest is one of its trees. -/
theorem Forest.mem_subtrees {tree : Tree α} {trees : Forest α} :
    tree ∈ Forest.subtrees trees ↔ ∃ above ∈ trees, tree ∈ above.subtrees := by
  induction trees with
  | nil => simp [Forest.subtrees]
  | cons first trees ih => simp [Forest.subtrees, ih]

/-- A subtree of a forest is the first tree, or below that, or beside it. -/
theorem Forest.mem_subtrees_cons {tree : Tree α} {first : α} {children trees : Forest α} :
    tree ∈ Forest.subtrees (.node first children :: trees) ↔
      tree = .node first children ∨ tree ∈ Forest.subtrees children ∨
        tree ∈ Forest.subtrees trees := by
  rw [Forest.subtrees, Tree.subtrees, List.cons_append, List.mem_cons, List.mem_append]

/-- A tree of a forest is one of its subtrees. -/
theorem Forest.mem_subtrees_of_mem {tree : Tree α} {trees : Forest α} (h : tree ∈ trees) :
    tree ∈ Forest.subtrees trees :=
  Forest.mem_subtrees.2 ⟨tree, h, tree.mem_subtrees_self⟩

/-- What is below a tree of a forest is a subtree of the forest. -/
theorem Forest.mem_subtrees_of_below {tree below : Tree α} {trees : Forest α} (h : tree ∈ trees)
    (hBelow : below ∈ Forest.subtrees tree.children) : below ∈ Forest.subtrees trees := by
  refine Forest.mem_subtrees.2 ⟨tree, h, ?_⟩
  rw [Tree.subtrees_eq]
  exact List.mem_cons_of_mem _ hBelow

/-- The values of the subtrees are the values of the forest. -/
theorem Forest.map_value_subtrees (trees : Forest α) :
    (Forest.subtrees trees).map Tree.value = Forest.values trees := by
  induction trees using Forest.induction with
  | nil => rfl
  | cons value children trees below beside =>
    simp only [Forest.subtrees, Tree.subtrees, Forest.values, Tree.values, List.map_append,
      List.map_cons, below, beside, Tree.value]

/-- A value in a forest is at the top, or just below some other. -/
theorem Forest.mem_tops_or_children {value : α} {trees : Forest α}
    (h : value ∈ Forest.values trees) : value ∈ Forest.tops trees ∨
      ∃ tree ∈ Forest.subtrees trees, value ∈ Forest.tops tree.children := by
  induction trees using Forest.induction with
  | nil => cases h
  | cons first children trees below beside =>
    simp only [Forest.tops, List.map_cons, Tree.value, Forest.mem_subtrees_cons, List.mem_cons]
    rcases Forest.mem_values_cons.1 h with rfl | h | h
    · exact .inl (.inl rfl)
    · rcases below h with hTop | ⟨tree, hTree, hChild⟩
      · exact .inr ⟨.node first children, .inl rfl, hTop⟩
      · exact .inr ⟨tree, .inr (.inl hTree), hChild⟩
    · rcases beside h with hTop | ⟨tree, hTree, hChild⟩
      · exact .inl (.inr hTop)
      · exact .inr ⟨tree, .inr (.inr hTree), hChild⟩

/-- The subtrees of a forest that was mapped are its subtrees, mapped. -/
theorem Forest.subtrees_map (f : α → β) (trees : Forest α) :
    Forest.subtrees (Forest.map f trees) = List.map (Tree.map f) (Forest.subtrees trees) := by
  induction trees using Forest.induction with
  | nil => rfl
  | cons value children trees below beside =>
    simp only [Forest.map, Tree.map, Forest.subtrees, Tree.subtrees, below, beside,
      List.map_append, List.map_cons]

/-! ## Images that may not exist -/

/-- A forest all of whose values have images has the forest of the images. -/
theorem Forest.traverse_eq_some {f : α → Option β} {g : α → β} {trees : Forest α}
    (h : ∀ value ∈ Forest.values trees, f value = some (g value)) :
    Forest.traverse f trees = some (Forest.map g trees) := by
  induction trees using Forest.induction with
  | nil => rfl
  | cons value children trees below beside =>
    simp only [Forest.mem_values_cons] at h
    have hChildren := below fun x hx => h x (.inr (.inl hx))
    have hTrees := beside fun x hx => h x (.inr (.inr hx))
    simp only [Forest.traverse, Tree.traverse, h value (.inl rfl), hChildren, hTrees, Forest.map,
      Tree.map]
    rfl

/-- The images of the values of a forest are as many as the values. -/
theorem Forest.size_of_traverse {f : α → Option β} {trees : Forest α} {images : Forest β}
    (h : Forest.traverse f trees = some images) : Forest.size images = Forest.size trees := by
  induction trees using Forest.induction generalizing images with
  | nil =>
    obtain rfl := Option.some.inj h
    rfl
  | cons value children trees below beside =>
    simp only [Forest.traverse, Tree.traverse, bind, Option.bind_eq_some_iff, pure,
      Option.some.injEq] at h
    obtain ⟨_, ⟨image, -, below', hBelow, rfl⟩, beside', hBeside, rfl⟩ := h
    simp only [Forest.size, Tree.size, below hBelow, beside hBeside]

/-- Each tree of a forest has its image. -/
theorem Forest.length_of_traverse {f : α → Option β} {trees : Forest α} {images : Forest β}
    (h : Forest.traverse f trees = some images) : images.length = trees.length := by
  induction trees generalizing images with
  | nil =>
    obtain rfl := Option.some.inj h
    rfl
  | cons tree trees ih =>
    simp only [Forest.traverse, bind, Option.bind_eq_some_iff, pure, Option.some.injEq] at h
    obtain ⟨image, -, beside, hBeside, rfl⟩ := h
    rw [List.length_cons, List.length_cons, ih hBeside]

/-- The values of the image of a forest are the images of its values. -/
theorem Forest.map_values_of_traverse {f : α → Option β} {trees : Forest α} {images : Forest β}
    (h : Forest.traverse f trees = some images) :
    (Forest.values trees).map f = (Forest.values images).map some := by
  induction trees using Forest.induction generalizing images with
  | nil =>
    obtain rfl := Option.some.inj h
    rfl
  | cons value children trees below beside =>
    simp only [Forest.traverse, Tree.traverse, bind, Option.bind_eq_some_iff, pure,
      Option.some.injEq] at h
    obtain ⟨_, ⟨image, hValue, below', hBelow, rfl⟩, beside', hBeside, rfl⟩ := h
    simp only [Forest.values, Tree.values, List.map_append, List.map_cons, hValue, below hBelow,
      beside hBeside]

/-- If trees have images one by one, their forest has the forest of the images. -/
theorem Forest.traverse_of_forall₂ {f : α → Option β} {trees : Forest α} {images : Forest β}
    (h : List.Forall₂ (fun tree image => tree.traverse f = some image) trees images) :
    Forest.traverse f trees = some images := by
  induction h with
  | nil => rfl
  | cons hTree _ ih =>
    simp only [Forest.traverse, hTree, ih]
    rfl

/-- To traverse what was mapped is to traverse by way of the map. -/
theorem Forest.traverse_of_map (f : β → Option γ) (g : α → β) (trees : Forest α) :
    Forest.traverse f (Forest.map g trees) = Forest.traverse (fun value => f (g value)) trees := by
  induction trees using Forest.induction with
  | nil => rfl
  | cons value children trees below beside =>
    simp only [Forest.map, Tree.map, Forest.traverse, Tree.traverse, below, beside]

/-- Images that are changed further are the changed forest of the images. -/
theorem Forest.traverse_map (f : α → Option β) (g : β → γ) (trees : Forest α) :
    Forest.traverse (fun value => (f value).map g) trees =
      (Forest.traverse f trees).map (Forest.map g) := by
  induction trees using Forest.induction with
  | nil => rfl
  | cons value children trees below beside =>
    simp only [Forest.traverse, Tree.traverse, below, beside]
    cases f value <;> cases Forest.traverse f children <;> cases Forest.traverse f trees <;> rfl

/-- A traverse only depends on what is read at the values of the forest. -/
theorem Forest.traverse_congr {f g : α → Option β} {trees : Forest α}
    (h : ∀ value ∈ Forest.values trees, f value = g value) :
    Forest.traverse f trees = Forest.traverse g trees := by
  induction trees using Forest.induction with
  | nil => rfl
  | cons value children trees below beside =>
    simp only [Forest.mem_values_cons] at h
    have hChildren := below fun x hx => h x (.inr (.inl hx))
    have hTrees := beside fun x hx => h x (.inr (.inr hx))
    simp only [Forest.traverse, Tree.traverse, h value (.inl rfl), hChildren, hTrees]

/-- A forest is the image of another one if the values at the top are, and the values below a value
and below its image always are. -/
theorem Forest.traverse_eq_some_of_children {f : α → Option β} {trees : Forest α}
    {images : Forest β} (hTops : (Forest.tops trees).map f = (Forest.tops images).map some)
    (hChildren : ∀ tree ∈ Forest.subtrees trees, ∀ image ∈ Forest.subtrees images,
      f tree.value = some image.value →
        (Forest.tops tree.children).map f = (Forest.tops image.children).map some) :
    Forest.traverse f trees = some images := by
  induction trees using Forest.induction generalizing images with
  | nil =>
    obtain rfl : images = [] := by simpa [Forest.tops] using hTops
    rfl
  | cons value children trees below beside =>
    obtain - | ⟨⟨image, imageChildren⟩, images⟩ := images
    · simp [Forest.tops] at hTops
    · simp only [Forest.tops, List.map_cons, Tree.value, List.cons.injEq] at hTops
      obtain ⟨hValue, hTops⟩ := hTops
      simp only [Forest.mem_subtrees_cons] at hChildren
      have hBelow : Forest.traverse f children = some imageChildren :=
        below (hChildren _ (.inl rfl) _ (.inl rfl) hValue) fun tree hTree image hImage =>
          hChildren tree (.inr (.inl hTree)) image (.inr (.inl hImage))
      have hBeside : Forest.traverse f trees = some images :=
        beside hTops fun tree hTree image hImage =>
          hChildren tree (.inr (.inr hTree)) image (.inr (.inr hImage))
      simp only [Forest.traverse, Tree.traverse, hValue, hBelow, hBeside]
      rfl

end Collocation
