import Collocation.Proofs.Forest.Values
import Collocation.Proofs.Keyed.Occurrences

/-!
# Merging

A forest in which trees at the top with the same key became one: it stands where the first of them
was, has the value of the last, and has below it what was below any of them. Lower levels stay as
they are.
-/

set_option autoImplicit false

namespace Collocation

variable {α β κ : Type} [DecidableEq κ]

namespace Forest

/-! ## Merged trees -/

/-- The trees of a forest that have a key at the top. -/
def sharing (key : α → κ) (trees : Forest α) (k : κ) : Forest α :=
  trees.filter fun tree => key tree.value = k

/-- The trees of each key as one, in the order in which the keys first come. -/
def mergeBy (key : α → κ) (trees : Forest α) : Forest α :=
  ((Forest.tops trees).map key).eraseDups.filterMap fun k =>
    (sharing key trees k).getLast?.map fun last =>
      .node last.value ((sharing key trees k).flatMap Tree.children)

variable (key : α → κ)

/-- At the top of the trees that share a key are the values with this key. -/
theorem tops_sharing (trees : Forest α) (k : κ) :
    Forest.tops (sharing key trees k) = (Forest.tops trees).filter fun value => key value = k := by
  rw [sharing, Forest.tops, Forest.tops, List.filter_map]
  rfl

/-- At the top of a merged forest there is the last value of each key. -/
theorem tops_mergeBy (trees : Forest α) :
    Forest.tops (mergeBy key trees) = lastOfEach key (Forest.tops trees) := by
  rw [mergeBy, Forest.tops, List.map_filterMap, lastOfEach]
  apply List.filterMap_congr
  intro k _
  rw [← tops_sharing, Forest.tops, List.getLast?_map, Option.map_map]
  rfl

/-- Below a merged tree there is what was below any tree with its key. -/
theorem children_of_mem_mergeBy {trees : Forest α} {tree : Tree α} (h : tree ∈ mergeBy key trees) :
    tree.children = (sharing key trees (key tree.value)).flatMap Tree.children := by
  obtain ⟨k, -, hTree⟩ := List.mem_filterMap.1 h
  obtain ⟨last, hLast, rfl⟩ := Option.map_eq_some_iff.1 hTree
  have hKey : key last.value = k := by
    have hMem := List.mem_of_getLast? hLast
    exact of_decide_eq_true (List.mem_filter.1 hMem).2
  rw [← hKey]
  rfl

/-- Trees are merged in the same way whether their values are replaced before or after. -/
theorem mergeBy_map (f : β → α) (trees : Forest β) :
    mergeBy key (Forest.map f trees) =
      Forest.map f (mergeBy (fun value => key (f value)) trees) := by
  have hSharing : ∀ k, sharing key (Forest.map f trees) k =
      List.map (Tree.map f) (sharing (fun value => key (f value)) trees k) := by
    intro k
    rw [sharing, Forest.map_eq_map, List.filter_map, sharing]
    simp only [Function.comp_def, Tree.value_map]
  have hChildren : ∀ others : Forest β,
      (List.map (Tree.map f) others).flatMap Tree.children =
        List.map (Tree.map f) (others.flatMap Tree.children) := by
    intro others
    simp only [List.flatMap_map, Tree.children_map, Forest.map_eq_map, List.map_flatMap]
  rw [mergeBy, tops_map, List.map_map, mergeBy, Forest.map_eq_map f (List.filterMap _ _),
    List.map_filterMap]
  apply List.filterMap_congr
  intro k _
  rw [hSharing, hChildren, List.getLast?_map, Option.map_map, Option.map_map]
  apply Option.map_congr
  intro last _
  simp only [Function.comp_apply, Tree.map, Forest.map_eq_map, Tree.value_map]

/-- With no key twice at the top, nothing is merged. -/
theorem mergeBy_of_nodup {trees : Forest α} (h : ((Forest.tops trees).map key).Nodup) :
    mergeBy key trees = trees := by
  rw [mergeBy, eraseDups_of_nodup h, Forest.tops, List.map_map, List.filterMap_map]
  rw [Forest.tops, List.map_map] at h
  have hSelf : ∀ tree ∈ trees, ((sharing key trees (key tree.value)).getLast?.map fun last =>
      Tree.node last.value ((sharing key trees (key tree.value)).flatMap Tree.children)) =
        some tree := by
    intro tree hTree
    have hAlone : sharing key trees (key tree.value) = [tree] := filter_key_of_nodup h hTree
    rw [hAlone]
    obtain ⟨value, children⟩ := tree
    simp [Tree.value, Tree.children]
  exact (List.filterMap_congr hSelf).trans List.filterMap_some

/-! ## Sizes -/

omit [DecidableEq κ] in
/-- What is below the trees of a forest, and one for each tree. -/
theorem size_flatMap_children (trees : Forest α) :
    Forest.size (trees.flatMap Tree.children) + trees.length = Forest.size trees := by
  have hLength := (values_perm trees).length_eq
  rw [List.length_append, length_values, length_values, tops, List.length_map] at hLength
  omega

/-- Of the trees that share a key all but one are gone. -/
theorem size_mergeBy (trees : Forest α) :
    Forest.size (mergeBy key trees) + trees.length =
      Forest.size trees + ((Forest.tops trees).map key).eraseDups.length := by
  have hMerged : ∀ keys : List κ, (∀ k ∈ keys, sharing key trees k ≠ []) →
      Forest.size (keys.filterMap fun k => (sharing key trees k).getLast?.map fun last =>
        Tree.node last.value ((sharing key trees k).flatMap Tree.children)) =
      Forest.size ((keys.flatMap (sharing key trees)).flatMap Tree.children) + keys.length := by
    intro keys hKeys
    induction keys with
    | nil => rfl
    | cons k keys ih =>
      have hRest := ih fun k' hMem => hKeys k' (List.mem_cons_of_mem _ hMem)
      have hLast := List.getLast?_eq_some_getLast (hKeys k List.mem_cons_self)
      simp only [List.filterMap_cons, hLast, Option.map_some, Forest.size, Tree.size, hRest,
        List.flatMap_cons, List.flatMap_append, List.length_cons]
      simp only [← length_values, values_append, List.length_append]
      omega
  have hKeys : ∀ k ∈ ((Forest.tops trees).map key).eraseDups, sharing key trees k ≠ [] := by
    intro k hMem hNone
    obtain ⟨value, hValue, rfl⟩ := List.mem_map.1 (List.mem_eraseDups.1 hMem)
    obtain ⟨tree, hTree, rfl⟩ := List.mem_map.1 hValue
    have hShares : tree ∈ sharing key trees (key tree.value) :=
      List.mem_filter.2 ⟨hTree, decide_eq_true rfl⟩
    rw [hNone] at hShares
    cases hShares
  -- The trees in groups are all trees, so that nothing below them is lost.
  have hPerm :
      (((Forest.tops trees).map key).eraseDups.flatMap (sharing key trees)).Perm trees := by
    refine flatMap_filter_perm (fun tree : Tree α => key tree.value) (nodup_eraseDups _) ?_
    intro tree hTree
    rw [List.mem_eraseDups, Forest.tops, List.map_map]
    exact List.mem_map_of_mem hTree
  have hBelow := size_flatMap_children trees
  have hSame : Forest.size
      ((((Forest.tops trees).map key).eraseDups.flatMap (sharing key trees)).flatMap
        Tree.children) = Forest.size (trees.flatMap Tree.children) := by
    exact size_perm (hPerm.flatMap_right Tree.children)
  rw [mergeBy, hMerged _ hKeys, hSame]
  omega

end Forest

end Collocation
