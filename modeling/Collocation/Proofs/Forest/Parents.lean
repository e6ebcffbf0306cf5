import Collocation.Proofs.Forest.Values
import Mathlib.Data.List.Nodup

/-!
# Parents by name

A forest whose values have an id and tell the id of the value above them. With no id twice, the
values that name a parent are just those below it, in their order: so the list of all values tells
the forest.
-/

set_option autoImplicit false

namespace Collocation

namespace Forest

variable {α κ : Type} [DecidableEq κ] (id : α → κ) (parent : α → Option κ)

/-- The values at the top of a forest have the given parent, and all others the value above them. -/
structure Linked (above : Option κ) (trees : Forest α) : Prop where
  top : ∀ value ∈ Forest.tops trees, parent value = above
  below : ∀ tree ∈ Forest.subtrees trees, ∀ value ∈ Forest.tops tree.children,
    parent value = some (id tree.value)

/-- The ids in a forest. -/
def ids (trees : Forest α) : List κ :=
  (Forest.values trees).map id

/-- The values in a forest that have a parent. -/
def having (trees : Forest α) (above : Option κ) : List α :=
  (Forest.values trees).filter fun value => parent value = above

variable {id parent} {above : Option κ}

omit [DecidableEq κ] in
/-- The empty forest is linked. -/
theorem linked_nil : Linked id parent above [] :=
  ⟨fun _ h => (List.not_mem_nil h).elim, fun _ h => (List.not_mem_nil h).elim⟩

omit [DecidableEq κ] in
/-- A forest is linked if its first value names the one above it, what is below that names it in
turn, and the other trees are linked. -/
theorem linked_cons {value : α} {children trees : Forest α} :
    Linked id parent above (.node value children :: trees) ↔
      parent value = above ∧ Linked id parent (some (id value)) children ∧
        Linked id parent above trees := by
  constructor
  · rintro ⟨hTop, hBelow⟩
    simp only [tops, List.map_cons, Tree.value, List.mem_cons, forall_eq_or_imp] at hTop
    simp only [mem_subtrees_cons, or_imp, forall_and, forall_eq, Tree.children,
      Tree.value] at hBelow
    exact ⟨hTop.1, ⟨hBelow.1, hBelow.2.1⟩, ⟨hTop.2, hBelow.2.2⟩⟩
  · rintro ⟨hValue, hChildren, hTrees⟩
    refine ⟨?_, ?_⟩
    · simp only [tops, List.map_cons, Tree.value, List.mem_cons, forall_eq_or_imp]
      exact ⟨hValue, hTrees.top⟩
    · simp only [mem_subtrees_cons, or_imp, forall_and, forall_eq, Tree.children, Tree.value]
      exact ⟨hChildren.top, hChildren.below, hTrees.below⟩

omit [DecidableEq κ] in
/-- Two linked forests side by side are linked. -/
theorem Linked.append {trees others : Forest α} (h : Linked id parent above trees)
    (hOthers : Linked id parent above others) : Linked id parent above (trees ++ others) := by
  induction trees with
  | nil => exact hOthers
  | cons tree trees ih =>
    obtain ⟨value, children⟩ := tree
    obtain ⟨hValue, hChildren, hTrees⟩ := linked_cons.1 h
    exact linked_cons.2 ⟨hValue, hChildren, ih hTrees⟩

omit [DecidableEq κ] in
/-- A forest that was mapped is linked just if it is so by way of the map. -/
theorem linked_map_iff {β : Type} (f : β → α) {trees : Forest β} :
    Linked id parent above (Forest.map f trees) ↔
      Linked (fun value => id (f value)) (fun value => parent (f value)) above trees := by
  induction trees using Forest.induction generalizing above with
  | nil => exact iff_of_true linked_nil linked_nil
  | cons value children trees below beside =>
    rw [Forest.map, Tree.map, linked_cons, linked_cons, below, beside]

omit [DecidableEq κ] in
/-- A value has the parent of the forest, or one in the forest. -/
theorem Linked.parent_of_mem {trees : Forest α} (h : Linked id parent above trees) {value : α}
    (hMem : value ∈ Forest.values trees) :
    parent value = above ∨ ∃ k ∈ ids id trees, parent value = some k := by
  induction trees using Forest.induction generalizing above with
  | nil => cases hMem
  | cons first children trees below beside =>
    obtain ⟨hFirst, hChildren, hTrees⟩ := linked_cons.1 h
    simp only [values, Tree.values, List.cons_append, List.mem_cons, List.mem_append, ids,
      List.map_cons, List.map_append] at hMem below beside ⊢
    rcases hMem with rfl | hMem | hMem
    · exact .inl hFirst
    · rcases below hChildren hMem with hParent | ⟨k, hk, hParent⟩
      · exact .inr ⟨_, .inl rfl, hParent⟩
      · exact .inr ⟨k, .inr (.inl hk), hParent⟩
    · rcases beside hTrees hMem with hParent | ⟨k, hk, hParent⟩
      · exact .inl hParent
      · exact .inr ⟨k, .inr (.inr hk), hParent⟩

omit [DecidableEq κ] in
/-- In pre-order, a value has the parent of the forest, or one that comes before it. -/
theorem Linked.parent_of_getElem? {trees : Forest α} (h : Linked id parent above trees)
    {number : Nat} {value : α} (hValue : (Forest.values trees)[number]? = some value) :
    parent value = above ∨ ∃ earlier < number, ∃ other,
      (Forest.values trees)[earlier]? = some other ∧ parent value = some (id other) := by
  induction trees using Forest.induction generalizing above number with
  | nil => cases hValue
  | cons first children trees below beside =>
    obtain ⟨hFirst, hChildren, hTrees⟩ := linked_cons.1 h
    rw [values, Tree.values, List.cons_append] at hValue ⊢
    cases number with
    | zero =>
      obtain rfl := Option.some.inj hValue
      exact .inl hFirst
    | succ number =>
      rw [List.getElem?_cons_succ] at hValue
      by_cases hLt : number < (values children).length
      · -- The value is below the first one.
        rw [List.getElem?_append_left hLt] at hValue
        rcases below hChildren hValue with hParent | ⟨earlier, hEarlier, other, hOther, hParent⟩
        · exact .inr ⟨0, Nat.succ_pos _, first, rfl, hParent⟩
        · refine .inr ⟨earlier + 1, Nat.succ_lt_succ hEarlier, other, ?_, hParent⟩
          rw [List.getElem?_cons_succ, List.getElem?_append_left (Nat.lt_trans hEarlier hLt)]
          exact hOther
      · have hLe : (values children).length ≤ number := Nat.le_of_not_lt hLt
        rw [List.getElem?_append_right hLe] at hValue
        rcases beside hTrees hValue with hParent | ⟨earlier, hEarlier, other, hOther, hParent⟩
        · exact .inl hParent
        · refine .inr ⟨(values children).length + earlier + 1, by omega, other, ?_, hParent⟩
          rw [List.getElem?_cons_succ, List.getElem?_append_right (Nat.le_add_right _ _),
            Nat.add_sub_cancel_left]
          exact hOther

omit [DecidableEq κ] in
/-- The ids of a forest are that of its first value, those below it, and those beside it. -/
theorem ids_cons (value : α) (children trees : Forest α) :
    ids id (.node value children :: trees) = id value :: (ids id children ++ ids id trees) := by
  simp [ids, values, Tree.values]

omit [DecidableEq κ] in
/-- The id of a subtree's value is one of the forest. -/
theorem mem_ids {tree : Tree α} {trees : Forest α} (h : tree ∈ Forest.subtrees trees) :
    id tree.value ∈ ids id trees := by
  rw [ids, ← map_value_subtrees]
  exact List.mem_map_of_mem (List.mem_map_of_mem h)

/-- The values that have a parent, by the first tree of a forest. -/
theorem having_cons (value : α) (children trees : Forest α) (k : Option κ) :
    having parent (.node value children :: trees) k =
      (if parent value = k then [value] else []) ++
        (having parent children k ++ having parent trees k) := by
  by_cases h : parent value = k <;> simp [having, values, Tree.values, h]

/-- Only the values at the top have a parent that is not in the forest. -/
theorem Linked.having_of_not_mem {trees : Forest α} (h : Linked id parent above trees) {k : κ}
    (hk : k ∉ ids id trees) :
    having parent trees (some k) = if above = some k then Forest.tops trees else [] := by
  induction trees using Forest.induction generalizing above with
  | nil => simp [having, values, tops]
  | cons value children trees below beside =>
    obtain ⟨hValue, hChildren, hTrees⟩ := linked_cons.1 h
    rw [ids_cons, List.mem_cons, List.mem_append, not_or, not_or] at hk
    have hNe : some (id value) ≠ some k := fun hEq => hk.1 (Option.some.inj hEq).symm
    rw [having_cons, below hChildren hk.2.1, beside hTrees hk.2.2, if_neg hNe, hValue]
    by_cases hAbove : above = some k <;> simp [hAbove, tops, Tree.value]

omit [DecidableEq κ] in
/-- The values without a parent are those at the top, and the ones with a parent those below. -/
theorem Linked.filter_parent {trees : Forest α} (h : Linked id parent none trees) :
    ((Forest.values trees).filter fun value => (parent value).isNone) = Forest.tops trees ∧
      ((Forest.values trees).filter fun value => (parent value).isSome) =
        Forest.values (trees.flatMap Tree.children) := by
  induction trees with
  | nil => exact ⟨rfl, rfl⟩
  | cons tree trees ih =>
    obtain ⟨value, children⟩ := tree
    obtain ⟨hValue, hChildren, hTrees⟩ := linked_cons.1 h
    have hSome : ∀ x ∈ Forest.values children, (parent x).isSome := by
      intro x hx
      rcases hChildren.parent_of_mem hx with hParent | ⟨k, -, hParent⟩ <;> rw [hParent] <;> rfl
    have hNone : ((Forest.values children).filter fun x => (parent x).isNone) = [] := by
      apply List.filter_eq_nil_iff.2
      intro x hx
      simpa [Option.isNone_iff_eq_none, Option.isSome_iff_ne_none] using hSome x hx
    have hBelow : ((Forest.values children).filter fun x => (parent x).isSome) =
        Forest.values children := List.filter_eq_self.2 hSome
    simp only [values, Tree.values, List.cons_append, List.filter_cons, hValue, Option.isNone_none,
      Option.isSome_none, List.filter_append, hNone, hBelow, (ih hTrees).1, (ih hTrees).2, if_true,
      List.nil_append, tops, List.map_cons, Tree.value, List.flatMap_cons, Tree.children,
      values_append]
    exact ⟨trivial, rfl⟩

/-- With no id twice, the values that have a parent in the forest are those below it. -/
theorem Linked.having_eq_tops {trees : Forest α} (h : Linked id parent above trees)
    (hNodup : (ids id trees).Nodup) (hAbove : ∀ k, above = some k → k ∉ ids id trees)
    {tree : Tree α} (hTree : tree ∈ Forest.subtrees trees) :
    having parent trees (some (id tree.value)) = Forest.tops tree.children := by
  induction trees using Forest.induction generalizing above with
  | nil => cases hTree
  | cons value children trees below beside =>
    obtain ⟨hValue, hChildren, hTrees⟩ := linked_cons.1 h
    have hOut : above ≠ some (id tree.value) := fun hEq => hAbove _ hEq (mem_ids hTree)
    simp only [ids_cons, List.nodup_cons, List.nodup_append, List.mem_cons, List.mem_append,
      not_or] at hNodup hAbove
    obtain ⟨⟨hNewBelow, hNewBeside⟩, hBelow, hBeside, hDisjoint⟩ := hNodup
    -- Ids are distinct, so of the value, what is below and what is beside only one part counts.
    rw [having_cons, hValue, if_neg hOut, List.nil_append]
    rcases mem_subtrees_cons.1 hTree with rfl | hTree | hTree
    · change above ≠ some (id value) at hOut
      rw [Tree.value, hChildren.having_of_not_mem hNewBelow, hTrees.having_of_not_mem hNewBeside,
        if_pos rfl, if_neg hOut, List.append_nil]
      rfl
    · have hNotBeside : id tree.value ∉ ids id trees := fun hMem =>
        hDisjoint _ (mem_ids hTree) _ hMem rfl
      have hParent : ∀ k, some (id value) = some k → k ∉ ids id children := fun k hEq =>
        Option.some.inj hEq ▸ hNewBelow
      rw [below hChildren hBelow hParent hTree, hTrees.having_of_not_mem hNotBeside, if_neg hOut,
        List.append_nil]
    · have hNotBelow : id tree.value ∉ ids id children := fun hMem =>
        hDisjoint _ hMem _ (mem_ids hTree) rfl
      have hNotValue : some (id value) ≠ some (id tree.value) := fun hEq =>
        hNewBeside (Option.some.inj hEq ▸ mem_ids hTree)
      rw [hChildren.having_of_not_mem hNotBelow, if_neg hNotValue, List.nil_append,
        beside hTrees hBeside (fun k hk => (hAbove k hk).2.2) hTree]

/-- With no id twice, the values whose parent is one of some ids at the top are those below them. -/
theorem Linked.filter_any_eq_flatMap {trees : Forest α} (h : Linked id parent none trees)
    (hNodup : (ids id trees).Nodup) {isOne : κ → Bool}
    (hTop : ∀ k ∈ ids id (trees.flatMap Tree.children), isOne k = false) :
    ((Forest.values trees).filter fun value => (parent value).any isOne) =
      (List.filter (fun tree => isOne (id tree.value)) trees).flatMap fun tree =>
        Forest.tops tree.children := by
  induction trees with
  | nil => rfl
  | cons tree trees ih =>
    obtain ⟨value, children⟩ := tree
    obtain ⟨hValue, hChildren, hTrees⟩ := linked_cons.1 h
    simp only [ids_cons, List.nodup_cons, List.nodup_append, List.mem_append, not_or] at hNodup
    obtain ⟨⟨hNew, -⟩, -, hBeside, -⟩ := hNodup
    simp only [ids, List.flatMap_cons, Tree.children, values_append, List.map_append,
      List.mem_append] at hTop ih
    have hBelow : ((Forest.values children).filter fun x => (parent x).any isOne) =
        if isOne (id value) then Forest.tops children else [] := by
      -- A value below has the parent `value`, or one that is not at the top.
      have hParent : ∀ x ∈ Forest.values children, (parent x).any isOne =
          (isOne (id value) && decide (parent x = some (id value))) := by
        intro x hx
        rcases hChildren.parent_of_mem hx with hOne | ⟨k, hk, hOther⟩
        · simp [hOne]
        · have hNe : k ≠ id value := fun hEq => hNew (hEq ▸ hk)
          simp [hOther, hTop k (.inl hk), hNe]
      rw [List.filter_congr hParent]
      have hTops := hChildren.having_of_not_mem hNew
      rw [if_pos rfl, having] at hTops
      by_cases hOne : isOne (id value) <;> simp [hOne, hTops]
    have hRest := ih hTrees hBeside fun k hk => hTop k (.inr hk)
    rw [values, Tree.values, List.cons_append, List.filter_cons, hValue, List.filter_append, hBelow,
      hRest, List.filter_cons]
    by_cases hOne : isOne (id value) <;> simp [hOne, Tree.value, Tree.children]

end Forest

end Collocation
