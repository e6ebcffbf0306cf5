import Collocation.Proofs.Assembly.Descent

/-!
# Trees that are built from below

The trees of a forest are built in the reverse of pre-order. When all of a forest is built, the
trees at its top wait under their positions, the last one first, and its rows are taken. So the
forest that is made with an arena is the one that grows by recursion.
-/

set_option autoImplicit false

namespace Collocation

namespace Arena

/-- The trees that wait under some positions, the last one first, are taken in the order of the
positions. -/
theorem takeTrees_of_entries {built : Ledger Nat EntryTree} {waiting : List (Nat × EntryTree)}
    {positions : List Nat} {trees : List EntryTree} (hLength : positions.length = trees.length)
    (h : built.entries = waiting ++ (positions.zip trees).reverse) :
    (takeTrees built positions).1 = trees ∧ (takeTrees built positions).2.entries = waiting := by
  induction positions generalizing built trees with
  | nil =>
    obtain rfl : trees = [] := List.length_eq_zero_iff.1 hLength.symm
    rw [List.zip_nil_left, List.reverse_nil, List.append_nil] at h
    exact ⟨rfl, h⟩
  | cons i positions ih =>
    obtain ⟨tree, trees, rfl⟩ := List.exists_cons_of_length_eq_add_one hLength.symm
    rw [List.zip_cons_cons, List.reverse_cons, ← List.append_assoc] at h
    have hTree : built.get? i = some tree := by
      rw [Ledger.get?_eq_some_iff, h]
      exact List.mem_append_right _ List.mem_cons_self
    have hErased : (built.erase i).entries = waiting ++ (positions.zip trees).reverse := by
      have hNodup := built.nodup
      rw [h, List.map_append, List.nodup_append] at hNodup
      have hOthers : ∀ entry ∈ waiting ++ (positions.zip trees).reverse, (entry.1 != i) = true :=
        fun entry hEntry => bne_iff_ne.2
          (hNodup.2.2 _ (List.mem_map_of_mem hEntry) i List.mem_cons_self)
      change built.entries.filter _ = _
      rw [h, List.filter_append, List.filter_eq_self.2 hOthers]
      simp
    obtain ⟨hTrees, hWaiting⟩ := ih (Nat.succ.inj hLength) hErased
    rw [takeTrees, hTree]
    exact ⟨congrArg (tree :: ·) hTrees, hWaiting⟩

/-- What comes of the rows of a forest when its trees were built. -/
structure Built (before after : Build) (positions : Forest Nat) (trees : List EntryTree) :
    Prop where
  /-- The trees at the top wait under their positions, the last one first. -/
  built : after.built.entries =
    before.built.entries ++ ((Forest.tops positions).zip trees).reverse
  nodes : ∀ i, i ∉ Forest.values positions → after.nodes[i]? = before.nodes[i]?
  /-- The rows of the forest were taken. -/
  taken : after.nodes.countP Option.isSome + Forest.size positions =
    before.nodes.countP Option.isSome

/-- Only positions of the forest are new among those under which trees wait. -/
theorem Built.mem_keys {before after : Build} {positions : Forest Nat} {trees : List EntryTree}
    (h : Built before after positions trees) {i : Nat} (hMem : i ∈ after.built.keys) :
    i ∈ before.built.keys ∨ i ∈ Forest.values positions := by
  rw [Ledger.keys, h.built, List.map_append, List.mem_append] at hMem
  refine hMem.imp_right fun hNew => ?_
  obtain ⟨entry, hEntry, rfl⟩ := List.mem_map.1 hNew
  exact Forest.mem_values_of_mem_tops (List.of_mem_zip (List.mem_reverse.1 hEntry)).1

/-- The tree of a position is built when those below it and beside it are. -/
theorem Built.add {kids : Array (List Nat)} {before beside below : Build} {i : Nat}
    {children others : Forest Nat} {childTrees otherTrees : List EntryTree}
    (hBeside : Built before beside others otherTrees)
    (hBelow : Built beside below children childTrees)
    (hLength : (Forest.tops children).length = childTrees.length)
    (hKids : kids.getD i [] = Forest.tops children)
    (hOther : i ∉ Forest.values others) (hChild : i ∉ Forest.values children)
    (hFresh : i ∉ before.built.keys) {node : Node} (hNode : before.nodes[i]? = some (some node)) :
    Built before (below.add kids i) (.node i children :: others)
      (.node node.entry childTrees :: otherTrees) := by
  have hHere : below.nodes[i]? = some (some node) := by
    rw [hBelow.nodes i hChild, hBeside.nodes i hOther, hNode]
  obtain ⟨hTaken, hRest⟩ := takeTrees_of_entries hLength hBelow.built
  have hNew : i ∉ (takeTrees below.built (Forest.tops children)).2.keys := by
    rw [Ledger.keys, hRest]
    exact fun hMem => (hBeside.mem_keys hMem).elim hFresh hOther
  obtain ⟨hLt, hGet⟩ := Array.getElem?_eq_some_iff.1 hHere
  have hAdd : below.add kids i =
      { nodes := below.nodes.setIfInBounds i none
        built := (takeTrees below.built (Forest.tops children)).2.upsert i
          (.node node.entry childTrees) } := by
    rw [Build.add, hHere, hKids, ← hTaken]
    rfl
  rw [hAdd]
  refine ⟨?_, ?_, ?_⟩
  · rw [Ledger.entries_upsert_of_not_mem hNew, hRest, hBeside.built, List.append_assoc]
    simp [Forest.tops, Tree.value]
  · intro j hj
    simp only [Forest.mem_values_cons, not_or] at hj
    rw [Array.getElem?_setIfInBounds, if_neg (Ne.symm hj.1), hBelow.nodes j hj.2.1,
      hBeside.nodes j hj.2.2]
  · have hCount := Array.countP_set (p := Option.isSome) (a := none) hLt
    have hPositive : 0 < below.nodes.countP Option.isSome :=
      Array.countP_pos_iff.2 ⟨_, Array.getElem_mem hLt, by rw [hGet]; rfl⟩
    have hChildren := hBelow.taken
    have hOthers := hBeside.taken
    rw [hGet] at hCount
    simp only [Array.setIfInBounds, hLt, dite_true, hCount, Option.isSome_some, if_true,
      Option.isSome_none, Bool.false_eq_true, if_false, Forest.size, Tree.size]
    omega

/-- The trees of a forest are built in the reverse of pre-order. -/
theorem built_foldr {kids : Array (List Nat)} {entryAt? : Nat → Option Entry}
    {positions : Forest Nat} {trees : List EntryTree}
    (hFollows : Forest.Follows (fun i => kids.getD i []) positions)
    (hOnce : (Forest.values positions).Nodup)
    (hTrees : Forest.traverse entryAt? positions = some trees) (before : Build)
    (hNodes : ∀ i ∈ Forest.values positions, ∃ node,
      before.nodes[i]? = some (some node) ∧ entryAt? i = some node.entry)
    (hFresh : ∀ i ∈ Forest.values positions, i ∉ before.built.keys) :
    Built before ((Forest.values positions).foldr (fun i build => build.add kids i) before)
      positions trees := by
  induction positions using Forest.induction generalizing before trees with
  | nil =>
    obtain rfl : [] = trees := Option.some.inj hTrees
    exact ⟨(List.append_nil _).symm, fun _ _ => rfl, rfl⟩
  | cons i children others below beside =>
    simp only [Forest.traverse, Tree.traverse, bind, Option.bind_eq_some_iff, pure,
      Option.some.injEq] at hTrees
    obtain ⟨_, ⟨entry, hEntry, childTrees, hChildTrees, rfl⟩, otherTrees, hOtherTrees, rfl⟩ :=
      hTrees
    have hValues : Forest.values (.node i children :: others) =
        i :: (Forest.values children ++ Forest.values others) := rfl
    rw [hValues] at hOnce hNodes hFresh ⊢
    obtain ⟨hRoot, hBelowOnce⟩ := List.nodup_cons.1 hOnce
    obtain ⟨hChildOnce, hOtherOnce, hDisjoint⟩ := List.nodup_append.1 hBelowOnce
    rw [List.mem_append, not_or] at hRoot
    simp only [List.mem_cons, List.mem_append] at hNodes hFresh
    have hKids : kids.getD i [] = Forest.tops children :=
      (hFollows _ (Forest.mem_subtrees_cons.2 (.inl rfl))).symm
    have hBeside := beside
      (fun tree hTree => hFollows tree (Forest.mem_subtrees_cons.2 (.inr (.inr hTree))))
      hOtherOnce hOtherTrees before (fun j hj => hNodes j (.inr (.inr hj)))
      fun j hj => hFresh j (.inr (.inr hj))
    rw [List.foldr_cons, List.foldr_append]
    generalize (Forest.values others).foldr (fun i build => build.add kids i) before = first
      at hBeside ⊢
    -- The rows below were not taken for the trees beside, and no tree waits for them.
    have hApart : ∀ j ∈ Forest.values children, j ∉ Forest.values others :=
      fun j hj hOther => hDisjoint j hj j hOther rfl
    have hBelow := below
      (fun tree hTree => hFollows tree (Forest.mem_subtrees_cons.2 (.inr (.inl hTree))))
      hChildOnce hChildTrees first
      (fun j hj => hBeside.nodes j (hApart j hj) ▸ hNodes j (.inr (.inl hj)))
      fun j hj hMem => (hBeside.mem_keys hMem).elim (hFresh j (.inr (.inl hj))) (hApart j hj)
    obtain ⟨node, hNode, hShown⟩ := hNodes i (.inl rfl)
    obtain rfl : entry = node.entry := Option.some.inj (hEntry.symm.trans hShown)
    have hLength : (Forest.tops children).length = childTrees.length := by
      rw [Forest.tops, List.length_map, Forest.length_of_traverse hChildTrees]
    exact hBeside.add hBelow hLength hKids hRoot.2 hRoot.1 (hFresh i (.inl rfl)) hNode

end Arena

namespace Assembly

/-- With an arena there comes the forest that grows by recursion. -/
theorem assemble_arena (depth : NestingDepth) (rows : Rows) :
    rows.arena.assemble depth = ofDataRows depth rows := by
  obtain ⟨-, hOrder, hFollows⟩ := rows.walk_arena depth
  have hNodes : ∀ i ∈ Forest.values (rows.shapeTo depth), ∃ node,
      rows.arena.nodes[i]? = some (some node) ∧ rows.entryAt? i = some node.entry := by
    intro i hi
    have hRow := List.getElem?_eq_getElem (rows.lt_of_mem_shapeTo hi)
    refine ⟨⟨_, _⟩, by rw [rows.getElem?_nodes_arena, hRow, Option.map_some], ?_⟩
    rw [Rows.entryAt?, hRow, Node.entry]
    by_cases hTop : i < rows.tops.length <;> simp [hTop, DataRow.bareEntry]
  have hBuilt := Arena.built_foldr hFollows (rows.nodup_values_shapeTo depth)
    (rows.traverse_shapeTo depth) { nodes := rows.arena.nodes, built := .empty } hNodes
    fun _ _ hMem => (List.not_mem_nil hMem).elim
  rw [← hOrder, List.foldr_reverse] at hBuilt
  have hTops : rows.arena.roots.items.toList = Forest.tops (rows.shapeTo depth) := by
    rw [rows.items_roots_arena, Rows.shapeTo, Forest.tops_unfold]
  have hLength : (Forest.tops (rows.shapeTo depth)).length =
      (ofDataRows depth rows).points.length := by
    rw [Forest.tops, List.length_map, Forest.length_of_traverse (rows.traverse_shapeTo depth)]
  have hPoints := (Arena.takeTrees_of_entries hLength hBuilt.built).1
  -- At first no row was taken.
  have hAll : rows.arena.nodes.countP Option.isSome = rows.tops.length + rows.nested.length := by
    rw [← Array.countP_toList, rows.nodes_arena]
    simp [List.countP_map, Function.comp_def]
  have hTaken := hBuilt.taken
  rw [hAll, ← rows.size_points depth] at hTaken
  rw [Arena.assemble, hTops]
  refine congrArg₂ Assembly.mk hPoints ?_
  exact Nat.eq_sub_of_add_eq hTaken

/-- What is made of rows as they are stored is what grows of the decoded ones. -/
theorem ofRows_eq (depth : NestingDepth) (tops nested : List Row) :
    ofRows depth tops nested = do
      let tops ← tops.mapM DataRow.ofRow
      let nested ← nested.mapM DataRow.ofRow
      return ofDataRows depth { tops, nested } := by
  rw [ofRows]
  simp only [← assemble_arena]
  rfl

end Assembly

end Collocation
