import Collocation.Entity.Branching
import Collocation.Proofs.Forest.Values
import Collocation.Proofs.Json.Restoring

/-!
# Trees that are read back

A tree is read back from its document if each of its values is read back from its own members,
whether the member of the trees below it follows or not. A reader of trees enters one level for each
level of the tree, and there are at least as many in the document.
-/

set_option autoImplicit false

namespace Collocation

open Json

variable {α : Type} {members : α → List (String × Json)} {names : List String}
  {fields : Record → Located α}

/-- The documents of trees are made one by one. -/
theorem Forest.toJsons_eq_map (members : α → List (String × Json)) (trees : Forest α) :
    Forest.toJsons members trees = List.map (Tree.toJson members) trees := by
  induction trees with
  | nil => rfl
  | cons tree trees ih => rw [Forest.toJsons, ih, List.map_cons]

/-- The member of the trees below a value, which is left out for none. -/
def Forest.member (members : α → List (String × Json)) : Forest α → List (String × Json)
  | [] => []
  | child :: children => [("matches", Forest.toJson members (child :: children))]

/-- The document of a tree has the members of its value and then that of its children. -/
theorem Tree.toJson_node (members : α → List (String × Json)) (value : α) (children : Forest α) :
    Tree.toJson members (.node value children) =
      .object (members value ++ Forest.member members children) := by
  cases children with
  | nil => rw [Tree.toJson, Forest.member, List.append_nil]
  | cons child children => rw [Tree.toJson, Forest.member, Forest.toJson, Forest.toJsons]

/-- The member of the children is called `matches`, if there is one. -/
theorem sublist_member (children : Forest α) :
    ((Forest.member members children).map (·.1)).Sublist ["matches"] := by
  cases children with
  | nil => exact List.nil_sublist _
  | cons child children => exact .refl _

/-- A value is read back from its members, which are fields in the order of the names before
`matches`, wherever they are shown. -/
structure ReadsFields (names : List String) (fields : Record → Located α)
    (members : α → List (String × Json)) (value : α) : Prop where
  names : ((members value).map (·.1) ++ ["matches"]).Sublist names
  fields : ∀ record : Record, (∀ name, name ≠ "matches" → record.Shows (members value) name) →
    fields record = .found value

namespace ReadsFields

variable {value : α} (h : ReadsFields names fields members value)
include h

/-- The members of a value and its children have names that are allowed. -/
theorem sublist_names (children : Forest α) :
    ((members value ++ Forest.member members children).map (·.1)).Sublist names := by
  rw [List.map_append]
  exact ((List.Sublist.refl _).append (sublist_member children)).trans h.names

/-- The children are found under `matches`, which no member of the value is called. -/
theorem findEntry_matches (hNodup : names.Nodup) (children : Forest α) :
    findEntry "matches" (members value ++ Forest.member members children) =
      findEntry "matches" (Forest.member members children) := by
  have hNone : findEntry "matches" (members value) = none := by
    refine findEntry_eq_none_iff.2 fun hMem => ?_
    have hApart := (List.nodup_append.1 (hNodup.sublist h.names)).2.2
    exact hApart _ hMem _ List.mem_cons_self rfl
  rw [findEntry_append, hNone, Option.none_or]

omit h in
/-- Everything else is found among the members of the value. -/
theorem findEntry_of_ne {name : String} (hName : name ≠ "matches") (children : Forest α) :
    findEntry name (members value ++ Forest.member members children) =
      findEntry name (members value) := by
  have hNone : findEntry name (Forest.member members children) = none :=
    findEntry_eq_none_iff.2 fun hMem =>
      hName (List.mem_singleton.1 ((sublist_member children).subset hMem))
  rw [findEntry_append, hNone, Option.or_none]

/-- A tree is read back in so many levels if the trees below it are read back in one level less. -/
theorem restores_node (hNodup : names.Nodup) {children : Forest α} {levels : Nat}
    (hBelow : Restores (readList (readTreeWithin names fields levels))
      (Forest.toJson members children) children) :
    Restores (readTreeWithin names fields (levels + 1))
      (Tree.toJson members (.node value children)) (.node value children) := by
  rw [Tree.toJson_node]
  refine restores_readRecord (h.sublist_names children) hNodup fun record hShows => ?_
  have hFields : fields record = .found value := h.fields record fun name hName => by
    have hShown := hShows name
    rwa [Record.Shows, findEntry_of_ne hName] at hShown
  have hMatches : record.defaulted "matches" (readList (readTreeWithin names fields levels)) [] =
      .found children := by
    have hField := h.findEntry_matches hNodup children
    cases children with
    | nil => exact (hShows "matches").defaulted_of_none hField []
    | cons child children => exact (hShows "matches").defaulted hField hBelow []
  rw [hFields, hMatches]
  rfl

end ReadsFields

/-- The document of a tree nests more deeply than those of the trees below it. -/
theorem depth_child_lt {value : α} {children : Forest α} {child : Tree α} (h : child ∈ children) :
    (Tree.toJson members child).toDraft.depth <
      (Tree.toJson members (.node value children)).toDraft.depth := by
  obtain ⟨first, others, rfl⟩ := List.exists_cons_of_ne_nil (List.ne_nil_of_mem h)
  have hItem : Tree.toJson members child ∈ Forest.toJsons members (first :: others) := by
    rw [Forest.toJsons_eq_map]
    exact List.mem_map_of_mem h
  have hMember : ("matches", Forest.toJson members (first :: others)) ∈
      members value ++ Forest.member members (first :: others) :=
    List.mem_append_right _ List.mem_cons_self
  rw [Tree.toJson_node]
  exact Nat.lt_trans (depth_item_lt hItem) (depth_member_lt hMember)

/-- The trees of a forest are read back, each in more levels than its document has. By induction on
the forest: a level is gone for the trees below a value, but two of the document are. -/
theorem restores_readTreeWithin (hNodup : names.Nodup) {trees : Forest α}
    (h : ∀ value ∈ Forest.values trees, ReadsFields names fields members value) :
    ∀ tree ∈ trees, ∀ levels, (Tree.toJson members tree).toDraft.depth < levels →
      Restores (readTreeWithin names fields levels) (Tree.toJson members tree) tree := by
  induction trees using Forest.induction with
  | nil => exact fun _ hMem => absurd hMem List.not_mem_nil
  | cons value children trees ihBelow ihBeside =>
    refine List.forall_mem_cons.2 ⟨fun levels hLevels => ?_, ihBeside fun other hOther =>
      h other (Forest.mem_values_cons.2 (.inr (.inr hOther)))⟩
    obtain ⟨levels, rfl⟩ := Nat.exists_eq_add_of_lt (Nat.zero_lt_of_lt hLevels)
    rw [Nat.zero_add] at hLevels ⊢
    refine (h value (Forest.mem_values_cons.2 (.inl rfl))).restores_node hNodup ?_
    have hChildren := ihBelow fun other hOther =>
      h other (Forest.mem_values_cons.2 (.inr (.inl hOther)))
    rw [Forest.toJson, Forest.toJsons_eq_map]
    refine restores_list fun child hChild => hChildren child hChild levels ?_
    exact Nat.lt_of_lt_of_le (depth_child_lt hChild) (Nat.le_of_lt_succ hLevels)

/-- A reader of trees has a level more than may be entered, so that none is missing for a document
that may be entered to its end. -/
theorem restores_readTree (hNodup : names.Nodup) {tree : Tree α}
    (h : ∀ value ∈ tree.values, ReadsFields names fields members value) :
    Restores (readTree names fields) (Tree.toJson members tree) tree := by
  intro setting document hDocument hDepth
  have hValues : ∀ value ∈ Forest.values [tree], ReadsFields names fields members value := by
    intro value hValue
    rw [Forest.values, Forest.values, List.append_nil] at hValue
    exact h value hValue
  exact restores_readTreeWithin hNodup hValues tree List.mem_cons_self _
    (Nat.lt_succ_of_le hDepth) hDocument hDepth

/-- A forest is read back from its document if the fields of its values are. -/
theorem restores_forest (hNodup : names.Nodup) {trees : Forest α}
    (h : ∀ value ∈ Forest.values trees, ReadsFields names fields members value) :
    Restores (readList (readTree names fields)) (Forest.toJson members trees) trees := by
  rw [Forest.toJson, Forest.toJsons_eq_map]
  exact restores_list fun tree hTree =>
    restores_readTree hNodup (Forest.forall_mem_values_iff.1 h tree hTree)

end Collocation
