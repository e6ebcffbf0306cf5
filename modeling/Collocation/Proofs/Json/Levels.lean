import Collocation.Json.Reader

/-!
# Levels of values

Induction on a value by the values in it, and how deeply the draft of a value nests: more deeply
than that of any value in it.
-/

set_option autoImplicit false

namespace Collocation.Json

/-! ## Induction -/

mutual

/-- What holds of any value if it holds of arrays and objects whose values it holds of. -/
@[elab_as_elim]
theorem induction {motive : Json → Prop} (scalar : ∀ value, motive (.scalar value))
    (array : ∀ items, (∀ item ∈ items, motive item) → motive (.array items))
    (object : ∀ members, (∀ member ∈ members, motive member.2) → motive (.object members)) :
    ∀ value, motive value
  | .scalar value => scalar value
  | .array items => array items (induction_items scalar array object items)
  | .object members => object members (induction_members scalar array object members)

/-- The induction for the items of an array. -/
theorem induction_items {motive : Json → Prop} (scalar : ∀ value, motive (.scalar value))
    (array : ∀ items, (∀ item ∈ items, motive item) → motive (.array items))
    (object : ∀ members, (∀ member ∈ members, motive member.2) → motive (.object members)) :
    ∀ items : List Json, ∀ item ∈ items, motive item
  | [] => fun _ hMem => absurd hMem List.not_mem_nil
  | item :: items => List.forall_mem_cons.2
    ⟨induction scalar array object item, induction_items scalar array object items⟩

/-- The induction for the members of an object. -/
theorem induction_members {motive : Json → Prop} (scalar : ∀ value, motive (.scalar value))
    (array : ∀ items, (∀ item ∈ items, motive item) → motive (.array items))
    (object : ∀ members, (∀ member ∈ members, motive member.2) → motive (.object members)) :
    ∀ members : List (String × Json), ∀ member ∈ members, motive member.2
  | [] => fun _ hMem => absurd hMem List.not_mem_nil
  | (_, value) :: members => List.forall_mem_cons.2
    ⟨induction scalar array object value, induction_members scalar array object members⟩

end

/-! ## Drafts of values -/

/-- The drafts of items are made one by one. -/
theorem toDrafts_eq_map (items : List Json) : toDrafts items = items.map toDraft := by
  induction items with
  | nil => rfl
  | cons item items ih => rw [toDrafts, ih, List.map_cons]

/-- The drafts of members are made one by one, under their names. -/
theorem toMembers_eq_map (members : List (String × Json)) :
    toMembers members = members.map fun member => (some member.1, member.2.toDraft) := by
  induction members with
  | nil => rfl
  | cons member members ih => rw [toMembers, ih, List.map_cons]

/-- Drafts of members have the names of the members. -/
theorem map_fst_toMembers (members : List (String × Json)) :
    (toMembers members).map (·.1) = (members.map (·.1)).map some := by
  rw [toMembers_eq_map, List.map_map, List.map_map]
  rfl

/-! ## Levels -/

/-- Items are nested to some levels just if each of them is. -/
theorem depthItems_le_iff {items : List Draft} {levels : Nat} :
    Draft.depthItems items ≤ levels ↔ ∀ item ∈ items, item.depth ≤ levels := by
  induction items with
  | nil => simp [Draft.depthItems]
  | cons item items ih => rw [Draft.depthItems, Nat.max_le, ih, List.forall_mem_cons]

/-- Members are nested to some levels just if each of them is. -/
theorem depthMembers_le_iff {members : List (Option String × Draft)} {levels : Nat} :
    Draft.depthMembers members ≤ levels ↔ ∀ member ∈ members, member.2.depth ≤ levels := by
  induction members with
  | nil => simp [Draft.depthMembers]
  | cons member members ih => rw [Draft.depthMembers, Nat.max_le, ih, List.forall_mem_cons]

/-- An item is nested less deeply than its array. -/
theorem depth_item_lt {items : List Json} {item : Json} (h : item ∈ items) :
    item.toDraft.depth < (Json.array items).toDraft.depth := by
  rw [toDraft, Draft.depth, toDrafts_eq_map]
  exact Nat.lt_succ_of_le (depthItems_le_iff.1 (Nat.le_refl _) _ (List.mem_map_of_mem h))

/-- A member is nested less deeply than its object. -/
theorem depth_member_lt {members : List (String × Json)} {member : String × Json}
    (h : member ∈ members) : member.2.toDraft.depth < (Json.object members).toDraft.depth := by
  rw [toDraft, Draft.depth, toMembers_eq_map]
  exact Nat.lt_succ_of_le (depthMembers_le_iff.1 (Nat.le_refl _)
    (some member.1, member.2.toDraft) (List.mem_map.2 ⟨member, h, rfl⟩))

/-- To enter a value takes one level of those that are left. -/
theorem levels_of_enter {setting inside : Setting} (h : setting.enter = .ok inside) :
    setting.levels = inside.levels + 1 := by
  obtain ⟨origin, _ | levels⟩ := setting
  · cases h
  · cases h
    rfl

/-- A value can be entered if a level is left. -/
theorem enter_of_lt {setting : Setting} {levels : Nat} (h : levels + 1 ≤ setting.levels) :
    ∃ inside, setting.enter = .ok inside ∧ levels ≤ inside.levels := by
  obtain ⟨origin, _ | more⟩ := setting
  · cases h
  · exact ⟨⟨origin, more⟩, rfl, Nat.le_of_succ_le_succ h⟩

end Collocation.Json
