import Collocation.Keyed.SlotTable
import Collocation.Proofs.Keyed.Ledger

/-!
# What a slot table holds

A slot table is a ledger in two parts: its keys in the order of their slots, each with the item in
its slot. To put an item is to write it into this ledger, so that the table of many items is the
ledger of these items.
-/

set_option autoImplicit false

namespace Collocation

variable {κ α β : Type} [DecidableEq κ]

/-- To write the value of a key that is there is to set it where the key stands. -/
theorem upsertEntry_zip {keys : List κ} (hNodup : keys.Nodup) {key : κ} {slot : Nat}
    (hSlot : keys[slot]? = some key) (value : α) (values : List α)
    (hLength : keys.length = values.length) :
    upsertEntry key value (keys.zip values) = keys.zip (values.set slot value) := by
  induction keys generalizing slot values with
  | nil => cases hSlot
  | cons first keys ih =>
    obtain ⟨other, values, rfl⟩ :=
      List.exists_cons_of_length_eq_add_one hLength.symm
    rw [List.nodup_cons] at hNodup
    rw [List.zip_cons_cons, upsertEntry]
    cases slot with
    | zero =>
      obtain rfl : first = key := Option.some.inj hSlot
      rw [if_pos rfl]
      rfl
    | succ slot =>
      rw [List.getElem?_cons_succ] at hSlot
      have hOther : first ≠ key := fun hSame =>
        hNodup.1 (hSame ▸ List.mem_of_getElem? hSlot)
      rw [if_neg hOther, ih hNodup.2 hSlot values (Nat.succ.inj hLength)]
      rfl

namespace SlotTable

variable (table : SlotTable κ α)

omit [DecidableEq κ] in
/-- Each key has a slot, and each slot a key. -/
theorem length_keys : table.slots.keys.length = table.items.toList.length := by
  have hNumbered := congrArg List.length table.numbered
  rw [Ledger.values, List.length_map, List.length_range] at hNumbered
  rw [Ledger.length_keys, Ledger.size, hNumbered, Array.length_toList]

omit [DecidableEq κ] in
/-- The slots of the keys are the numbers in the order of the keys. -/
theorem entries_slots :
    table.slots.entries = table.slots.keys.zip (List.range table.items.size) :=
  List.zip_of_prod rfl table.numbered

variable {table}

/-- A key has just the slot where it stands among the keys. -/
theorem slot?_eq_some_iff {key : κ} {slot : Nat} :
    table.slot? key = some slot ↔ table.slots.keys[slot]? = some key := by
  rw [slot?, Ledger.get?_eq_some_iff, entries_slots, List.mem_iff_getElem?]
  simp only [List.getElem?_zip_eq_some]
  constructor
  · rintro ⟨i, hKey, hRange⟩
    obtain ⟨hLt, rfl⟩ := List.getElem?_eq_some_iff.1 hRange
    rwa [List.getElem_range]
  · intro hKey
    refine ⟨slot, hKey, List.getElem?_range ?_⟩
    rw [← Array.length_toList, ← table.length_keys]
    exact (List.getElem?_eq_some_iff.1 hKey).1

/-! ## The ledger of a table -/

variable (table) in
/-- The keys with the items in their slots. -/
def toLedger : Ledger κ α where
  entries := table.slots.keys.zip table.items.toList
  nodup := by
    rw [List.map_fst_zip (Nat.le_of_eq table.length_keys)]
    exact table.slots.nodup_keys

omit [DecidableEq κ] in
/-- The keys stand in the order of their slots. -/
theorem keys_toLedger : table.toLedger.keys = table.slots.keys :=
  List.map_fst_zip (Nat.le_of_eq table.length_keys)

omit [DecidableEq κ] in
/-- The values are the items in their order. -/
theorem values_toLedger : table.toLedger.values = table.items.toList :=
  List.map_snd_zip (Nat.le_of_eq table.length_keys.symm)

/-- The item in the slot of a key is its value. -/
theorem get?_toLedger (key : κ) : table.toLedger.get? key = table.get? key := by
  refine Option.ext fun item => ?_
  rw [Ledger.get?_eq_some_iff, get?, Option.bind_eq_some_iff, toLedger, List.mem_iff_getElem?]
  simp only [List.getElem?_zip_eq_some, slot?_eq_some_iff, Array.getElem?_toList]

/-- To put an item is to write it. -/
theorem toLedger_put (key : κ) (item : α) :
    (table.put key item).toLedger = table.toLedger.upsert key item := by
  apply Ledger.ext
  unfold put
  split
  · next slot hSlot =>
    have hKey := slot?_eq_some_iff.1 hSlot
    change table.slots.keys.zip (table.items.setIfInBounds slot item).toList =
      upsertEntry key item (table.slots.keys.zip table.items.toList)
    rw [upsertEntry_zip table.slots.nodup_keys hKey item _ table.length_keys,
      Array.toList_setIfInBounds]
  · next hNone =>
    have hNew : key ∉ table.slots.keys := Ledger.get?_eq_none_iff.1 hNone
    have hFresh : key ∉ (table.slots.keys.zip table.items.toList).map (·.1) := by
      rwa [List.map_fst_zip (Nat.le_of_eq table.length_keys)]
    change (table.slots.upsert key table.items.size).keys.zip (table.items.push item).toList =
      upsertEntry key item (table.slots.keys.zip table.items.toList)
    rw [upsertEntry_of_not_mem hFresh, Ledger.keys_upsert, if_neg hNew, Array.toList_push,
      List.zip_append table.length_keys]
    rfl

/-- Only an item under a new key takes another slot. -/
theorem size_put (key : κ) (item : α) :
    (table.put key item).items.size =
      match table.slot? key with
      | some _ => table.items.size
      | none => table.items.size + 1 := by
  unfold put slot?
  split
  · next hSlot => simp only [hSlot, Array.size_setIfInBounds]
  · next hNone => simp only [hNone, Array.size_push]

/-- A key that has a slot keeps it. -/
theorem slot?_put_of_slot? {key other : κ} {slot : Nat} (h : table.slot? key = some slot)
    (item : α) : (table.put other item).slot? key = some slot := by
  rw [slot?_eq_some_iff, ← keys_toLedger] at h
  rw [slot?_eq_some_iff, ← keys_toLedger, toLedger_put, Ledger.keys_upsert]
  split
  · exact h
  · rw [List.getElem?_append_left (List.getElem?_eq_some_iff.1 h).1, h]

/-- An item is put into the slot of its key. -/
theorem slot?_put (key : κ) (item : α) :
    (table.put key item).slot? key = some (table.slotOf key) := by
  rw [slotOf]
  cases hSlot : table.slot? key with
  | some slot => exact slot?_put_of_slot? hSlot item
  | none =>
    have hNew : key ∉ table.slots.keys := Ledger.get?_eq_none_iff.1 hSlot
    rw [slot?_eq_some_iff, ← keys_toLedger, toLedger_put, Ledger.keys_upsert, keys_toLedger,
      if_neg hNew, List.getElem?_append_right (by simp [table.length_keys])]
    simp [table.length_keys]

/-! ## Many items -/

/-- A table into which items are put one after the other. -/
def ofItems (key : β → κ) (item : β → α) (items : List β) : SlotTable κ α :=
  items.foldl (fun table x => table.put (key x) (item x)) .empty

/-- The last item of a list is put last. -/
theorem ofItems_concat (key : β → κ) (item : β → α) (items : List β) (x : β) :
    ofItems key item (items ++ [x]) = (ofItems key item items).put (key x) (item x) := by
  rw [ofItems, List.foldl_append]
  rfl

/-- The table of many items is their ledger. -/
theorem toLedger_ofItems (key : β → κ) (item : β → α) (items : List β) :
    (ofItems key item items).toLedger = Ledger.ofItems key item items := by
  induction items using List.reverseRecOn with
  | nil => rfl
  | append_singleton items x ih =>
    rw [Ledger.ofItems_concat, ofItems_concat, toLedger_put, ih]

end SlotTable

end Collocation
