import Collocation.Keyed.Ledger

/-!
# Slot tables

One item for each key, in a slot of its own. The slots are taken one after the other, in the order
in which the keys first come. An item that is put under a key again takes the slot of that key.
-/

set_option autoImplicit false

namespace Collocation

variable {κ α : Type} [DecidableEq κ]

/-- The slots of keys, and the items in the slots. The slots are numbered as they were taken. -/
structure SlotTable (κ α : Type) where
  slots : Ledger κ Nat
  items : Array α
  numbered : slots.values = List.range items.size

namespace SlotTable

def empty : SlotTable κ α := ⟨.empty, #[], rfl⟩

/-- Puts an item into the slot of its key. -/
def put (table : SlotTable κ α) (key : κ) (item : α) : SlotTable κ α :=
  match h : table.slots.get? key with
  | some slot =>
    { table with
      items := table.items.setIfInBounds slot item
      numbered := by rw [Array.size_setIfInBounds, table.numbered] }
  | none =>
    { slots := table.slots.upsert key table.items.size
      items := table.items.push item
      numbered := by
        rw [Ledger.values_upsert_of_get?_eq_none h, table.numbered, Array.size_push,
          List.range_succ] }

/-- The slot of a key. -/
def slot? (table : SlotTable κ α) (key : κ) : Option Nat :=
  table.slots.get? key

/-- The slot that an item under a key is put into. -/
def slotOf (table : SlotTable κ α) (key : κ) : Nat :=
  (table.slot? key).getD table.items.size

/-- The item in the slot of a key. -/
def get? (table : SlotTable κ α) (key : κ) : Option α :=
  (table.slot? key).bind fun slot => table.items[slot]?

end SlotTable

end Collocation
