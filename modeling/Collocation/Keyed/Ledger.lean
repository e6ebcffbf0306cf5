/-!
# Ledgers

A ledger maps keys to values and keeps its entries in the order in which their keys first came. A
value that is written again stays where it is, so that no key comes twice.
-/

set_option autoImplicit false

namespace Collocation

variable {κ α : Type} [DecidableEq κ]

/-- Replaces the value of a key where it stands, or adds the key at the end. -/
def upsertEntry (key : κ) (value : α) : List (κ × α) → List (κ × α)
  | [] => [(key, value)]
  | entry :: rest =>
    if entry.1 = key then (key, value) :: rest else entry :: upsertEntry key value rest

/-- A key that is there stays in its place, and a new one comes last. -/
theorem map_fst_upsertEntry (key : κ) (value : α) (entries : List (κ × α)) :
    (upsertEntry key value entries).map (·.1) =
      if key ∈ entries.map (·.1) then entries.map (·.1) else entries.map (·.1) ++ [key] := by
  induction entries with
  | nil => simp [upsertEntry]
  | cons entry rest ih =>
    rw [upsertEntry]
    split
    · next h => simp [h]
    · next h =>
      rw [List.map_cons, ih]
      simp only [List.map_cons, List.mem_cons, Ne.symm h, false_or]
      split <;> simp_all

/-- An entry with a new key comes last. -/
theorem upsertEntry_of_not_mem {key : κ} {entries : List (κ × α)} (h : key ∉ entries.map (·.1))
    (value : α) : upsertEntry key value entries = entries ++ [(key, value)] := by
  induction entries with
  | nil => rfl
  | cons entry rest ih =>
    rw [List.map_cons, List.mem_cons, not_or] at h
    rw [upsertEntry, if_neg (Ne.symm h.1), ih h.2, List.cons_append]

/-- Writing an entry repeats no key. -/
theorem nodup_upsertEntry (key : κ) (value : α) {entries : List (κ × α)}
    (h : (entries.map (·.1)).Nodup) : ((upsertEntry key value entries).map (·.1)).Nodup := by
  rw [map_fst_upsertEntry]
  split
  · exact h
  · next hNew =>
    refine List.nodup_append.2 ⟨h, List.pairwise_singleton _ _, fun other hOther last hLast => ?_⟩
    rintro rfl
    exact hNew (List.mem_singleton.1 hLast ▸ hOther)

/-- Entries in the order in which their keys first came. No key comes twice. -/
@[ext] structure Ledger (κ α : Type) where
  entries : List (κ × α)
  nodup : (entries.map (·.1)).Nodup

instance [DecidableEq α] : DecidableEq (Ledger κ α) := fun a b =>
  decidable_of_iff (a.entries = b.entries) ⟨Ledger.ext, fun h => h ▸ rfl⟩

namespace Ledger

def empty : Ledger κ α := ⟨[], List.Pairwise.nil⟩

/-- The value of a key. -/
def get? (ledger : Ledger κ α) (key : κ) : Option α :=
  (ledger.entries.find? fun entry => entry.1 == key).map (·.2)

def upsert (ledger : Ledger κ α) (key : κ) (value : α) : Ledger κ α :=
  ⟨upsertEntry key value ledger.entries, nodup_upsertEntry key value ledger.nodup⟩

def erase (ledger : Ledger κ α) (key : κ) : Ledger κ α :=
  ⟨ledger.entries.filter fun entry => entry.1 != key,
    ledger.nodup.sublist (List.filter_sublist.map _)⟩

def contains (ledger : Ledger κ α) (key : κ) : Bool :=
  (ledger.get? key).isSome

def keys (ledger : Ledger κ α) : List κ :=
  ledger.entries.map (·.1)

def values (ledger : Ledger κ α) : List α :=
  ledger.entries.map (·.2)

def size (ledger : Ledger κ α) : Nat :=
  ledger.entries.length

/-- What was written last of a key is its value. -/
theorem get?_upsert (ledger : Ledger κ α) (key key' : κ) (value : α) :
    (ledger.upsert key value).get? key' = if key = key' then some value else ledger.get? key' := by
  simp only [get?, upsert]
  induction ledger.entries with
  | nil => simp only [upsertEntry, List.find?_cons]; grind
  | cons entry rest ih =>
    rw [upsertEntry]
    split <;> simp only [List.find?_cons] <;> grind

/-- Just the keys that are not there have no value. -/
theorem get?_eq_none_iff {ledger : Ledger κ α} {key : κ} :
    ledger.get? key = none ↔ key ∉ ledger.keys := by
  simp only [get?, keys, Option.map_eq_none_iff, List.find?_eq_none, beq_iff_eq, List.mem_map,
    not_exists, not_and]

/-- The value of a new key comes last. -/
theorem values_upsert_of_get?_eq_none {ledger : Ledger κ α} {key : κ}
    (h : ledger.get? key = none) (value : α) :
    (ledger.upsert key value).values = ledger.values ++ [value] := by
  change (upsertEntry key value ledger.entries).map (·.2) = _
  rw [upsertEntry_of_not_mem (get?_eq_none_iff.1 h), List.map_append]
  rfl

/-- A key that is there stays in its place, and a new one comes last. -/
theorem keys_upsert (ledger : Ledger κ α) (key : κ) (value : α) :
    (ledger.upsert key value).keys =
      if key ∈ ledger.keys then ledger.keys else ledger.keys ++ [key] :=
  map_fst_upsertEntry key value ledger.entries

end Ledger

end Collocation
