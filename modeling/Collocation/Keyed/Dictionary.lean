/-!
# Dictionaries

A dictionary maps names to values. It is a list in the order of its names, by code points, without
a repeated name; so two dictionaries that map alike are equal.
-/

set_option autoImplicit false

namespace Collocation

variable {α : Type}

/-- Entries in the order of their names, with a new one in its place. An entry of the same name is
replaced. -/
def insertEntry (name : String) (value : α) : List (String × α) → List (String × α)
  | [] => [(name, value)]
  | entry :: rest =>
    if name < entry.1 then (name, value) :: entry :: rest
    else if name = entry.1 then (name, value) :: rest
    else entry :: insertEntry name value rest

/-- The value of a name, the first of its entries. -/
def findEntry (name : String) (entries : List (String × α)) : Option α :=
  (entries.find? (·.1 == name)).map (·.2)

/-- Whether the names of entries strictly ascend. -/
def Ascending (entries : List (String × α)) : Prop :=
  entries.Pairwise (·.1 < ·.1)

/-- An entry of a list into which one was entered is this one or was there before. -/
theorem mem_insertEntry {name : String} {value : α} {entry : String × α}
    {entries : List (String × α)} (h : entry ∈ insertEntry name value entries) :
    entry = (name, value) ∨ entry ∈ entries := by
  induction entries with
  | nil => simpa [insertEntry] using h
  | cons first rest ih =>
    rw [insertEntry] at h
    split at h
    · simpa using h
    · split at h
      · rcases List.mem_cons.1 h with h | h
        · exact .inl h
        · exact .inr (List.mem_cons_of_mem _ h)
      · rcases List.mem_cons.1 h with h | h
        · exact .inr (h ▸ List.mem_cons_self)
        · exact (ih h).imp_right (List.mem_cons_of_mem _)

/-- Entries stay in ascending order when one is entered. -/
theorem ascending_insertEntry (name : String) (value : α) {entries : List (String × α)}
    (h : Ascending entries) : Ascending (insertEntry name value entries) := by
  induction entries with
  | nil => exact List.pairwise_singleton _ _
  | cons first rest ih =>
    obtain ⟨hfirst, hrest⟩ := List.pairwise_cons.1 h
    rw [insertEntry]
    split
    · next hlt =>
      refine List.pairwise_cons.2 ⟨fun entry hentry => ?_, h⟩
      rcases List.mem_cons.1 hentry with rfl | hentry
      · exact hlt
      · exact String.lt_trans hlt (hfirst entry hentry)
    · split
      · next heq =>
        exact List.pairwise_cons.2 ⟨fun entry hentry => heq ▸ hfirst entry hentry, hrest⟩
      · next hlt hne =>
        refine List.pairwise_cons.2 ⟨fun entry hentry => ?_, ih hrest⟩
        rcases mem_insertEntry hentry with rfl | hentry
        · exact Std.lt_of_le_of_ne (String.not_lt.1 hlt) (Ne.symm hne)
        · exact hfirst entry hentry

/-- In a list into which an entry was entered, this one is found under its name, and all else under
other names as before. -/
theorem findEntry_insertEntry (name name' : String) (value : α) (entries : List (String × α)) :
    findEntry name' (insertEntry name value entries) =
      if name = name' then some value else findEntry name' entries := by
  induction entries with
  | nil => simp only [insertEntry, findEntry, List.find?_cons]; grind
  | cons first rest ih =>
    simp only [findEntry] at ih
    rw [insertEntry]
    split
    · simp only [findEntry, List.find?_cons]; grind
    · split <;> simp only [findEntry, List.find?_cons] <;> grind

/-- Entries without the one of a name. -/
def eraseEntry (name : String) (entries : List (String × α)) : List (String × α) :=
  entries.filter (·.1 != name)

/-- Values by name, in the order of the names, each name once. -/
structure Dictionary (α : Type) where
  entries : List (String × α)
  ascending : Ascending entries

instance [DecidableEq α] : DecidableEq (Dictionary α) := fun a b =>
  decidable_of_iff (a.entries = b.entries)
    ⟨fun h => by cases a; cases b; cases h; rfl, fun h => h ▸ rfl⟩

namespace Dictionary

def empty : Dictionary α := ⟨[], List.Pairwise.nil⟩

def get? (d : Dictionary α) (name : String) : Option α :=
  findEntry name d.entries

def insert (d : Dictionary α) (name : String) (value : α) : Dictionary α :=
  ⟨insertEntry name value d.entries, ascending_insertEntry name value d.ascending⟩

def erase (d : Dictionary α) (name : String) : Dictionary α :=
  ⟨eraseEntry name d.entries, List.Pairwise.filter _ d.ascending⟩

def size (d : Dictionary α) : Nat :=
  d.entries.length

/-- The dictionary of a list of entries, of which a later one counts more. -/
def ofList (entries : List (String × α)) : Dictionary α :=
  entries.foldl (fun d entry => d.insert entry.1 entry.2) empty

/-- A dictionary into which a value was entered has it under its name, and all else as before. -/
theorem get?_insert (d : Dictionary α) (name name' : String) (value : α) :
    (d.insert name value).get? name' = if name = name' then some value else d.get? name' :=
  findEntry_insertEntry name name' value d.entries

end Dictionary

end Collocation
