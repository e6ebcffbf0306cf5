import Collocation.Keyed.Dictionary
import Mathlib.Data.List.Induction
import Mathlib.Data.List.Nodup

/-!
# What a dictionary holds

A dictionary is known by its entries in any order. Entries without a repeated name, entered one by
one in whatever order, are those of their dictionary.
-/

set_option autoImplicit false

namespace Collocation

variable {α : Type}

/-- An entry of a new name goes between the others. -/
theorem perm_insertEntry {name : String} {entries : List (String × α)}
    (h : name ∉ entries.map (·.1)) (value : α) :
    (insertEntry name value entries).Perm ((name, value) :: entries) := by
  induction entries with
  | nil => exact .refl _
  | cons first rest ih =>
    rw [List.map_cons, List.mem_cons, not_or] at h
    rw [insertEntry]
    split
    · exact .refl _
    · rw [if_neg h.1]
      exact ((ih h.2).cons first).trans (.swap _ _ _)

/-! ## Entries by name -/

/-- What is found under a name is an entry of the list. -/
theorem mem_of_findEntry {name : String} {value : α} {entries : List (String × α)}
    (h : findEntry name entries = some value) : (name, value) ∈ entries := by
  obtain ⟨entry, hFind, rfl⟩ := Option.map_eq_some_iff.1 h
  have hName : entry.1 = name := by simpa using List.find?_some hFind
  exact hName ▸ List.mem_of_find?_eq_some hFind

/-- Nothing is found under a name just if no entry has it. -/
theorem findEntry_eq_none_iff {name : String} {entries : List (String × α)} :
    findEntry name entries = none ↔ name ∉ entries.map (·.1) := by
  simp only [findEntry, Option.map_eq_none_iff, List.find?_eq_none, beq_iff_eq, List.mem_map,
    not_exists, not_and]

/-- Of entries without a repeated name, any one is the first of its name. -/
theorem findEntry_of_mem {name : String} {value : α} {entries : List (String × α)}
    (hNames : (entries.map (·.1)).Nodup) (hMem : (name, value) ∈ entries) :
    findEntry name entries = some value := by
  cases hFind : findEntry name entries with
  | none => exact absurd (List.mem_map_of_mem hMem) (findEntry_eq_none_iff.1 hFind)
  | some other =>
    have hSame := List.inj_on_of_nodup_map hNames (mem_of_findEntry hFind) hMem rfl
    exact congrArg some (congrArg Prod.snd hSame)

/-- The first entry is found under its name, and under other names what the rest has. -/
@[simp] theorem findEntry_cons (name : String) (entry : String × α) (entries : List (String × α)) :
    findEntry name (entry :: entries) =
      if entry.1 = name then some entry.2 else findEntry name entries := by
  by_cases hName : entry.1 = name <;> simp [findEntry, hName]

/-- In two lists an entry is found in the first, or else in the second. -/
@[simp] theorem findEntry_append (name : String) (entries others : List (String × α)) :
    findEntry name (entries ++ others) = (findEntry name entries).or (findEntry name others) := by
  simp only [findEntry, List.find?_append, Option.map_or]

namespace Dictionary


section Names

variable (d : Dictionary α)

/-- The names of a dictionary are distinct. -/
theorem nodup_names : (d.entries.map (·.1)).Nodup :=
  List.pairwise_map.2 (d.ascending.imp String.ne_of_lt)

/-- What a dictionary has under a name is its entry. -/
theorem get?_eq_some_iff {name : String} {value : α} :
    d.get? name = some value ↔ (name, value) ∈ d.entries :=
  ⟨mem_of_findEntry, findEntry_of_mem d.nodup_names⟩

/-- Two dictionaries with the same entries in some order are the same. -/
theorem eq_of_perm {d other : Dictionary α} (h : d.entries.Perm other.entries) : d = other := by
  have hEntries : d.entries = other.entries :=
    h.eq_of_pairwise (fun _ _ _ _ hLt hGt => absurd hGt (String.lt_asymm hLt)) d.ascending
      other.ascending
  cases d
  cases other
  cases hEntries
  rfl

end Names

/-! ## Entries that are entered one by one -/

/-- The last of some entries is entered last. -/
theorem ofList_concat (entries : List (String × α)) (entry : String × α) :
    ofList (entries ++ [entry]) = (ofList entries).insert entry.1 entry.2 := by
  rw [ofList, List.foldl_append]
  rfl

/-- The entries of a dictionary that is made of a list, by the entering of one entry after the
other. -/
theorem entries_ofList (entries : List (String × α)) :
    (ofList entries).entries =
      entries.foldl (fun read entry => insertEntry entry.1 entry.2 read) [] :=
  (List.foldl_hom Dictionary.entries fun _ _ => rfl).symm

/-- The entries of a dictionary are among those that were entered. -/
theorem mem_entries_ofList {entries : List (String × α)} {entry : String × α}
    (h : entry ∈ (ofList entries).entries) : entry ∈ entries := by
  induction entries using List.reverseRecOn with
  | nil => cases h
  | append_singleton entries last ih =>
    rw [ofList_concat] at h
    rcases mem_insertEntry h with rfl | hOld
    · exact List.mem_append_right _ List.mem_cons_self
    · exact List.mem_append_left _ (ih hOld)

/-- With no name twice, what was entered is what the dictionary holds. -/
theorem perm_entries_ofList {entries : List (String × α)} (h : (entries.map (·.1)).Nodup) :
    (ofList entries).entries.Perm entries := by
  induction entries using List.reverseRecOn with
  | nil => exact .refl _
  | append_singleton entries last ih =>
    rw [List.map_append, List.nodup_append] at h
    obtain ⟨hEntries, -, hDisjoint⟩ := h
    have hPerm := ih hEntries
    have hNew : last.1 ∉ (ofList entries).entries.map (·.1) := fun hName =>
      hDisjoint last.1 ((hPerm.map _).mem_iff.1 hName) last.1 List.mem_cons_self rfl
    rw [ofList_concat]
    exact ((perm_insertEntry hNew last.2).trans (hPerm.cons last)).trans
      (List.perm_append_singleton last entries).symm

/-- With no name twice, every entry of a list is in its dictionary. -/
theorem get?_ofList_of_mem {entries : List (String × α)} (hNames : (entries.map (·.1)).Nodup)
    {name : String} {value : α} (hMem : (name, value) ∈ entries) :
    (ofList entries).get? name = some value :=
  (get?_eq_some_iff _).2 ((perm_entries_ofList hNames).mem_iff.2 hMem)

/-- The entries of a dictionary, entered one by one in any order, make it again. -/
theorem ofList_of_perm {d : Dictionary α} {entries : List (String × α)}
    (h : entries.Perm d.entries) : ofList entries = d :=
  eq_of_perm ((perm_entries_ofList ((h.map _).nodup_iff.2 d.nodup_names)).trans h)

/-! ## Changes -/

/-- A dictionary without a name has all else as before. -/
theorem get?_erase (d : Dictionary α) (name name' : String) :
    (d.erase name).get? name' = if name = name' then none else d.get? name' := by
  simp only [erase, get?, findEntry, eraseEntry, List.find?_filter]
  by_cases hName : name = name'
  · subst hName
    simp
  · rw [if_neg hName]
    congr 2
    funext entry
    by_cases hEntry : entry.1 = name' <;> simp [hEntry, Ne.symm hName]

end Dictionary

end Collocation
