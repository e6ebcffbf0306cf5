import Collocation.Keyed.Ledger
import Collocation.Proofs.Keyed.Occurrences

/-!
# What a ledger holds

The entries of a ledger into which items were written one after the other: their keys are the keys
of the items, each where it first comes, and the value of a key is the one that was written last.
-/

set_option autoImplicit false

namespace Collocation

variable {κ α β : Type} [DecidableEq κ]

namespace Ledger

/-! ## One write -/

/-- A key that is not in the first entries is written among the others. -/
theorem upsertEntry_append {key : κ} (value : α) {entries : List (κ × α)} (others : List (κ × α))
    (h : key ∉ entries.map (·.1)) :
    upsertEntry key value (entries ++ others) = entries ++ upsertEntry key value others := by
  induction entries with
  | nil => rfl
  | cons entry rest ih =>
    rw [List.map_cons, List.mem_cons, not_or] at h
    rw [List.cons_append, upsertEntry, if_neg (Ne.symm h.1), ih h.2, List.cons_append]

/-- A write adds its entry only. -/
theorem mem_entries_upsert {ledger : Ledger κ α} {key : κ} {value : α} {entry : κ × α}
    (h : entry ∈ (ledger.upsert key value).entries) :
    entry ∈ ledger.entries ∨ entry = (key, value) := by
  simp only [upsert] at h
  generalize ledger.entries = entries at h ⊢
  induction entries with
  | nil => exact .inr (List.mem_singleton.1 h)
  | cons first rest ih =>
    rw [upsertEntry] at h
    split at h
    · rcases List.mem_cons.1 h with rfl | hRest
      · exact .inr rfl
      · exact .inl (List.mem_cons_of_mem _ hRest)
    · rcases List.mem_cons.1 h with rfl | hRest
      · exact .inl List.mem_cons_self
      · exact (ih hRest).imp_left (List.mem_cons_of_mem _)

/-- A key that is not there comes last. -/
theorem entries_upsert_of_not_mem {ledger : Ledger κ α} {key : κ} (h : key ∉ ledger.keys)
    (value : α) : (ledger.upsert key value).entries = ledger.entries ++ [(key, value)] :=
  upsertEntry_of_not_mem h value

/-- Writing what is there already changes nothing. -/
theorem upsert_of_get? {ledger : Ledger κ α} {key : κ} {value : α}
    (h : ledger.get? key = some value) : ledger.upsert key value = ledger := by
  apply Ledger.ext
  simp only [get?, upsert] at h ⊢
  generalize ledger.entries = entries at h ⊢
  induction entries with
  | nil => simp at h
  | cons entry rest ih =>
    rw [upsertEntry]
    split
    · next hKey =>
      simp only [List.find?_cons, hKey, beq_self_eq_true, Option.map_some, Option.some.injEq] at h
      rw [← h, ← hKey]
    · next hKey =>
      simp only [List.find?_cons, beq_eq_false_iff_ne.2 hKey] at h
      rw [ih h]

/-- The keys after one was put are this one and those that were there. -/
theorem mem_keys_upsert {ledger : Ledger κ α} {key key' : κ} {value : α} :
    key' ∈ (ledger.upsert key value).keys ↔ key' ∈ ledger.keys ∨ key' = key := by
  rw [keys_upsert]
  split
  · next hThere =>
    refine ⟨.inl, ?_⟩
    rintro (hOld | rfl)
    · exact hOld
    · exact hThere
  · rw [List.mem_append, List.mem_singleton]

omit [DecidableEq κ] in
/-- No key comes twice. -/
theorem nodup_keys (ledger : Ledger κ α) : ledger.keys.Nodup :=
  ledger.nodup

omit [DecidableEq κ] in
/-- A ledger has as many keys as entries. -/
theorem length_keys (ledger : Ledger κ α) : ledger.keys.length = ledger.size :=
  List.length_map _

omit [DecidableEq κ] in
/-- There are as many values as entries. -/
theorem length_values (ledger : Ledger κ α) : ledger.values.length = ledger.size :=
  List.length_map _

/-- A write adds one key at most. -/
theorem size_upsert_le (ledger : Ledger κ α) (key : κ) (value : α) :
    (ledger.upsert key value).size ≤ ledger.size + 1 := by
  rw [← length_keys, ← length_keys, keys_upsert]
  split <;> simp

/-! ## What is there -/

/-- An entry is there just if its key has its value. -/
theorem get?_eq_some_iff {ledger : Ledger κ α} {key : κ} {value : α} :
    ledger.get? key = some value ↔ (key, value) ∈ ledger.entries := by
  have h := ledger.nodup
  rw [get?]
  generalize ledger.entries = entries at h ⊢
  induction entries with
  | nil => simp
  | cons entry rest ih =>
    rw [List.map_cons, List.nodup_cons] at h
    by_cases hKey : entry.1 = key
    · have hRest : (key, value) ∉ rest := fun hMem =>
        h.1 (List.mem_map.2 ⟨(key, value), hMem, hKey.symm⟩)
      simp only [List.find?_cons, hKey, beq_self_eq_true, Option.map_some, Option.some.injEq,
        List.mem_cons, hRest, or_false]
      constructor
      · rintro rfl
        rw [← hKey]
      · rintro rfl
        rfl
    · simp only [List.find?_cons, beq_eq_false_iff_ne.2 hKey, List.mem_cons, ih h.2]
      constructor
      · exact .inr
      · rintro (rfl | hMem)
        · exact absurd rfl hKey
        · exact hMem

/-- A ledger without a key has all else as before. -/
theorem get?_erase (ledger : Ledger κ α) (key key' : κ) :
    (ledger.erase key).get? key' = if key = key' then none else ledger.get? key' := by
  simp only [get?, erase, List.find?_filter]
  split
  · next hKey =>
    subst hKey
    simp
  · next hKey =>
    have hEntry : ∀ entry : κ × α,
        (decide ((entry.1 != key) = true ∧ (entry.1 == key') = true)) = (entry.1 == key') := by
      grind
    simp only [hEntry]

/-- A ledger contains a key just if it is one of its keys. -/
theorem contains_iff {ledger : Ledger κ α} {key : κ} :
    ledger.contains key = true ↔ key ∈ ledger.keys := by
  unfold contains
  rw [← Option.ne_none_iff_isSome, Ne, get?_eq_none_iff, not_not]

/-- To take a key away leaves the other keys in their order. -/
theorem keys_erase (ledger : Ledger κ α) (key : κ) :
    (ledger.erase key).keys = ledger.keys.filter (· != key) := by
  unfold keys erase
  rw [List.filter_map]
  rfl

/-- A key that is erased is one less. -/
theorem size_erase {ledger : Ledger κ α} {key : κ} (hMem : key ∈ ledger.keys) :
    (ledger.erase key).size + 1 = ledger.size := by
  rw [← length_keys, ← length_keys, keys_erase, ← ledger.nodup_keys.erase_eq_filter,
    List.length_erase_of_mem hMem, Nat.sub_add_cancel (List.length_pos_of_mem hMem)]

/-- A new key makes the ledger larger by one. -/
theorem size_upsert_of_not_mem {ledger : Ledger κ α} {key : κ} (h : key ∉ ledger.keys)
    (value : α) : (ledger.upsert key value).size = ledger.size + 1 := by
  rw [size, entries_upsert_of_not_mem h, List.length_append]
  rfl

/-- The entries are the keys with their values. -/
theorem entries_eq_filterMap (ledger : Ledger κ α) :
    ledger.entries =
      ledger.keys.filterMap fun key => (ledger.get? key).map fun value => (key, value) := by
  have hEntry : ∀ entry ∈ ledger.entries,
      ((ledger.get? entry.1).map fun value => (entry.1, value)) = some entry := by
    intro entry hMem
    rw [get?_eq_some_iff.2 hMem]
    rfl
  unfold keys
  rw [List.filterMap_map]
  exact (List.filterMap_some.symm).trans
    (List.filterMap_congr fun entry hMem => (hEntry entry hMem).symm)

/-- The values are those of the keys. -/
theorem values_eq_filterMap (ledger : Ledger κ α) :
    ledger.values = ledger.keys.filterMap ledger.get? := by
  have hEntries := congrArg (List.map Prod.snd) ledger.entries_eq_filterMap
  rw [List.map_filterMap] at hEntries
  refine hEntries.trans (List.filterMap_congr fun key _ => ?_)
  cases ledger.get? key <;> rfl

/-- Ledgers that give every key the same value have the same entries, in another order. -/
theorem perm_entries {ledger other : Ledger κ α} (hSame : ∀ key, ledger.get? key = other.get? key) :
    ledger.entries.Perm other.entries := by
  apply (List.perm_ext_iff_of_nodup ledger.nodup.of_map other.nodup.of_map).2
  rintro ⟨key, value⟩
  rw [← get?_eq_some_iff, ← get?_eq_some_iff, hSame]

/-! ## Many writes -/

section Fold

variable (key : β → κ) (value : β → α)

/-- A ledger into which items are written one after the other. -/
def putAll (ledger : Ledger κ α) (items : List β) : Ledger κ α :=
  items.foldl (fun ledger item => ledger.upsert (key item) (value item)) ledger

/-- The ledger of items that are written one after the other. -/
def ofItems (items : List β) : Ledger κ α :=
  putAll key value .empty items

/-- The last of some items is put last. -/
theorem putAll_concat (ledger : Ledger κ α) (items : List β) (item : β) :
    putAll key value ledger (items ++ [item]) =
      (putAll key value ledger items).upsert (key item) (value item) := by
  rw [putAll, List.foldl_append]
  rfl

/-- To put items that were mapped is to put them by way of the map. -/
theorem putAll_map {γ : Type} (ledger : Ledger κ α) (f : γ → β) (items : List γ) :
    putAll key value ledger (items.map f) =
      putAll (fun item => key (f item)) (fun item => value (f item)) ledger items := by
  rw [putAll, List.foldl_map]
  rfl

/-- Keys that are there stay in their places, and the new ones follow where they first come. -/
theorem keys_putAll (ledger : Ledger κ α) (items : List β) :
    (putAll key value ledger items).keys =
      ledger.keys ++ (items.map key).eraseDups.filter fun k => k ∉ ledger.keys := by
  induction items using List.reverseRecOn with
  | nil => simp [putAll]
  | append_singleton items item ih =>
    rw [putAll_concat, keys_upsert, ih, List.map_append, List.map_singleton, eraseDups_concat]
    by_cases hThere : key item ∈ ledger.keys
    · rw [if_pos (List.mem_append_left _ hThere)]
      by_cases hMem : key item ∈ items.map key
      · rw [if_pos hMem]
      · rw [if_neg hMem, List.filter_append]
        simp [hThere]
    · by_cases hMem : key item ∈ items.map key
      · have hAgain : key item ∈ (items.map key).eraseDups.filter fun k => k ∉ ledger.keys :=
          List.mem_filter.2 ⟨List.mem_eraseDups.2 hMem, decide_eq_true hThere⟩
        rw [if_pos hMem, if_pos (List.mem_append_right _ hAgain)]
      · have hNew : key item ∉
            ledger.keys ++ (items.map key).eraseDups.filter fun k => k ∉ ledger.keys := by
          rw [List.mem_append, not_or]
          exact ⟨hThere, fun h => hMem (List.mem_eraseDups.1 (List.mem_filter.1 h).1)⟩
        rw [if_neg hMem, if_neg hNew, List.filter_append, List.append_assoc]
        simp [hThere]

/-- The value of a key is that of the last item that has it, or the one that was there. -/
theorem get?_putAll (ledger : Ledger κ α) (items : List β) (k : κ) :
    (putAll key value ledger items).get? k =
      (((items.filter fun item => key item = k).getLast?).map value).or (ledger.get? k) := by
  induction items using List.reverseRecOn with
  | nil => rfl
  | append_singleton items item ih =>
    rw [putAll_concat, get?_upsert, ih, List.filter_append]
    by_cases hKey : key item = k <;> simp [hKey]

/-- The keys after some items were put are those that were there and those of the items. -/
theorem mem_keys_putAll {ledger : Ledger κ α} {items : List β} {k : κ} :
    k ∈ (putAll key value ledger items).keys ↔ k ∈ ledger.keys ∨ ∃ item ∈ items, key item = k := by
  rw [keys_putAll, List.mem_append, List.mem_filter, List.mem_eraseDups, List.mem_map]
  by_cases h : k ∈ ledger.keys <;> simp [h]

/-- The last item of a list is put last. -/
theorem ofItems_concat (items : List β) (item : β) :
    ofItems key value (items ++ [item]) =
      (ofItems key value items).upsert (key item) (value item) :=
  putAll_concat key value .empty items item

/-- The keys of items are their distinct keys, in the order in which these come first. -/
theorem keys_ofItems (items : List β) :
    (ofItems key value items).keys = (items.map key).eraseDups := by
  rw [ofItems, keys_putAll]
  simp [keys, empty]

/-- The value of a key is that of the last item that has it. -/
theorem get?_ofItems (items : List β) (k : κ) :
    (ofItems key value items).get? k =
      ((items.filter fun item => key item = k).getLast?).map value := by
  rw [ofItems, get?_putAll]
  simp [get?, empty]

/-- The values of items are those that were written last, in the order of the keys. -/
theorem values_ofItems (items : List β) :
    (ofItems key value items).values = (items.map key).eraseDups.filterMap fun k =>
      ((items.filter fun item => key item = k).getLast?).map value := by
  rw [values_eq_filterMap, keys_ofItems]
  exact List.filterMap_congr fun k _ => get?_ofItems key value items k

/-- Values that are changed as they are written are the changed values. -/
theorem values_ofItems_map {γ : Type} (f : α → γ) (items : List β) :
    (ofItems key (fun item => f (value item)) items).values =
      (ofItems key value items).values.map f := by
  rw [values_ofItems, values_ofItems, List.map_filterMap]
  simp only [Option.map_map]
  rfl

/-- There are as many entries as keys, and no more than items. -/
theorem size_ofItems (items : List β) :
    (ofItems key value items).size = (items.map key).eraseDups.length := by
  rw [← length_keys, keys_ofItems]

/-- There are no more keys than items. -/
theorem size_ofItems_le (items : List β) : (ofItems key value items).size ≤ items.length := by
  have hLe := length_eraseDups_le (items.map key)
  rwa [List.length_map, ← size_ofItems key value] at hLe

/-- Items with keys that are not there come behind what is there. -/
theorem entries_putAll_of_fresh {ledger : Ledger κ α} {items : List β}
    (h : ∀ item ∈ items, key item ∉ ledger.keys) :
    (putAll key value ledger items).entries =
      ledger.entries ++ (ofItems key value items).entries := by
  induction items using List.reverseRecOn with
  | nil => exact (List.append_nil _).symm
  | append_singleton items item ih =>
    have hItems := ih fun x hx => h x (List.mem_append_left _ hx)
    have hItem := h item (List.mem_append_right _ List.mem_cons_self)
    rw [putAll_concat, ofItems_concat]
    calc upsertEntry (key item) (value item) (putAll key value ledger items).entries
        = upsertEntry (key item) (value item)
            (ledger.entries ++ (ofItems key value items).entries) := by rw [hItems]
      _ = ledger.entries ++ upsertEntry (key item) (value item)
            (ofItems key value items).entries := upsertEntry_append _ _ hItem

/-- Items with distinct keys that are not there come behind what is there, each as it is. -/
theorem entries_putAll_of_nodup {ledger : Ledger κ α} {items : List β}
    (h : (ledger.keys ++ items.map key).Nodup) :
    (putAll key value ledger items).entries =
      ledger.entries ++ items.map fun item => (key item, value item) := by
  induction items using List.reverseRecOn with
  | nil => exact (List.append_nil _).symm
  | append_singleton items item ih =>
    rw [List.map_append, ← List.append_assoc, List.nodup_append] at h
    obtain ⟨hItems, -, hDisjoint⟩ := h
    have hNew : key item ∉ (putAll key value ledger items).keys := by
      rw [keys, ih hItems, List.map_append, List.map_map]
      intro hMem
      exact hDisjoint _ hMem _ (List.mem_singleton.2 rfl) rfl
    rw [putAll_concat, entries_upsert_of_not_mem hNew, ih hItems, List.map_append,
      List.append_assoc]
    rfl

/-- If no two items have the same key, a ledger holds the first occurrence of each of them. -/
theorem entries_ofItems_of_injOn [DecidableEq β] {items : List β}
    (h : ∀ x ∈ items, ∀ y ∈ items, key x = key y → x = y) :
    (ofItems key value items).entries =
      items.eraseDups.map fun item => (key item, value item) := by
  induction items using List.reverseRecOn with
  | nil => rfl
  | append_singleton items item ih =>
    have hItems := ih fun x hx y hy =>
      h x (List.mem_append_left _ hx) y (List.mem_append_left _ hy)
    have hLast : item ∈ items ++ [item] := List.mem_append_right _ List.mem_cons_self
    rw [ofItems_concat, eraseDups_concat]
    by_cases hMem : item ∈ items
    · have hThere : (ofItems key value items).get? (key item) = some (value item) := by
        rw [get?_eq_some_iff, hItems]
        exact List.mem_map.2 ⟨item, List.mem_eraseDups.2 hMem, rfl⟩
      rw [upsert_of_get? hThere, if_pos hMem, hItems]
    · have hNew : key item ∉ (ofItems key value items).keys := by
        rw [keys_ofItems, List.mem_eraseDups, List.mem_map]
        rintro ⟨x, hx, hKey⟩
        exact hMem (h x (List.mem_append_left _ hx) item hLast hKey ▸ hx)
      rw [entries_upsert_of_not_mem hNew, if_neg hMem, hItems, List.map_append]
      rfl

end Fold

/-- Of entries that are written one after the other the last one of each key is there. -/
theorem entries_ofItems (entries : List (κ × α)) :
    (ofItems (fun entry => entry.1) (fun entry => entry.2) entries).entries =
      lastOfEach (fun entry => entry.1) entries := by
  rw [entries_eq_filterMap, keys_ofItems]
  unfold lastOfEach
  apply List.filterMap_congr
  intro key _
  rw [get?_ofItems, Option.map_map]
  cases hLast : (entries.filter fun entry => entry.1 = key).getLast? with
  | none => rfl
  | some entry =>
    have hKey : entry.1 = key :=
      of_decide_eq_true (List.mem_filter.1 (List.mem_of_getLast? hLast)).2
    subst hKey
    rfl

/-- The values of items under their keys are the last item of each key. -/
theorem values_ofItems_eq_lastOfEach (key : α → κ) (items : List α) :
    (ofItems key (fun item => item) items).values = lastOfEach key items := by
  rw [values_ofItems, lastOfEach]
  simp only [Option.map_id']

end Ledger

end Collocation
