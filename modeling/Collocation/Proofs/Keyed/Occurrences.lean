import Mathlib.Data.List.Induction
import Mathlib.Data.List.Nodup
import Mathlib.Data.List.Perm.Basic

/-!
# Occurrences in lists

Lists whose items come again: the first occurrence of each item, the items of each key together, and
the rounds through a list in each of which some items are taken.
-/

set_option autoImplicit false

namespace Collocation

variable {α β κ : Type} [DecidableEq κ]

/-! ## First occurrences -/

/-- An item that is there already adds nothing to the first occurrences. -/
theorem eraseDups_concat (items : List κ) (item : κ) :
    (items ++ [item]).eraseDups =
      if item ∈ items then items.eraseDups else items.eraseDups ++ [item] := by
  rw [List.eraseDups_append]
  by_cases hMem : item ∈ items
  · simp [hMem, List.removeAll]
  · simp [hMem, List.removeAll, List.eraseDups_cons]

/-- The items without duplicates are distinct. -/
theorem nodup_eraseDups (items : List κ) : items.eraseDups.Nodup := by
  induction items using List.reverseRecOn with
  | nil => exact List.nodup_nil
  | append_singleton items item ih =>
    rw [eraseDups_concat]
    split
    · exact ih
    · next hNew =>
      refine List.nodup_append.2 ⟨ih, List.nodup_singleton _, ?_⟩
      rintro a ha b hb rfl
      obtain rfl := List.mem_singleton.1 hb
      exact hNew (List.mem_eraseDups.1 ha)

/-- There are no more items without duplicates than items. -/
theorem length_eraseDups_le (items : List κ) : items.eraseDups.length ≤ items.length := by
  induction items using List.reverseRecOn with
  | nil => exact Nat.le_refl _
  | append_singleton items item ih =>
    rw [eraseDups_concat]
    split <;> simp <;> omega

/-- Distinct items are their own. -/
theorem eraseDups_of_nodup {items : List κ} (h : items.Nodup) : items.eraseDups = items := by
  induction items using List.reverseRecOn with
  | nil => rfl
  | append_singleton items item ih =>
    obtain ⟨hItems, -, hDisjoint⟩ := List.nodup_append.1 h
    have hNew : item ∉ items := fun hMem => hDisjoint item hMem item List.mem_cons_self rfl
    rw [eraseDups_concat, if_neg hNew, ih hItems]

/-- If the last items come first, and all of them after that, the others are found behind them. -/
theorem eraseDups_drop_append {items : List κ} (h : items.Nodup) (count : Nat) :
    (items.drop count ++ items).eraseDups = items.drop count ++ items.take count := by
  have hNodup : (items.take count ++ items.drop count).Nodup := by rwa [List.take_append_drop]
  obtain ⟨hTake, hDrop, hDisjoint⟩ := List.nodup_append.1 hNodup
  have hOthers : items.removeAll (items.drop count) = items.take count := by
    have hNew : (items.take count).filter (fun item => !(items.drop count).elem item) =
        items.take count := by
      apply List.filter_eq_self.2
      intro item hMem
      simpa using fun hOther => hDisjoint item hMem item hOther rfl
    have hOld : (items.drop count).filter (fun item => !(items.drop count).elem item) = [] := by
      apply List.filter_eq_nil_iff.2
      intro item hMem
      simpa using hMem
    calc items.removeAll (items.drop count)
        = (items.take count ++ items.drop count).filter
            fun item => !(items.drop count).elem item := by
          rw [List.take_append_drop]
          rfl
      _ = items.take count := by rw [List.filter_append, hNew, hOld, List.append_nil]
  rw [List.eraseDups_append, hOthers, eraseDups_of_nodup hDrop, eraseDups_of_nodup hTake]

/-- Keys that tell items apart have the first occurrences of the items. -/
theorem eraseDups_map_of_injOn [DecidableEq α] {key : α → κ} {items : List α}
    (h : ∀ x ∈ items, ∀ y ∈ items, key x = key y → x = y) :
    (items.map key).eraseDups = items.eraseDups.map key := by
  induction items using List.reverseRecOn with
  | nil => rfl
  | append_singleton items item ih =>
    have hItems := ih fun x hx y hy =>
      h x (List.mem_append_left _ hx) y (List.mem_append_left _ hy)
    have hLast : item ∈ items ++ [item] := List.mem_append_right _ List.mem_cons_self
    have hMem : key item ∈ items.map key ↔ item ∈ items := by
      constructor
      · intro hKey
        obtain ⟨x, hx, hEq⟩ := List.mem_map.1 hKey
        exact h x (List.mem_append_left _ hx) item hLast hEq ▸ hx
      · exact List.mem_map_of_mem
    rw [List.map_append, List.map_singleton, eraseDups_concat, eraseDups_concat, hItems]
    by_cases hThere : item ∈ items
    · rw [if_pos (hMem.2 hThere), if_pos hThere]
    · rw [if_neg fun hKey => hThere (hMem.1 hKey), if_neg hThere, List.map_append]
      rfl

/-! ## Groups of a list -/

/-- The last item of each key, in the order in which the keys first come. -/
def lastOfEach (key : α → κ) (items : List α) : List α :=
  (items.map key).eraseDups.filterMap fun k => (items.filter fun item => key item = k).getLast?

/-- The last item of a key is one of the items. -/
theorem mem_of_mem_lastOfEach {key : α → κ} {items : List α} {item : α}
    (h : item ∈ lastOfEach key items) : item ∈ items := by
  obtain ⟨k, -, hLast⟩ := List.mem_filterMap.1 h
  exact (List.mem_filter.1 (List.mem_of_getLast? hLast)).1

/-- The last items of keys by way of a map are those of the list, mapped. -/
theorem lastOfEach_map (key : α → κ) (f : β → α) (items : List β) :
    lastOfEach key (items.map f) = (lastOfEach (fun item => key (f item)) items).map f := by
  rw [lastOfEach, lastOfEach, List.map_filterMap, List.map_map]
  apply List.filterMap_congr
  intro k _
  rw [List.filter_map, List.getLast?_map]
  rfl

/-- The last items are the same under keys that agree on the items. -/
theorem lastOfEach_congr {key other : α → κ} {items : List α}
    (h : ∀ item ∈ items, key item = other item) :
    lastOfEach key items = lastOfEach other items := by
  unfold lastOfEach
  rw [List.map_congr_left h]
  apply List.filterMap_congr
  intro k _
  have hGroup : (items.filter fun item => key item = k) = items.filter fun item => other item = k :=
    List.filter_congr fun item hMem => by rw [h item hMem]
  rw [hGroup]

/-- Keys that are renamed without mixing them up have the same last items. -/
theorem lastOfEach_comp {κ' : Type} [DecidableEq κ'] {f : κ → κ'} (hf : Function.Injective f)
    (key : α → κ) (items : List α) :
    lastOfEach (fun item => f (key item)) items = lastOfEach key items := by
  have hKeys : (items.map fun item => f (key item)).eraseDups =
      (items.map key).eraseDups.map f := by
    rw [← eraseDups_map_of_injOn fun x _ y _ hSame => hf hSame, List.map_map]
    rfl
  unfold lastOfEach
  rw [hKeys, List.filterMap_map]
  apply List.filterMap_congr
  intro k _
  simp only [Function.comp_apply, hf.eq_iff]

/-- Items in groups are the items in another order. -/
theorem flatMap_filter_perm (key : α → κ) {keys : List κ} (hKeys : keys.Nodup) {items : List α}
    (hItems : ∀ item ∈ items, key item ∈ keys) :
    (keys.flatMap fun k => items.filter fun item => key item = k).Perm items := by
  induction keys generalizing items with
  | nil =>
    obtain rfl : items = [] := List.eq_nil_iff_forall_not_mem.2 fun item hMem =>
      List.not_mem_nil (hItems item hMem)
    exact .refl _
  | cons k keys ih =>
    obtain ⟨hNew, hKeys⟩ := List.nodup_cons.1 hKeys
    have hOthers : (keys.flatMap fun k' => items.filter fun item => key item = k') =
        keys.flatMap fun k' => (items.filter fun item => !(key item = k : Bool)).filter
          fun item => key item = k' := by
      apply List.flatMap_congr
      intro k' hMem
      rw [List.filter_filter]
      apply List.filter_congr
      intro item _
      have hNe : k' ≠ k := fun hEq => hNew (hEq ▸ hMem)
      grind
    have hRest : (keys.flatMap fun k' => (items.filter fun item => !(key item = k : Bool)).filter
        fun item => key item = k').Perm (items.filter fun item => !(key item = k : Bool)) :=
      ih hKeys (by grind)
    rw [List.flatMap_cons, hOthers]
    exact (hRest.append_left _).trans (List.filter_append_perm _ items)

/-- With no key twice, the group of an item is the item alone. -/
theorem filter_key_of_nodup {key : α → κ} {items : List α} (h : (items.map key).Nodup) {item : α}
    (hMem : item ∈ items) : (items.filter fun other => key other = key item) = [item] := by
  induction items with
  | nil => cases hMem
  | cons first items ih =>
    rw [List.map_cons, List.nodup_cons] at h
    have hFirst : ∀ other ∈ items, key other ≠ key first := fun other hOther hEq =>
      h.1 (List.mem_map.2 ⟨other, hOther, hEq⟩)
    rcases List.mem_cons.1 hMem with rfl | hMem
    · have hNone : (items.filter fun other => key other = key item) = [] := by
        simpa [List.filter_eq_nil_iff] using hFirst
      simp [hNone]
    · rw [List.filter_cons_of_neg (by simpa using (hFirst item hMem).symm), ih h.2 hMem]

/-- If all keys are distinct, each item is the last one of its key. -/
theorem lastOfEach_of_nodup {key : α → κ} {items : List α} (h : (items.map key).Nodup) :
    lastOfEach key items = items := by
  have hSelf : ∀ item ∈ items,
      (items.filter fun other => key other = key item).getLast? = some item := by
    intro item hMem
    rw [filter_key_of_nodup h hMem]
    rfl
  rw [lastOfEach, eraseDups_of_nodup h, List.filterMap_map]
  exact (List.filterMap_congr hSelf).trans List.filterMap_some

/-! ## Rounds -/

/-- Items by the round that they belong to, and in their order within a round. -/
def inRounds (round? : α → Option Nat) (rounds : Nat) (items : List α) : List α :=
  (List.range rounds).flatMap fun round => items.filter fun item => round? item = some round

section Rounds

variable {round? : α → Option Nat} {rounds : Nat} {items : List α}

/-- An item is in the rounds just if it has one of them. -/
theorem mem_inRounds {item : α} :
    item ∈ inRounds round? rounds items ↔
      item ∈ items ∧ ∃ round < rounds, round? item = some round := by
  simp only [inRounds, List.mem_flatMap, List.mem_range, List.mem_filter, decide_eq_true_eq]
  constructor
  · rintro ⟨round, hLt, hMem, hRound⟩
    exact ⟨hMem, round, hLt, hRound⟩
  · rintro ⟨hMem, round, hLt, hRound⟩
    exact ⟨round, hLt, hMem, hRound⟩

/-- To filter items and to put them in rounds may change places. -/
theorem filter_inRounds (keep : α → Bool) :
    (inRounds round? rounds items).filter keep = inRounds round? rounds (items.filter keep) := by
  rw [inRounds, List.filter_flatMap, inRounds]
  apply List.flatMap_congr
  intro round _
  rw [List.filter_filter, List.filter_filter]
  exact List.filter_congr fun item _ => Bool.and_comm _ _

/-- To map items and to put them in rounds may change places, if the rounds are told by the map. -/
theorem map_inRounds (f : β → α) (items : List β) :
    inRounds round? rounds (items.map f) =
      (inRounds (fun item => round? (f item)) rounds items).map f := by
  rw [inRounds, inRounds, List.map_flatMap]
  apply List.flatMap_congr
  intro round _
  rw [List.filter_map]
  rfl

/-- Items in rounds are those that belong to one, in another order. -/
theorem inRounds_perm (h : ∀ item ∈ items, ∀ round, round? item = some round → round < rounds) :
    (inRounds round? rounds items).Perm (items.filter fun item => (round? item).isSome) := by
  have hRounds : inRounds round? rounds items = ((List.range rounds).map some).flatMap fun k =>
      (items.filter fun item => (round? item).isSome).filter fun item => round? item = k := by
    rw [inRounds, List.flatMap_map]
    apply List.flatMap_congr
    intro round _
    rw [List.filter_filter]
    apply List.filter_congr
    intro item _
    cases round? item <;> simp
  rw [hRounds]
  refine flatMap_filter_perm round? (List.nodup_range.map fun _ _ => Option.some.inj) ?_
  intro item hMem
  obtain ⟨hMem, hSome⟩ := List.mem_filter.1 hMem
  obtain ⟨round, hRound⟩ := Option.isSome_iff_exists.1 hSome
  rw [hRound]
  exact List.mem_map_of_mem (List.mem_range.2 (h item hMem round hRound))

/-- If all items belong to the first round, they stay in their order. -/
theorem inRounds_of_first (hRounds : 0 < rounds) (h : ∀ item ∈ items, round? item = some 0) :
    inRounds round? rounds items = items := by
  obtain ⟨more, rfl⟩ := Nat.exists_eq_succ_of_ne_zero (Nat.ne_of_gt hRounds)
  have hFirst : (items.filter fun item => round? item = some 0) = items :=
    List.filter_eq_self.2 fun item hMem => decide_eq_true (h item hMem)
  have hLater : ∀ round ∈ List.range more,
      (items.filter fun item => round? item = some (round + 1)) = [] := by
    intro round _
    apply List.filter_eq_nil_iff.2
    intro item hMem
    rw [h item hMem]
    simp
  rw [inRounds, List.range_succ_eq_map, List.flatMap_cons, hFirst, List.flatMap_map,
    List.flatMap_eq_nil_iff.2 hLater, List.append_nil]

end Rounds

/-- Of rounds through the same items, the first one in which an item is taken counts. -/
theorem eraseDups_rounds {items : List κ} (hItems : items.Nodup) (takes : Nat → κ → Bool)
    (rounds : Nat) :
    ((List.range rounds).flatMap fun round => items.filter (takes round)).eraseDups =
      inRounds (fun item => (List.range rounds).find? (takes · item)) rounds items := by
  unfold inRounds
  induction rounds with
  | zero => rfl
  | succ rounds ih =>
    -- A round more decides nothing about the items that are taken earlier.
    have hEarlier : ∀ round ∈ List.range rounds, ∀ item,
        (List.range (rounds + 1)).find? (takes · item) = some round ↔
          (List.range rounds).find? (takes · item) = some round := by
      intro round hRound item
      have hNe : rounds ≠ round := Nat.ne_of_gt (List.mem_range.1 hRound)
      rw [List.range_succ, List.find?_append]
      cases (List.range rounds).find? (takes · item) with
      | none => by_cases h : takes rounds item <;> simp [h, hNe]
      | some other => simp
    have hLast : ∀ item, (List.range (rounds + 1)).find? (takes · item) = some rounds ↔
        takes rounds item ∧ (List.range rounds).find? (takes · item) = none := by
      intro item
      rw [List.range_succ, List.find?_append]
      cases hFind : (List.range rounds).find? (takes · item) with
      | none => by_cases h : takes rounds item <;> simp [h]
      | some other =>
        have hOther := Nat.ne_of_lt (List.mem_range.1 (List.mem_of_find?_eq_some hFind))
        simp [hOther]
    -- What it adds are the items that it takes first.
    have hRest : (items.filter (takes rounds)).removeAll
        ((List.range rounds).flatMap fun round => items.filter (takes round)) =
          items.filter fun item =>
            (List.range (rounds + 1)).find? (takes · item) = some rounds := by
      rw [List.removeAll, List.filter_filter]
      apply List.filter_congr
      intro item hMem
      simp only [hLast, List.find?_eq_none, List.elem_eq_mem, List.mem_flatMap, List.mem_filter,
        hMem, true_and]
      grind
    rw [List.range_succ, List.flatMap_append, List.flatMap_singleton, List.eraseDups_append, ih,
      hRest, eraseDups_of_nodup (hItems.filter _), List.flatMap_append, List.flatMap_singleton,
      ← List.range_succ]
    congr 1
    refine List.flatMap_congr fun round hRound => List.filter_congr fun item _ => ?_
    exact decide_eq_decide.2 (hEarlier round hRound item).symm

end Collocation
