import Mathlib.Data.List.Forall2

/-!
# Chains that succeed or fail

A chain succeeds if each of its parts does, and fails where the first part fails. A list can be read
just if each of its items can.
-/

set_option autoImplicit false

namespace Collocation

variable {α β ε : Type}

/-- A chain of two steps succeeds just if the first does and the second does with its value. -/
theorem bind_eq_ok_iff {first : Except ε α} {next : α → Except ε β} {result : β} :
    (first >>= next) = .ok result ↔ ∃ value, first = .ok value ∧ next value = .ok result := by
  cases first with
  | error failure => exact iff_of_false (by rintro ⟨⟩) (by rintro ⟨_, ⟨⟩, _⟩)
  | ok value =>
    constructor
    · exact fun h => ⟨value, rfl, h⟩
    · rintro ⟨_, ⟨⟩, h⟩
      exact h

/-- A chain of two steps fails just if the first does or the second does with its value. -/
theorem bind_eq_error_iff {first : Except ε α} {next : α → Except ε β} {failure : ε} :
    (first >>= next) = .error failure ↔
      first = .error failure ∨ ∃ value, first = .ok value ∧ next value = .error failure := by
  cases first with
  | error other =>
    constructor
    · intro h
      cases h
      exact .inl rfl
    · rintro (⟨⟨⟩⟩ | ⟨_, ⟨⟩, _⟩)
      rfl
  | ok value =>
    constructor
    · exact fun h => .inr ⟨value, rfl, h⟩
    · rintro (⟨⟨⟩⟩ | ⟨_, ⟨⟩, h⟩)
      exact h

/-- A result that is mapped is a success just if there was one, and then it is the value mapped. -/
theorem map_eq_ok_iff {f : α → β} {first : Except ε α} {result : β} :
    first.map f = .ok result ↔ ∃ value, first = .ok value ∧ f value = result := by
  cases first <;> simp [Except.map]

/-- What fails for another reason comes to the same where it succeeds. -/
theorem mapError_eq_ok_iff {ε' : Type} {reason : ε → ε'} {result : Except ε α} {value : α} :
    result.mapError reason = .ok value ↔ result = .ok value := by
  cases result <;> simp [Except.mapError]

/-- Chains whose parts come to the same come to the same, whatever they say where they fail. -/
theorem toOption_bind_congr {first other : Except ε α} {next nextOther : α → Except ε β}
    (hFirst : other.toOption = first.toOption)
    (hNext : ∀ value, (nextOther value).toOption = (next value).toOption) :
    (other >>= nextOther).toOption = (first >>= next).toOption := by
  cases first with
  | error failure =>
    cases other with
    | error => rfl
    | ok => cases hFirst
  | ok value =>
    cases other with
    | error => cases hFirst
    | ok =>
      cases hFirst
      exact hNext value

/-- Items that are read one by one are read as a list. -/
theorem mapM_eq_ok_of_forall₂ {read : α → Except ε β} {items : List α} {results : List β}
    (h : List.Forall₂ (fun item result => read item = .ok result) items results) :
    items.mapM read = .ok results := by
  induction h with
  | nil => rfl
  | cons hItem _ ih =>
    rw [List.mapM_cons, hItem, ih]
    rfl

/-- If all items are read, each result is that of its item. -/
theorem forall₂_of_mapM_eq_ok {read : α → Except ε β} {items : List α} {results : List β}
    (h : items.mapM read = .ok results) :
    List.Forall₂ (fun item result => read item = .ok result) items results := by
  induction items generalizing results with
  | nil =>
    cases h
    exact .nil
  | cons item items ih =>
    simp only [List.mapM_cons, bind_eq_ok_iff] at h
    obtain ⟨result, hItem, others, hItems, hResults⟩ := h
    cases hResults
    exact .cons hItem (ih hItems)

/-- Of two lists side by side, each item of the second has one of the first beside it. -/
theorem exists_mem_of_forall₂ {γ : Type} {R : α → γ → Prop} {items : List α} {others : List γ}
    (h : List.Forall₂ R items others) {other : γ} (hMem : other ∈ others) :
    ∃ item ∈ items, R item other := by
  induction h with
  | nil => cases hMem
  | cons hItem _ ih =>
    rcases List.mem_cons.1 hMem with rfl | hMem
    · exact ⟨_, List.mem_cons_self, hItem⟩
    · obtain ⟨item, hItems, hOther⟩ := ih hMem
      exact ⟨item, List.mem_cons_of_mem _ hItems, hOther⟩

/-- What is read of a list is read of its items. -/
theorem exists_of_mem_mapM {read : α → Except ε β} {items : List α} {results : List β}
    (h : items.mapM read = .ok results) {result : β} (hMem : result ∈ results) :
    ∃ item ∈ items, read item = .ok result :=
  exists_mem_of_forall₂ (forall₂_of_mapM_eq_ok h) hMem

/-- If a list is read, so is each of its items. -/
theorem exists_ok_of_mapM {read : α → Except ε β} {items : List α} {results : List β}
    (h : items.mapM read = .ok results) {item : α} (hMem : item ∈ items) :
    ∃ result, read item = .ok result := by
  obtain ⟨result, -, hRead⟩ := exists_mem_of_forall₂ (forall₂_of_mapM_eq_ok h).flip hMem
  exact ⟨result, hRead⟩

/-- A list is not read because of one of its items. -/
theorem exists_of_mapM_eq_error {read : α → Except ε β} {items : List α} {failure : ε}
    (h : items.mapM read = .error failure) : ∃ item ∈ items, read item = .error failure := by
  induction items with
  | nil => cases h
  | cons item items ih =>
    simp only [List.mapM_cons, bind_eq_error_iff] at h
    rcases h with hItem | ⟨result, -, hItems | ⟨others, -, ⟨⟩⟩⟩
    · exact ⟨item, List.mem_cons_self, hItem⟩
    · obtain ⟨other, hMem, hOther⟩ := ih hItems
      exact ⟨other, List.mem_cons_of_mem _ hMem, hOther⟩

/-- Lists of items that are read alike are read alike. -/
theorem mapM_congr_of_forall₂ {read : α → Except ε β} {items others : List α}
    (h : List.Forall₂ (fun item other => read item = read other) items others) :
    items.mapM read = others.mapM read := by
  induction h with
  | nil => rfl
  | cons hItem _ ih => rw [List.mapM_cons, List.mapM_cons, hItem, ih]

/-- A list whose items are read just if they are of some kind is read just if all are. -/
theorem mapM_eq_ite {read : α → Except ε β} {fine : α → Bool} {value : α → β} {failure : ε}
    {items : List α}
    (h : ∀ item ∈ items, read item = if fine item then .ok (value item) else .error failure) :
    items.mapM read = if items.all fine then .ok (items.map value) else .error failure := by
  induction items with
  | nil => rfl
  | cons item items ih =>
    obtain ⟨hItem, hItems⟩ := List.forall_mem_cons.1 h
    rw [List.mapM_cons, hItem, ih hItems, List.all_cons]
    cases fine item <;> cases items.all fine <;> rfl

/-- Items that are added one by one are all added just if each of them can be read. -/
theorem exists_foldlM_iff {σ : Type} {read : α → Except ε β} {put : σ → α → β → σ}
    {items : List α} (start : σ) :
    (∃ result, items.foldlM (fun state item => (read item).map (put state item)) start =
        .ok result) ↔
      ∀ item ∈ items, ∃ value, read item = .ok value := by
  induction items generalizing start with
  | nil => exact iff_of_true ⟨start, rfl⟩ (by rintro _ ⟨⟩)
  | cons item items ih =>
    rw [List.foldlM_cons, List.forall_mem_cons]
    cases hItem : read item with
    | error failure => exact iff_of_false (by rintro ⟨_, ⟨⟩⟩) (by rintro ⟨⟨_, ⟨⟩⟩, -⟩)
    | ok value => exact (ih (put start item value)).trans (and_iff_right ⟨value, rfl⟩).symm

/-- Items of which the last ones are read need only the first ones to be read. -/
theorem mapM_append_of_ok {read : α → Except ε β} (items : List α) {others : List α}
    {results : List β} (h : others.mapM read = .ok results) :
    (items ++ others).mapM read = (items.mapM read).map (· ++ results) := by
  rw [List.mapM_append, h]
  cases items.mapM read <;> rfl

end Collocation
