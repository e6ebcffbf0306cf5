import Collocation.Assembly
import Collocation.Proofs.Forest.Unfolding
import Collocation.Proofs.Keyed.Ledger

/-!
# References between rows

The rows of an execution by their positions in the order of reading, and the position that each
reference leads to. The kids of a position are the nested rows that refer to it. Whatever the
references are, the kids have a lineage from the rows that stay at the top.
-/

set_option autoImplicit false

namespace Collocation

/-! ## The last of a list -/

/-- The position of the last item with a property. -/
def lastIndex? {α : Type} (has : α → Bool) : List α → Option Nat
  | [] => none
  | item :: items =>
    match lastIndex? has items with
    | some i => some (i + 1)
    | none => if has item then some 0 else none

section LastIndex

variable {α : Type} (has : α → Bool)

/-- The last index of an item in two lists is that in the second one, or else that in the first. -/
theorem lastIndex?_append (items others : List α) :
    lastIndex? has (items ++ others) =
      match lastIndex? has others with
      | some i => some (items.length + i)
      | none => lastIndex? has items := by
  induction items with
  | nil => cases h : lastIndex? has others <;> simp [lastIndex?, h]
  | cons item items ih =>
    rw [List.cons_append, lastIndex?, ih]
    cases lastIndex? has others with
    | none => rfl
    | some i => simp only [List.length_cons, Option.some.injEq]; omega

/-- One item more is the last one if it has what is asked for. -/
theorem lastIndex?_concat (items : List α) (item : α) :
    lastIndex? has (items ++ [item]) =
      if has item then some items.length else lastIndex? has items := by
  rw [lastIndex?_append]
  by_cases h : has item <;> simp [lastIndex?, h]

/-- At the last index stands an item that has what is asked for. -/
theorem exists_of_lastIndex? {items : List α} {i : Nat} (h : lastIndex? has items = some i) :
    ∃ item, items[i]? = some item ∧ has item := by
  induction items generalizing i with
  | nil => simp [lastIndex?] at h
  | cons item items ih =>
    rw [lastIndex?] at h
    split at h
    · next j hj =>
      obtain rfl := Option.some.inj h
      exact ih hj
    · split at h
      · next hItem =>
        obtain rfl := Option.some.inj h
        exact ⟨item, rfl, hItem⟩
      · cases h

/-- The last index is within the list. -/
theorem lt_of_lastIndex? {items : List α} {i : Nat} (h : lastIndex? has items = some i) :
    i < items.length := by
  obtain ⟨item, hItem, -⟩ := exists_of_lastIndex? has h
  exact (List.getElem?_eq_some_iff.1 hItem).1

/-- There is no last index just if no item has what is asked for. -/
theorem lastIndex?_eq_none_iff {items : List α} :
    lastIndex? has items = none ↔ ∀ item ∈ items, has item = false := by
  induction items with
  | nil => simp [lastIndex?]
  | cons item items ih =>
    cases hLast : lastIndex? has items with
    | none =>
      have hItems := ih.1 hLast
      simp only [lastIndex?, hLast, List.mem_cons, forall_eq_or_imp]
      cases hItem : has item with
      | true => simp
      | false => exact iff_of_true rfl ⟨rfl, hItems⟩
    | some i =>
      obtain ⟨x, hx, hHas⟩ := exists_of_lastIndex? has hLast
      simp only [lastIndex?, hLast, reduceCtorEq, false_iff, not_forall]
      refine ⟨x, List.mem_cons_of_mem _ (List.mem_of_getElem? hx), ?_⟩
      simp [hHas]

/-- With no key twice, an item is the last one with its key. -/
theorem lastIndex?_eq_some_iff {κ : Type} [DecidableEq κ] {key : α → κ} {items : List α}
    (h : (items.map key).Nodup) {i : Nat} {item : α} (hItem : items[i]? = some item) {k : κ} :
    lastIndex? (fun x => key x = k) items = some i ↔ key item = k := by
  constructor
  · intro hLast
    obtain ⟨other, hOther, hKey⟩ := exists_of_lastIndex? _ hLast
    rw [hItem] at hOther
    rw [Option.some.inj hOther]
    exact of_decide_eq_true hKey
  · intro hKey
    cases hLast : lastIndex? (fun x => key x = k) items with
    | none =>
      have hNot := (lastIndex?_eq_none_iff _).1 hLast item (List.mem_of_getElem? hItem)
      exact absurd hKey (of_decide_eq_false hNot)
    | some j =>
      obtain ⟨other, hOther, hOtherKey⟩ := exists_of_lastIndex? _ hLast
      have hLt : i < (items.map key).length := by
        rw [List.length_map]
        exact (List.getElem?_eq_some_iff.1 hItem).1
      have hSame : (items.map key)[i]? = (items.map key)[j]? := by
        rw [List.getElem?_map, List.getElem?_map, hItem, hOther, Option.map_some, Option.map_some,
          hKey, of_decide_eq_true hOtherKey]
      rw [(List.getElem?_inj hLt h).1 hSame]

/-- Looking for an item from the end finds the one at the last index. -/
theorem find?_reverse_eq_bind (items : List α) :
    items.reverse.find? has = (lastIndex? has items).bind fun i => items[i]? := by
  induction items using List.reverseRecOn with
  | nil => rfl
  | append_singleton items item ih =>
    rw [List.reverse_append, List.find?_append, lastIndex?_concat, ih]
    by_cases hItem : has item
    · simp [hItem]
    · cases hLast : lastIndex? has items with
      | none => simp [hItem]
      | some i =>
        have hLt := lt_of_lastIndex? has hLast
        simp [hItem, List.getElem?_append_left hLt]

/-- Items that were mapped have their last index where those have it from which they come. -/
theorem lastIndex?_map {β : Type} (f : β → α) (items : List β) :
    lastIndex? has (items.map f) = lastIndex? (fun item => has (f item)) items := by
  induction items with
  | nil => rfl
  | cons item items ih => rw [List.map_cons, lastIndex?, ih, lastIndex?]

/-- Looking for a numbered item from the end finds it with its index. -/
theorem find?_reverse_numbered (items : List α) :
    ((items.zipIdx.map fun (item, number) => (number, item)).reverse.find? fun entry =>
        has entry.2) =
      (lastIndex? has items).bind fun i => items[i]?.map fun item => (i, item) := by
  have hItems : (items.zipIdx.map fun (item, number) => (number, item)).map Prod.snd = items := by
    rw [List.map_map]
    exact List.zipIdx_map_fst 0 items
  rw [find?_reverse_eq_bind, ← lastIndex?_map has Prod.snd, hItems]
  refine Option.bind_congr fun i _ => ?_
  simp [List.getElem?_zipIdx, Function.comp_def]

end LastIndex

namespace Assembly

/-- The decoded rows of an execution, in the order of reading. -/
structure Rows where
  tops : List DataRow
  nested : List DataRow

namespace Rows

variable (rows : Rows)

/-! ## Positions -/

/-- The rows in the order of reading: those of the top come first. -/
def read : List DataRow :=
  rows.tops ++ rows.nested

/-- The position of the row at the top that stays under an identifier: the last one that has it. -/
def staying? (valueId : String) : Option Nat :=
  lastIndex? (fun row => row.valueId = valueId) rows.tops

/-- The position that a reference leads to. An id leads to the last row that has it; if that row is
one of the top, to the row that stays under its identifier. -/
def target? : ParentRef → Option Nat
  | .row id =>
    (lastIndex? (fun row => row.rowId = id) rows.read).bind fun i =>
      match rows.tops[i]? with
      | some row => rows.staying? row.valueId
      | none => some i
  | .point valueId => rows.staying? valueId

/-- The position that the reference of the row at a position leads to. -/
def parentOf? (i : Nat) : Option Nat :=
  (rows.read[i]?.bind DataRow.parent).bind rows.target?

/-- The row at position `j` is nested and refers to the row at position `i`. -/
def Refers (j i : Nat) : Prop :=
  rows.tops.length ≤ j ∧ rows.parentOf? j = some i

/-- What is shown of the row at a position: all its columns, a label, and the payload, which is
primary at the top and secondary below. -/
def entryAt? (i : Nat) : Option Entry :=
  rows.read[i]?.map fun row =>
    { id := some row.valueId
      longitude := row.longitude
      latitude := row.latitude
      label := some (positionLabel row.longitude row.latitude)
      source := row.source
      time := row.time
      platform := row.platform
      device := row.device
      depth := row.depth
      fileUrl := row.fileUrl
      primary := if i < rows.tops.length then some row.payload else none
      secondary := if i < rows.tops.length then none else some row.payload }

/-- The positions of the rows that stay at the top, in the order in which their identifiers first
come. -/
def stayingPositions : List Nat :=
  (rows.tops.map DataRow.valueId).eraseDups.filterMap rows.staying?

/-- The positions of nested rows. -/
def nestedPositions : List Nat :=
  List.range' rows.tops.length rows.nested.length

/-- The positions of the nested rows that refer to a position, in the order of reading. -/
def kidsOf (i : Nat) : List Nat :=
  rows.nestedPositions.filter fun j => rows.parentOf? j = some i

/-- Rows at the top stand at the same position among all rows. -/
theorem read_of_tops {i : Nat} {row : DataRow} (h : rows.tops[i]? = some row) :
    rows.read[i]? = some row := by
  have hLt := (List.getElem?_eq_some_iff.1 h).1
  rw [read, List.getElem?_append_left hLt, h]

/-- Only rows that are there refer to others. -/
theorem lt_of_refers {j i : Nat} (h : rows.Refers j i) : j < rows.read.length := by
  obtain ⟨-, hParent⟩ := h
  rw [parentOf?, Option.bind_eq_some_iff] at hParent
  obtain ⟨reference, hReference, -⟩ := hParent
  obtain ⟨row, hRow, -⟩ := Option.bind_eq_some_iff.1 hReference
  exact (List.getElem?_eq_some_iff.1 hRow).1

/-- The positions below one are those that refer to it. -/
theorem mem_kidsOf {j i : Nat} : j ∈ rows.kidsOf i ↔ rows.Refers j i := by
  simp only [kidsOf, nestedPositions, List.mem_filter, List.mem_range'_1, decide_eq_true_eq, Refers]
  constructor
  · rintro ⟨⟨hLe, -⟩, hParent⟩
    exact ⟨hLe, hParent⟩
  · intro h
    have hLt := rows.lt_of_refers h
    rw [read, List.length_append] at hLt
    exact ⟨⟨h.1, hLt⟩, h.2⟩

/-- Only nested rows are below a position. -/
theorem kidsOf_subset (i : Nat) : rows.kidsOf i ⊆ rows.nestedPositions :=
  fun _ h => (List.mem_filter.1 h).1

/-- The positions below one are listed in their order. -/
theorem pairwise_kidsOf (i : Nat) : (rows.kidsOf i).Pairwise (· < ·) :=
  List.Pairwise.filter _ List.pairwise_lt_range'

/-- A position that stays is that of a row at the top. -/
theorem staying?_lt {valueId : String} {i : Nat} (h : rows.staying? valueId = some i) :
    i < rows.tops.length :=
  lt_of_lastIndex? _ h

/-- The row that stays for an identifier has this identifier. -/
theorem staying?_valueId {valueId : String} {i : Nat} (h : rows.staying? valueId = some i) :
    ∃ row, rows.tops[i]? = some row ∧ row.valueId = valueId := by
  obtain ⟨row, hRow, hHas⟩ := exists_of_lastIndex? _ h
  exact ⟨row, hRow, of_decide_eq_true hHas⟩

/-- No row stays under two identifiers. -/
theorem staying?_inj {valueId other : String} {i : Nat} (h : rows.staying? valueId = some i)
    (hOther : rows.staying? other = some i) : valueId = other := by
  obtain ⟨row, hRow, rfl⟩ := rows.staying?_valueId h
  obtain ⟨row', hRow', rfl⟩ := rows.staying?_valueId hOther
  rw [hRow] at hRow'
  rw [Option.some.inj hRow']

/-- The nested rows have a lineage from the rows that stay at the top. -/
theorem lineage : Lineage rows.kidsOf rows.stayingPositions where
  single := by
    intro j i i' hi hi'
    have h := ((rows.mem_kidsOf).1 hi).2
    have h' := ((rows.mem_kidsOf).1 hi').2
    rw [h] at h'
    exact Option.some.inj h'
  orphan := by
    intro root i hRoot hKid
    obtain ⟨valueId, -, hStays⟩ := List.mem_filterMap.1 hRoot
    have hLt := rows.staying?_lt hStays
    have hLe := ((rows.mem_kidsOf).1 hKid).1
    omega
  nodup_kids i := (rows.pairwise_kidsOf i).imp Nat.ne_of_lt
  nodup_roots := by
    refine List.Nodup.filterMap ?_ (nodup_eraseDups _)
    intro valueId other i hi hi'
    exact rows.staying?_inj hi hi'

/-- No path has more rows than there are nested ones. -/
theorem level_le {level i : Nat} (h : Level rows.kidsOf rows.stayingPositions level i) :
    level ≤ rows.nested.length := by
  have hLe := rows.lineage.level_le rows.kidsOf_subset h
  rwa [nestedPositions, List.length_range'] at hLe

end Rows

end Assembly

end Collocation
