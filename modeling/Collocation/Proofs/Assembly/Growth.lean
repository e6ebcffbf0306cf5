import Collocation.Proofs.Assembly.Reference

/-!
# Growth

The forest of decoded rows by recursion, without an arena: the rows of the top stand under their
identifiers and the nested rows under their numbers, each nested row is linked to the place of its
parent, and a tree grows from a place by what is linked to it.

Places are positions: a place at the top is that of the row that stays, and a nested place that of
its row. What is linked to a place are the kids of its position. So a tree that is grown from a
place shows the rows of the unfolded position, and the levels that are allowed are enough for all of
them.
-/

set_option autoImplicit false

namespace Collocation

/-- Where a row has its place: at the top under its identifier, or as a nested row of the given
number. -/
inductive Place where
  | root (valueId : String)
  | nested (number : Nat)
deriving DecidableEq

/-- The entry of a data row. The payload is `primary` at the top and `secondary` below. -/
def DataRow.entry (row : DataRow) : Place → Entry
  | .root _ => { row.bareEntry with primary := some row.payload }
  | .nested _ => { row.bareEntry with secondary := some row.payload }

namespace Assembly

namespace Rows

variable (rows : Rows)

/-- The rows of the top by their identifiers. -/
def roots : Ledger String DataRow :=
  rows.tops.foldl (fun roots row => roots.upsert row.valueId row) .empty

/-- The nested rows with their numbers. -/
def numbered : List (Nat × DataRow) :=
  rows.nested.zipIdx.map fun (row, number) => (number, row)

/-- The place of the last row with an id; nested rows are read after those of the top. -/
def placeOfRow (id : Uuid) : Option Place :=
  let isIt (row : DataRow) : Bool := row.rowId = id
  match rows.numbered.reverse.find? fun entry => isIt entry.2 with
  | some (number, _) => some (.nested number)
  | none => (rows.tops.reverse.find? isIt).map fun row => .root row.valueId

/-- The place that a reference leads to. -/
def resolve : ParentRef → Option Place
  | .row id => rows.placeOfRow id
  | .point valueId => if rows.roots.contains valueId then some (.root valueId) else none

/-- The place of the parent of a nested row. A row is not its own parent. -/
def parentPlace (number : Nat) (row : DataRow) : Option Place :=
  (row.parent.bind rows.resolve).filter fun place => place ≠ .nested number

/-- The nested rows that have a parent, each behind the place of the parent. -/
def links : List (Place × Nat × DataRow) :=
  rows.numbered.filterMap fun (number, row) =>
    (rows.parentPlace number row).map fun place => (place, number, row)

end Rows

/-- The nested rows below a place, in the order of reading. -/
def linkedTo (place : Place) (links : List (Place × Nat × DataRow)) : List (Nat × DataRow) :=
  (links.filter fun link => link.1 = place).map (·.2)

/-- The tree of a row, with so many levels of matches at most. -/
def grow (links : List (Place × Nat × DataRow)) : Nat → Place → DataRow → EntryTree
  | 0, place, row => .node (row.entry place) []
  | levels + 1, place, row =>
    .node (row.entry place) <|
      (linkedTo place links).map fun (number, nested) => grow links levels (.nested number) nested

/-- How many levels of matches there can be: no path goes through more rows than are nested. -/
def levels (depth : NestingDepth) (rows : Rows) : Nat :=
  match depth with
  | .single => 1
  | .full => rows.nested.length

/-- The forest of decoded rows. -/
def ofDataRows (depth : NestingDepth) (rows : Rows) : Assembly :=
  let links := rows.links
  let points := rows.roots.entries.map fun (valueId, row) =>
    grow links (levels depth rows) (.root valueId) row
  { points, dropped := rows.tops.length + rows.nested.length - Forest.size points }

namespace Rows

variable (rows : Rows)

/-! ## Looking up -/

/-- The rows at the roots are the rows at the top, put one after the other under their identifiers.
-/
theorem roots_eq_ofItems : rows.roots = Ledger.ofItems DataRow.valueId (fun row => row) rows.tops :=
  rfl

/-- Under an identifier there is the row that stays. -/
theorem get?_roots (valueId : String) :
    rows.roots.get? valueId = (rows.staying? valueId).bind fun i => rows.tops[i]? := by
  rw [roots_eq_ofItems, Ledger.get?_ofItems, Option.map_id', List.getLast?_filter,
    find?_reverse_eq_bind]
  rfl

/-- A root has an identifier just if a row with it stays. -/
theorem contains_roots (valueId : String) :
    rows.roots.contains valueId = (rows.staying? valueId).isSome := by
  rw [Ledger.contains, get?_roots]
  cases h : rows.staying? valueId with
  | none => rfl
  | some i =>
    obtain ⟨row, hRow, -⟩ := rows.staying?_valueId h
    simp [hRow]

/-- For an identifier at the top there is a row that stays. -/
theorem isSome_staying? {row : DataRow} (h : row ∈ rows.tops) :
    (rows.staying? row.valueId).isSome := by
  rw [← contains_roots, Ledger.contains, Option.isSome_iff_ne_none, Ne, Ledger.get?_eq_none_iff,
    roots_eq_ofItems, Ledger.keys_ofItems, not_not, List.mem_eraseDups]
  exact List.mem_map_of_mem h

/-- A nested row is numbered by its place among the nested rows. -/
theorem mem_numbered {entry : Nat × DataRow} :
    entry ∈ rows.numbered ↔ rows.nested[entry.1]? = some entry.2 := by
  simp only [numbered, List.mem_map, Prod.exists]
  constructor
  · rintro ⟨row, number, hMem, rfl⟩
    exact List.mem_zipIdx_iff_getElem?.1 hMem
  · intro h
    exact ⟨entry.2, entry.1, List.mem_zipIdx_iff_getElem?.2 h, rfl⟩

/-- The numbers of the nested rows go up from zero. -/
theorem map_fst_numbered : rows.numbered.map (·.1) = List.range rows.nested.length := by
  rw [numbered, List.map_map, List.range_eq_range', ← List.zipIdx_map_snd]
  rfl

/-! ## Places and positions -/

/-- A place is a position, and a row stands there. -/
inductive At : Place → Nat → DataRow → Prop where
  | root {valueId : String} {i : Nat} {row : DataRow} :
    rows.staying? valueId = some i → rows.tops[i]? = some row → At (.root valueId) i row
  | nested {number : Nat} {row : DataRow} :
    rows.nested[number]? = some row → At (.nested number) (rows.tops.length + number) row

/-- The place of a row's id is that of the last nested row with it, and without one that of the last
row at the top. -/
theorem placeOfRow_eq (id : Uuid) :
    rows.placeOfRow id =
      match lastIndex? (fun row => row.rowId = id) rows.nested with
      | some number => some (.nested number)
      | none => ((lastIndex? (fun row => row.rowId = id) rows.tops).bind fun i =>
          rows.tops[i]?).map fun row => .root row.valueId := by
  have hFind := find?_reverse_numbered (fun row : DataRow => row.rowId = id) rows.nested
  have hTops := find?_reverse_eq_bind (fun row : DataRow => row.rowId = id) rows.tops
  simp only [placeOfRow, numbered, hFind, hTops]
  cases hLast : lastIndex? (fun row : DataRow => row.rowId = id) rows.nested with
  | none => rfl
  | some number =>
    obtain ⟨row, hRow, -⟩ := exists_of_lastIndex? _ hLast
    simp [hRow]

/-- A reference to a row's id leads to the last nested row with it, and without one to where the
identifier of the last row at the top stays. -/
theorem target?_row_eq (id : Uuid) :
    rows.target? (.row id) =
      match lastIndex? (fun row => row.rowId = id) rows.nested with
      | some number => some (rows.tops.length + number)
      | none => ((lastIndex? (fun row => row.rowId = id) rows.tops).bind fun i =>
          rows.tops[i]?).bind fun row => rows.staying? row.valueId := by
  rw [target?, read, lastIndex?_append]
  cases lastIndex? (fun row : DataRow => row.rowId = id) rows.nested with
  | some number => simp
  | none =>
    cases hLast : lastIndex? (fun row : DataRow => row.rowId = id) rows.tops with
    | none => rfl
    | some i =>
      obtain ⟨row, hRow, -⟩ := exists_of_lastIndex? _ hLast
      simp [hRow]

/-- A reference leads to a place just if it leads to the position of the place. -/
theorem resolve_eq_some_iff {place : Place} {i : Nat} {row : DataRow} (h : rows.At place i row)
    (reference : ParentRef) :
    rows.resolve reference = some place ↔ rows.target? reference = some i := by
  have hStaying : ∀ valueId, some (Place.root valueId) = some place ∧
      (rows.staying? valueId).isSome ↔ rows.staying? valueId = some i := by
    intro valueId
    cases h with
    | @root other _ _ hStays hRow =>
      simp only [Option.some.injEq, Place.root.injEq]
      constructor
      · rintro ⟨rfl, -⟩
        exact hStays
      · intro hOther
        exact ⟨rows.staying?_inj hOther hStays, by rw [hOther]; rfl⟩
    | nested hRow =>
      simp only [Option.some.injEq, reduceCtorEq, false_and, false_iff]
      intro hStays
      have := rows.staying?_lt hStays
      omega
  cases reference with
  | point valueId =>
    rw [resolve, target?, contains_roots, ← hStaying]
    split <;> simp_all
  | row id =>
    rw [resolve, placeOfRow_eq, target?_row_eq]
    cases hNested : lastIndex? (fun row : DataRow => row.rowId = id) rows.nested with
    | some number =>
      cases h with
      | root hStays hRow =>
        have := rows.staying?_lt hStays
        simp only [Option.some.injEq, reduceCtorEq, false_iff]
        omega
      | nested hRow => simp
    | none =>
      cases hTop : lastIndex? (fun row : DataRow => row.rowId = id) rows.tops with
      | none => simp
      | some k =>
        obtain ⟨top, hTopRow, -⟩ := exists_of_lastIndex? _ hTop
        have hSome := rows.isSome_staying? (List.mem_of_getElem? hTopRow)
        simp only [Option.bind_some, hTopRow, Option.map_some, ← hStaying, hSome, and_true]

/-! ## Links -/

/-- Linked to a place are the nested rows whose parent is there. -/
theorem linkedTo_links (place : Place) :
    linkedTo place rows.links =
      rows.numbered.filter fun entry => rows.parentPlace entry.1 entry.2 = some place := by
  rw [linkedTo, links]
  induction rows.numbered with
  | nil => rfl
  | cons entry entries ih =>
    cases hParent : rows.parentPlace entry.1 entry.2 with
    | none => simp [hParent, ih]
    | some parent =>
      by_cases hPlace : parent = place <;> simp [hParent, hPlace, ih]

/-- What is linked to a place is a nested row under its number. -/
theorem mem_linkedTo {place : Place} {entry : Nat × DataRow}
    (h : entry ∈ linkedTo place rows.links) : rows.nested[entry.1]? = some entry.2 := by
  rw [linkedTo_links] at h
  exact rows.mem_numbered.1 (List.mem_filter.1 h).1

/-- The parent of a nested row's position is where its reference leads. -/
theorem parentOf?_nested {number : Nat} {row : DataRow} (h : rows.nested[number]? = some row) :
    rows.parentOf? (rows.tops.length + number) = row.parent.bind rows.target? := by
  rw [parentOf?, read, List.getElem?_append_right (Nat.le_add_right _ _), Nat.add_sub_cancel_left,
    h]
  rfl

/-- What is linked to a place on some level are the kids of its position. -/
theorem kidsOf_eq {place : Place} {level i : Nat} {row : DataRow} (hAt : rows.At place i row)
    (hLevel : Level rows.kidsOf rows.stayingPositions level i) :
    rows.kidsOf i = (linkedTo place rows.links).map fun entry => rows.tops.length + entry.1 := by
  have hPositions : rows.nestedPositions =
      rows.numbered.map fun entry => rows.tops.length + entry.1 := by
    rw [nestedPositions, List.range'_eq_map_range, ← map_fst_numbered, List.map_map]
    rfl
  rw [kidsOf, hPositions, linkedTo_links, List.filter_map]
  congr 1
  apply List.filter_congr
  intro entry hEntry
  have hRow := rows.mem_numbered.1 hEntry
  have hParent := rows.parentOf?_nested hRow
  simp only [Function.comp_apply, hParent, parentPlace, decide_eq_decide,
    Option.filter_eq_some_iff, Option.bind_eq_some_iff, rows.resolve_eq_some_iff hAt]
  refine ⟨fun h => ⟨h, ?_⟩, fun h => h.1⟩
  -- A row on a level does not refer to itself, for it would be on the next level as well.
  simp only [ne_eq, decide_not, Bool.not_eq_true', decide_eq_false_iff_not]
  rintro rfl
  obtain - | - := hAt
  have hKid : rows.tops.length + entry.1 ∈ rows.kidsOf (rows.tops.length + entry.1) := by
    refine rows.mem_kidsOf.2 ⟨Nat.le_add_right _ _, ?_⟩
    rw [hParent, Option.bind_eq_some_iff]
    exact h
  have := rows.lineage.level_unique hLevel (hLevel.kid hKid)
  omega

/-! ## Trees -/

/-- The entry at the position of a place is that of its row. -/
theorem entryAt?_eq {place : Place} {i : Nat} {row : DataRow} (h : rows.At place i row) :
    rows.entryAt? i = some (row.entry place) := by
  cases h with
  | root hStays hRow =>
    have hLt := rows.staying?_lt hStays
    rw [entryAt?, read, List.getElem?_append_left hLt, hRow]
    simp [DataRow.entry, DataRow.bareEntry, hLt]
  | nested hRow =>
    rw [entryAt?, read, List.getElem?_append_right (Nat.le_add_right _ _),
      Nat.add_sub_cancel_left, hRow]
    simp [DataRow.entry, DataRow.bareEntry]

/-- A grown tree shows the rows of the unfolded position. -/
theorem traverse_unfold (levels : Nat) {place : Place} {level i : Nat} {row : DataRow}
    (hAt : rows.At place i row) (hLevel : Level rows.kidsOf rows.stayingPositions level i) :
    (Tree.unfold rows.kidsOf levels i).traverse rows.entryAt? =
      some (grow rows.links levels place row) := by
  induction levels generalizing place level i row with
  | zero =>
    simp only [Tree.unfold, Tree.traverse, rows.entryAt?_eq hAt, Forest.traverse, grow]
    rfl
  | succ levels ih =>
    have hKids := rows.kidsOf_eq hAt hLevel
    have hBelow : Forest.traverse rows.entryAt? (Forest.unfold rows.kidsOf levels (rows.kidsOf i)) =
        some ((linkedTo place rows.links).map fun entry =>
          grow rows.links levels (.nested entry.1) entry.2) := by
      apply Forest.traverse_of_forall₂
      rw [Forest.unfold, hKids, List.map_map, List.forall₂_map_left_iff,
        List.forall₂_map_right_iff, List.forall₂_same]
      intro entry hEntry
      refine ih (.nested (rows.mem_linkedTo hEntry)) (hLevel.kid ?_)
      rw [hKids]
      exact List.mem_map_of_mem hEntry
    rw [Forest.unfold] at hBelow
    simp only [Tree.unfold, Tree.traverse, rows.entryAt?_eq hAt, hBelow, grow]
    rfl

/-- The rows of the top that are kept stand at the positions that stay. -/
theorem forall₂_roots :
    List.Forall₂ (fun entry i => rows.At (.root entry.1) i entry.2) rows.roots.entries
      rows.stayingPositions := by
  have hEntries : ∀ entry ∈ rows.roots.entries, ∃ i, rows.staying? entry.1 = some i ∧
      rows.tops[i]? = some entry.2 := by
    intro entry hEntry
    have hGet := Ledger.get?_eq_some_iff.2 hEntry
    rwa [get?_roots, Option.bind_eq_some_iff] at hGet
  have hPositions : rows.stayingPositions =
      rows.roots.entries.filterMap fun entry => rows.staying? entry.1 := by
    rw [stayingPositions, ← Ledger.keys_ofItems DataRow.valueId (fun row => row),
      ← roots_eq_ofItems, Ledger.keys, List.filterMap_map]
    rfl
  rw [hPositions]
  generalize rows.roots.entries = entries at hEntries
  induction entries with
  | nil => exact .nil
  | cons entry entries ih =>
    obtain ⟨i, hStays, hRow⟩ := hEntries entry List.mem_cons_self
    simp only [List.filterMap_cons, hStays]
    exact .cons (.root hStays hRow) (ih fun x hx => hEntries x (List.mem_cons_of_mem _ hx))

/-- The positions of a forest without a limit of levels. -/
def shape : Forest Nat :=
  Forest.unfold rows.kidsOf rows.nested.length rows.stayingPositions

/-- The positions of a forest, as far below the top as a depth goes. -/
def shapeTo (depth : NestingDepth) : Forest Nat :=
  Forest.unfold rows.kidsOf (levels depth rows) rows.stayingPositions

/-- The points of an assembly are the rows of the positions that unfold from those that stay. -/
theorem traverse_shapeTo (depth : NestingDepth) :
    Forest.traverse rows.entryAt? (rows.shapeTo depth) = some (ofDataRows depth rows).points := by
  apply Forest.traverse_of_forall₂
  simp only [shapeTo, Forest.unfold, ofDataRows, List.forall₂_map_left_iff,
    List.forall₂_map_right_iff]
  have hRoots := (List.forall₂_and_left rows.stayingPositions rows.roots.entries).2
    ⟨fun i (hMem : i ∈ rows.stayingPositions) => hMem, rows.forall₂_roots.flip⟩
  apply hRoots.imp
  rintro i entry ⟨hMem, hAt⟩
  exact rows.traverse_unfold (levels depth rows) hAt (.root hMem)

/-- The points are the entries at the positions of the shape. -/
theorem traverse_shape :
    Forest.traverse rows.entryAt? rows.shape = some (ofDataRows .full rows).points :=
  rows.traverse_shapeTo .full

end Rows

end Assembly

end Collocation
