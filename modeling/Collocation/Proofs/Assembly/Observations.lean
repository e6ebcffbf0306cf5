import Collocation.Proofs.Assembly.Reachability

/-!
# Observations that are read back

What an assembly shows of the observations that were written. An observation without a payload is
read back with the empty list. The entry that is shown of it has the payload as primary at the top
and as secondary below, and leads back to the observation.
-/

set_option autoImplicit false

namespace Collocation

/-! ## Entries -/

namespace Observation

/-- An observation as it is read back. -/
def settled (o : Observation) : Observation :=
  { o with data := some (o.data.getD (.array [])) }

/-- The payload of an observation, if there is one, is what is read of its text. -/
def Readable (o : Observation) : Prop :=
  ∀ payload, o.data = some payload → Json.parse? payload.compact = some payload

/-- What is shown of an observation at the top, or below it. -/
def entry (atTop : Bool) (o : Observation) : Entry :=
  { id := some o.id
    longitude := o.longitude
    latitude := o.latitude
    label := some (positionLabel o.longitude o.latitude)
    source := o.source
    time := o.time
    platform := o.platform
    device := o.device
    depth := o.depth
    fileUrl := o.fileUrl
    primary := if atTop then o.data else none
    secondary := if atTop then none else o.data }

/-- An entry leads back to its observation. -/
theorem observation?_entry (atTop : Bool) (o : Observation) :
    (o.entry atTop).observation? = some o := by
  obtain ⟨id, longitude, latitude, source, time, platform, device, depth, fileUrl, data⟩ := o
  cases atTop <;> cases data <;> rfl

/-- The text of a readable payload is read back, and that of a missing one as an empty list. -/
theorem parse?_payloadText {o : Observation} (h : o.Readable) :
    Json.parse? (FlatRow.payloadText o.data) = some (o.data.getD (.array [])) := by
  cases hData : o.data with
  | none =>
    have hText : Json.parse? "[]" = some (.array []) := by cbv
    exact hText
  | some payload => exact h payload hData

end Observation

namespace Point

/-- What is shown of a point: an entry at the top, and the entries of its matches below. -/
def shown (point : Point) : EntryTree :=
  .node (point.value.entry true) (Forest.map (Observation.entry false) point.children)

/-- Points that are shown are as many as before. -/
theorem size_map_shown (points : List Point) :
    Forest.size (List.map shown points) = Forest.size points := by
  induction points with
  | nil => rfl
  | cons point points ih =>
    obtain ⟨observation, children⟩ := point
    simp only [List.map_cons, Forest.size, ih, shown, Tree.size, Tree.children, Forest.size_map]

/-- What is shown of a point leads back to it. -/
theorem toPoint?_shown (point : Point) : EntryTree.toPoint? (shown point) = some point := by
  obtain ⟨observation, children⟩ := point
  have hChildren : Forest.traverse Entry.observation?
      (Forest.map (Observation.entry false) children) = some children := by
    rw [Forest.traverse_of_map]
    simp only [Observation.observation?_entry]
    rw [Forest.traverse_eq_some (g := fun o => o) fun _ _ => rfl, Forest.map_id]
  simp only [shown, EntryTree.toPoint?, Tree.traverse, Tree.value, Tree.children,
    Observation.observation?_entry, hChildren]
  rfl

end Point

/-! ## Rows -/

/-- The observation that a data row is of. -/
def DataRow.observation (row : DataRow) : Observation :=
  { id := row.valueId
    longitude := row.longitude
    latitude := row.latitude
    source := row.source
    time := row.time
    platform := row.platform
    device := row.device
    depth := row.depth
    fileUrl := row.fileUrl
    data := some row.payload }

namespace FlatRow

/-- The measurements of a row are the text of some payload. -/
def Readable (row : FlatRow) : Prop :=
  (Json.parse? row.measurements).isSome

/-- What is read of a row. -/
def decoded (row : FlatRow) : DataRow :=
  row.dataRow ((Json.parse? row.measurements).getD .null)

/-- The observation that is read of a row. -/
def observation (row : FlatRow) : Observation :=
  row.decoded.observation

/-- A readable flat row is decoded from its columns. -/
theorem ofRow_toRow {row : FlatRow} (h : row.Readable) :
    DataRow.ofRow row.toRow = .ok row.decoded := by
  obtain ⟨payload, hPayload⟩ := Option.isSome_iff_exists.1 h
  rw [decoded, hPayload]
  exact DataRow.ofRow_toRow hPayload

/-- Rows that are written are read one by one. -/
theorem mapM_ofRow_toRow {rows : List FlatRow} (h : ∀ row ∈ rows, row.Readable) :
    (rows.map toRow).mapM DataRow.ofRow = .ok (rows.map decoded) := by
  apply mapM_eq_ok_of_forall₂
  rw [List.forall₂_map_left_iff, List.forall₂_map_right_iff, List.forall₂_same]
  exact fun row hRow => ofRow_toRow (h row hRow)

variable {executionId rowId : Uuid} {parent : Option Uuid} {o : Observation}

/-- The flat row of a readable observation is readable. -/
theorem readable_ofObservation (h : o.Readable) :
    (ofObservation executionId rowId parent o).Readable := by
  rw [Readable, ofObservation, Observation.parse?_payloadText h]
  rfl

/-- The row of an observation is read back as the settled observation. -/
theorem observation_ofObservation (h : o.Readable) :
    (ofObservation executionId rowId parent o).observation = o.settled := by
  rw [observation, decoded, ofObservation, Observation.parse?_payloadText h]
  rfl

end FlatRow

/-! ## Points -/

namespace Assembly.Rows

variable (rows : Rows)

/-- The entry at a position is that of the row which was read there. -/
theorem entryAt?_eq_map (i : Nat) :
    rows.entryAt? i =
      rows.read[i]?.map fun row => row.observation.entry (decide (i < rows.tops.length)) := by
  rw [entryAt?]
  apply Option.map_congr
  intro row _
  by_cases hTop : i < rows.tops.length <;>
    simp [hTop, Observation.entry, DataRow.observation]

/-- Nested positions are below the top, and the others at the top. -/
theorem value_lt_of_mem_shape {tree : Tree Nat} (h : tree ∈ rows.shape) :
    tree.value < rows.tops.length ∧
      ∀ j ∈ Forest.values tree.children, rows.tops.length ≤ j := by
  constructor
  · have hTop : tree.value ∈ Forest.tops rows.shape := List.mem_map_of_mem h
    rw [shape, Forest.tops_unfold] at hTop
    obtain ⟨valueId, -, hStays⟩ := List.mem_filterMap.1 hTop
    exact rows.staying?_lt hStays
  · intro j hj
    have hRefers : ∃ i, rows.Refers j i := by
      rcases Forest.mem_tops_or_children hj with hTop | ⟨below, hBelow, hTop⟩
      · have hTree := Forest.mem_subtrees_of_mem h
        exact ⟨tree.value, ((rows.arranged_shape.children tree hTree).2 j).1 hTop⟩
      · have hTree : below ∈ Forest.subtrees rows.shape :=
          Forest.mem_subtrees_of_below h hBelow
        exact ⟨below.value, ((rows.arranged_shape.children below hTree).2 j).1 hTop⟩
    obtain ⟨i, hLe, -⟩ := hRefers
    exact hLe

/-- The points of a full assembly show the observations of the rows in its shape. -/
theorem points_eq_shown {arranged : Forest DataRow}
    (h : Forest.traverse (fun i => rows.read[i]?) rows.shape = some arranged) :
    (ofDataRows .full rows).points =
      List.map Point.shown (Forest.map DataRow.observation arranged) := by
  have key : ∀ positions : Forest Nat, (∀ tree ∈ positions, tree.value < rows.tops.length ∧
      ∀ j ∈ Forest.values tree.children, rows.tops.length ≤ j) →
      Forest.traverse rows.entryAt? positions =
        (Forest.traverse (fun i => rows.read[i]?) positions).map fun trees =>
          List.map Point.shown (Forest.map DataRow.observation trees) := by
    intro positions hPositions
    induction positions with
    | nil => rfl
    | cons tree positions ih =>
      obtain ⟨i, children⟩ := tree
      obtain ⟨hTop, hBelow⟩ : i < rows.tops.length ∧
          ∀ j ∈ Forest.values children, rows.tops.length ≤ j := hPositions _ List.mem_cons_self
      have hRest := ih fun tree hTree => hPositions tree (List.mem_cons_of_mem _ hTree)
      have hValue : rows.entryAt? i = rows.read[i]?.map fun row => row.observation.entry true := by
        rw [entryAt?_eq_map, decide_eq_true hTop]
      have hChildren : Forest.traverse rows.entryAt? children =
          (Forest.traverse (fun i => rows.read[i]?) children).map
            (Forest.map fun row => row.observation.entry false) := by
        rw [← Forest.traverse_map]
        apply Forest.traverse_congr
        intro j hj
        rw [entryAt?_eq_map, decide_eq_false (Nat.not_lt.2 (hBelow j hj))]
      simp only [Forest.traverse, Tree.traverse, hValue, hChildren, hRest]
      cases rows.read[i]? <;>
        cases Forest.traverse (fun i => rows.read[i]?) children <;>
          cases Forest.traverse (fun i => rows.read[i]?) positions <;>
            simp [Forest.map, Tree.map, Point.shown, Tree.value, Tree.children, Forest.map_map]
  have hPoints := key rows.shape fun tree hTree => rows.value_lt_of_mem_shape hTree
  rw [rows.traverse_shape, h] at hPoints
  exact Option.some.inj hPoints

end Assembly.Rows

end Collocation
