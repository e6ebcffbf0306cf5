import Collocation.Proofs.Assembly.Levels
import Collocation.Proofs.Assembly.Reachability

/-!
# Outlines

A trimmed forest has the outline of what is at the top of the whole forest: positions, sources and
times, and nothing else. The rows that the whole forest is made of can all be read for the trimmed
one, and of rows with one identifier either forest keeps the last, at the place of the first.
-/

set_option autoImplicit false

namespace Collocation

/-! ## What an outline is -/

/-- All of an entry that a trimmed forest has. -/
def Entry.outline (entry : Entry) : Entry :=
  { longitude := entry.longitude
    latitude := entry.latitude
    source := entry.source
    time := entry.time }

/-- A tree of which only the outline of its root is left. -/
def EntryTree.outline (tree : EntryTree) : EntryTree :=
  .node tree.value.outline []

/-- What is written of an outline are its four fields. -/
theorem EntryTree.toJson_outline (tree : EntryTree) :
    EntryTree.toJson tree.outline =
      .object
        [ ("lon", .ofDouble tree.value.longitude), ("lat", .ofDouble tree.value.latitude),
          ("source", .string tree.value.source), ("time", tree.value.time.toJson) ] := rfl

/-- The outline of a data row. -/
def DataRow.outlined (row : DataRow) : Entry :=
  row.bareEntry.outline

/-- Whatever place a row has, its entry has the same outline. -/
theorem DataRow.outline_entry (row : DataRow) (place : Place) :
    (row.entry place).outline = row.outlined := by
  cases place <;> rfl

namespace Assembly

/-! ## Rows that are read twice -/

/-- A row that can be decoded can be read for a trimmed forest, and has its outline there. -/
theorem trimmedEntry_of_ofRow {row : Row} {data : DataRow} (h : DataRow.ofRow row = .ok data) :
    trimmedEntry row = .ok (data.valueId, data.outlined) := by
  have hRead := DataRow.ofRow_eq_ok_iff.1 h
  rw [trimmedEntry, hRead.valueId, hRead.longitude, hRead.latitude, hRead.source, hRead.time]
  rfl

/-- The trimmed entries of rows that decode are their identifiers and outlines. -/
theorem mapM_trimmedEntry {tops : List Row} {rows : List DataRow}
    (h : List.Forall₂ (fun row data => DataRow.ofRow row = .ok data) tops rows) :
    tops.mapM trimmedEntry = .ok (rows.map fun row => (row.valueId, row.outlined)) := by
  apply mapM_eq_ok_of_forall₂
  rw [List.forall₂_map_right_iff]
  exact h.imp fun _ _ => trimmedEntry_of_ofRow

/-- The entries that stay are in the slots of their identifiers, and all others were replaced. -/
theorem foldl_trimming (entries : List (String × Entry)) :
    (entries.foldl Trimming.add { points := .empty, replaced := 0 }).points =
        SlotTable.ofItems Prod.fst Prod.snd entries ∧
      (entries.foldl Trimming.add { points := .empty, replaced := 0 }).replaced +
        (SlotTable.ofItems Prod.fst Prod.snd entries).items.size = entries.length := by
  induction entries using List.reverseRecOn with
  | nil => exact ⟨rfl, rfl⟩
  | append_singleton entries entry ih =>
    obtain ⟨hPoints, hLength⟩ := ih
    rw [List.foldl_append, List.foldl_cons, List.foldl_nil, SlotTable.ofItems_concat, Trimming.add,
      hPoints, SlotTable.size_put, List.length_append]
    refine ⟨rfl, ?_⟩
    cases (SlotTable.ofItems Prod.fst Prod.snd entries).slot? entry.1 with
    | some slot =>
      simp only [List.length_singleton]
      omega
    | none =>
      simp only [List.length_singleton]
      omega

/-- The trimmed forest of rows that can be decoded has the outlines of the rows that stay. -/
theorem trimmed_of_forall₂ {tops : List Row} {rows : Rows}
    (h : List.Forall₂ (fun row data => DataRow.ofRow row = .ok data) tops rows.tops) :
    trimmed tops =
      .ok
        { points := rows.roots.values.map fun row => .node row.outlined []
          dropped := tops.length - rows.roots.size } := by
  have hLedger : Ledger.ofItems Prod.fst Prod.snd
      (rows.tops.map fun row => (row.valueId, row.outlined)) =
        Ledger.ofItems DataRow.valueId DataRow.outlined rows.tops :=
    Ledger.putAll_map Prod.fst Prod.snd (.empty : Ledger String Entry)
      (fun row : DataRow => (row.valueId, row.outlined)) rows.tops
  have hValues : (Ledger.ofItems DataRow.valueId DataRow.outlined rows.tops).values =
      rows.roots.values.map DataRow.outlined :=
    Ledger.values_ofItems_map DataRow.valueId (fun row => row) DataRow.outlined rows.tops
  obtain ⟨hPoints, hReplaced⟩ :=
    foldl_trimming (rows.tops.map fun row => (row.valueId, row.outlined))
  have hItems : (SlotTable.ofItems Prod.fst Prod.snd
      (rows.tops.map fun row => (row.valueId, row.outlined))).items.toList =
        rows.roots.values.map DataRow.outlined := by
    rw [← SlotTable.values_toLedger, SlotTable.toLedger_ofItems, hLedger, hValues]
  have hStaying := congrArg List.length hItems
  rw [Array.length_toList, List.length_map, Ledger.length_values] at hStaying
  rw [hStaying, List.length_map, ← h.length_eq] at hReplaced
  rw [trimmed, mapM_trimmedEntry h]
  refine congrArg Except.ok (congrArg₂ Assembly.mk ?_ (Nat.eq_sub_of_add_eq hReplaced))
  rw [hPoints, hItems, List.map_map]
  rfl

/-- What stands at the top of a forest is what its roots are. -/
theorem outline_points (depth : NestingDepth) (rows : Rows) :
    (ofDataRows depth rows).points.map EntryTree.outline =
      rows.roots.values.map fun row => .node row.outlined [] := by
  have hGrow : ∀ levels place (row : DataRow),
      EntryTree.outline (grow rows.links levels place row) = .node row.outlined [] := by
    intro levels place row
    rw [EntryTree.outline, ← row.outline_entry place]
    cases levels <;> rfl
  rw [ofDataRows, Ledger.values, List.map_map, List.map_map]
  exact List.map_congr_left fun entry _ => hGrow _ _ _

/-- If rows can be assembled, those of the top can be trimmed. Point by point the trimmed forest has
the outlines of the whole one, and nothing else is written of them; the rows that are no points are
the dropped ones. -/
theorem trimmed_of_ofRows {depth : NestingDepth} {tops nested : List Row} {full : Assembly}
    (h : ofRows depth tops nested = .ok full) :
    ∃ assembly, trimmed tops = .ok assembly ∧
      assembly.points = full.points.map EntryTree.outline ∧
      (∀ point ∈ assembly.points, EntryTree.toJson point =
        .object
          [ ("lon", .ofDouble point.value.longitude), ("lat", .ofDouble point.value.latitude),
            ("source", .string point.value.source), ("time", point.value.time.toJson) ]) ∧
      assembly.dropped + assembly.points.length = tops.length := by
  obtain ⟨rows, hTops, -, rfl⟩ := ofRows_eq_ok_iff.1 h
  have hRows := forall₂_of_mapM_eq_ok hTops
  have hLe : rows.roots.size ≤ tops.length := by
    rw [hRows.length_eq]
    exact Ledger.size_ofItems_le _ _ rows.tops
  have hLength : rows.roots.values.length = rows.roots.size := List.length_map _
  refine ⟨_, trimmed_of_forall₂ hRows, (outline_points depth rows).symm, ?_, ?_⟩
  · intro point hPoint
    obtain ⟨row, -, rfl⟩ := List.mem_map.1 hPoint
    exact EntryTree.toJson_outline (.node row.bareEntry [])
  · rw [List.length_map, hLength]
    exact Nat.sub_add_cancel hLe

/-- The rows of the tangle can be decoded. -/
theorem forall₂_tangled :
    List.Forall₂ (fun row data => DataRow.ofRow row = .ok data)
        (tangledTops.map FlatRow.toRow) tangledRows.tops ∧
      List.Forall₂ (fun row data => DataRow.ofRow row = .ok data)
        (tangledNested.map FlatRow.toRow) tangledRows.nested := by
  constructor <;>
    simp only [tangledTops, tangledNested, tangledRows, List.map_cons, List.map_nil,
      List.forall₂_cons, ofRow_bareRow, true_and, List.Forall₂.nil]

/-- Of three rows with two identifiers the trimmed forest has the points of the whole one. -/
theorem trimmed_of_ofRows_tangled :
    ∃ full assembly,
      ofRows .full (tangledTops.map FlatRow.toRow) (tangledNested.map FlatRow.toRow) = .ok full ∧
      trimmed (tangledTops.map FlatRow.toRow) = .ok assembly ∧
      assembly.points = full.points.map EntryTree.outline ∧
      assembly.dropped = 1 := by
  obtain ⟨hTops, hNested⟩ := forall₂_tangled
  have hFull := ofRows_of_forall₂ .full hTops hNested
  have hPoints : (ofDataRows .full tangledRows).points.length = 2 := by decide +kernel
  obtain ⟨assembly, hTrimmed, hOutlines, -, hDropped⟩ := trimmed_of_ofRows hFull
  refine ⟨_, assembly, hFull, hTrimmed, hOutlines, ?_⟩
  rw [hOutlines, List.length_map, hPoints, List.length_map] at hDropped
  exact Nat.add_right_cancel (hDropped.trans (rfl : tangledTops.length = 1 + 2))

end Assembly

end Collocation
