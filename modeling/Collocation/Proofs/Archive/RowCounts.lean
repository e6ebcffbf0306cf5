import Collocation.Proofs.Archive.Retrieval
import Collocation.Proofs.Assembly.Balance

/-!
# Counts of rows

What becomes of the rows of an execution when a forest of it is loaded. Rows whose flag of the top
can be read are at the top or nested; each of these is used for one entry or dropped. Rows without
a flag are not read at all.
-/

set_option autoImplicit false

namespace Collocation

namespace Store

/-- Whether the flag of the top can be read. -/
def isFlagged (row : Row) : Bool :=
  (row.boolean "is_primary").isOk

/-- Rows are at the top or nested if their flag can be read. -/
theorem length_rowsAt (store : Store) (id : Uuid) :
    (store.rowsAt id true).length + (store.rowsAt id false).length =
      (store.dataRows id).countP isFlagged := by
  -- A flag says one of the two things, if anything.
  have hRow : ∀ row : Row, (if hasFlag row true then 1 else 0) +
      (if hasFlag row false then 1 else 0) = if isFlagged row then 1 else 0 := by
    intro row
    rw [isFlagged, hasFlag, hasFlag]
    cases row.boolean "is_primary" with
    | error failure => rfl
    | ok flag => cases flag <;> rfl
  rw [rowsAt, rowsAt, ← List.countP_eq_length_filter, ← List.countP_eq_length_filter]
  induction store.dataRows id with
  | nil => rfl
  | cons row rows ih =>
    have hFirst := hRow row
    rw [List.countP_cons, List.countP_cons, List.countP_cons]
    omega

end Store

namespace Assembly

/-- Rows that can be decoded are accounted for, with whatever ids and references and to whatever
depth. The walk through them ends, no row is used twice, and the entries and the dropped rows are
all that were read. So it is with the points of a trimmed forest and the rows at the top, and with
what is loaded of an execution and its rows that have a flag. -/
theorem balanced_of_decoded {tops nested : List Row} {rows : Rows}
    (hTops : List.Forall₂ (fun row data => DataRow.ofRow row = .ok data) tops rows.tops)
    (hNested : List.Forall₂ (fun row data => DataRow.ofRow row = .ok data) nested rows.nested)
    (depth : NestingDepth) :
    (∃ (assembly : Assembly) (visited : List (Nat × Nat)),
      ofRows depth tops nested = .ok assembly ∧
      (Walk.step (rows.below depth))^[Forest.size assembly.points] rows.walk = ⟨[], visited⟩ ∧
      assembly.Balanced rows.entryAt? (tops.length + nested.length) (visited.map Prod.snd) ∧
      Forest.size assembly.points + assembly.dropped = tops.length + nested.length) ∧
    (∃ assembly : Assembly,
      trimmed tops = .ok assembly ∧
      assembly.Balanced rows.outlineAt? tops.length rows.stayingPositions ∧
      Forest.size assembly.points + assembly.dropped = tops.length) ∧
    ∀ (store : Store) (id : Uuid) (assembly : Assembly),
      store.closed = false → store.assemble depth id false = .ok assembly →
        Forest.size assembly.points + assembly.dropped =
          (store.dataRows id).countP Store.isFlagged := by
  have hRows := ofRows_of_forall₂ depth hTops hNested
  have hWalk := rows.iterate_walk depth
  have hBalanced := rows.balanced_ofDataRows depth
  have hTrimmed := trimmed_of_forall₂ hTops
  have hOutlines := balanced_trimmed hTops hTrimmed
  rw [← rows.size_points] at hWalk
  rw [← hTops.length_eq, ← hNested.length_eq] at hBalanced
  refine ⟨⟨_, _, hRows, hWalk, hBalanced, hBalanced.size_add_dropped⟩,
    ⟨_, hTrimmed, hOutlines, hOutlines.size_add_dropped⟩, ?_⟩
  intro store id assembly hOpen hLoaded
  rw [Store.assemble_eq hOpen] at hLoaded
  rw [size_add_dropped_of_ofRows hLoaded, Store.length_rowsAt]

/-- Of the rows of the tangle two stay at the top, and one refers to a row that was replaced. The
others refer in a circle, or were replaced. -/
theorem balanced_of_decoded_tangled :
    ∃ assembly : Assembly,
      ofRows .single (tangledTops.map FlatRow.toRow) (tangledNested.map FlatRow.toRow) =
        .ok assembly ∧
      Forest.size assembly.points = 3 ∧ assembly.dropped = 4 := by
  obtain ⟨hTops, hNested⟩ := forall₂_tangled
  obtain ⟨⟨assembly, visited, hRows, -, -, hCount⟩, -, -⟩ :=
    balanced_of_decoded hTops hNested .single
  have hAssembly : assembly = ofDataRows .single tangledRows :=
    Except.ok.inj (hRows.symm.trans (ofRows_of_forall₂ .single hTops hNested))
  have hSize : Forest.size assembly.points = 3 := by
    rw [hAssembly]
    decide +kernel
  refine ⟨assembly, hRows, hSize, ?_⟩
  rw [hSize] at hCount
  exact Nat.add_left_cancel (hCount.trans (rfl : tangledTops.length + tangledNested.length = 3 + 4))

end Assembly

end Collocation
