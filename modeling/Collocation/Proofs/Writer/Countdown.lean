import Collocation.Proofs.Writer.Retries
import Mathlib.Algebra.Order.Floor.Div
import Mathlib.Data.List.DropRight
import Mathlib.Data.List.Rotate

/-!
# Recovery from a countdown

A fault that rejects the first writes only counts down over rows, chunks and passes alike. So the
number of passes is told by how often the rows fit into the count. The first rows that are accepted
are the last ones of a pass, so that with one pass more the rows are stored rotated, and with none
left their end is stored and nothing else.
-/

set_option autoImplicit false

namespace Collocation

/-! ## A countdown over rows -/

namespace WriteFault

variable (count : Nat) (rows : List FlatRow)

/-- A countdown accepts a row just if it was asked about as many as it counts. -/
theorem accepts_first (before : List Row) (row : Row) :
    accepts (some (.first count)) before row = decide (count ≤ before.length) := by
  have hAsked : (before.reverse ++ []).length = before.length := by simp
  show (!decide ((before.reverse ++ []).length < count)) = _
  rw [hAsked, ← decide_not, decide_eq_decide, Nat.not_lt]

/-- A countdown passes over so many rows, and all rows behind them are accepted. -/
theorem accepted_first : accepted (some (.first count)) [] rows = rows.drop count := by
  induction rows using List.reverseRecOn with
  | nil => simp [accepted]
  | append_singleton rows row ih =>
    rw [accepted_concat, ih, accepts_first, List.nil_append, List.length_map, List.drop_append]
    by_cases hLe : count ≤ rows.length
    · rw [decide_eq_true hLe, if_pos rfl, Nat.sub_eq_zero_of_le hLe, List.drop_zero]
    · have hDrop : [row].drop (count - rows.length) = [] :=
        List.drop_eq_nil_of_le (by simp only [List.length_singleton]; omega)
      rw [decide_eq_false hLe, if_neg Bool.false_ne_true, hDrop]

/-- In a pass it accepts a row just if as many come before this one, in this pass and in the earlier
ones. -/
theorem acceptsIn_first {pass number : Nat} (h : number < rows.length) :
    acceptsIn (some (.first count)) rows pass number =
      decide (count ≤ pass * rows.length + number) := by
  have hTake : min number rows.length = number := Nat.min_eq_left (Nat.le_of_lt h)
  rw [acceptsIn, List.getElem?_eq_getElem h, Option.any_some, accepts_first]
  simp [askedIn, hTake]

variable {rows}

/-- The number of passes in which a count runs out. -/
theorem passes_le_iff (hRows : rows ≠ []) (pass : Nat) :
    count ⌈/⌉ rows.length ≤ pass ↔ count ≤ pass * rows.length := by
  rw [ceilDiv_le_iff_le_mul (List.length_pos_iff.2 hRows), Nat.mul_comm]

/-- The full passes are those that begin when the count has run out. -/
theorem fullIn_first_iff (hRows : rows ≠ []) (pass : Nat) :
    fullIn (some (.first count)) rows pass = true ↔ count ⌈/⌉ rows.length ≤ pass := by
  have hLength := List.length_pos_iff.2 hRows
  rw [fullIn_eq_true_iff, passes_le_iff count hRows]
  constructor
  · intro hAccepts
    have hFirst := hAccepts 0 hLength
    rwa [acceptsIn_first count rows hLength, decide_eq_true_eq] at hFirst
  · intro hLe number hNumber
    rw [acceptsIn_first count rows hNumber, decide_eq_true_eq]
    omega

/-- The first full pass under a countdown is the one that begins after its end, if there are
attempts enough. -/
theorem fullPass?_first (hRows : rows ≠ []) (attempts : Nat) :
    fullPass? (some (.first count)) rows attempts =
      if count ⌈/⌉ rows.length < attempts then some (count ⌈/⌉ rows.length) else none := by
  split
  · next hLt =>
    refine (fullPass?_eq_some_iff _ _).2 ⟨hLt, (fullIn_first_iff count hRows _).2 le_rfl, ?_⟩
    intro earlier hEarlier hFull
    exact Nat.not_le_of_lt hEarlier ((fullIn_first_iff count hRows _).1 hFull)
  · next hNot =>
    refine (fullPass?_eq_none_iff _ _).2 fun pass hPass hFull => hNot ?_
    exact Nat.lt_of_le_of_lt ((fullIn_first_iff count hRows _).1 hFull) hPass

/-- As many writes are rejected as are counted down, or all. -/
theorem length_rejections_first (rows : List FlatRow) (passes : Nat) :
    (rejections (some (.first count)) rows passes).length = min count (passes * rows.length) := by
  have hAll := length_accepted_rounds (some (.first count)) rows passes
  have hLength : (List.replicate passes rows).flatten.length = passes * rows.length := by simp
  rw [accepted_first, List.length_drop, hLength] at hAll
  omega

/-! ## What lands -/

/-- What a count leaves of some passes is a part of the last one. -/
theorem rest_le (hRows : rows ≠ []) {passes : Nat} (hPasses : passes ≤ count ⌈/⌉ rows.length) :
    passes * rows.length - count ≤ rows.length := by
  cases passes with
  | zero => simp
  | succ passes =>
    have hNot := mt (passes_le_iff count hRows passes).2 (Nat.not_le_of_lt hPasses)
    rw [Nat.succ_mul]
    omega

/-- If the count runs out in the last of some passes, what is left of them is the end of the rows.
-/
theorem drop_flatten_replicate (hRows : rows ≠ []) {passes : Nat}
    (hPasses : passes ≤ count ⌈/⌉ rows.length) :
    (List.replicate passes rows).flatten.drop count =
      rows.rtake (passes * rows.length - count) := by
  cases passes with
  | zero => simp
  | succ passes =>
    have hNot := mt (passes_le_iff count hRows passes).2 (Nat.not_le_of_lt hPasses)
    have hBefore : passes * rows.length ≤ count := Nat.le_of_not_le hNot
    have hEarlier : (List.replicate passes rows).flatten.length = passes * rows.length := by simp
    rw [List.replicate_succ', List.flatten_append, List.flatten_singleton, List.drop_append,
      List.drop_eq_nil_of_le (hEarlier ▸ hBefore), List.nil_append, hEarlier, List.rtake]
    by_cases hLe : count ≤ (passes + 1) * rows.length
    · congr 1
      rw [Nat.succ_mul] at hLe ⊢
      omega
    · rw [Nat.succ_mul] at hLe ⊢
      rw [List.drop_eq_nil_of_le (by omega), List.drop_eq_nil_of_le (by omega)]

variable (hNodup : (rows.map FlatRow.rowId).Nodup)
include hNodup

/-- Without a full pass the rows land that are left of the last one. -/
theorem landed_first_of_le (hRows : rows ≠ []) {passes : Nat}
    (hPasses : passes ≤ count ⌈/⌉ rows.length) :
    landed (some (.first count)) rows passes = rows.rtake (passes * rows.length - count) := by
  have hEnd : (rows.rtake (passes * rows.length - count)).Nodup :=
    (hNodup.of_map _).sublist (List.drop_sublist _ _)
  rw [← eraseDups_accepted _ hNodup, accepted_first, drop_flatten_replicate count hRows hPasses,
    eraseDups_of_nodup hEnd]

/-- With the first full pass the others land behind them, so that the rows are rotated. -/
theorem landed_first_full (hRows : rows ≠ []) :
    landed (some (.first count)) rows (count ⌈/⌉ rows.length + 1) =
      rows.rotate (count % rows.length) := by
  -- The end of the rows lands in the pass in which the count runs out, and the full pass after it
  -- brings the others. If the count runs out between two passes, that end is empty.
  generalize hPasses : count ⌈/⌉ rows.length = passes
  have hLe := (passes_le_iff count hRows passes).1 (Nat.le_of_eq hPasses)
  have hEarlier : (List.replicate passes rows).flatten.length = passes * rows.length := by simp
  have hLeft := rest_le count hRows (Nat.le_of_eq hPasses.symm)
  have hCount : (rows.length - (passes * rows.length - count)) % rows.length =
      count % rows.length := by
    rw [← Nat.add_mul_mod_self_right _ passes, ← Nat.add_mod_right count]
    congr 1
    omega
  rw [← eraseDups_accepted _ hNodup, accepted_first, List.replicate_succ', List.flatten_append,
    List.flatten_singleton, List.drop_append_of_le_length (hEarlier ▸ hLe),
    drop_flatten_replicate count hRows (Nat.le_of_eq hPasses.symm), List.rtake,
    eraseDups_drop_append (hNodup.of_map _), ← List.rotate_eq_drop_append_take (Nat.sub_le _ _),
    ← List.rotate_mod, hCount]

end WriteFault

/-! ## Writings -/

open WriteFault

/-- What a store has gained of rows that were written to it: how many writes it has counted, how
many of them it has rejected, and which rows stand behind what was there. -/
structure Store.Gained (before after : Store) (writes rejected : Nat) (landed : List FlatRow) :
    Prop where
  dataWrites : after.dataWrites = before.dataWrites + writes
  rejectedWrites : after.rejectedWrites = before.rejectedWrites + rejected
  /-- What is told of the writes is a word, which goes on modulo 2 ^ 64. -/
  toldWrites : after.toldWrites = before.toldWrites + .ofNat writes
  toldRejections : after.toldRejections = before.toldRejections + .ofNat rejected
  entries : after.data.entries =
    before.data.entries ++ landed.map fun row => (row.rowId, row.toRow)

/-- What is gained of new rows in so many passes, of which a countdown rejects the first writes. -/
theorem Store.gained_insertAll {store : Store} {rows : List FlatRow} (count : Nat)
    (hOpen : store.closed = false) (hNodup : (rows.map FlatRow.rowId).Nodup)
    (hFresh : ∀ row ∈ rows, row.rowId ∉ store.data.keys) (passes : Nat) :
    store.Gained ((store.setFault (some (.first count))).insertAll (askedIn rows passes))
      (passes * rows.length) (min count (passes * rows.length))
      (landed (some (.first count)) rows passes) := by
  have hOpen' : (store.setFault (some (.first count))).closed = false := hOpen
  have hPassed := Store.passed_insertAll hOpen' hNodup passes
  have hRejected := hPassed.rejectedWrites
  rw [Store.setFault, length_rejections_first] at hRejected
  exact
    { dataWrites := hPassed.dataWrites
      rejectedWrites := hRejected
      toldWrites := hPassed.toldWrites
      toldRejections := toldRejections_of_add hRejected
      entries := Store.entries_insertAll_rounds hOpen' hNodup hFresh passes }

/-- After a countdown was set, a writing of new rows is told by how often they fit into the count.
If there are more attempts, it ends with the pass in which nothing is left to count, and the rows
are stored rotated. If there are not, it fails, and the end of the rows is stored that the count did
not reach. -/
theorem Writer.write_after_countdown (writer : Writer) {store : Store} {rows : List FlatRow}
    (executionId : Uuid) (count : Nat) (hOpen : store.closed = false)
    (hTimeout : ∀ limit, writer.config.rowTimeout = some limit → store.writeDelay ≤ limit)
    (hRows : rows ≠ []) (hNodup : (rows.map FlatRow.rowId).Nodup)
    (hFresh : ∀ row ∈ rows, row.rowId ∉ store.data.keys) :
    (count ⌈/⌉ rows.length < writer.config.maxAttempts.toNat →
      (writer.write rows (store.setFault (some (.first count)))).result writer executionId
          rows.length =
        .ok ⟨rows.length, count ⌈/⌉ rows.length + 1, writer.chunkCount rows.length⟩ ∧
      store.Gained (writer.write rows (store.setFault (some (.first count)))).store
        ((count ⌈/⌉ rows.length + 1) * rows.length) count (rows.rotate (count % rows.length))) ∧
    (writer.config.maxAttempts.toNat ≤ count ⌈/⌉ rows.length →
      (writer.write rows (store.setFault (some (.first count)))).result writer executionId
          rows.length =
        .error (.writeFailed executionId rows.length writer.config.maxAttempts.toNat) ∧
      (writer.write rows (store.setFault (some (.first count)))).passes.length =
        writer.config.maxAttempts.toNat ∧
      store.Gained (writer.write rows (store.setFault (some (.first count)))).store
        (writer.config.maxAttempts.toNat * rows.length)
        (min count (writer.config.maxAttempts.toNat * rows.length))
        (rows.rtake (writer.config.maxAttempts.toNat * rows.length - count)) ∧
      (rows.rtake (writer.config.maxAttempts.toNat * rows.length - count)).length =
        writer.config.maxAttempts.toNat * rows.length - count) := by
  have hOpen' : (store.setFault (some (.first count))).closed = false := hOpen
  have hPatient : writer.Patient (store.setFault (some (.first count))) := patient_of_le hTimeout
  have hFault : (store.setFault (some (.first count))).fault = some (.first count) := rfl
  have hFirst := fullPass?_first count hRows writer.config.maxAttempts.toNat
  have hGained := Store.gained_insertAll count hOpen hNodup hFresh
  have hResult := result_write hOpen' hPatient rows executionId
  have hLength := length_passes_write hOpen' hPatient rows
  have hStore : (writer.write rows (store.setFault (some (.first count)))).store = _ :=
    (writePasses_toRow hOpen' hPatient rows writer.config.maxAttempts.toNat).1
  rw [hFault, passCount, hFirst] at hStore hLength
  rw [hFault, hFirst] at hResult
  constructor
  · intro hLt
    have hLe := (passes_le_iff count hRows _).1 (Nat.le_refl _)
    have hCount : min count ((count ⌈/⌉ rows.length + 1) * rows.length) = count := by
      rw [Nat.succ_mul]
      omega
    rw [if_pos hLt] at hStore hResult
    refine ⟨hResult, ?_⟩
    have hGain := hGained (count ⌈/⌉ rows.length + 1)
    rw [hCount, landed_first_full count hNodup hRows] at hGain
    rw [hStore]
    exact hGain
  · intro hLe
    have hNot : ¬ count ⌈/⌉ rows.length < writer.config.maxAttempts.toNat := Nat.not_lt.2 hLe
    rw [if_neg hNot] at hStore hResult hLength
    have hGain := hGained writer.config.maxAttempts.toNat
    rw [landed_first_of_le count hNodup hRows hLe] at hGain
    have hRest := rest_le count hRows hLe
    have hEnd : (rows.rtake (writer.config.maxAttempts.toNat * rows.length - count)).length =
        writer.config.maxAttempts.toNat * rows.length - count := by
      rw [List.rtake, List.length_drop]
      omega
    rw [hStore]
    exact ⟨hResult, hLength, hGain, hEnd⟩

/-- Three rows in two passes. Of a count of two the second pass is full and brings the first two
rows behind the last one; of a count of four it is not, and brings the last two. -/
theorem Writer.write_after_countdown_three :
    ((plainWriter 2 (by decide)).write [plainRow 1, plainRow 2, plainRow 3]
        ((Store.ofRow 9).setFault (some (.first 2)))).store.data.keys =
          [.ofNat 9, .ofNat 3, .ofNat 1, .ofNat 2] ∧
      ((plainWriter 2 (by decide)).write [plainRow 1, plainRow 2, plainRow 3]
        ((Store.ofRow 9).setFault (some (.first 4)))).store.data.keys =
          [.ofNat 9, .ofNat 2, .ofNat 3] := by
  have hOpen : (Store.ofRow 9).closed = false := rfl
  have hFresh : ∀ row ∈ [plainRow 1, plainRow 2, plainRow 3],
      row.rowId ∉ (Store.ofRow 9).data.keys := by decide +kernel
  have hRows : [plainRow 1, plainRow 2, plainRow 3] ≠ [] := by simp
  have hNodup : ([plainRow 1, plainRow 2, plainRow 3].map FlatRow.rowId).Nodup := by decide +kernel
  have hTimeout : ∀ limit, (plainWriter 2 (by decide)).config.rowTimeout = some limit →
      (Store.ofRow 9).writeDelay ≤ limit := fun _ h => nomatch h
  obtain ⟨hTwo, -⟩ := Writer.write_after_countdown _ .nil 2 hOpen hTimeout hRows hNodup hFresh
  obtain ⟨-, hFour⟩ := Writer.write_after_countdown _ .nil 4 hOpen hTimeout hRows hNodup hFresh
  obtain ⟨-, hRotated⟩ := hTwo (by decide)
  obtain ⟨-, -, hEnd, -⟩ := hFour (by decide)
  constructor
  · rw [Ledger.keys, hRotated.entries]
    decide +kernel
  · rw [Ledger.keys, hEnd.entries]
    decide +kernel

end Collocation
