import Collocation.Proofs.Archive.Submitting
import Collocation.Proofs.CommandLine.Folder
import Collocation.Proofs.Row.Documents
import Collocation.Proofs.Store.Operations

/-!
# Stores that are saved and opened again

A store is saved as the text of its snapshot, whatever it holds. The text is read back just if all
doubles in its rows are finite; then the store that is opened has the same rows, its data rows in
the same order. Its records are in another order, which shows nowhere.
-/

set_option autoImplicit false

namespace Collocation

open Json

/-! ## Documents of snapshots -/

namespace Snapshot

/-- All rows of a snapshot. -/
def rows (snapshot : Snapshot) : List Row :=
  snapshot.records.map (·.2) ++ snapshot.data

/-- The document of a record. -/
def recordJson (record : Table × Row) : Json :=
  .object [("table", .string record.1.tag), ("row", record.2.toJson)]

/-- A table is read back from its tag. -/
theorem readVariant_tag (table : Table) (setting : Setting) :
    readVariant tables setting (.scalar (.string table.tag)) = .ok table := by
  cases table <;> rfl

/-- A record is read back from its document, if its row is finite. -/
theorem readRecordRow_recordJson {record : Table × Row}
    (hYears : ∀ t ∈ record.2.instants, t.FourDigitYear) {setting : Setting}
    (hLevels : 5 ≤ setting.levels) :
    readRecordRow setting (recordJson record).toDraft =
      if record.2.isFinite then .ok record else .error .mismatch := by
  obtain ⟨inside, hEnter, hInside⟩ := enter_of_lt hLevels
  rw [recordJson, toDraft, toMembers, toMembers, toMembers, readRecordRow,
    readRecord_pair hEnter _ (by decide), readRow_toJson hYears hInside]
  have hTable := readVariant_tag record.1 inside
  rw [toDraft, hTable]
  split <;> rfl

/-- A list of documents that are read just if they are of some kind. -/
theorem readList_array {α : Type} {read : Reader α} {write : α → Json} {fine : α → Bool}
    {fault : Fault} {items : List α} {setting inside : Setting}
    (hEnter : setting.enter = .ok inside)
    (h : ∀ item ∈ items, read inside (write item).toDraft =
      if fine item then .ok item else .error fault) :
    readList read setting (Json.array (items.map write)).toDraft =
      if items.all fine then .ok items else .error fault := by
  have hItems : items.mapM (fun item => read inside (write item).toDraft) =
      if items.all fine then .ok (items.map fun item => item) else .error fault :=
    mapM_eq_ite h
  rw [toDraft, toDrafts_eq_map, List.map_map, readList, hEnter]
  simp only [bind, Except.bind, List.mapM_map, Function.comp_def, hItems, List.map_id']

/-- The document of a snapshot is read as the snapshot just if its doubles are finite. -/
theorem read_toJson {snapshot : Snapshot}
    (hYears : ∀ row ∈ snapshot.rows, ∀ t ∈ row.instants, t.FourDigitYear) {setting : Setting}
    (hLevels : 7 ≤ setting.levels) :
    read setting snapshot.toJson.toDraft =
      if snapshot.rows.all Row.isFinite then .ok snapshot else .error .mismatch := by
  obtain ⟨inside, hEnter, hInside⟩ := enter_of_lt hLevels
  obtain ⟨within, hWithin, hLevels⟩ := enter_of_lt hInside
  have hRecords : readList readRecordRow inside
        (Json.array (snapshot.records.map recordJson)).toDraft =
      if snapshot.records.all fun record => record.2.isFinite then .ok snapshot.records
      else .error .mismatch :=
    readList_array hWithin fun record hMem => readRecordRow_recordJson
      (hYears record.2 (List.mem_append_left _ (List.mem_map_of_mem hMem))) hLevels
  have hData : readList readRow inside (Json.array (snapshot.data.map Row.toJson)).toDraft =
      if snapshot.data.all Row.isFinite then .ok snapshot.data else .error .mismatch :=
    readList_array hWithin fun row hMem =>
      readRow_toJson (hYears row (List.mem_append_right _ hMem)) (by omega)
  have hJson : snapshot.toJson = .object
      [("records", .array (snapshot.records.map recordJson)),
        ("data", .array (snapshot.data.map Row.toJson))] := rfl
  rw [hJson, toDraft, toMembers, toMembers, toMembers, read, readRecord_pair hEnter _ (by decide),
    hRecords, hData, rows, List.all_append, List.all_map]
  simp only [Function.comp_def]
  rcases Bool.eq_false_or_eq_true (snapshot.records.all fun record => record.2.isFinite) with
    hRecords | hRecords
  · rcases Bool.eq_false_or_eq_true (snapshot.data.all Row.isFinite) with hData | hData <;>
    · simp only [hRecords, hData]
      rfl
  · simp only [hRecords]
    rfl

end Snapshot

namespace Store

/-! ## What stores hold -/

/-- All rows of a store. -/
def rows (store : Store) : List Row :=
  store.records.values ++ store.data.values

/-- The doubles in the rows of a store. -/
def doubles (store : Store) : List Double :=
  store.rows.flatMap Row.doubles

/-- The timestamps in the rows of a store. -/
def instants (store : Store) : List Instant :=
  store.rows.flatMap Row.instants

/-- Two stores have the same records under the same keys, and the same data rows in the same order.
-/
structure SameRows (store other : Store) : Prop where
  records : store.records.entries.Perm other.records.entries
  get?_records (key : Table × Uuid) : store.records.get? key = other.records.get? key
  data : store.data = other.data

/-- The records of a store in the order in which they are saved. -/
def sortedRecords (store : Store) : List ((Table × Uuid) × Row) :=
  store.records.entries.mergeSort fun a b => Snapshot.keyLe a.1 b.1

/-- The records are saved in another order. -/
theorem perm_sortedRecords (store : Store) : store.sortedRecords.Perm store.records.entries :=
  List.mergeSort_perm _ _

/-- No record is saved twice. -/
theorem nodup_sortedRecords (store : Store) :
    (store.sortedRecords.map fun record => record.1).Nodup :=
  (store.perm_sortedRecords.map _).nodup_iff.2 store.records.nodup_keys

/-- The store that is opened after a store was saved. -/
def reopened (store : Store) : Store :=
  { records := ⟨store.sortedRecords, store.nodup_sortedRecords⟩, data := store.data }

/-- A snapshot has the records of its store in the order of their keys, and the data rows in theirs.
-/
theorem ofStore_eq (store : Store) :
    Snapshot.ofStore store =
      ⟨store.sortedRecords.map fun record => (record.1.1, record.2), store.data.values⟩ := rfl

/-- The rows of a store's snapshot are those of the store. -/
theorem mem_rows_ofStore {store : Store} {row : Row} :
    row ∈ (Snapshot.ofStore store).rows ↔ row ∈ store.rows := by
  have hRecords : row ∈ store.sortedRecords.map (·.2) ↔ row ∈ store.records.values :=
    (store.perm_sortedRecords.map (·.2)).mem_iff
  simp only [ofStore_eq, Snapshot.rows, rows, List.map_map, Function.comp_def, List.mem_append,
    hRecords]

/-- All rows of a store's snapshot are finite just if all doubles in the store are. -/
theorem all_isFinite_iff {store : Store} :
    (Snapshot.ofStore store).rows.all Row.isFinite = true ↔
      ∀ x ∈ store.doubles, x.isFinite = true := by
  simp only [List.all_eq_true, mem_rows_ofStore, Row.isFinite_iff, doubles, List.mem_flatMap]
  exact ⟨fun h x ⟨row, hRow, hx⟩ => h row hRow x hx, fun h row hRow x hx => h x ⟨row, hRow, hx⟩⟩

/-! ## Snapshots of stores -/

/-- Records are added under their keys, one after the other. -/
theorem foldlM_addRecord (store : Store) {records : List ((Table × Uuid) × Row)}
    (hFiled : ∀ record ∈ records, record.2.key record.1.1 = .ok record.1.2) :
    (records.map fun record => (record.1.1, record.2)).foldlM Snapshot.addRecord store =
      .ok { store with
        records := Ledger.putAll (fun record => record.1) (fun record => record.2) store.records
          records } := by
  induction records generalizing store with
  | nil => rfl
  | cons record records ih =>
    obtain ⟨hRecord, hOthers⟩ := List.forall_mem_cons.1 hFiled
    rw [List.map_cons, List.foldlM_cons, Snapshot.addRecord, hRecord]
    exact ih _ hOthers

/-- Data rows are added under their ids, one after the other. -/
theorem foldlM_addData (store : Store) {entries : List (Uuid × Row)}
    (hFiled : ∀ entry ∈ entries, entry.2.key .data = .ok entry.1) :
    (entries.map fun entry => entry.2).foldlM Snapshot.addData store =
      .ok { store with
        data := Ledger.putAll (fun entry => entry.1) (fun entry => entry.2) store.data
          entries } := by
  induction entries generalizing store with
  | nil => rfl
  | cons entry entries ih =>
    obtain ⟨hEntry, hOthers⟩ := List.forall_mem_cons.1 hFiled
    rw [List.map_cons, List.foldlM_cons, Snapshot.addData, hEntry]
    exact ih _ hOthers

/-- Entries without a repeated key, written one after the other, are those of the ledger. -/
theorem putAll_entries {κ α : Type} [DecidableEq κ] {entries : List (κ × α)}
    (h : (entries.map fun entry => entry.1).Nodup) :
    Ledger.putAll (fun entry => entry.1) (fun entry => entry.2) .empty entries =
      ⟨entries, h⟩ := by
  have hEntries : (Ledger.putAll (fun entry => entry.1) (fun entry => entry.2) .empty
        entries).entries = entries.map fun entry => (entry.1, entry.2) :=
    Ledger.entries_putAll_of_nodup _ _ h
  rw [List.map_id'] at hEntries
  exact Ledger.ext hEntries

/-- A snapshot whose rows are under their keys makes a store into which they were written one after
the other. -/
theorem toStore_entries {records : List ((Table × Uuid) × Row)} {data : List (Uuid × Row)}
    (hRecords : ∀ record ∈ records, record.2.key record.1.1 = .ok record.1.2)
    (hData : ∀ entry ∈ data, entry.2.key .data = .ok entry.1) :
    Snapshot.toStore
        ⟨records.map fun record => (record.1.1, record.2), data.map fun entry => entry.2⟩ =
      .ok
        { records := Ledger.ofItems (fun record => record.1) (fun record => record.2) records
          data := Ledger.ofItems (fun entry => entry.1) (fun entry => entry.2) data } := by
  rw [Snapshot.toStore, foldlM_addRecord .empty hRecords]
  exact foldlM_addData _ hData

/-- The snapshot of a store whose rows have their keys makes a store of the same rows. -/
theorem toStore_ofStore {store : Store} (h : store.Keyed) :
    (Snapshot.ofStore store).toStore = .ok store.reopened := by
  have hFiled : ∀ record ∈ store.sortedRecords, record.2.key record.1.1 = .ok record.1.2 :=
    fun record hMem => h.record record (store.perm_sortedRecords.mem_iff.1 hMem)
  have hStore := toStore_entries hFiled h.filed
  unfold Ledger.ofItems at hStore
  rw [putAll_entries store.nodup_sortedRecords, putAll_entries store.data.nodup] at hStore
  exact hStore

/-- The store that is opened has the rows of the one that was saved. -/
theorem sameRows_reopened (store : Store) : store.reopened.SameRows store := by
  refine ⟨store.perm_sortedRecords, fun key => Option.ext fun row => ?_, rfl⟩
  rw [Ledger.get?_eq_some_iff, Ledger.get?_eq_some_iff]
  exact store.perm_sortedRecords.mem_iff

/-! ## Texts of stores -/

/-- The document of a record is read back if the digits of its finite doubles are. -/
theorem readsBack_recordJson {record : Table × Row}
    (h : ∀ x ∈ record.2.doubles, x.isFinite = true → (Scalar.double x).ReadsBack) :
    (Snapshot.recordJson record).ReadsBack :=
  ⟨trivial, Row.readsBack_toJson h, trivial⟩

/-- The numbers in the document of a store are read back if its finite doubles are. -/
theorem readsBack_toJson {store : Store}
    (h : ∀ x ∈ store.doubles, x.isFinite = true → (Scalar.double x).ReadsBack) :
    (Snapshot.ofStore store).toJson.ReadsBack := by
  have hRow : ∀ row ∈ (Snapshot.ofStore store).rows,
      ∀ x ∈ row.doubles, x.isFinite = true → (Scalar.double x).ReadsBack := fun row hRow x hx =>
    h x (List.mem_flatMap.2 ⟨row, mem_rows_ofStore.1 hRow, hx⟩)
  refine ⟨readsBackItems_iff.2 (List.forall_mem_map.2 fun record hRecord => ?_),
    readsBackItems_iff.2 (List.forall_mem_map.2 fun row hData => ?_), trivial⟩
  · exact readsBack_recordJson
      (hRow record.2 (List.mem_append_left _ (List.mem_map_of_mem hRecord)))
  · exact Row.readsBack_toJson (hRow row (List.mem_append_right _ hData))

/-- The text of a store is opened just if its doubles are finite. -/
theorem ofText_text {store : Store} (hOrderly : store.Orderly)
    (hYears : ∀ t ∈ store.instants, t.FourDigitYear)
    (hReads : ∀ x ∈ store.doubles, x.isFinite = true → (Scalar.double x).ReadsBack) :
    ofText store.text =
      if (Snapshot.ofStore store).rows.all Row.isFinite then .ok store.reopened
      else .error (.json .mismatch) := by
  have hRead : Snapshot.read ⟨.text, maxLevels⟩ (Snapshot.ofStore store).toJson.toDraft =
      if (Snapshot.ofStore store).rows.all Row.isFinite then .ok (Snapshot.ofStore store)
      else .error .mismatch :=
    Snapshot.read_toJson
      (fun row hRow t ht => hYears t (List.mem_flatMap.2 ⟨row, mem_rows_ofStore.1 hRow, ht⟩))
      (by decide)
  rw [ofText, text, Json.ofText, ofText_compact (readsBack_toJson hReads), hRead]
  split
  · exact toStore_ofStore hOrderly.keyed
  · rfl

/-! ## Files -/

open CommandLine in
/-- A store is saved whatever it holds. It is opened again, with the same rows in the same order,
just if all doubles in its rows are finite; if one is not, what was saved is no snapshot. -/
theorem reopened_iff_finite (operations : List Operation) (folder : Folder)
    {path : String} (hPath : folder.Replaceable path) (archive : Archive)
    (hYears : ∀ t ∈ (empty.performAll operations).instants, t.FourDigitYear)
    (hReads : ∀ x ∈ (empty.performAll operations).doubles,
      x.isFinite = true → (Scalar.double x).ReadsBack) :
    let store := empty.performAll operations
    let saved := folder.save ⟨path, store.text⟩
    saved.1 = true ∧
      ((∃ opened, openSnapshot saved.2.look path archive = .ok (archive.withStore opened) ∧
          opened.SameRows store) ↔
        ∀ x ∈ store.doubles, x.isFinite = true) ∧
      ((∃ x ∈ store.doubles, x.isFinite = false) →
        ∃ fault, openSnapshot saved.2.look path archive =
          .error ⟨some (.openingSnapshot path), .json fault⟩) := by
  intro store saved
  have hOrderly : store.Orderly := (sound_performAll operations).toOrderly
  have hText := ofText_text hOrderly hYears hReads
  have hOpen : openSnapshot saved.2.look path archive =
      during (.openingSnapshot path) ((ofText store.text).map archive.withStore) := by
    have hLook := Folder.look_save hPath store.text
    rw [openSnapshot, hLook]
    rfl
  rw [hOpen, hText]
  refine ⟨Folder.save_eq_true hPath store.text, ?_, ?_⟩
  · rw [← all_isFinite_iff]
    split
    · next hFinite =>
      exact iff_of_true ⟨store.reopened, rfl, store.sameRows_reopened⟩ hFinite
    · next hInfinite =>
      exact iff_of_false (by rintro ⟨_, ⟨⟩, _⟩) hInfinite
  · rintro ⟨x, hx, hInfinite⟩
    have hNot : ¬ (Snapshot.ofStore store).rows.all Row.isFinite = true := fun hFinite => by
      rw [all_isFinite_iff.1 hFinite x hx] at hInfinite
      cases hInfinite
    rw [if_neg hNot]
    exact ⟨.mismatch, rfl⟩

/-- A row with a column of each type, one of its doubles as given, and a leap second. -/
def variedRow (x : Double) : Row :=
  .ofList
    [ ("id", .uuid .nil),
      ("execution_id", .uuid .nil),
      ("nothing", .null),
      ("flag", .bool true),
      ("count", .int (-5)),
      ("number", .double (.ofBits true 0)),
      ("note", .text "a\"b\n"),
      ("time", .timestamp ⟨1439, ⟨60, by decide⟩, ⟨120000000, by decide⟩, by decide⟩),
      ("values", .doubleMap (.ofList [("b", x), ("a", .nearest false 1 10)])) ]

/-- The row is written as a record and as a data row, and a row without an id is refused. -/
def variedOperations (x : Double) : List Operation :=
  [.put .params (variedRow x), .insert (variedRow x), .put .data .empty]

/-- A folder without files. -/
def emptyFolder : CommandLine.Folder := .ofFiles []

open CommandLine in
/-- With a finite double the store is opened again, and with an infinite one it is not. -/
theorem reopened_iff_finite_varied :
    (∃ opened, openSnapshot
        (emptyFolder.save ⟨"db.json", (empty.performAll (variedOperations .zero)).text⟩).2.look
        "db.json" (Archive.plainArchive none) = .ok ((Archive.plainArchive none).withStore opened) ∧
      opened.SameRows (empty.performAll (variedOperations .zero))) ∧
    ∃ fault, openSnapshot
        (emptyFolder.save
          ⟨"db.json", (empty.performAll (variedOperations (.infinity false))).text⟩).2.look
        "db.json" (Archive.plainArchive none) =
      .error ⟨some (.openingSnapshot "db.json"), .json fault⟩ := by
  have hPath : emptyFolder.Replaceable "db.json" :=
    ⟨⟨["work", "tmp"], "db.json", by decide +kernel⟩,
      ⟨["work", "tmp"], "db.json.tmp", by decide +kernel⟩⟩
  have hFinite := reopened_iff_finite (variedOperations .zero) emptyFolder hPath
    (Archive.plainArchive none) (by decide +kernel) (by decide +kernel)
  have hInfinite := reopened_iff_finite (variedOperations (.infinity false)) emptyFolder hPath
    (Archive.plainArchive none) (by decide +kernel) (by decide +kernel)
  exact ⟨hFinite.2.1.2 (by decide +kernel),
    hInfinite.2.2 ⟨.infinity false, by decide +kernel, by decide +kernel⟩⟩

end Store

end Collocation
