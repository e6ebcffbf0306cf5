import Collocation.Proofs.Json.CompactTexts
import Collocation.Proofs.Json.Records
import Collocation.Proofs.Row.Columns
import Collocation.Proofs.Time.Text
import Collocation.Proofs.Uuid.Text
import Collocation.Row.Document

/-!
# Documents of rows

The document of a row is read as the row just if all doubles in the row are finite. A double that is
not is written as null, which is no double. Of the other types of columns only a timestamp has to be
such that its text is read: its year has four digits.
-/

set_option autoImplicit false

namespace Collocation

open Json

/-! ## What rows hold -/

namespace ColumnValue

/-- The doubles of a value. -/
def doubles : ColumnValue → List Double
  | double x => [x]
  | doubleMap values => values.entries.map (·.2)
  | _ => []

/-- The timestamps of a value. -/
def instants : ColumnValue → List Instant
  | timestamp t => [t]
  | _ => []

/-- A value is finite just if its doubles are. -/
theorem isFinite_iff {value : ColumnValue} :
    value.isFinite = true ↔ ∀ x ∈ value.doubles, x.isFinite = true := by
  cases value with
  | doubleMap values => simp only [isFinite, doubles, List.all_eq_true, List.forall_mem_map]
  | _ => simp [isFinite, doubles]

end ColumnValue

namespace Row

/-- The doubles in the columns of a row. -/
def doubles (row : Row) : List Double :=
  row.columns.entries.flatMap fun entry => entry.2.doubles

/-- The timestamps in the columns of a row. -/
def instants (row : Row) : List Instant :=
  row.columns.entries.flatMap fun entry => entry.2.instants

/-- Whether every double in a row is a finite number. -/
def isFinite (row : Row) : Bool :=
  row.columns.entries.all fun entry => entry.2.isFinite

/-- A row is finite just if its doubles are. -/
theorem isFinite_iff {row : Row} : row.isFinite = true ↔ ∀ x ∈ row.doubles, x.isFinite = true := by
  simp only [isFinite, doubles, List.all_eq_true, ColumnValue.isFinite_iff, List.mem_flatMap]
  exact ⟨fun h x ⟨entry, hEntry, hx⟩ => h entry hEntry x hx,
    fun h entry hEntry x hx => h x ⟨entry, hEntry, hx⟩⟩

end Row

/-! ## Dictionaries -/

/-- The document of a dictionary is read by that of its values. -/
theorem readDictionary_object {α : Type} {read : Reader α} {write : α → Json} {fine : α → Bool}
    {fault : Fault} {d : Dictionary α} {setting inside : Setting}
    (hEnter : setting.enter = .ok inside)
    (h : ∀ entry ∈ d.entries, read inside (write entry.2).toDraft =
      if fine entry.2 then .ok entry.2 else .error fault) :
    readDictionary read setting
        (Json.object (d.entries.map fun entry => (entry.1, write entry.2))).toDraft =
      if d.entries.all fun entry => fine entry.2 then .ok d else .error fault := by
  have hMembers : d.entries.mapM (fun entry =>
        readMember read inside (some entry.1, (write entry.2).toDraft)) =
      if d.entries.all fun entry => fine entry.2 then .ok (d.entries.map fun entry => entry)
      else .error fault :=
    mapM_eq_ite fun entry hEntry => by
      rw [readMember, h entry hEntry]
      split <;> rfl
  rw [toDraft, toMembers_eq_map, List.map_map, readDictionary, hEnter]
  simp only [bind, Except.bind, List.mapM_map, Function.comp_def, hMembers, List.map_id']
  cases d.entries.all fun entry => fine entry.2
  · rfl
  · simp only [if_true, Dictionary.ofList_of_perm (.refl d.entries)]
    rfl

/-! ## Column values -/

/-- An integer is read back from its digits. -/
theorem readInt64_toInt (n : Int64) (setting : Setting) :
    readInt64 setting (.scalar (.integer n.toInt)) = .ok n := by
  simp only [readInt64, readScalar]
  rw [if_pos ⟨n.minValue_le_toInt, n.toInt_le⟩]
  simp

/-- A double is read back just if it is finite. -/
theorem readDouble_ofDouble (x : Double) (setting : Setting) :
    readDouble setting (Json.ofDouble x).toDraft =
      if x.isFinite then .ok x else .error .mismatch := by
  unfold ofDouble
  split <;> rfl

/-- An id is read back from its text. -/
theorem readUuid_text (id : Uuid) (setting : Setting) :
    readUuid setting (.scalar (.string id.text)) = .ok id := by
  have hText : Uuid.parse? id.text.toList = some id := by
    rw [Uuid.text, String.toList_ofList, Uuid.parse?_chars]
  simp only [readUuid, readParsed, readScalar, hText]

/-- A time is read back from its text, if its year has four digits. -/
theorem readInstant_text {t : Instant} (h : t.FourDigitYear) (setting : Setting) :
    readInstant setting (.scalar (.string t.text)) = .ok t := by
  simp only [readInstant, readParsed, readScalar, Instant.ofStored?_text h]

/-- What a column value is besides its type is read by the reader of its type. -/
theorem read_content {value : ColumnValue} (hYears : ∀ t ∈ value.instants, t.FourDigitYear)
    {setting : Setting} (hLevels : 1 ≤ setting.levels) :
    ∃ read, findEntry value.tag columnVariants = some (value.tag, read) ∧
      read setting value.content.toDraft =
        if value.isFinite then .ok value else .error .mismatch := by
  cases value with
  | null | bool | text => exact ⟨_, rfl, rfl⟩
  | int n => exact ⟨_, rfl, congrArg (Except.map ColumnValue.int) (readInt64_toInt n setting)⟩
  | double x =>
    refine ⟨_, rfl, (congrArg (Except.map ColumnValue.double) (readDouble_ofDouble x setting)).trans
      ?_⟩
    rw [ColumnValue.isFinite]
    split <;> rfl
  | uuid id => exact ⟨_, rfl, congrArg (Except.map ColumnValue.uuid) (readUuid_text id setting)⟩
  | timestamp t =>
    exact ⟨_, rfl, congrArg (Except.map ColumnValue.timestamp)
      (readInstant_text (hYears t List.mem_cons_self) setting)⟩
  | doubleMap values =>
    obtain ⟨inside, hEnter, -⟩ := enter_of_lt hLevels
    refine ⟨_, rfl, (congrArg (Except.map ColumnValue.doubleMap) (readDictionary_object hEnter
      fun entry _ => readDouble_ofDouble entry.2 inside)).trans ?_⟩
    rw [ColumnValue.isFinite]
    split <;> rfl

/-- The document of a value has its type and its content, unless there is no value. -/
theorem toJson_of_ne_null {value : ColumnValue} (h : value ≠ .null) :
    value.toJson = .object [("type", .string value.tag), ("value", value.content)] := by
  cases value with
  | null => exact absurd rfl h
  | _ => rfl

/-- The document of a column value is read as the value just if its doubles are finite. -/
theorem readColumnValue_toJson {value : ColumnValue}
    (hYears : ∀ t ∈ value.instants, t.FourDigitYear) {setting : Setting}
    (hLevels : 2 ≤ setting.levels) :
    readColumnValue setting value.toJson.toDraft =
      if value.isFinite then .ok value else .error .mismatch := by
  obtain ⟨inside, hEnter, hInside⟩ := enter_of_lt hLevels
  obtain ⟨read, hReader, hRead⟩ := read_content hYears hInside
  have hVariant : readVariant columnVariants inside (.scalar (.string value.tag)) =
      .ok (value.tag, read) := by
    simp only [readVariant, variant, hReader]
  by_cases hNull : value = .null
  · subst hNull
    simp only [ColumnValue.toJson, toDraft, toMembers, readColumnValue, hEnter, bind, Except.bind,
      nextRelevant, true_or, if_true, hVariant]
    rfl
  · rw [toJson_of_ne_null hNull]
    simp only [toDraft, toMembers, readColumnValue, hEnter, bind, Except.bind, nextRelevant,
      true_or, or_true, if_true, hVariant]
    change (read inside value.content.toDraft >>= nothingRelevant []) = _
    rw [hRead]
    cases value.isFinite <;> rfl

/-! ## Rows -/

/-- The document of a row is read as the row just if its doubles are finite. -/
theorem readRow_toJson {row : Row} (hYears : ∀ t ∈ row.instants, t.FourDigitYear)
    {setting : Setting} (hLevels : 4 ≤ setting.levels) :
    readRow setting row.toJson.toDraft = if row.isFinite then .ok row else .error .mismatch := by
  obtain ⟨inside, hEnter, hInside⟩ := enter_of_lt hLevels
  obtain ⟨within, hWithin, hLevels⟩ := enter_of_lt hInside
  have hColumns : readDictionary readColumnValue inside row.columnsJson.toDraft =
      if row.isFinite then .ok row.columns else .error .mismatch :=
    readDictionary_object hWithin fun entry hEntry => readColumnValue_toJson
      (fun t ht => hYears t (List.mem_flatMap.2 ⟨entry, hEntry, ht⟩)) hLevels
  rw [Row.toJson, toDraft, toMembers, toMembers, readRow, readRecord_single hEnter, hColumns]
  split <;> rfl

/-! ## Texts of documents -/

/-- The document of a double is read back if its digits are, where it is finite. -/
theorem readsBack_ofDouble {x : Double} (h : x.isFinite = true → (Scalar.double x).ReadsBack) :
    (Json.ofDouble x).ReadsBack := by
  rw [ofDouble]
  split
  · next hFinite => exact h hFinite
  · trivial

/-- The document of an integer is read back. -/
theorem readsBack_ofInt64 (n : Int64) : (Json.ofInt64 n).ReadsBack := by
  have hUpper : n.toInt < UInt64.size := by
    have hMax := n.toInt_lt
    have hSize : (2 : Int) ^ 63 ≤ UInt64.size := by decide
    omega
  exact readNumber_integerChars n.minValue_le_toInt hUpper

namespace ColumnValue

/-- The content of a value is read back if the digits of its finite doubles are. -/
theorem readsBack_content {value : ColumnValue}
    (h : ∀ x ∈ value.doubles, x.isFinite = true → (Scalar.double x).ReadsBack) :
    value.content.ReadsBack := by
  cases value with
  | null | bool | text | uuid | timestamp => trivial
  | int n => exact readsBack_ofInt64 n
  | double x => exact readsBack_ofDouble (h x List.mem_cons_self)
  | doubleMap values =>
    refine readsBackMembers_iff.2 (List.forall_mem_map.2 fun entry hEntry => ?_)
    exact readsBack_ofDouble (h entry.2 (List.mem_map_of_mem hEntry))

/-- The numbers in the document of a value are read back if its finite doubles are. -/
theorem readsBack_toJson {value : ColumnValue}
    (h : ∀ x ∈ value.doubles, x.isFinite = true → (Scalar.double x).ReadsBack) :
    value.toJson.ReadsBack := by
  by_cases hNull : value = .null
  · subst hNull
    exact ⟨trivial, trivial⟩
  · rw [toJson_of_ne_null hNull]
    exact ⟨trivial, readsBack_content h, trivial⟩

end ColumnValue

/-- The numbers in the document of a row are read back if its finite doubles are. -/
theorem Row.readsBack_toJson {row : Row}
    (h : ∀ x ∈ row.doubles, x.isFinite = true → (Scalar.double x).ReadsBack) :
    row.toJson.ReadsBack := by
  refine ⟨readsBackMembers_iff.2 (List.forall_mem_map.2 fun entry hEntry => ?_), trivial⟩
  exact ColumnValue.readsBack_toJson fun x hx =>
    h x (List.mem_flatMap.2 ⟨entry, hEntry, hx⟩)

end Collocation
