import Collocation.Archive
import Collocation.Proofs.Json.FurtherMembers
import Collocation.Proofs.Json.LineTexts
import Collocation.Proofs.Writer.ChunkSizes

/-!
# Files of configurations

A configuration is read back from its file, if it is usable. Fields that are left out of a file have
their defaults, the others may stand in any order, and members of other names are passed over. No
configuration that is not usable gets into a writer or an archive, or out of a file, so that rows
are divided into chunks of one row at least and a write has one pass at least.
-/

set_option autoImplicit false

namespace Collocation

open Json

/-! ## Fields -/

/-- A number of sixty-four bits is read back from its document. -/
theorem restores_uint64 (n : UInt64) : Restores readUInt64 (Config.ofUInt64 n) n := by
  have hRange : (0 : Int) ≤ n.toNat ∧ (n.toNat : Int) < UInt64.size :=
    ⟨Int.natCast_nonneg _, Int.ofNat_lt.2 n.toNat_lt_size⟩
  refine restores_readScalar ((if_pos hRange).trans ?_)
  rw [Int.toNat_natCast, UInt64.ofNat_toNat]

/-- A number of thirty-two bits is read back from its document. -/
theorem restores_uint32 (n : UInt32) : Restores readUInt32 (.integer n.toNat) n := by
  have hRange : (0 : Int) ≤ n.toNat ∧ (n.toNat : Int) < UInt32.size :=
    ⟨Int.natCast_nonneg _, Int.ofNat_lt.2 n.toNat_lt_size⟩
  refine restores_readScalar ((if_pos hRange).trans ?_)
  rw [Int.toNat_natCast, UInt32.ofNat_toNat]

/-- An optional number is read back where there is one. -/
theorem restoresSome_uint64 (value : Option UInt64) :
    RestoresSome readUInt64 Config.ofUInt64 value :=
  fun n _ => ⟨restores_uint64 n, by simp [Config.ofUInt64]⟩

/-- A depth is read back from its name. -/
theorem restores_depth (depth : NestingDepth) :
    Restores (readVariant nestingDepths) (.string depth.name) depth :=
  restores_scalar fun _ => by cases depth <;> rfl

/-- A field that may be left out has its default then. -/
theorem Json.Record.Shows.defaulted_or {α : Type} {record : Record} {written : List (String × Json)}
    {name : String} (h : record.Shows written name) {read : Reader α} {value : α} {field : Json}
    {omitted : Prop} [Decidable omitted]
    (hField : findEntry name written = if omitted then none else some field)
    (hRead : Restores read field value) (default : α) :
    record.defaulted name read default = .found (if omitted then default else value) := by
  split at hField
  · next hOmitted => rw [if_pos hOmitted, h.defaulted_of_none hField default]
  · next hKept => rw [if_neg hKept, h.defaulted hField hRead default]

namespace Config

/-- The fields of a configuration by their names, as they are written. -/
def fields (config : Config) : List (String × Json) :=
  match config.toJson with
  | .object members => members
  | _ => []

/-- The fields that are not left out. -/
def fieldsBut (config : Config) (omitted : List String) : List (String × Json) :=
  config.fields.filter fun field => field.1 ∉ omitted

/-- A configuration with the defaults of the fields that are left out. -/
def without (config : Config) (omitted : List String) : Config :=
  let default : Config := {}
  { chunkSize := if "chunk_size" ∈ omitted then default.chunkSize else config.chunkSize
    maxAttempts := if "max_attempts" ∈ omitted then default.maxAttempts else config.maxAttempts
    retryBackoff :=
      if "retry_backoff_ms" ∈ omitted then default.retryBackoff else config.retryBackoff
    rowTimeout := if "row_timeout_ms" ∈ omitted then default.rowTimeout else config.rowTimeout
    depth := if "nesting_depth" ∈ omitted then default.depth else config.depth }

/-- A field that is left out is not found, and any other one is found as before. -/
theorem findEntry_fieldsBut (config : Config) (omitted : List String) (name : String) :
    findEntry name (config.fieldsBut omitted) =
      if name ∈ omitted then none else findEntry name config.fields := by
  split
  · next hOmitted =>
    refine findEntry_eq_none_iff.2 fun hMem => ?_
    obtain ⟨field, hField, rfl⟩ := List.mem_map.1 hMem
    exact of_decide_eq_true (List.mem_filter.1 hField).2 hOmitted
  · next hKept =>
    rw [fieldsBut, findEntry, findEntry, List.find?_filter]
    congr 2
    funext field
    by_cases hName : field.1 = name
    · simp [hName, hKept]
    · simp [hName]

/-- The names of the fields, in the order of a file. -/
theorem names_fields (config : Config) :
    config.fields.map (·.1) =
      ["chunk_size", "max_attempts", "retry_backoff_ms", "row_timeout_ms", "nesting_depth"] := rfl

/-- A count that is a word of sixty-four bits is read back from its digits. -/
theorem readsBack_natural {n : Nat} (h : n < UInt64.size) : (Scalar.integer n).ReadsBack := by
  have hLower : Int64.minValue.toInt ≤ 0 := by decide
  exact readNumber_integerChars (Int.le_trans hLower (Int.natCast_nonneg n)) (Int.ofNat_lt.2 h)

/-- The values of the fields are scalars, and their numbers are read back. -/
theorem exists_scalar_of_mem_fields {config : Config} {field : String × Json}
    (h : field ∈ config.fields) : ∃ value : Scalar, field.2 = .scalar value ∧ value.ReadsBack := by
  have hWord : ∀ n : UInt64, (Scalar.integer n.toNat).ReadsBack :=
    fun n => readsBack_natural n.toNat_lt_size
  have hHalf : (Scalar.integer config.maxAttempts.toNat).ReadsBack :=
    readsBack_natural (Nat.lt_trans config.maxAttempts.toNat_lt_size (by decide))
  have hLimit : ∃ value : Scalar, Json.option ofUInt64 config.rowTimeout = .scalar value ∧
      value.ReadsBack := by
    cases config.rowTimeout with
    | none => exact ⟨.null, rfl, trivial⟩
    | some limit => exact ⟨_, rfl, hWord limit⟩
  simp only [fields, toJson, List.mem_cons, List.not_mem_nil, or_false] at h
  rcases h with rfl | rfl | rfl | rfl | rfl
  · exact ⟨_, rfl, hWord config.chunkSize⟩
  · exact ⟨_, rfl, hHalf⟩
  · exact ⟨_, rfl, hWord config.retryBackoff⟩
  · exact hLimit
  · exact ⟨_, rfl, trivial⟩

/-- A file of a configuration is nested no deeper than is read. -/
theorem depth_fieldsBut (config : Config) (omitted : List String) :
    (Json.object (config.fieldsBut omitted)).toDraft.depth ≤ maxLevels := by
  have hMembers : Draft.depthMembers (toMembers (config.fieldsBut omitted)) ≤ 0 := by
    rw [toMembers_eq_map, depthMembers_le_iff, List.forall_mem_map]
    intro field hField
    obtain ⟨value, hValue, -⟩ := exists_scalar_of_mem_fields (List.mem_of_mem_filter hField)
    rw [hValue]
    exact Nat.le_refl 0
  exact Nat.le_trans (Nat.succ_le_succ hMembers) (by decide)

/-- A configuration is read from the fields that were not left out, in any order among others. -/
theorem read_of_among {config : Config} {omitted : List String}
    {members : List (Option String × Draft)}
    (h : Among (config.fields.map (·.1)) (config.fieldsBut omitted) members) :
    read ⟨.text, maxLevels⟩ (.object members) = .ok (config.without omitted) := by
  have hNames : ((config.fieldsBut omitted).map (·.1)).Sublist (config.fields.map (·.1)) :=
    List.filter_sublist.map _
  rw [names_fields] at h hNames
  unfold read
  refine h.readRecord hNames (by decide) (fun record hShows => ?_) ?_
  · let default : Config := {}
    rw [(hShows "chunk_size" (by decide)).defaulted_or (config.findEntry_fieldsBut omitted _)
        (restores_uint64 config.chunkSize) default.chunkSize,
      (hShows "max_attempts" (by decide)).defaulted_or (config.findEntry_fieldsBut omitted _)
        (restores_uint32 config.maxAttempts) default.maxAttempts,
      (hShows "retry_backoff_ms" (by decide)).defaulted_or (config.findEntry_fieldsBut omitted _)
        (restores_uint64 config.retryBackoff) default.retryBackoff,
      (hShows "row_timeout_ms" (by decide)).defaulted_or (config.findEntry_fieldsBut omitted _)
        (restoresSome_uint64 config.rowTimeout).option default.rowTimeout,
      (hShows "nesting_depth" (by decide)).defaulted_or (config.findEntry_fieldsBut omitted _)
        (restores_depth config.depth) default.depth]
    rfl
  · exact config.depth_fieldsBut omitted

/-! ## Usable configurations -/

/-- A result is a configuration if that allows a chunk one row and a write one pass at least, and
tells that it is not usable otherwise. -/
def Validated (config : Config) (result : Except Failure Config) : Prop :=
  (1 ≤ config.chunkSize ∧ 1 ≤ config.maxAttempts → result = .ok config) ∧
    (¬ (1 ≤ config.chunkSize ∧ 1 ≤ config.maxAttempts) →
      ∃ fault, result = .error (.invalidConfig fault))

/-- A configuration can be used just if it allows a chunk one row and a write one pass at least. -/
theorem usable_iff {config : Config} :
    config.Usable ↔ 1 ≤ config.chunkSize ∧ 1 ≤ config.maxAttempts := by
  unfold Usable
  grind

/-- To validate a configuration comes to the configuration itself or to a fault, as it should. -/
theorem validated_validate (config : Config) :
    config.Validated ((config.validate.mapError .invalidConfig).map (·.val)) := by
  rw [Validated, ← usable_iff]
  constructor
  · intro h
    rw [(config.validate_eq_ok_iff ⟨config, h⟩).2 rfl]
    rfl
  · intro h
    cases hValid : config.validate with
    | error fault => exact ⟨fault, rfl⟩
    | ok valid =>
      have hSame := (config.validate_eq_ok_iff valid).1 hValid
      exact absurd (hSame ▸ valid.property) h

/-! ## Files -/

/-- A text is a file of a configuration, from which fields are left out: it is an object of the
others, in any order and among members of other names. -/
def FiledIn (config : Config) (omitted : List String) (text : String) : Prop :=
  ∃ members, Among (config.fields.map (·.1)) (config.fieldsBut omitted) members ∧
    Document.ofText text.toList = ⟨.object members, true⟩

/-- A file of a configuration is read and validated, with the defaults of what is left out. -/
theorem FiledIn.validated {config : Config} {omitted : List String} {text : String}
    (h : config.FiledIn omitted text) :
    (config.without omitted).Validated ((ofText text).map (·.val)) := by
  obtain ⟨members, hAmong, hText⟩ := h
  have hRead : Json.ofText read text = .ok (config.without omitted) := by
    rw [Json.ofText, hText, read_of_among hAmong]
    rfl
  have hValidate : ofText text = (config.without omitted).validate.mapError .invalidConfig := by
    rw [ofText, hRead]
    rfl
  rw [hValidate]
  exact validated_validate _

/-- Members can be printed in lines or compactly. -/
theorem filedIn_of_among {config : Config} {omitted : List String} {members : List (String × Json)}
    (hReads : ReadsBackMembers members)
    (h : Among (config.fields.map (·.1)) (config.fieldsBut omitted) (toMembers members)) :
    config.FiledIn omitted (Json.object members).lines ∧
      config.FiledIn omitted (Json.object members).compact :=
  ⟨⟨_, h, ofText_lines hReads⟩, ⟨_, h, ofText_compact hReads⟩⟩

/-- All fields are there if none is left out. -/
theorem among_fields (config : Config) :
    Among (config.fields.map (·.1)) (config.fieldsBut []) (toMembers config.fields) := by
  have hAll : config.fieldsBut [] = config.fields :=
    List.filter_eq_self.2 fun _ _ => decide_eq_true List.not_mem_nil
  refine ⟨[], ?_, fun _ hMember => absurd hMember List.not_mem_nil⟩
  rw [hAll, List.map_nil, List.append_nil]

/-- The text of a configuration is a file of it from which nothing is left out. -/
theorem filedIn_text (config : Config) : config.FiledIn [] config.text := by
  have hReads : ReadsBackMembers config.fields := readsBackMembers_iff.2 fun field hField => by
    obtain ⟨value, hValue, hReads⟩ := exists_scalar_of_mem_fields hField
    rw [hValue]
    exact hReads
  exact (filedIn_of_among hReads config.among_fields).1

end Config

/-! ## Writers -/

/-- A writer divides rows into chunks of one row at least, as many as it tells, and makes one pass
at least. -/
structure Writer.Serves (writer : Writer) : Prop where
  chunkSize : 1 ≤ writer.config.chunkSize
  maxAttempts : 1 ≤ writer.config.maxAttempts
  /-- What the number of rows is divided by is not zero. -/
  divisor : writer.config.chunkSize.toNat ≠ 0
  chunks : ∀ rows : List Row,
    (chunks writer.config.chunkSize.toNat rows).length = writer.chunkCount rows.length
  passes : ∀ (rows : List FlatRow) (store : Store), (writer.write rows store).passes ≠ []

/-- Every writer serves, as its configuration is usable by its type. -/
theorem Writer.serves (writer : Writer) : writer.Serves where
  chunkSize := (Config.usable_iff.1 writer.usable).1
  maxAttempts := (Config.usable_iff.1 writer.usable).2
  divisor := Nat.ne_of_gt writer.chunkSize_pos
  chunks rows := by rw [length_chunks writer.chunkSize_pos, writer.chunkCount_eq]
  passes rows store := List.ne_nil_of_length_pos (writer.length_passes_pos rows store)

/-- A result is a writer of a configuration, which serves, if the configuration is usable, and tells
that it is not otherwise. -/
structure Config.Accepted (config : Config) (result : Except ConfigFault Writer) : Prop where
  validated : config.Validated ((result.mapError .invalidConfig).map (·.config))
  serves : ∀ writer, result = .ok writer → writer.Serves

/-- To make a writer of a configuration accepts it just if it is usable. -/
theorem Config.accepted_ofConfig (config : Config) : config.Accepted (Writer.ofConfig config) where
  validated := by
    have hWriter : ((Writer.ofConfig config).mapError Failure.invalidConfig).map (·.config) =
        (config.validate.mapError .invalidConfig).map (·.val) := by
      unfold Writer.ofConfig
      cases config.validate <;> rfl
    rw [hWriter]
    exact config.validated_validate
  serves writer _ := writer.serves

/-- An archive of a configuration has the writer of that. -/
theorem Archive.writer_ofConfig (config : Config) (supply : Supply) :
    (Archive.ofConfig config supply).map (·.writer) = Writer.ofConfig config := by
  unfold Archive.ofConfig
  cases Writer.ofConfig config <;> rfl

/-- An archive that is configured anew has the writer of the configuration. -/
theorem Archive.writer_configure (archive : Archive) (config : Config) :
    (archive.configure config).map (·.writer) = Writer.ofConfig config := by
  unfold Archive.configure
  cases Writer.ofConfig config <;> rfl

/-- A configuration is read back from every file of it, with the defaults of what was left out, if
it is usable then. Otherwise the file is refused, as the configuration is by a writer and by an
archive. -/
theorem Config.validated_throughout (config : Config) :
    config.Validated ((Config.ofText config.text).map (·.val)) ∧
      (∀ (omitted : List String) (text : String), config.FiledIn omitted text →
        (config.without omitted).Validated ((Config.ofText text).map (·.val))) ∧
      (∀ (omitted : List String) (members : List (String × Json)), ReadsBackMembers members →
        Among (config.fields.map (·.1)) (config.fieldsBut omitted) (toMembers members) →
          config.FiledIn omitted (Json.object members).lines ∧
            config.FiledIn omitted (Json.object members).compact) ∧
      (∀ text : String, (Config.ofText text).map (·.val) = .ok config →
        1 ≤ config.chunkSize ∧ 1 ≤ config.maxAttempts) ∧
      config.Accepted (Writer.ofConfig config) ∧
      (∀ supply : Supply, config.Accepted ((Archive.ofConfig config supply).map (·.writer))) ∧
      (∀ archive : Archive, config.Accepted ((archive.configure config).map (·.writer))) := by
  refine ⟨config.filedIn_text.validated, fun _ _ hFiled => hFiled.validated,
    fun _ _ hReads hAmong => filedIn_of_among hReads hAmong, ?_, config.accepted_ofConfig, ?_, ?_⟩
  · intro text hText
    obtain ⟨found, -, rfl⟩ := map_eq_ok_iff.1 hText
    exact usable_iff.1 found.property
  · intro supply
    rw [Archive.writer_ofConfig]
    exact config.accepted_ofConfig
  · intro archive
    rw [archive.writer_configure]
    exact config.accepted_ofConfig

/-- A file of seven attempts that leaves out all but two fields, among further members of one name,
and a configuration without attempts. -/
theorem Config.validated_throughout_seven :
    ((Config.ofText
        "\x7b\"row_timeout_ms\":null,\"x\":[\x7b\x7d,1],\"x\":true,\"max_attempts\":7\x7d").map
      (·.val) = .ok { maxAttempts := 7 }) ∧
      (∃ fault, (Config.ofText ({ maxAttempts := 0 } : Config).text).map (·.val) =
        .error (.invalidConfig fault)) ∧
      ∃ writer, Writer.ofConfig { maxAttempts := 7 } = .ok writer ∧ writer.Serves := by
  let config : Config := { chunkSize := 3, maxAttempts := 7, depth := .single }
  let members : List (String × Json) :=
    [("row_timeout_ms", .null), ("x", .array [.object [], .integer 1]), ("x", .bool true),
      ("max_attempts", .integer 7)]
  have hText : (Json.object members).compact =
      "\x7b\"row_timeout_ms\":null,\"x\":[\x7b\x7d,1],\"x\":true,\"max_attempts\":7\x7d" := by
    decide +kernel
  have hNumber : ∀ n : Nat, n < 8 → (Scalar.integer n).ReadsBack :=
    fun n hLt => Config.readsBack_natural (Nat.lt_trans hLt (by decide))
  have hReads : ReadsBackMembers members :=
    ⟨trivial, ⟨trivial, hNumber 1 (by decide), trivial⟩, trivial, hNumber 7 (by decide), trivial⟩
  have hAmong : Among (config.fields.map (·.1))
      (config.fieldsBut ["chunk_size", "retry_backoff_ms", "nesting_depth"])
      (toMembers members) := by
    refine ⟨[("x", .array [.object [], .scalar (.integer 1)]), ("x", .scalar (.bool true))], ?_,
      by decide⟩
    exact @List.perm_append_comm _ (toMembers (members.take 3)) (toMembers (members.drop 3))
  obtain ⟨-, hFiled, hPrinted, -⟩ := Config.validated_throughout config
  obtain ⟨hRefused, -⟩ := Config.validated_throughout { maxAttempts := 0 }
  obtain ⟨-, -, -, -, hAccepted, -⟩ := Config.validated_throughout { maxAttempts := 7 }
  have hRead := (hFiled _ _ (hPrinted _ members hReads hAmong).2).1 (by decide)
  rw [hText] at hRead
  have hWriter : Writer.ofConfig { maxAttempts := 7 } =
      .ok ⟨{ maxAttempts := 7 }, usable_iff.2 (by decide)⟩ := rfl
  exact ⟨hRead, hRefused.2 (by decide), _, hWriter, hAccepted.serves _ hWriter⟩

end Collocation
