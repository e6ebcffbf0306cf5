import Collocation.Proofs.Chains
import Collocation.Proofs.Json.Arrangements
import Collocation.Proofs.Json.Members

/-!
# Readers that restore what was written

A reader restores a value from what was written of it if it reads the value out of the document in
any arrangement, whatever follows and wherever it stands, as long as it does not nest too deeply. A
list is restored item by item. A record is restored field by field: the fields are found by their
names, those that were left out are not found, and nothing else is there.
-/

set_option autoImplicit false

namespace Collocation.Json

variable {α β : Type}

/-- Any arrangement of what was written is read as the value, if it may nest as deeply. -/
def Restores (read : Reader α) (written : Json) (value : α) : Prop :=
  ∀ ⦃setting : Setting⦄ ⦃document : Json⦄, Arranges document written →
    written.toDraft.depth ≤ setting.levels → read setting document.toDraft = .ok value

/-- What is given as a value may nest as deeply as it likes. -/
theorem Restores.ofValue {read : Reader α} {written : Json} {value : α}
    (h : Restores read written value) :
    ofValue read written = .ok value ∧
      ∀ document, Arranges document written → ofValue read document = .ok value :=
  ⟨h (.refl written) (Nat.le_refl _), fun _ hDocument => h hDocument hDocument.depth_le⟩

/-! ## Scalars, payloads and lists -/

/-- A value that is read from a scalar in every setting is restored from it. -/
theorem restores_scalar {read : Reader α} {written : Scalar} {value : α}
    (h : ∀ setting, read setting (.scalar written) = .ok value) :
    Restores read (.scalar written) value := by
  intro setting document hDocument _
  rw [hDocument.eq_scalar]
  exact h setting

/-- A value that is taken from a scalar is restored from it. -/
theorem restores_readScalar {take : Scalar → Option α} {written : Scalar} {value : α}
    (h : take written = .some value) : Restores (readScalar take) (.scalar written) value :=
  restores_scalar fun _ => by simp only [readScalar, h]

/-- A string is read back. -/
theorem restores_string (s : String) : Restores readString (.string s) s :=
  restores_scalar fun _ => rfl

/-- A payload with its names in order is read back as it is. -/
theorem restores_payload {value : Json} (h : value.Ordered) : Restores readPayload value value :=
  fun _ _ hDocument hDepth => hDocument.payload h hDepth

/-- An optional value that is missing is read back from `null`. -/
theorem restores_null (read : Reader α) : Restores (readOptional read) .null none :=
  restores_scalar fun _ => rfl

/-- An optional value that is there is read back if its document is not `null`. -/
theorem Restores.some {read : Reader α} {written : Json} {value : α}
    (h : Restores read written value) (hNull : written ≠ .null) :
    Restores (readOptional read) written (.some value) := by
  intro setting document hDocument hDepth
  have hRead := h hDocument hDepth
  unfold readOptional
  split
  · next heq =>
    cases document with
    | scalar other =>
      -- Only null arranges null, and what was written is not null.
      cases heq
      exact absurd hDocument.eq_of_scalar hNull
    | _ => cases heq
  · rw [hRead]
    rfl

/-- A value, if there is one, is restored from what is written of it, which is not null. -/
def RestoresSome (read : Reader α) (write : α → Json) (value : Option α) : Prop :=
  ∀ x, value = .some x → Restores read (write x) x ∧ write x ≠ .null

/-- An optional string is read back where there is one. -/
theorem restoresSome_string (s : Option String) : RestoresSome readString .string s :=
  fun x _ => ⟨restores_string x, by simp⟩

/-- An optional value is read back if it is so where there is one. -/
theorem RestoresSome.option {read : Reader α} {write : α → Json} {value : Option α}
    (h : RestoresSome read write value) :
    Restores (readOptional read) (.option write value) value := by
  cases value with
  | none => exact restores_null read
  | some x => exact (h x rfl).1.some (h x rfl).2

/-- Items are read back from any arrangement of theirs, one by one. -/
theorem mapM_of_restores {read : Reader α} {items written : List Json} {values : List α}
    (hItems : List.Forall₂ Arranges items written)
    (h : List.Forall₂ (Restores read) written values) {inside : Setting}
    (hDepth : ∀ item ∈ written, item.toDraft.depth ≤ inside.levels) :
    (items.map toDraft).mapM (read inside) = .ok values := by
  induction hItems generalizing values with
  | nil =>
    cases h
    rfl
  | cons hItem _ ih =>
    cases h with
    | cons hFirst hRest =>
      obtain ⟨hFirstDepth, hRestDepth⟩ := List.forall_mem_cons.1 hDepth
      rw [List.map_cons, List.mapM_cons, hFirst hItem hFirstDepth, ih hRest hRestDepth]
      rfl

/-- A list is read back if its items are. -/
theorem restores_list {read : Reader α} {write : α → Json} {values : List α}
    (h : ∀ value ∈ values, Restores read (write value) value) :
    Restores (readList read) (.array (values.map write)) values := by
  intro setting document hDocument hDepth
  obtain ⟨items, rfl, hItems⟩ := hDocument.exists_items
  obtain ⟨inside, hEnter, hInside⟩ := enter_of_lt hDepth
  rw [toDrafts_eq_map, depthItems_le_iff, List.forall_mem_map] at hInside
  have hValues : List.Forall₂ (Restores read) (values.map write) values :=
    List.forall₂_map_left_iff.2 (List.forall₂_same.2 h)
  simp only [toDraft, toDrafts_eq_map, readList, hEnter, bind, Except.bind]
  exact mapM_of_restores hItems hValues hInside

/-! ## Records -/

/-- A record shows a field as it was written: an arrangement of the value of the member of its name,
or nothing if there is no such member. -/
def Record.Shows (record : Record) (written : List (String × Json)) (name : String) : Prop :=
  match findEntry name written with
  | some value => ∃ place document, Arranges document value ∧
      value.toDraft.depth ≤ record.setting.levels ∧
      record.find? name = some (place, document.toDraft)
  | none => record.find? name = none

namespace Record.Shows

variable {record : Record} {written : List (String × Json)} {name : String}
  (h : record.Shows written name) {read : Reader α}
include h

/-- A required field is found if its value is read back. -/
theorem required {value : α} {field : Json} (hField : findEntry name written = some field)
    (hRead : Restores read field value) : record.required name read = .found value := by
  rw [Shows, hField] at h
  obtain ⟨place, document, hDocument, hDepth, hFind⟩ := h
  exact required_of_find? hFind (hRead hDocument hDepth)

/-- A field with a default is found if it was written and its value is read back. -/
theorem defaulted {value : α} {field : Json} (hField : findEntry name written = some field)
    (hRead : Restores read field value) (default : α) :
    record.defaulted name read default = .found value := by
  rw [Shows, hField] at h
  obtain ⟨place, document, hDocument, hDepth, hFind⟩ := h
  exact defaulted_of_find? hFind (hRead hDocument hDepth) default

/-- The default is found if the field was not written. -/
theorem defaulted_of_none (hField : findEntry name written = none) (default : α) :
    record.defaulted name read default = .found default := by
  rw [Shows, hField] at h
  exact defaulted_of_missing h read default

/-- A field that is null for nothing. -/
theorem optional_null {write : α → Json} {value : Option α}
    (hField : findEntry name written = some (.option write value))
    (hRead : RestoresSome read write value) : record.optional name read = .found value :=
  h.defaulted hField hRead.option none

/-- A field that is left out for nothing. -/
theorem optional_member {write : α → Json} {value : Option α}
    (hField : findEntry name written = value.map write)
    (hRead : RestoresSome read write value) : record.optional name read = .found value := by
  cases value with
  | none => exact h.defaulted_of_none hField none
  | some x => exact h.defaulted hField ((hRead x rfl).1.some (hRead x rfl).2) none

end Record.Shows

/-- A field that is written where there is a value is found under its own name, and nowhere else. -/
@[simp] theorem findEntry_member? (name name' : String) (write : α → Json) (value : Option α) :
    findEntry name (member? name' write value) =
      if name' = name then value.map write else none := by
  cases value with
  | none => simp [member?, findEntry]
  | some x => by_cases hName : name' = name <;> simp [member?, findEntry, hName]

/-- A member that may be left out has its name, or none. -/
theorem sublist_member? (name : String) (write : α → Json) (value : Option α) :
    ((member? name write value).map (·.1)).Sublist [name] := by
  cases value with
  | none => exact List.nil_sublist _
  | some x => exact .refl _

/-- A record shows its fields if the document has just one member for each that was written, and
none for the others. -/
theorem Record.shows_of_members {names known : List String} {members : List (Option String × Draft)}
    {written : List (String × Json)} (hOnce : Once names members)
    (hNone : ∀ name ∈ names, some name ∈ members.map (·.1) → name ∈ written.map (·.1))
    (hSome : ∀ member ∈ written, ∃ document, (some member.1, document.toDraft) ∈ members ∧
      Arranges document member.2) {inside : Setting}
    (hInside : ∀ member ∈ written, member.2.toDraft.depth ≤ inside.levels) {name : String}
    (hName : name ∈ names) : (Record.mk inside known (.members members)).Shows written name := by
  unfold Shows
  cases hField : findEntry name written with
  | none =>
    exact find?_of_not_mem fun hMem => findEntry_eq_none_iff.1 hField (hNone name hName hMem)
  | some value =>
    have hWritten := mem_of_findEntry hField
    obtain ⟨document, hMember, hDocument⟩ := hSome _ hWritten
    obtain ⟨place, hFind⟩ := find?_of_mem hOnce hName hMember
    exact ⟨place, document, hDocument, hInside _ hWritten, hFind⟩

/-- A record of an arrangement shows every field, whichever it is, if no name is repeated. -/
theorem Record.shows_of_arranges {members between written : List (String × Json)}
    (hPerm : between.Perm written) (hMembers : List.Forall₂ ArrangesMember members between)
    (hOnce : ((toMembers members).map (·.1)).Nodup) {inside : Setting}
    (hInside : ∀ member ∈ written, member.2.toDraft.depth ≤ inside.levels) (names : List String)
    (name : String) :
    (Record.mk inside names (.members (toMembers members))).Shows written name := by
  refine shows_of_members (once_of_nodup hOnce [name]) (fun other _ hMem => ?_) ?_ hInside
    List.mem_cons_self
  · rwa [map_fst_toMembers, List.mem_map_of_injective fun _ _ => Option.some.inj,
      (perm_names_of_arranges hPerm hMembers).mem_iff] at hMem
  · intro member hWritten
    obtain ⟨document, hMember, hDocument⟩ := exists_member_of_arranges hPerm hMembers hWritten
    rw [toMembers_eq_map]
    exact ⟨document, List.mem_map.2 ⟨_, hMember, rfl⟩, hDocument⟩

/-- A record is restored from members that are fields, each of them once, if its fields are found
wherever these members are shown. -/
theorem restores_readRecord {names : List String} {build : Record → Located α}
    {written : List (String × Json)} {value : α} (hNames : (written.map (·.1)).Sublist names)
    (hNodup : names.Nodup) (hBuild : ∀ record : Record, (∀ name, record.Shows written name) →
      build record = .found value) :
    Restores (readRecord names build) (.object written) value := by
  intro setting document hDocument hDepth
  obtain ⟨members, between, rfl, hPerm, hMembers⟩ := hDocument.exists_members
  obtain ⟨inside, hEnter, hInside⟩ := enter_of_lt hDepth
  rw [toMembers_eq_map, depthMembers_le_iff, List.forall_mem_map] at hInside
  have hSame := perm_names_of_arranges hPerm hMembers
  have hOnce : ((toMembers members).map (·.1)).Nodup := by
    rw [map_fst_toMembers]
    exact (hSame.nodup_iff.2 (hNodup.sublist hNames)).map fun _ _ => Option.some.inj
  have hKnown : ∀ member ∈ toMembers members, ∃ name, member.1 = some name ∧
      (name ∈ names ∨ member.2.isWhole = true) := by
    rw [toMembers_eq_map, List.forall_mem_map]
    intro member hMember
    have hName := hNames.subset (hSame.mem_iff.1 (List.mem_map_of_mem hMember))
    exact ⟨member.1, rfl, .inl hName⟩
  have hNone : ∀ name ∈ ([] : List String), some name ∉ (toMembers members).map (·.1) :=
    fun _ hName => absurd hName List.not_mem_nil
  rw [toDraft]
  exact readRecord_of_found hEnter
    (Record.memberFaults_of_once (Record.once_of_nodup hOnce names) hNone hKnown)
    (hBuild _ (Record.shows_of_arranges hPerm hMembers hOnce hInside names))

end Collocation.Json
