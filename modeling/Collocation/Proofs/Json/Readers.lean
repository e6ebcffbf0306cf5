import Collocation.Entity.Branching
import Collocation.Proofs.Forest.Values
import Collocation.Proofs.Json.Payloads

/-!
# What readers take out of texts

A property of all that a reader takes out of the drafts of texts, by the shape that is read. Of a
record it is enough to know what its fields have, and of a tree what the fields of a point have.
-/

set_option autoImplicit false

namespace Collocation.Json

variable {α β : Type}

/-- What is read of a draft with the numbers of a text, and within its levels, has a property. -/
def Gives (read : Reader α) (P : α → Prop) : Prop :=
  ∀ ⦃setting : Setting⦄ ⦃draft : Draft⦄ ⦃value : α⦄, setting.levels ≤ maxLevels → draft.Sized →
    read setting draft = .ok value → P value

/-! ## Scalars and payloads -/

/-- What a reader of scalars gives has a property if all that it takes does. -/
theorem gives_readScalar {take : Scalar → Option α} {P : α → Prop}
    (h : ∀ scalar value, scalar.Sized → take scalar = some value → P value) :
    Gives (readScalar take) P := by
  intro setting draft value _ hSized hRead
  cases draft with
  | scalar scalar =>
    obtain ⟨hScalar⟩ := hSized
    simp only [readScalar] at hRead
    cases hTake : take scalar with
    | none =>
      rw [hTake] at hRead
      cases hRead
    | some found =>
      rw [hTake] at hRead
      cases hRead
      exact h scalar value hScalar hTake
  | _ => cases hRead

/-- A double is read of a number of sixty-four bits or of a finite double. -/
theorem gives_readDouble : Gives readDouble fun x => x.isFinite = true := by
  refine gives_readScalar fun scalar x hSized hTake => ?_
  cases scalar with
  | integer n =>
    cases hTake
    have hMin : -(UInt64.size : Int) < Int64.minValue.toInt := by decide
    have hLower := hSized.1
    have hUpper := hSized.2
    exact Double.isFinite_ofInt (by omega)
  | double y =>
    cases hTake
    exact hSized
  | _ => cases hTake

/-- A reader of payloads gives tidy values. -/
theorem gives_readPayload : Gives readPayload (Tidy maxLevels) :=
  fun _ _ _ hLevels hSized hRead => (tidy_payload hSized hRead).mono hLevels

/-- A reader of optional values gives nothing, or what the reader of values gives. -/
theorem gives_readOptional {read : Reader α} {P : α → Prop} (h : Gives read P) :
    Gives (readOptional read) fun found => ∀ value, found = some value → P value := by
  intro setting draft found hLevels hSized hRead value hFound
  subst hFound
  have hValue : (read setting draft).map some = .ok (some value) := by
    unfold readOptional at hRead
    split at hRead
    · cases hRead
    · exact hRead
  obtain ⟨_, hInner, ⟨⟩⟩ := map_eq_ok_iff.1 hValue
  exact h hLevels hSized hInner

/-! ## Lists -/

/-- Inside a value no more levels are left than outside. -/
theorem levels_le_of_enter {setting inside : Setting} (h : setting.enter = .ok inside)
    (hLevels : setting.levels ≤ maxLevels) : inside.levels ≤ maxLevels := by
  rw [levels_of_enter h] at hLevels
  exact Nat.le_of_succ_le hLevels

/-- A reader of lists gives lists of what the reader of items gives. -/
theorem gives_readList {read : Reader α} {P : α → Prop} (h : Gives read P) :
    Gives (readList read) fun values => ∀ value ∈ values, P value := by
  intro setting draft values hLevels hSized hRead value hValue
  cases draft with
  | array items =>
    obtain ⟨inside, hEnter, hItems⟩ := bind_eq_ok_iff.1 hRead
    obtain ⟨item, hItem, hFound⟩ := exists_of_mem_mapM hItems hValue
    cases hSized with
    | array hSized => exact h (levels_le_of_enter hEnter hLevels) (hSized item hItem) hFound
  | _ => cases hRead

/-! ## Fields -/

namespace Located

/-- What is mapped is found just if something was found to be mapped. -/
theorem map_eq_found_iff {f : α → β} {a : Located α} {value : β} :
    f <$> a = found value ↔ ∃ x, a = found x ∧ f x = value := by
  change map f a = found value ↔ _
  cases a <;> simp [map]

/-- Two things are found together just if each of them is. -/
theorem seq_eq_found_iff {f : Located (α → β)} {a : Located α} {value : β} :
    f <*> a = found value ↔ ∃ g x, f = found g ∧ a = found x ∧ g x = value := by
  change map (fun p : (α → β) × α => p.1 p.2) (both f a) = found value ↔ _
  cases f with
  | found g => cases a <;> simp [both, map]
  | fault place reason =>
    cases a with
    | found x => simp [both, map]
    | fault place' reason' =>
      by_cases hPlace : place ≤ place' <;> simp [both, map, hPlace]

/-- A located value is a success just if it was found. -/
theorem toExcept_eq_ok_iff {a : Located α} {value : α} :
    a.toExcept = .ok value ↔ a = found value := by
  cases a <;> simp [toExcept]

/-- A result is found just if it is a success. -/
theorem ofExcept_eq_found_iff {place : Nat} {result : Except Fault α} {value : α} :
    ofExcept place result = found value ↔ result = .ok value := by
  cases result <;> simp [ofExcept]

/-- Of what is found together, both were found. -/
theorem both_eq_found {a : Located α} {b : Located β} {value : α × β}
    (h : a.both b = found value) : b = found value.2 := by
  cases a <;> cases b <;> simp only [both] at h
  · cases h
    rfl
  · cases h
  · cases h
  · split at h <;> cases h

end Located

/-- The numbers in what a record is read from are those of texts. -/
def Parts.Sized : Parts → Prop
  | .members read => ∀ member ∈ read, member.2.Sized
  | .items read => ∀ item ∈ read, item.Sized

/-- A record that is read from a text. -/
structure Record.Sized (record : Record) : Prop where
  levels_le : record.setting.levels ≤ maxLevels
  parts : record.parts.Sized

namespace Record.Sized

variable {record : Record} (h : record.Sized) {name : String}
include h

/-- A member of a sized record is sized. -/
theorem of_find? {place : Nat} {draft : Draft} (hFind : record.find? name = some (place, draft)) :
    draft.Sized := by
  obtain ⟨setting, names, parts⟩ := record
  have hParts := h.parts
  cases parts with
  | members members =>
    simp only [find?, Option.map_eq_some_iff] at hFind
    obtain ⟨member, hMember, hDraft⟩ := hFind
    cases hDraft
    exact hParts member (List.mem_of_getElem? hMember)
  | items items =>
    simp only [find?, Option.map_eq_some_iff] at hFind
    obtain ⟨_, hItem, hDraft⟩ := hFind
    cases hDraft
    exact hParts draft (List.mem_of_getElem? hItem)

variable {read : Reader α} {P : α → Prop} (hRead : Gives read P)
include hRead

/-- A required field that is found has the property that its reader gives. -/
theorem required {value : α} (hFound : record.required name read = .found value) : P value := by
  rw [Record.required] at hFound
  cases hFind : record.find? name with
  | none =>
    rw [hFind] at hFound
    cases hFound
  | some found =>
    rw [hFind] at hFound
    exact hRead h.levels_le (h.of_find? hFind) (Located.ofExcept_eq_found_iff.1 hFound)

/-- A field with a default has this property if the default does. -/
theorem defaulted {default value : α} (hDefault : P default)
    (hFound : record.defaulted name read default = .found value) : P value := by
  rw [Record.defaulted] at hFound
  cases hFind : record.find? name with
  | none =>
    rw [hFind] at hFound
    cases hFound
    exact hDefault
  | some found =>
    rw [hFind] at hFound
    exact hRead h.levels_le (h.of_find? hFind) (Located.ofExcept_eq_found_iff.1 hFound)

/-- An optional field has it where there is a value. -/
theorem optional {found : Option α} (hFound : record.optional name read = .found found) :
    ∀ value, found = some value → P value :=
  h.defaulted (gives_readOptional hRead) (by rintro _ ⟨⟩) hFound

end Record.Sized

/-! ## Records and trees -/

/-- What the fields of a record give, the record gives. -/
theorem gives_readRecord {names : List String} {build : Record → Located α} {P : α → Prop}
    (h : ∀ record value, record.Sized → build record = .found value → P value) :
    Gives (readRecord names build) P := by
  intro setting draft value hLevels hSized hRead
  cases draft with
  | object members =>
    obtain ⟨inside, hEnter, hFields⟩ := bind_eq_ok_iff.1 hRead
    obtain ⟨found, hFound, hValue⟩ :=
      Located.map_eq_found_iff.1 (Located.toExcept_eq_ok_iff.1 hFields)
    cases hSized with
    | object hSized =>
      have hRecord : (Record.mk inside names (.members members)).Sized :=
        ⟨levels_le_of_enter hEnter hLevels, hSized⟩
      exact h _ _ hRecord (hValue ▸ Located.both_eq_found hFound)
  | array items =>
    obtain ⟨inside, hEnter, hFields⟩ := bind_eq_ok_iff.1 hRead
    obtain ⟨found, hFound, hValue⟩ := bind_eq_ok_iff.1 hFields
    have hSame : found = value := by
      split at hValue <;> cases hValue
      rfl
    cases hSized with
    | array hSized =>
      have hRecord : (Record.mk inside names (.items items)).Sized :=
        ⟨levels_le_of_enter hEnter hLevels, hSized⟩
      exact h _ _ hRecord (hSame ▸ Located.toExcept_eq_ok_iff.1 hFound)
  | _ => cases hRead

/-- What the fields of a point give, each point of a tree has. -/
theorem gives_readTreeWithin {names : List String} {fields : Record → Located α} {P : α → Prop}
    (h : ∀ record value, record.Sized → fields record = .found value → P value) (levels : Nat) :
    Gives (readTreeWithin names fields levels) fun tree => ∀ value ∈ tree.values, P value := by
  induction levels with
  | zero =>
    intro setting draft tree _ _ hRead
    cases hRead
  | succ levels ih =>
    refine gives_readRecord fun record tree hRecord hTree => ?_
    simp only [Located.seq_eq_found_iff, Located.map_eq_found_iff] at hTree
    obtain ⟨_, children, ⟨value, hValue, rfl⟩, hChildren, rfl⟩ := hTree
    have hBelow : ∀ child ∈ children, ∀ value ∈ child.values, P value :=
      hRecord.defaulted (gives_readList ih) (fun _ hChild => absurd hChild List.not_mem_nil)
        hChildren
    rw [Tree.values]
    exact List.forall_mem_cons.2
      ⟨h record value hRecord hValue, Forest.forall_mem_values_iff.2 hBelow⟩

/-- A reader of trees gives trees whose values have the property of what its fields give. -/
theorem gives_readTree {names : List String} {fields : Record → Located α} {P : α → Prop}
    (h : ∀ record value, record.Sized → fields record = .found value → P value) :
    Gives (readTree names fields) fun tree => ∀ value ∈ tree.values, P value :=
  fun setting _ _ hLevels hSized hRead =>
    gives_readTreeWithin h (setting.levels + 1) hLevels hSized hRead

/-! ## Whole texts -/

/-- What is read of a text has what its reader gives. -/
theorem Gives.of_ofText {read : Reader α} {P : α → Prop} (h : Gives read P) {text : String}
    {value : α} (hRead : ofText read text = .ok value) : P value := by
  obtain ⟨found, hFound, hEnded⟩ := bind_eq_ok_iff.1 hRead
  have hSame : found = value := by
    split at hEnded <;> cases hEnded
    rfl
  exact hSame ▸ h (Nat.le_refl maxLevels) (sized_ofText text.toList) hFound

end Collocation.Json
