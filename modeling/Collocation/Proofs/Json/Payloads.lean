import Collocation.Proofs.Chains
import Collocation.Proofs.Json.CompactTexts
import Collocation.Proofs.Json.Drafts

/-!
# Payloads of texts

A payload that is read from a text has the numbers of texts, the names in its objects ascend, and it
nests no more deeply than a text may. So its compact text is read as the payload again, if its
doubles are read back one by one.
-/

set_option autoImplicit false

namespace Collocation.Json

/-! ## Doubles of values -/

mutual

/-- The doubles in a value. -/
def doubles : Json → List Double
  | .scalar (.double x) => [x]
  | .scalar _ => []
  | .array items => doublesOfItems items
  | .object members => doublesOfMembers members

def doublesOfItems : List Json → List Double
  | [] => []
  | item :: items => item.doubles ++ doublesOfItems items

def doublesOfMembers : List (String × Json) → List Double
  | [] => []
  | (_, value) :: members => value.doubles ++ doublesOfMembers members

end

/-- The doubles of items are those of each item. -/
theorem doublesOfItems_eq (items : List Json) : doublesOfItems items = items.flatMap doubles := by
  induction items with
  | nil => rfl
  | cons item items ih => rw [doublesOfItems, ih, List.flatMap_cons]

/-- The doubles of members are those of each member's value. -/
theorem doublesOfMembers_eq (members : List (String × Json)) :
    doublesOfMembers members = members.flatMap fun member => member.2.doubles := by
  induction members with
  | nil => rfl
  | cons member members ih => rw [doublesOfMembers, ih, List.flatMap_cons]

/-! ## Tidy values -/

/-- A value of so many levels at most, with numbers as texts have them, in whose objects the names
ascend. -/
inductive Tidy : Nat → Json → Prop
  | scalar {levels : Nat} {value : Scalar} (h : value.Sized) : Tidy levels (.scalar value)
  | array {levels : Nat} {items : List Json} (h : ∀ item ∈ items, Tidy levels item) :
    Tidy (levels + 1) (.array items)
  | object {levels : Nat} {members : List (String × Json)} (hAscending : Ascending members)
      (h : ∀ member ∈ members, Tidy levels member.2) :
    Tidy (levels + 1) (.object members)

namespace Tidy

variable {levels : Nat} {value : Json}

/-- A value that is tidy to some levels is so to more. -/
theorem mono (h : Tidy levels value) {more : Nat} (hLe : levels ≤ more) : Tidy more value := by
  induction h generalizing more with
  | scalar hSized => exact .scalar hSized
  | array _ ih =>
    obtain ⟨more, rfl⟩ := Nat.exists_eq_add_of_lt (Nat.lt_of_succ_le hLe)
    exact .array fun item hItem => ih item hItem (Nat.le_add_right _ _)
  | object hAscending _ ih =>
    obtain ⟨more, rfl⟩ := Nat.exists_eq_add_of_lt (Nat.lt_of_succ_le hLe)
    exact .object hAscending fun member hMember => ih member hMember (Nat.le_add_right _ _)

/-- A tidy value is nested no deeper than its levels. -/
theorem depth_le (h : Tidy levels value) : value.toDraft.depth ≤ levels := by
  induction h with
  | scalar => exact Nat.zero_le _
  | array _ ih =>
    rw [toDraft, Draft.depth, toDrafts_eq_map]
    exact Nat.succ_le_succ (depthItems_le_iff.2 (List.forall_mem_map.2 ih))
  | object _ _ ih =>
    rw [toDraft, Draft.depth, toMembers_eq_map]
    exact Nat.succ_le_succ (depthMembers_le_iff.2 (List.forall_mem_map.2 ih))

/-- The doubles of a tidy value are finite. -/
theorem isFinite_of_mem_doubles (h : Tidy levels value) :
    ∀ x ∈ value.doubles, x.isFinite = true := by
  induction h with
  | @scalar levels value hSized =>
    cases value with
    | double x => exact fun y hy => List.mem_singleton.1 hy ▸ hSized
    | _ => exact fun y hy => absurd hy List.not_mem_nil
  | array _ ih =>
    rw [doubles, doublesOfItems_eq]
    intro x hx
    obtain ⟨item, hItem, hx⟩ := List.mem_flatMap.1 hx
    exact ih item hItem x hx
  | object _ _ ih =>
    rw [doubles, doublesOfMembers_eq]
    intro x hx
    obtain ⟨member, hMember, hx⟩ := List.mem_flatMap.1 hx
    exact ih member hMember x hx

/-- Whole numbers of texts are read back, so that only the doubles are in question. -/
theorem legible (h : Tidy levels value)
    (hReads : ∀ x ∈ value.doubles, (Scalar.double x).ReadsBack) : value.Legible := by
  induction h with
  | @scalar levels value hSized =>
    cases value with
    | integer n => exact readNumber_integerChars hSized.1 hSized.2
    | double x => exact hReads x List.mem_cons_self
    | _ => trivial
  | array _ ih =>
    rw [doubles, doublesOfItems_eq] at hReads
    exact legibleItems_iff.2 fun item hItem =>
      ih item hItem fun x hx => hReads x (List.mem_flatMap.2 ⟨item, hItem, hx⟩)
  | object hAscending _ ih =>
    rw [doubles, doublesOfMembers_eq] at hReads
    exact ⟨hAscending, legibleMembers_iff.2 fun member hMember =>
      ih member hMember fun x hx => hReads x (List.mem_flatMap.2 ⟨member, hMember, hx⟩)⟩

/-- The compact text of a tidy value is read as the value. -/
theorem parse?_compact (h : Tidy levels value) (hLevels : levels ≤ maxLevels)
    (hReads : ∀ x ∈ value.doubles, (Scalar.double x).ReadsBack) :
    parse? value.compact = some value :=
  Json.parse?_compact (h.legible hReads) (Nat.le_trans h.depth_le hLevels)

end Tidy

/-! ## What is read as a payload -/

mutual

/-- A payload of a draft is tidy. -/
theorem tidy_payload : ∀ {draft : Draft}, draft.Sized → ∀ {setting : Setting} {value : Json},
    draft.payload setting = .ok value → Tidy setting.levels value
  | .scalar _, .scalar hSized, _, _, h => by
    rw [Draft.payload] at h
    cases h
    exact .scalar hSized
  | .unreadable, _, _, _, h => by
    rw [Draft.payload] at h
    cases h
  | .broken, _, _, _, h => by
    rw [Draft.payload] at h
    cases h
  | .array items, .array hItems, setting, _, h => by
    rw [Draft.payload, bind_eq_ok_iff] at h
    obtain ⟨inside, hEnter, h⟩ := h
    obtain ⟨values, hValues, h⟩ := bind_eq_ok_iff.1 h
    cases h
    rw [levels_of_enter hEnter]
    exact .array (tidy_payloadItems hItems hValues)
  | .object members, .object hMembers, setting, _, h => by
    rw [Draft.payload, bind_eq_ok_iff] at h
    obtain ⟨inside, hEnter, h⟩ := h
    obtain ⟨values, hValues, h⟩ := bind_eq_ok_iff.1 h
    cases h
    have hNone : ∀ member ∈ ([] : List (String × Json)), Tidy inside.levels member.2 :=
      fun _ hMember => absurd hMember List.not_mem_nil
    obtain ⟨hAscending, hTidy⟩ := tidy_payloadMembers hMembers .nil hNone hValues
    rw [levels_of_enter hEnter]
    exact .object hAscending hTidy

/-- The payloads of sized items are tidy. -/
theorem tidy_payloadItems : ∀ {items : List Draft}, (∀ item ∈ items, item.Sized) →
    ∀ {setting : Setting} {values : List Json}, Draft.payloadItems setting items = .ok values →
      ∀ value ∈ values, Tidy setting.levels value
  | [], _, _, _, h => by
    rw [Draft.payloadItems] at h
    cases h
    exact fun _ hValue => absurd hValue List.not_mem_nil
  | item :: items, hItems, _, _, h => by
    obtain ⟨hItem, hOthers⟩ := List.forall_mem_cons.1 hItems
    rw [Draft.payloadItems, bind_eq_ok_iff] at h
    obtain ⟨first, hFirst, h⟩ := h
    obtain ⟨rest, hRest, h⟩ := bind_eq_ok_iff.1 h
    cases h
    exact List.forall_mem_cons.2 ⟨tidy_payload hItem hFirst, tidy_payloadItems hOthers hRest⟩

/-- The payloads of sized members are tidy, and their names ascend. -/
theorem tidy_payloadMembers : ∀ {members : List (Option String × Draft)},
    (∀ member ∈ members, member.2.Sized) →
      ∀ {setting : Setting} {read values : List (String × Json)}, Ascending read →
        (∀ member ∈ read, Tidy setting.levels member.2) →
        Draft.payloadMembers setting members read = .ok values →
          Ascending values ∧ ∀ member ∈ values, Tidy setting.levels member.2
  | [], _, _, _, _, hAscending, hRead, h => by
    rw [Draft.payloadMembers] at h
    cases h
    exact ⟨hAscending, hRead⟩
  | (none, _) :: _, _, _, _, _, _, _, h => by
    rw [Draft.payloadMembers] at h
    cases h
  | (some name, draft) :: members, hMembers, _, _, _, hAscending, hRead, h => by
    obtain ⟨hMember, hOthers⟩ := List.forall_mem_cons.1 hMembers
    rw [Draft.payloadMembers, bind_eq_ok_iff] at h
    obtain ⟨value, hValue, h⟩ := h
    refine tidy_payloadMembers hOthers (ascending_insertEntry name value hAscending) ?_ h
    intro member hInserted
    rcases mem_insertEntry hInserted with rfl | hOld
    · exact tidy_payload hMember hValue
    · exact hRead member hOld

end

end Collocation.Json
