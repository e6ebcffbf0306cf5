import Collocation.Proofs.Chains
import Collocation.Proofs.Json.Levels
import Collocation.Proofs.Keyed.Dictionary

/-!
# Documents with their members in another order

The order of the members of an object says nothing. A document may be arranged otherwise than it was
written, in every object of it, and nests as deeply then. If the names in the objects of a value
ascend, any arrangement of it is read as the value, as a payload.
-/

set_option autoImplicit false

namespace Collocation

open Json

namespace Json

/-! ## Arrangements -/

mutual

/-- A document is another one with the members of its objects in some order. -/
def Arranges : Json → Json → Prop
  | .scalar value, .scalar other => value = other
  | .array items, .array others => ArrangesItems items others
  | .object members, .object others =>
    ∃ between, between.Perm others ∧ ArrangesMembers members between
  | _, _ => False

def ArrangesItems : List Json → List Json → Prop
  | [], [] => True
  | item :: items, other :: others => Arranges item other ∧ ArrangesItems items others
  | _, _ => False

def ArrangesMembers : List (String × Json) → List (String × Json) → Prop
  | [], [] => True
  | (name, value) :: members, (name', other) :: others =>
    (name = name' ∧ Arranges value other) ∧ ArrangesMembers members others
  | _, _ => False

end

/-- Items are arranged one by one. -/
theorem arrangesItems_iff {items others : List Json} :
    ArrangesItems items others ↔ List.Forall₂ Arranges items others := by
  induction items generalizing others with
  | nil => cases others <;> simp [ArrangesItems]
  | cons item items ih => cases others <;> simp [ArrangesItems, ih]

/-- A member has the name of another one, and an arrangement of its value. -/
def ArrangesMember (member other : String × Json) : Prop :=
  member.1 = other.1 ∧ Arranges member.2 other.2

/-- Members are arranged one by one, where they stand in the same order. -/
theorem arrangesMembers_iff {members others : List (String × Json)} :
    ArrangesMembers members others ↔ List.Forall₂ ArrangesMember members others := by
  induction members generalizing others with
  | nil => cases others <;> simp [ArrangesMembers]
  | cons member members ih => cases others <;> simp [ArrangesMembers, ArrangesMember, ih]

namespace Arranges

/-- Every document is an arrangement of itself. -/
theorem refl (document : Json) : Arranges document document := by
  induction document using Json.induction with
  | scalar value => rfl
  | array items ih =>
    rw [Arranges, arrangesItems_iff]
    exact List.forall₂_same.2 ih
  | object members ih =>
    rw [Arranges]
    refine ⟨members, .refl _, arrangesMembers_iff.2 (List.forall₂_same.2 ?_)⟩
    exact fun member hMember => ⟨rfl, ih member hMember⟩

/-- Members in another order make an arrangement of the object. -/
theorem of_perm {members others : List (String × Json)} (h : members.Perm others) :
    Arranges (.object members) (.object others) := by
  rw [Arranges]
  refine ⟨members, h, arrangesMembers_iff.2 (List.forall₂_same.2 ?_)⟩
  exact fun member _ => ⟨rfl, refl member.2⟩

variable {document : Json}

/-- Only a scalar itself is an arrangement of it. -/
theorem eq_scalar {value : Scalar} (h : Arranges document (.scalar value)) :
    document = .scalar value := by
  cases document with
  | scalar other =>
    rw [Arranges] at h
    rw [h]
  | _ => exact False.elim h

/-- A scalar arranges nothing but itself. -/
theorem eq_of_scalar {value : Scalar} {written : Json} (h : Arranges (.scalar value) written) :
    written = .scalar value := by
  cases written with
  | scalar other =>
    rw [Arranges] at h
    rw [h]
  | _ => exact False.elim h

/-- Arrangements of an array are arrays of arrangements of its items. -/
theorem exists_items {others : List Json} (h : Arranges document (.array others)) :
    ∃ items, document = .array items ∧ List.Forall₂ Arranges items others := by
  cases document with
  | array items =>
    rw [Arranges, arrangesItems_iff] at h
    exact ⟨items, rfl, h⟩
  | _ => exact False.elim h

/-- Arrangements of an object are objects of arrangements of its members, in any order. -/
theorem exists_members {others : List (String × Json)} (h : Arranges document (.object others)) :
    ∃ members between, document = .object members ∧ between.Perm others ∧
      List.Forall₂ ArrangesMember members between := by
  cases document with
  | object members =>
    rw [Arranges] at h
    obtain ⟨between, hPerm, hMembers⟩ := h
    exact ⟨members, between, rfl, hPerm, arrangesMembers_iff.1 hMembers⟩
  | _ => exact False.elim h

end Arranges

section Members

variable {members between others : List (String × Json)} (hPerm : between.Perm others)
  (hMembers : List.Forall₂ ArrangesMember members between)
include hPerm hMembers

/-- The members of an arrangement have the names of the others. -/
theorem perm_names_of_arranges : (members.map (·.1)).Perm (others.map (·.1)) := by
  have hNames : List.Forall₂ Eq (members.map (·.1)) (between.map (·.1)) :=
    List.forall₂_map_left_iff.2 (List.forall₂_map_right_iff.2 (hMembers.imp fun _ _ h => h.1))
  rw [List.forall₂_eq_eq_eq] at hNames
  rw [hNames]
  exact hPerm.map _

/-- Each member of an object stands in its arrangement, under its name. -/
theorem exists_member_of_arranges {other : String × Json} (hOther : other ∈ others) :
    ∃ value, (other.1, value) ∈ members ∧ Arranges value other.2 := by
  obtain ⟨⟨name, value⟩, hMember, hName, hValue⟩ :=
    exists_mem_of_forall₂ hMembers (hPerm.mem_iff.2 hOther)
  exact ⟨value, hName ▸ hMember, hValue⟩

end Members

/-- A document nests as deeply as any arrangement of it. -/
theorem Arranges.depth_le {document written : Json} (h : Arranges document written) :
    written.toDraft.depth ≤ document.toDraft.depth := by
  induction written using Json.induction generalizing document with
  | scalar => exact Nat.zero_le _
  | array others ih =>
    obtain ⟨items, rfl, hItems⟩ := h.exists_items
    simp only [toDraft, Draft.depth, toDrafts_eq_map]
    refine Nat.succ_le_succ (depthItems_le_iff.2 (List.forall_mem_map.2 fun other hOther => ?_))
    obtain ⟨item, hItem, hArranges⟩ := exists_mem_of_forall₂ hItems hOther
    exact Nat.le_trans (ih other hOther hArranges)
      (depthItems_le_iff.1 (Nat.le_refl _) _ (List.mem_map_of_mem hItem))
  | object others ih =>
    obtain ⟨members, between, rfl, hPerm, hMembers⟩ := h.exists_members
    simp only [toDraft, Draft.depth, toMembers_eq_map]
    refine Nat.succ_le_succ (depthMembers_le_iff.2 (List.forall_mem_map.2 fun other hOther => ?_))
    obtain ⟨value, hMember, hArranges⟩ := exists_member_of_arranges hPerm hMembers hOther
    exact Nat.le_trans (ih other hOther hArranges)
      (depthMembers_le_iff.1 (Nat.le_refl _) (some other.1, value.toDraft)
        (List.mem_map.2 ⟨_, hMember, rfl⟩))

/-! ## Payloads -/

/-- In all objects of a value the names ascend, however its text had them. -/
inductive Ordered : Json → Prop
  | scalar (value : Scalar) : Ordered (.scalar value)
  | array {items : List Json} (h : ∀ item ∈ items, Ordered item) : Ordered (.array items)
  | object {members : List (String × Json)} (hAscending : Ascending members)
      (h : ∀ member ∈ members, Ordered member.2) : Ordered (.object members)

variable {setting : Setting}

/-- The payloads of items are read from their arrangements. -/
theorem payloadItems_of_arranges {items others : List Json}
    (hItems : List.Forall₂ Arranges items others)
    (h : ∀ other ∈ others, ∀ item, Arranges item other →
      item.toDraft.payload setting = .ok other) :
    Draft.payloadItems setting (toDrafts items) = .ok others := by
  induction hItems with
  | nil => rfl
  | cons hItem _ ih =>
    obtain ⟨hFirst, hOthers⟩ := List.forall_mem_cons.1 h
    rw [toDrafts, Draft.payloadItems, hFirst _ hItem, ih hOthers]
    rfl

/-- The members of an object are entered one by one, in their order in the document. -/
theorem payloadMembers_of_arranges {members between : List (String × Json)}
    (hMembers : List.Forall₂ ArrangesMember members between)
    (h : ∀ other ∈ between, ∀ value, Arranges value other.2 →
      value.toDraft.payload setting = .ok other.2) (read : List (String × Json)) :
    Draft.payloadMembers setting (toMembers members) read =
      .ok (between.foldl (fun read other => insertEntry other.1 other.2 read) read) := by
  induction hMembers generalizing read with
  | nil => rfl
  | cons hMember _ ih =>
    obtain ⟨hFirst, hOthers⟩ := List.forall_mem_cons.1 h
    rw [toMembers, Draft.payloadMembers, hFirst _ hMember.2, hMember.1]
    exact ih hOthers _

/-- Any arrangement of an ordered value is read as the value. -/
theorem Arranges.payload {document written : Json} (h : Arranges document written)
    (hOrdered : written.Ordered) (hDepth : written.toDraft.depth ≤ setting.levels) :
    document.toDraft.payload setting = .ok written := by
  induction hOrdered generalizing document setting with
  | scalar value =>
    rw [h.eq_scalar]
    rfl
  | @array others _ ih =>
    obtain ⟨items, rfl, hItems⟩ := h.exists_items
    obtain ⟨inside, hEnter, hInside⟩ := enter_of_lt hDepth
    rw [toDrafts_eq_map, depthItems_le_iff, List.forall_mem_map] at hInside
    have hPayload : Draft.payloadItems inside (toDrafts items) = .ok others :=
      payloadItems_of_arranges hItems fun other hOther item hItem =>
        ih other hOther hItem (hInside other hOther)
    rw [toDraft, Draft.payload, hEnter]
    simp only [bind, Except.bind, hPayload]
    rfl
  | @object others hAscending _ ih =>
    obtain ⟨members, between, rfl, hPerm, hMembers⟩ := h.exists_members
    obtain ⟨inside, hEnter, hInside⟩ := enter_of_lt hDepth
    rw [toMembers_eq_map, depthMembers_le_iff, List.forall_mem_map] at hInside
    have hPayload := payloadMembers_of_arranges hMembers (fun other hOther value hValue =>
      have hMem := hPerm.mem_iff.1 hOther
      ih other hMem hValue (hInside other hMem)) []
    have hDictionary : Dictionary.ofList between = ⟨others, hAscending⟩ :=
      Dictionary.ofList_of_perm hPerm
    rw [← Dictionary.entries_ofList, hDictionary] at hPayload
    rw [toDraft, Draft.payload, hEnter]
    simp only [bind, Except.bind, hPayload]
    rfl

end Json

end Collocation
