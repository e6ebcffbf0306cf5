import Collocation.Json.Record
import Mathlib.Data.List.Nodup
import Mathlib.Data.List.Pairwise

/-!
# Records by their members

An object that has no field twice is read as a record by what its members are, and not by their
order: a field is found just if there is a member of its name, and members of other names are passed
over, however many of them have one name.
-/

set_option autoImplicit false

namespace Collocation.Json

variable {α : Type}

namespace Record

/-! ## Fields -/

/-- Two members do not have the same one of some names. -/
def Apart (names : List String) (a b : Option String × Draft) : Prop :=
  a.1 = b.1 → ∀ name ∈ names, a.1 ≠ some name

instance (names : List String) : Std.Symm (Apart names) :=
  ⟨fun _ _ h hSame name hName => hSame ▸ h hSame.symm name hName⟩

/-- Of some names, each is that of one member at most. -/
def Once (names : List String) (members : List (Option String × Draft)) : Prop :=
  members.Pairwise (Apart names)

/-- Members with different names have each name once. -/
theorem once_of_nodup {members : List (Option String × Draft)}
    (h : (members.map (·.1)).Nodup) (names : List String) : Once names members :=
  (List.pairwise_map.1 h).imp fun hNe hName => absurd hName hNe

section Members

variable {inside : Setting} {names known : List String} {members : List (Option String × Draft)}

/-- A field is the member of its name, if there is just one. -/
theorem find?_of_mem (hOnce : Once names members) {name : String} (hName : name ∈ names)
    {draft : Draft} (hMem : (some name, draft) ∈ members) :
    ∃ place, (Record.mk inside known (.members members)).find? name = some (place, draft) := by
  let place := members.findIdx fun member => member.1 == some name
  have hPlace : place < members.length :=
    List.findIdx_lt_length_of_exists ⟨_, hMem, beq_self_eq_true _⟩
  have hFound : members[place].1 = some name := by
    simpa using List.findIdx_getElem (w := hPlace)
  have hDraft : members[place] = (some name, draft) := by
    by_contra hNe
    exact hOnce.forall (List.getElem_mem hPlace) hMem hNe hFound name hName hFound
  refine ⟨place, ?_⟩
  change members[place]?.map (fun member => (place, member.2)) = some (place, draft)
  rw [List.getElem?_eq_getElem hPlace, hDraft]
  rfl

/-- A name that no member has is not found. -/
theorem find?_of_not_mem {name : String} (h : some name ∉ members.map (·.1)) :
    (Record.mk inside known (.members members)).find? name = none := by
  have hPlace : (members.findIdx fun member => member.1 == some name) = members.length :=
    List.findIdx_eq_length.2 fun member hMember =>
      beq_eq_false_iff_ne.2 fun hName => h (List.mem_map.2 ⟨member, hMember, hName⟩)
  simp only [find?, hPlace, List.getElem?_length, Option.map_none]

end Members

section Found

variable {record : Record} {name : String} {read : Reader α} {place : Nat} {draft : Draft}
  (hFind : record.find? name = some (place, draft)) {value : α}
  (hRead : read record.setting draft = .ok value)
include hFind hRead

/-- A field that is found and can be read is the required one. -/
theorem required_of_find? : record.required name read = .found value := by
  rw [required, hFind]
  simp only [hRead]
  rfl

/-- A field that is found and can be read comes in place of its default. -/
theorem defaulted_of_find? (default : α) : record.defaulted name read default = .found value := by
  rw [defaulted, hFind]
  simp only [hRead]
  rfl

end Found

/-- Where a field is missing, its default is found. -/
theorem defaulted_of_missing {record : Record} {name : String}
    (hFind : record.find? name = none) (read : Reader α) (default : α) :
    record.defaulted name read default = .found default := by
  rw [defaulted, hFind]

/-! ## All members -/

/-- Members have no faults of their own if they have names, none of a field twice, and those that
are passed over are whole. -/
theorem memberFaults_of_once {names seen : List String} {place : Nat}
    {members : List (Option String × Draft)}
    (hOnce : Once names members) (hSeen : ∀ name ∈ seen, some name ∉ members.map (·.1))
    (h : ∀ member ∈ members, ∃ name, member.1 = some name ∧
      (name ∈ names ∨ member.2.isWhole = true)) :
    memberFaults names seen place members = .found () := by
  induction members generalizing seen place with
  | nil => rfl
  | cons first members ih =>
    obtain ⟨⟨name, hName, hKnown⟩, hOthers⟩ := List.forall_mem_cons.1 h
    obtain ⟨firstName, draft⟩ := first
    cases hName
    obtain ⟨hFirst, hRest⟩ := List.pairwise_cons.1 hOnce
    have hUnseen : name ∉ seen := fun hMem => hSeen name hMem List.mem_cons_self
    have hLater : ∀ other ∈ seen, some other ∉ members.map (·.1) := fun other hOther hMem =>
      hSeen other hOther (List.mem_cons_of_mem _ hMem)
    rw [memberFaults]
    by_cases hField : name ∈ names
    · have hNever : some name ∉ members.map (·.1) := by
        intro hMem
        obtain ⟨member, hMember, hSame⟩ := List.mem_map.1 hMem
        exact hFirst member hMember hSame.symm name hField rfl
      rw [if_pos hField, if_neg hUnseen]
      exact ih hRest (List.forall_mem_cons.2 ⟨hNever, hLater⟩) hOthers
    · rw [if_neg hField, if_pos (hKnown.resolve_left hField)]
      exact ih hRest hLater hOthers

end Record

/-- A record is read if its members have no faults and its fields are found. -/
theorem readRecord_of_found {names : List String} {build : Record → Located α}
    {setting inside : Setting} (hEnter : setting.enter = .ok inside)
    {members : List (Option String × Draft)} {value : α}
    (hFaults : Record.memberFaults names [] 0 members = .found ())
    (hBuild : build ⟨inside, names, .members members⟩ = .found value) :
    readRecord names build setting (.object members) = .ok value := by
  simp only [readRecord, hEnter, bind, Except.bind, hFaults, hBuild]
  rfl

end Collocation.Json
