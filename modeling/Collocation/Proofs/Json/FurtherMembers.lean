import Collocation.Proofs.Json.Restoring

/-!
# Further members

A record is read from an object that has more members than were written of it, as long as their
names are none of its fields, in whatever order they all stand. What is read of a further member is
only that the text goes on behind it.
-/

set_option autoImplicit false

namespace Collocation.Json

variable {α : Type} {names : List String} {written : List (String × Json)}
  {members : List (Option String × Draft)}

/-- Members are those that were written, in any order, among whole ones of other names. -/
def Among (names : List String) (written : List (String × Json))
    (members : List (Option String × Draft)) : Prop :=
  ∃ further : List (String × Draft),
    members.Perm (toMembers written ++ further.map fun member => (some member.1, member.2)) ∧
      ∀ member ∈ further, member.1 ∉ names ∧ member.2.isWhole = true

namespace Among

variable (h : Among names written members)
include h

/-- Members that were written stand once among others, which have none of the names. -/
theorem once (hNodup : (written.map (·.1)).Nodup) : Record.Once names members := by
  obtain ⟨further, hPerm, hFurther⟩ := h
  refine List.Pairwise.perm ?_ hPerm.symm fun hApart => symm hApart
  refine List.pairwise_append.2 ⟨?_, ?_, ?_⟩
  · have hNames : ((toMembers written).map (·.1)).Nodup := by
      rw [map_fst_toMembers]
      exact hNodup.map fun _ _ => Option.some.inj
    exact Record.once_of_nodup hNames names
  · refine List.pairwise_map.2 (List.pairwise_of_forall_mem_list ?_)
    intro first hFirst _ _ _ name hName hSame
    exact (hFurther first hFirst).1 (Option.some.inj hSame ▸ hName)
  · intro first _ second hSecond hSame name hName hFirst
    obtain ⟨other, hOther, rfl⟩ := List.mem_map.1 hSecond
    exact (hFurther other hOther).1 (Option.some.inj (hSame.symm.trans hFirst) ▸ hName)

/-- A member with one of the names is one of those that were written. -/
theorem mem_of_field {name : String} (hName : name ∈ names)
    (hMem : some name ∈ members.map (·.1)) : name ∈ written.map (·.1) := by
  obtain ⟨further, hPerm, hFurther⟩ := h
  rw [(hPerm.map _).mem_iff, List.map_append, map_fst_toMembers, List.mem_append,
    List.mem_map_of_injective fun _ _ => Option.some.inj] at hMem
  refine hMem.resolve_right fun hOther => ?_
  obtain ⟨_, hMember, hSame⟩ := List.mem_map.1 hOther
  obtain ⟨other, hOther, rfl⟩ := List.mem_map.1 hMember
  exact (hFurther other hOther).1 (Option.some.inj hSame ▸ hName)

/-- What was written is there. -/
theorem mem_of_written {member : String × Json} (hMember : member ∈ written) :
    (some member.1, member.2.toDraft) ∈ members := by
  obtain ⟨further, hPerm, -⟩ := h
  rw [hPerm.mem_iff, toMembers_eq_map]
  exact List.mem_append_left _ (List.mem_map.2 ⟨member, hMember, rfl⟩)

/-- A member of an object is a field, or its value is whole. -/
theorem known_or_whole (hNames : written.map (·.1) ⊆ names) :
    ∀ member ∈ members, ∃ name, member.1 = some name ∧
      (name ∈ names ∨ member.2.isWhole = true) := by
  obtain ⟨further, hPerm, hFurther⟩ := h
  intro member hMember
  rw [hPerm.mem_iff, toMembers_eq_map, List.mem_append, List.mem_map, List.mem_map] at hMember
  rcases hMember with ⟨field, hField, rfl⟩ | ⟨other, hOther, rfl⟩
  · exact ⟨field.1, rfl, .inl (hNames (List.mem_map_of_mem hField))⟩
  · exact ⟨other.1, rfl, .inr (hFurther other hOther).2⟩

/-- A record is read from an object with further members if its fields are found wherever the
members that were written are shown. -/
theorem readRecord {build : Record → Located α} {value : α}
    (hNames : (written.map (·.1)).Sublist names) (hNodup : names.Nodup)
    (hBuild : ∀ record : Record, (∀ name ∈ names, record.Shows written name) →
      build record = .found value) {setting : Setting}
    (hDepth : (Json.object written).toDraft.depth ≤ setting.levels) :
    readRecord names build setting (.object members) = .ok value := by
  obtain ⟨inside, hEnter, hInside⟩ := enter_of_lt hDepth
  rw [toMembers_eq_map, depthMembers_le_iff, List.forall_mem_map] at hInside
  have hOnce := h.once (hNodup.sublist hNames)
  have hNone : ∀ name ∈ ([] : List String), some name ∉ members.map (·.1) :=
    fun _ hName => absurd hName List.not_mem_nil
  have hShows : ∀ name ∈ names, (Record.mk inside names (.members members)).Shows written name :=
    fun _ hName => Record.shows_of_members hOnce (fun _ => h.mem_of_field)
      (fun member hMember => ⟨member.2, h.mem_of_written hMember, .refl _⟩) hInside hName
  exact readRecord_of_found hEnter
    (Record.memberFaults_of_once hOnce hNone (h.known_or_whole hNames.subset)) (hBuild _ hShows)

end Among

end Collocation.Json
