import Collocation.Entity.Submission
import Collocation.Proofs.Assembly.Observations
import Collocation.Proofs.Json.Readers

/-!
# Submissions of texts

All doubles of a submission that is read from a text are finite: those of its parameters, those of
its points, and those in the payloads. Its payloads are read back, if these doubles are.
-/

set_option autoImplicit false

namespace Collocation

open Json Located

/-! ## Doubles and times -/

namespace Params

def doubles (params : Params) : List Double :=
  params.depthMin.toList ++ params.depthMax.toList ++ [params.radiusTolerance]

def instants (params : Params) : List Instant :=
  [params.startTime, params.endTime]

end Params

namespace Observation

/-- The doubles of an observation, apart from its payload. -/
def ownDoubles (o : Observation) : List Double :=
  [o.longitude, o.latitude] ++ o.depth.toList

def doubles (o : Observation) : List Double :=
  o.ownDoubles ++ (o.data.map Json.doubles).getD []

end Observation

namespace Submission

/-- All doubles of a submission, with those in the payloads. -/
def doubles (submission : Submission) : List Double :=
  submission.params.doubles ++ (Forest.values submission.points).flatMap Observation.doubles

/-- All times of a submission. -/
def instants (submission : Submission) : List Instant :=
  [submission.timeStarted, submission.timeCompleted] ++ submission.params.instants ++
    (Forest.values submission.points).map Observation.time

end Submission

/-! ## What is read -/

/-- The doubles of an observation are finite, and its payload is tidy. -/
structure Observation.Tidy (o : Observation) : Prop where
  isFinite : ∀ x ∈ o.ownDoubles, x.isFinite = true
  data : ∀ payload, o.data = some payload → Json.Tidy maxLevels payload

/-- What holds of an optional value where there is one holds of all in its list. -/
theorem forall_mem_toList {α : Type} {P : α → Prop} {value : Option α}
    (h : ∀ x, value = some x → P x) : ∀ x ∈ value.toList, P x := by
  cases value with
  | none => exact fun _ hx => absurd hx List.not_mem_nil
  | some x => exact fun y hy => List.mem_singleton.1 hy ▸ h x rfl

/-- Parameters that are read have finite doubles only. -/
theorem Params.gives_read :
    Gives Params.read fun params => ∀ x ∈ params.doubles, x.isFinite = true := by
  refine gives_readRecord fun record params hRecord hFound => ?_
  simp only [seq_eq_found_iff, map_eq_found_iff] at hFound
  obtain ⟨_, _, ⟨_, _, ⟨_, _, ⟨_, _, ⟨_, _, ⟨_, _, ⟨_, _, ⟨_, _, ⟨_, _, ⟨_, _, ⟨_, -, rfl⟩, -,
    rfl⟩, hMin, rfl⟩, hMax, rfl⟩, -, rfl⟩, hRadius, rfl⟩, -, rfl⟩, -, rfl⟩, -, rfl⟩, -, rfl⟩, -,
    rfl⟩ := hFound
  have hMin := forall_mem_toList (hRecord.optional gives_readDouble hMin)
  have hMax := forall_mem_toList (hRecord.optional gives_readDouble hMax)
  have hRadius := hRecord.required gives_readDouble hRadius
  rw [Params.doubles, List.forall_mem_append, List.forall_mem_append, List.forall_mem_singleton]
  exact ⟨⟨hMin, hMax⟩, hRadius⟩

/-- An observation that is read from the members of a sized record is tidy. -/
theorem Observation.tidy_fields {record : Record} {o : Observation} (hRecord : record.Sized)
    (hFound : Observation.fields record = .found o) : o.Tidy := by
  simp only [Observation.fields, seq_eq_found_iff, map_eq_found_iff] at hFound
  obtain ⟨_, _, ⟨_, _, ⟨_, _, ⟨_, _, ⟨_, _, ⟨_, _, ⟨_, _, ⟨_, _, ⟨_, _, ⟨_, -, rfl⟩, hX, rfl⟩, hY,
    rfl⟩, -, rfl⟩, -, rfl⟩, -, rfl⟩, -, rfl⟩, hDepth, rfl⟩, -, rfl⟩, hData, rfl⟩ := hFound
  have hX := hRecord.required gives_readDouble hX
  have hY := hRecord.required gives_readDouble hY
  have hDepth := forall_mem_toList (hRecord.optional gives_readDouble hDepth)
  exact ⟨List.forall_mem_cons.2 ⟨hX, List.forall_mem_cons.2 ⟨hY, hDepth⟩⟩,
    hRecord.optional gives_readPayload hData⟩

namespace Submission

/-- The doubles of a submission are finite, and its payloads are tidy. -/
structure Tidy (submission : Submission) : Prop where
  params : ∀ x ∈ submission.params.doubles, x.isFinite = true
  points : ∀ o ∈ Forest.values submission.points, o.Tidy

/-- A submission that is read is tidy. -/
theorem gives_read : Gives Submission.read Tidy := by
  refine gives_readRecord fun record submission hRecord hFound => ?_
  simp only [seq_eq_found_iff, map_eq_found_iff] at hFound
  obtain ⟨_, _, ⟨_, _, ⟨_, _, ⟨_, _, ⟨_, _, ⟨_, _, ⟨_, -, rfl⟩, -, rfl⟩, -, rfl⟩, -, rfl⟩, hParams,
    rfl⟩, -, rfl⟩, hPoints, rfl⟩ := hFound
  have hPoint : Gives Point.read fun point => ∀ o ∈ point.values, o.Tidy :=
    gives_readTree fun _ _ => Observation.tidy_fields
  have hTrees := hRecord.defaulted (gives_readList hPoint)
    (fun _ hPoint => absurd hPoint List.not_mem_nil) hPoints
  exact ⟨hRecord.required Params.gives_read hParams, Forest.forall_mem_values_iff.2 hTrees⟩

/-- A submission that is read from a text is tidy. -/
theorem tidy_of_ofText {text : String} {submission : Submission}
    (h : Json.ofText read text = .ok submission) : submission.Tidy :=
  gives_read.of_ofText h

namespace Tidy

variable {submission : Submission} (h : submission.Tidy)
include h

/-- The doubles of a tidy submission are finite. -/
theorem isFinite_of_mem_doubles : ∀ x ∈ submission.doubles, x.isFinite = true := by
  intro x hx
  rcases List.mem_append.1 hx with hx | hx
  · exact h.params x hx
  obtain ⟨o, hMem, hx⟩ := List.mem_flatMap.1 hx
  rcases List.mem_append.1 hx with hx | hx
  · exact (h.points o hMem).isFinite x hx
  cases hData : o.data with
  | none =>
    rw [hData] at hx
    cases hx
  | some payload =>
    rw [hData] at hx
    exact ((h.points o hMem).data payload hData).isFinite_of_mem_doubles x hx

/-- Payloads are read back if the doubles of the submission are. -/
theorem readable (hReads : ∀ x ∈ submission.doubles, (Scalar.double x).ReadsBack) :
    ∀ o ∈ Forest.values submission.points, o.Readable := by
  intro o hMem payload hData
  refine ((h.points o hMem).data payload hData).parse?_compact (Nat.le_refl _) fun x hx => ?_
  have hOwn : x ∈ o.doubles := by
    rw [Observation.doubles, hData]
    exact List.mem_append_right _ hx
  exact hReads x (List.mem_append_right _ (List.mem_flatMap.2 ⟨o, hMem, hOwn⟩))

end Tidy

end Submission

end Collocation
