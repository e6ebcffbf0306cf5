import Collocation.Proofs.Entity.Branching
import Collocation.Proofs.Entity.Submissions
import Collocation.Proofs.Row.Documents
import Collocation.Proofs.Time.Millis

/-!
# Documents of points, submissions and entries

A point, a submission and an entry are read back from their documents, with all the points below
them, if what they hold has a form that is read as it is written: finite doubles, times in years of
four digits, and payloads that are there and not null. The pipeline hands times over in whole
milliseconds; those of entries are kept to the nanosecond.
-/

set_option autoImplicit false

namespace Collocation

open Json

/-! ## Fields -/

/-- A finite double is read back from its document. -/
theorem restores_double {x : Double} (h : x.isFinite = true) :
    Restores readDouble (.ofDouble x) x := by
  rw [ofDouble, if_pos h]
  exact restores_scalar fun _ => rfl

/-- An optional double is read back, if it is finite where there is one. -/
theorem restoresSome_double {value : Option Double} (h : ∀ x ∈ value.toList, x.isFinite = true) :
    RestoresSome readDouble .ofDouble value := by
  rintro x rfl
  have hFinite := h x (List.mem_singleton.2 rfl)
  refine ⟨restores_double hFinite, ?_⟩
  rw [ofDouble, if_pos hFinite]
  simp

/-- A number of sixty-four bits with a sign is read back. -/
theorem restores_int64 (n : Int64) : Restores readInt64 (.ofInt64 n) n :=
  restores_scalar (readInt64_toInt n)

/-- An id is read back. -/
theorem restores_uuid (id : Uuid) : Restores readUuid (.ofUuid id) id :=
  restores_scalar (readUuid_text id)

/-- An optional id is read back where there is one. -/
theorem restoresSome_uuid (value : Option Uuid) : RestoresSome readUuid .ofUuid value :=
  fun id _ => ⟨restores_uuid id, by simp [ofUuid]⟩

/-- A time of whole milliseconds is read back as the time of a point. -/
theorem restores_time {t : Instant} (hWhole : t.WholeMillis) (hYear : t.FourDigitYear) :
    Restores readTime t.toJson t :=
  restores_scalar (readTime_toJson hWhole hYear)

/-- Any time of a year of four digits is read back as the instant of an execution. -/
theorem restores_instant {t : Instant} (hYear : t.FourDigitYear) :
    Restores readInstant t.toJson t :=
  restores_scalar (readInstant_text hYear)

/-- Strings that were wrapped as documents are unwrapped again. -/
theorem stringsOf?_map (strings : List String) :
    stringsOf? (strings.map .string) = some strings := by
  induction strings with
  | nil => rfl
  | cons s strings ih =>
    rw [stringsOf?] at ih ⊢
    rw [List.map_cons, List.mapM_cons, ih]
    rfl

/-- Names of datasets are read back from their list, also if there are commas in them. -/
theorem restores_datasets (names : List String) :
    Restores readDatasets (.ofStrings names) names := by
  intro setting document hDocument hDepth
  have hOrdered : (Json.ofStrings names).Ordered :=
    .array (List.forall_mem_map.2 fun name _ => .scalar (.string name))
  rw [readDatasets, readPayload, hDocument.payload hOrdered hDepth]
  simp only [bind, Except.bind, Json.ofStrings, stringsOf?_map]
  rfl

/-- A payload as it is held: the names in its objects ascend, as they do in all that is read as one,
and it is not null, which is read as none. -/
structure Json.IsPayload (payload : Json) : Prop where
  ordered : payload.Ordered
  ne_null : payload ≠ .null

/-- An optional payload is read back, where there is one that can be. -/
theorem restoresSome_payload {value : Option Json}
    (h : ∀ payload, value = some payload → payload.IsPayload) :
    RestoresSome readPayload (fun payload => payload) value := by
  intro payload hPayload
  obtain ⟨hOrdered, hNull⟩ := h payload hPayload
  exact ⟨restores_payload hOrdered, hNull⟩

/-! ## Points -/

namespace Observation

/-- The doubles of an observation are finite, its time is of whole milliseconds in a year of four
digits, and its payload is one that is kept. -/
structure Restorable (o : Observation) : Prop where
  isFinite : ∀ x ∈ o.ownDoubles, x.isFinite = true
  time : o.time.WholeMillis ∧ o.time.FourDigitYear
  data : ∀ payload, o.data = some payload → payload.IsPayload

/-- The members of an observation and its children have the names that are read. -/
theorem sublist_names (o : Observation) : (o.members.map (·.1) ++ ["matches"]).Sublist names := by
  have hNames : names = ["id", "lon", "lat", "source", "time"] ++ ["platform"] ++ ["device"] ++
      ["depth"] ++ ["fileurl"] ++ ["data"] ++ ["matches"] := rfl
  rw [hNames, members]
  simp only [List.map_append]
  exact ((((((List.Sublist.refl _).append (sublist_member? ..)).append (sublist_member? ..)).append
    (sublist_member? ..)).append (sublist_member? ..)).append (sublist_member? ..)).append (.refl _)

/-- The fields of a restorable observation are read back from its members. -/
theorem readsFields {o : Observation} (h : o.Restorable) :
    ReadsFields names fields members o := by
  refine ⟨o.sublist_names, fun record hShows => ?_⟩
  have hDoubles := h.isFinite
  rw [ownDoubles, List.forall_mem_append, List.forall_mem_cons, List.forall_mem_singleton]
    at hDoubles
  obtain ⟨⟨hX, hY⟩, hZ⟩ := hDoubles
  have hId := (hShows "id" (by decide)).required rfl (restores_string o.id)
  have hLon := (hShows "lon" (by decide)).required rfl (restores_double hX)
  have hLat := (hShows "lat" (by decide)).required rfl (restores_double hY)
  have hSource := (hShows "source" (by decide)).required rfl (restores_string o.source)
  have hTime := (hShows "time" (by decide)).required rfl (restores_time h.time.1 h.time.2)
  have hPlatform := (hShows "platform" (by decide)).optional_member (by simp [members])
    (restoresSome_string o.platform)
  have hDevice := (hShows "device" (by decide)).optional_member (by simp [members])
    (restoresSome_string o.device)
  have hDepth := (hShows "depth" (by decide)).optional_member (by simp [members])
    (restoresSome_double hZ)
  have hFile := (hShows "fileurl" (by decide)).optional_member (by simp [members])
    (restoresSome_string o.fileUrl)
  have hData := (hShows "data" (by decide)).optional_member (by simp [members])
    (restoresSome_payload h.data)
  rw [fields, hId, hLon, hLat, hSource, hTime, hPlatform, hDevice, hDepth, hFile, hData]
  rfl

end Observation

/-- A point is read back if all its observations are restorable. -/
theorem Point.restores {point : Point} (h : ∀ o ∈ point.values, o.Restorable) :
    Restores Point.read point.toJson point :=
  restores_readTree (by decide) fun o hMem => Observation.readsFields (h o hMem)

/-! ## Submissions -/

/-- Statistics are read back from their document. -/
theorem Stats.restores (stats : Stats) : Restores Stats.read stats.toJson stats := by
  refine restores_readRecord (.refl _) (by decide) fun record hShows => ?_
  rw [(hShows "numPrimaryMatched").required rfl (restores_int64 stats.primaryMatched),
    (hShows "numSecondaryMatched").required rfl (restores_int64 stats.secondaryMatched),
    (hShows "timeToComplete").required rfl (restores_int64 stats.timeToComplete)]
  rfl

/-- The doubles of parameters are finite, and their times are of whole milliseconds in years of four
digits. -/
structure Params.Restorable (params : Params) : Prop where
  isFinite : ∀ x ∈ params.doubles, x.isFinite = true
  times : ∀ t ∈ params.instants, t.WholeMillis ∧ t.FourDigitYear

/-- Restorable parameters are read back from their document. -/
theorem Params.restores {params : Params} (h : params.Restorable) :
    Restores Params.read params.toJson params := by
  refine restores_readRecord (.refl _) (by decide) fun record hShows => ?_
  have hDoubles := h.isFinite
  rw [doubles, List.forall_mem_append, List.forall_mem_append, List.forall_mem_singleton]
    at hDoubles
  obtain ⟨⟨hMin, hMax⟩, hRadius⟩ := hDoubles
  have hTimes := h.times
  rw [instants, List.forall_mem_cons, List.forall_mem_singleton] at hTimes
  obtain ⟨hStart, hEnd⟩ := hTimes
  rw [(hShows "primary").required rfl (restores_string params.primary),
    (hShows "matchup").required rfl (restores_datasets params.matchup),
    (hShows "depthMin").optional_null rfl (restoresSome_double hMin),
    (hShows "depthMax").optional_null rfl (restoresSome_double hMax),
    (hShows "timeTolerance").required rfl (restores_int64 params.timeTolerance),
    (hShows "radiusTolerance").required rfl (restores_double hRadius),
    (hShows "startTime").required rfl (restores_time hStart.1 hStart.2),
    (hShows "endTime").required rfl (restores_time hEnd.1 hEnd.2),
    (hShows "platforms").required rfl (restores_string params.platforms),
    (hShows "bbox").required rfl (restores_string params.boundingBox),
    (hShows "parameter").required rfl (restores_string params.parameter)]
  rfl

namespace Submission

/-- The parameters and the points of a submission are read back, and so are its times. -/
structure Restorable (submission : Submission) : Prop where
  times : ∀ t ∈ [submission.timeStarted, submission.timeCompleted],
    t.WholeMillis ∧ t.FourDigitYear
  params : submission.params.Restorable
  points : ∀ o ∈ Forest.values submission.points, o.Restorable

/-- A restorable submission is read back from its document. -/
theorem restores {submission : Submission} (h : submission.Restorable) :
    Restores Submission.read submission.toJson submission := by
  refine restores_readRecord (.refl _) (by decide) fun record hShows => ?_
  have hTimes := h.times
  rw [List.forall_mem_cons, List.forall_mem_singleton] at hTimes
  obtain ⟨hStarted, hCompleted⟩ := hTimes
  have hPoints : Restores (readList Point.read)
      (Forest.toJson Observation.members submission.points) submission.points :=
    restores_forest (by decide) fun o hMem => Observation.readsFields (h.points o hMem)
  rw [(hShows "executionId").optional_null rfl (restoresSome_uuid submission.executionId),
    (hShows "timeStarted").required rfl (restores_time hStarted.1 hStarted.2),
    (hShows "timeCompleted").required rfl (restores_time hCompleted.1 hCompleted.2),
    (hShows "userEmail").required rfl (restores_string submission.userEmail),
    (hShows "params").required rfl (Params.restores h.params),
    (hShows "stats").required rfl submission.stats.restores,
    (hShows "points").defaulted rfl hPoints []]
  rfl

end Submission

/-! ## Entries -/

namespace Entry

/-- The doubles of an entry are finite, its time is in a year of four digits, and its payloads are
such that are kept. -/
structure Restorable (entry : Entry) : Prop where
  isFinite : ∀ x ∈ [entry.longitude, entry.latitude] ++ entry.depth.toList, x.isFinite = true
  time : entry.time.FourDigitYear
  primary : ∀ payload, entry.primary = some payload → payload.IsPayload
  secondary : ∀ payload, entry.secondary = some payload → payload.IsPayload

/-- The members of an entry and its children have the names that are read. -/
theorem sublist_names (entry : Entry) :
    (entry.members.map (·.1) ++ ["matches"]).Sublist names := by
  have hNames : names = ["id"] ++ ["lon", "lat"] ++ ["point"] ++ ["source", "time"] ++
      ["platform"] ++ ["device"] ++ ["depth"] ++ ["fileurl"] ++ ["primary"] ++ ["secondary"] ++
      ["matches"] := rfl
  rw [hNames, members]
  simp only [List.map_append]
  exact ((((((((((sublist_member? ..).append (.refl _)).append (sublist_member? ..)).append
    (.refl _)).append (sublist_member? ..)).append (sublist_member? ..)).append
    (sublist_member? ..)).append (sublist_member? ..)).append (sublist_member? ..)).append
    (sublist_member? ..)).append (.refl _)

/-- The fields of a restorable entry are read back from its members. -/
theorem readsFields {entry : Entry} (h : entry.Restorable) :
    ReadsFields names fields members entry := by
  refine ⟨entry.sublist_names, fun record hShows => ?_⟩
  have hDoubles := h.isFinite
  rw [List.forall_mem_append, List.forall_mem_cons, List.forall_mem_singleton] at hDoubles
  obtain ⟨⟨hX, hY⟩, hZ⟩ := hDoubles
  have hId := (hShows "id" (by decide)).optional_member (by simp [members])
    (restoresSome_string entry.id)
  have hLon := (hShows "lon" (by decide)).required (by simp [members]) (restores_double hX)
  have hLat := (hShows "lat" (by decide)).required (by simp [members]) (restores_double hY)
  have hLabel := (hShows "point" (by decide)).optional_member (by simp [members])
    (restoresSome_string entry.label)
  have hSource := (hShows "source" (by decide)).required (by simp [members])
    (restores_string entry.source)
  have hTime := (hShows "time" (by decide)).required (by simp [members])
    (restores_instant h.time)
  have hPlatform := (hShows "platform" (by decide)).optional_member (by simp [members])
    (restoresSome_string entry.platform)
  have hDevice := (hShows "device" (by decide)).optional_member (by simp [members])
    (restoresSome_string entry.device)
  have hDepth := (hShows "depth" (by decide)).optional_member (by simp [members])
    (restoresSome_double hZ)
  have hFile := (hShows "fileurl" (by decide)).optional_member (by simp [members])
    (restoresSome_string entry.fileUrl)
  have hPrimary := (hShows "primary" (by decide)).optional_member (by simp [members])
    (restoresSome_payload h.primary)
  have hSecondary := (hShows "secondary" (by decide)).optional_member (by simp [members])
    (restoresSome_payload h.secondary)
  rw [fields, hId, hLon, hLat, hLabel, hSource, hTime, hPlatform, hDevice, hDepth, hFile, hPrimary,
    hSecondary]
  rfl

end Entry

/-- A tree of entries is read back if all its entries are restorable. -/
theorem EntryTree.restores {tree : EntryTree} (h : ∀ entry ∈ tree.values, entry.Restorable) :
    Restores EntryTree.read tree.toJson tree :=
  restores_readTree (by decide) fun entry hMem => Entry.readsFields (h entry hMem)

/-! ## All documents -/

/-- Points with their matches, submissions and entries with theirs are read back from the documents
that are written of them, however deep they nest, and from the same documents with the members of
their objects in any other order. -/
theorem Json.ofValue_toJson :
    (∀ point : Point, (∀ o ∈ point.values, o.Restorable) →
      ofValue Point.read point.toJson = .ok point ∧
        ∀ document, Arranges document point.toJson → ofValue Point.read document = .ok point) ∧
    (∀ submission : Submission, submission.Restorable →
      ofValue Submission.read submission.toJson = .ok submission ∧
        ∀ document, Arranges document submission.toJson →
          ofValue Submission.read document = .ok submission) ∧
    ∀ tree : EntryTree, (∀ entry ∈ tree.values, entry.Restorable) →
      ofValue EntryTree.read tree.toJson = .ok tree ∧
        ∀ document, Arranges document tree.toJson → ofValue EntryTree.read document = .ok tree :=
  ⟨fun _ h => (Point.restores h).ofValue, fun _ h => (Submission.restores h).ofValue,
    fun _ h => (EntryTree.restores h).ofValue⟩

/-- An observation with all that may be known of one. -/
def Observation.complete : Observation where
  id := "p"
  longitude := .ofInt 10
  latitude := .ofInt (-20)
  source := "A,B"
  time := .milliBefore
  platform := some "ship"
  device := some "ctd"
  depth := some (.ofInt 5)
  fileUrl := some "f.nc"
  data := some (.object [("sst", .array [.integer 20, .null])])

/-- The complete observation is restorable. -/
theorem Observation.restorable_complete : Observation.complete.Restorable := by
  have hItems : (Json.array [.integer 20, .null]).Ordered :=
    .array (List.forall_mem_cons.2 ⟨.scalar _, List.forall_mem_singleton.2 (.scalar _)⟩)
  refine ⟨by decide +kernel, by decide +kernel, ?_⟩
  rintro payload ⟨⟩
  exact ⟨.object (List.pairwise_singleton _ _) (List.forall_mem_singleton.2 hItems), by simp⟩

/-- A submission of a point with a match of a match. -/
def Submission.nested : Submission where
  executionId := some (.ofNat 7)
  timeStarted := .epoch
  timeCompleted := .milliBefore
  userEmail := "a@b"
  params :=
    { primary := "A", matchup := ["B", "", "C,D"], depthMin := some .zero, depthMax := none
      timeTolerance := -1, radiusTolerance := .ofInt 3, startTime := .epoch
      endTime := .milliBefore, platforms := "1,2", boundingBox := "", parameter := "sst" }
  stats := ⟨1, 2, -3⟩
  points :=
    [.node .complete [.node { Observation.complete with data := none } [.node .complete []]]]

/-- An entry of a part of a leap second, of which little is told. -/
def Entry.trimmed : Entry where
  longitude := .ofInt 10
  latitude := .ofInt (-20)
  source := "A"
  time := .endOf2016

/-- A point is read with the members of its document turned round, a submission with a match of a
match, and a trimmed entry in a leap second with one below it. -/
theorem Json.ofValue_toJson_nested :
    ofValue Point.read (.object Observation.complete.members.reverse) =
      .ok (.node .complete []) ∧
    ofValue Submission.read Submission.nested.toJson = .ok Submission.nested ∧
    ofValue EntryTree.read (EntryTree.toJson (.node .trimmed [.node .trimmed []])) =
      .ok (.node .trimmed [.node .trimmed []]) := by
  obtain ⟨hPoint, hSubmission, hEntry⟩ := Json.ofValue_toJson
  have hComplete := Observation.restorable_complete
  have hTrimmed : Entry.trimmed.Restorable :=
    ⟨by decide +kernel, by decide +kernel, by rintro _ ⟨⟩, by rintro _ ⟨⟩⟩
  refine ⟨(hPoint (.node .complete []) ?_).2 _ (Arranges.of_perm (List.reverse_perm _)),
    (hSubmission _ ⟨by decide +kernel, ⟨by decide +kernel, by decide +kernel⟩, ?_⟩).1,
    (hEntry _ ?_).1⟩
  · exact List.forall_mem_singleton.2 hComplete
  · have hBare : { Observation.complete with data := none }.Restorable :=
      ⟨hComplete.isFinite, hComplete.time, by rintro _ ⟨⟩⟩
    exact List.forall_mem_cons.2 ⟨hComplete, List.forall_mem_cons.2
      ⟨hBare, List.forall_mem_singleton.2 hComplete⟩⟩
  · exact List.forall_mem_cons.2 ⟨hTrimmed, List.forall_mem_singleton.2 hTrimmed⟩

end Collocation
