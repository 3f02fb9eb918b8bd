import Thalweg.Daemon.Codec

/-!
# What conflict resolutions name

An event of the conflict resolution stream names one event ID. What it names depends on its stream
and payload only, so a recovered copy names what its original names; only that an event must not
name its own ID depends on the ID.

* `ThalwegEvent.names`, with `parseConflictResolution_eq_ok_iff`.
* `payloadDepth_of_names`: payloads of resolutions are flat.
* `normalizePayload_marshalConflictResolution`, `names_of_resolutionMembers`: what the daemon writes
  names what it is told.
-/

namespace Thalweg

/-- The event ID that an event names as a conflict resolution, if it is a valid one. -/
def ThalwegEvent.names (event : ThalwegEvent) : Option Text :=
  if event.stream ≠ conflictResolutionStream then none
  else
    match decodeStrictFrame conflictResolutionFields ⟨0, [], []⟩ event.payload with
    | .error _ => none
    | .ok payload =>
      if payload.version ≠ conflictResolutionVersion ∨ payload.eventID = [] ∨
          payload.strategy ≠ conflictResolutionStrategy then none
      else some payload.eventID

/-- The payload that names an event ID. -/
def resolutionOf (eventID : Text) : ConflictResolutionPayload :=
  ⟨conflictResolutionVersion, eventID, conflictResolutionStrategy⟩

theorem parseConflictResolution_eq_ok_iff {event : ThalwegEvent}
    {resolution : Option ConflictResolutionPayload} :
    parseConflictResolution event = .ok resolution ↔
      event.stream ≠ conflictResolutionStream ∧ resolution = none ∨
      ∃ eventID, event.names = some eventID ∧ eventID ≠ event.id ∧
        resolution = some (resolutionOf eventID) := by
  unfold parseConflictResolution ThalwegEvent.names
  by_cases hstream : event.stream = conflictResolutionStream
  · simp only [hstream, ne_eq, not_true_eq_false, if_false, false_and, false_or]
    cases decodeStrictFrame conflictResolutionFields ⟨0, [], []⟩ event.payload with
    | error e => simp [wrapf]
    | ok payload =>
      obtain ⟨version, eventID, strategy⟩ := payload
      by_cases hvalid : ¬version = conflictResolutionVersion ∨ eventID = [] ∨
          ¬strategy = conflictResolutionStrategy
      · simp [wrapf, hvalid, errorf]
      · simp only [wrapf, hvalid, if_false]
        push Not at hvalid
        obtain ⟨rfl, -, rfl⟩ := hvalid
        by_cases hself : eventID = event.id <;> simp [hself, errorf, resolutionOf, eq_comm]
  · simp [hstream, eq_comm]

theorem stream_of_names {event : ThalwegEvent} {eventID : Text} (h : event.names = some eventID) :
    event.stream = conflictResolutionStream := by
  unfold ThalwegEvent.names at h
  split_ifs at h with hstream
  exact not_not.mp hstream

theorem parseConflictResolution_of_stream_ne {event : ThalwegEvent}
    (h : event.stream ≠ conflictResolutionStream) : parseConflictResolution event = .ok none :=
  parseConflictResolution_eq_ok_iff.mpr (Or.inl ⟨h, rfl⟩)

theorem parseConflictResolution_of_names {event : ThalwegEvent} {eventID : Text}
    (h : event.names = some eventID) (hself : eventID ≠ event.id) :
    parseConflictResolution event = .ok (some (resolutionOf eventID)) :=
  parseConflictResolution_eq_ok_iff.mpr (Or.inr ⟨eventID, h, hself, rfl⟩)

/-- A resolution names another event ID than its own. -/
theorem names_of_parseConflictResolution {e : ThalwegEvent}
    {resolution : Option ConflictResolutionPayload}
    (hparse : parseConflictResolution e = .ok resolution)
    (hstream : e.stream = conflictResolutionStream) :
    ∃ eventID, e.names = some eventID ∧ eventID ≠ e.id := by
  rcases parseConflictResolution_eq_ok_iff.mp hparse with ⟨hne, -⟩ | ⟨eventID, hn, hne, -⟩
  · exact absurd hstream hne
  · exact ⟨eventID, hn, hne⟩

theorem decodeStrictFrame_eq_ok_iff {σ : Type} {fields : List (Text × Json.Setter σ)} {default s : σ}
    {frame : Text} : decodeStrictFrame fields default frame = .ok s ↔
      Text.trimSpace frame ≠ [] ∧
        Json.decodeRecord true fields default (Text.trimSpace frame) = some s := by
  unfold decodeStrictFrame
  by_cases hframe : Text.trimSpace frame = []
  · simp [hframe, errorf]
  · cases Json.decodeRecord true fields default (Text.trimSpace frame) <;> simp [hframe]

/-- The payload of a conflict resolution is an object of plain values. -/
theorem payloadDepth_of_names {event : ThalwegEvent} (h : IsPayload event.payload) {eventID : Text}
    (hnames : event.names = some eventID) : payloadDepth event.payload ≤ 1 := by
  obtain ⟨v, hwell, -, hdepth, hv⟩ := h
  unfold ThalwegEvent.names at hnames
  split_ifs at hnames
  split at hnames
  · cases hnames
  · next payload hdecode =>
    split_ifs at hnames with hvalid
    rw [decodeStrictFrame_eq_ok_iff, hv, Json.trimSpace_render hwell] at hdecode
    rw [hv, payloadDepth_render hwell hdepth]
    rcases Json.decodeRecord_render_eq_some hwell hdepth hdecode.2 with rfl | ⟨members, rfl, hfold⟩
    · exact absurd (Or.inr (Or.inl rfl)) hvalid
    · have hplain := Json.forall_mem_of_foldlM_setMember (p := fun v => v.depth = 0) ?_ hfold
      · have : Json.membersDepth members ≤ 0 := Json.membersDepth_le_iff.mpr fun m hm =>
          (hplain (m.1, Json.render m.2, m.2) (List.mem_map.mpr ⟨m, hm, rfl⟩)).le
        simp only [Json.depth]
        omega
      · simp only [conflictResolutionFields, List.forall_mem_cons, Option.map_eq_some_iff,
          forall_exists_index, and_imp, List.not_mem_nil, false_implies, implies_true, and_true]
        exact ⟨fun _ _ _ _ _ h _ => Json.depth_of_decodeInt h,
          fun _ _ _ _ _ h _ => Json.depth_of_decodeText h,
          fun _ _ _ _ _ h _ => Json.depth_of_decodeText h⟩

/-- A storable resolution event has a record that reads back. -/
theorem payloadDepth_lt_of_names {event : ThalwegEvent} (h : IsPayload event.payload)
    {eventID : Text} (hnames : event.names = some eventID) :
    payloadDepth event.payload < Json.maxDepth :=
  (payloadDepth_of_names h hnames).trans_lt (by decide)

/-! ### The payload of the daemon's own resolutions -/

/-- The members of a resolution payload in canonical order. -/
def resolutionMembers (eventID : Text) : List (Text × Json) :=
  [("eventId".toList, .str eventID), ("strategy".toList, .str conflictResolutionStrategy),
    ("version".toList, .num ['1'])]

theorem resolutionMembers_wellFormed (eventID : Text) :
    Json.WellFormed Json.IsNumber (.obj (resolutionMembers eventID)) := by
  simp only [resolutionMembers, Json.WellFormed, Json.MembersWellFormed, and_true, true_and]
  decide

theorem depth_resolutionMembers_lt (eventID : Text) :
    (Json.obj (resolutionMembers eventID)).depth < Json.maxDepth := by
  simp only [resolutionMembers, Json.depth, Json.membersDepth]
  decide

theorem normalizePayload_marshalConflictResolution (eventID : Text) :
    normalizePayload (marshalConflictResolution (resolutionOf eventID)) =
      .ok (Json.render (.obj (resolutionMembers eventID))) := by
  let members : List (Text × Json) := [("version".toList, .num ['1']),
    ("eventId".toList, .str eventID), ("strategy".toList, .str conflictResolutionStrategy)]
  have hwell : Json.WellFormed Json.IsNumber (.obj members) := by
    simp only [members, Json.WellFormed, Json.MembersWellFormed, and_true]
    decide
  have htext : marshalConflictResolution (resolutionOf eventID) = Json.render (.obj members) := by
    have hone : Text.decimal conflictResolutionVersion.toNat = ['1'] := by decide
    rw [← Json.renderRecord_map]
    simp only [marshalConflictResolution, resolutionOf, hone, members, List.map_cons, List.map_nil,
      Json.render]
  have hcanonical : Json.canonical (.obj members) = .obj (resolutionMembers eventID) := by
    simp only [members, Json.canonical, Json.canonicalMembers, resolutionMembers]
    congr 1
  have hdepth : (Json.obj members).depth ≤ Json.maxDepth := by
    simp only [members, Json.depth, Json.membersDepth]
    decide
  rw [normalizePayload_eq_ok_iff]
  exact ⟨_, by rw [htext, Json.parse_render hwell hdepth], by rw [hcanonical]⟩

theorem payloadOrNull_marshalConflictResolution (eventID : Text) :
    payloadOrNull (marshalConflictResolution (resolutionOf eventID)) =
      marshalConflictResolution (resolutionOf eventID) :=
  if_neg (by simp [marshalConflictResolution, Json.renderRecord])

/-- The payload of a resolution of the daemon nests below the limit. -/
theorem payloadDepth_of_marshalConflictResolution {eventID payload : Text}
    (h : normalizePayload (payloadOrNull (marshalConflictResolution (resolutionOf eventID))) =
      .ok payload) : payloadDepth payload < Json.maxDepth := by
  rw [payloadOrNull_marshalConflictResolution, normalizePayload_marshalConflictResolution] at h
  rw [← Except.ok.inj h, payloadDepth_render (resolutionMembers_wellFormed eventID)
    (depth_resolutionMembers_lt eventID).le]
  exact depth_resolutionMembers_lt eventID

theorem names_of_resolutionMembers {event : ThalwegEvent} {eventID : Text} (hid : eventID ≠ [])
    (hstream : event.stream = conflictResolutionStream)
    (hpayload : event.payload = Json.render (.obj (resolutionMembers eventID))) :
    event.names = some eventID := by
  have hwell := resolutionMembers_wellFormed eventID
  have hframe : decodeStrictFrame conflictResolutionFields ⟨0, [], []⟩ event.payload =
      .ok (resolutionOf eventID) := by
    rw [decodeStrictFrame_eq_ok_iff, hpayload, Json.trimSpace_render hwell]
    refine ⟨Json.render_ne_nil _ hwell, ?_⟩
    rw [Json.decodeRecord_renderRecord _ _ _ (by simp [resolutionMembers]) hwell
      (depth_resolutionMembers_lt eventID).le]
    rfl
  unfold ThalwegEvent.names
  rw [hframe]
  simp [hstream, resolutionOf, hid]

end Thalweg
