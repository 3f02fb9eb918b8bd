import Thalweg.Data.Json.Marshal
import Thalweg.Data.Json.Nesting
import Thalweg.Daemon.LocalIngest

/-!
# Test runs

A test run publishes a number of events on a stream of a network. The ID of an event is made of the
run, the device and the number of the event in the run; its payload holds these, what the request
says and the time of the publication.

The calls of the daemon go over a connection that may break: the daemon then gets the call or it
does not, and the caller sees an error in either case.

## Main definitions

* `PublishRequest`, `checkRequest`: a request and the checks that it has to pass.
* `TestPayload`: the payload of an event of a run.
* `publish`: the calls one after the other, up to the first error.

## Main results

* `TestPayload.normalizePayload_eq_ok_iff`: when a payload is accepted, and what is stored.
* `TestPayload.sentAt_eq`: payloads of two publications are stored alike only if they have the same
  time.
-/

namespace Thalweg.Lab

/-- The stream of a run that names none. -/
def defaultStream : Text := "system:mesh_test".toList

/-- The most events of a run. -/
def maxEventCount : Int := 100

/-- What a run is asked for. -/
structure PublishRequest where
  network : Text
  stream : Text
  count : Int
  runID : Text
  message : Text
  data : Text

/-- What a manifest tells of an event. -/
structure EventReference where
  id : Text
  sequence : Nat

/-- The manifest of a run. -/
structure RunManifest where
  version : Int
  runID : Text
  network : Text
  stream : Text
  originDeviceID : Text
  expected : Int
  publishedAt : Text
  events : List EventReference

/-- The manifest with all fields empty. -/
def RunManifest.zero : RunManifest := ⟨0, [], [], [], [], 0, [], []⟩

/-- The payload of an event of a run. -/
structure TestPayload where
  kind : Text
  runID : Text
  originDeviceID : Text
  sequence : Nat
  total : Int
  message : Text
  sentAt : Text
  data : Text

/-- The payload as it is encoded; an empty message is left out. -/
def TestPayload.marshalable (payload : TestPayload) : Json.Marshalable :=
  .obj ([("kind".toList, .str payload.kind), ("runId".toList, .str payload.runID),
      ("originDeviceId".toList, .str payload.originDeviceID),
      ("sequence".toList, .num (Text.decimal payload.sequence)),
      ("total".toList, .num (Text.decimalInt payload.total))] ++
    (if payload.message = [] then [] else [("message".toList, .str payload.message)]) ++
    [("sentAt".toList, .str payload.sentAt), ("data".toList, .raw payload.data)])

/-! ### Publication -/

/-- The request without white space around its names, and with its defaults. -/
def PublishRequest.withDefaults (request : PublishRequest) : PublishRequest :=
  { request with
    network := Text.trimSpace request.network
    stream := if Text.trimSpace request.stream = [] then defaultStream
      else Text.trimSpace request.stream
    count := if request.count = 0 then 1 else request.count
    runID := Text.trimSpace request.runID
    data := if request.data = [] then ['{', '}'] else request.data }

/-- The request with its defaults, when it passes the checks; `random` is the run ID of a request
without one. -/
def checkRequest (random : Result Text) (request : PublishRequest) : Result PublishRequest :=
  let request := request.withDefaults
  if request.network = [] then errorf "network is required" []
  else if request.count < 1 ∨ maxEventCount < request.count then
    errorf "count must be between 1 and %d" [Text.decimalInt maxEventCount]
  else if (Json.parse request.data).isNone then errorf "data must be valid JSON" []
  else
    match if request.runID = [] then random else .ok request.runID with
    | .error e => .error e
    | .ok runID =>
      if runID.any (· ∈ [' ', '\t', '\r', '\n', ':']) then
        errorf "run ID may not contain whitespace or colons" []
      else .ok { request with runID }

/-- What becomes of a call: it is answered, it does not reach the daemon, or its answer is lost. -/
inductive Delivery where
  | answered
  | lost
  | unanswered
  deriving DecidableEq

/-- A call of the daemon. -/
def call {α : Type} (delivery : Delivery) (handle : Daemon → Result α × Daemon) (d : Daemon) :
    Result α × Daemon :=
  match delivery with
  | .answered => handle d
  | .lost => (.error (.external "ipc"), d)
  | .unanswered => (.error (.external "ipc"), (handle d).2)

/-- The ID of an event of a run. -/
def eventID (runID deviceID : Text) (sequence : Nat) : Text :=
  "mesh-test:".toList ++ runID ++ ':' :: deviceID ++ ':' :: Text.padDecimal 4 sequence

/-- The payload of an event of a run of a checked request. -/
def testPayload (request : PublishRequest) (deviceID publishedAt : Text) (sequence : Nat) :
    TestPayload where
  kind := "thalweg.mesh_test.v1".toList
  runID := request.runID
  originDeviceID := deviceID
  sequence := sequence
  total := request.count
  message := request.message
  sentAt := publishedAt
  data := request.data

/-- The call that ingests an event of a run. -/
def ingestEvent (request : PublishRequest) (deviceID publishedAt : Text) (sequence : Nat)
    (d : Daemon) : Result ThalwegEvent × Daemon :=
  match Json.marshal (testPayload request deviceID publishedAt sequence).marshalable with
  | none => (.error (.external "encoding/json"), d)
  | some payload =>
    d.ingest request.network request.stream [] (eventID request.runID deviceID sequence) payload []

/-- Publish so many events from a sequence number on, up to the first error. -/
def publishFrom (deliveries : Nat → Delivery) (request : PublishRequest) (manifest : RunManifest) :
    Nat → Nat → Daemon → (RunManifest × Option Failure) × Daemon
  | 0, _, d => ((manifest, none), d)
  | remaining + 1, sequence, d =>
    match call (deliveries (sequence + 1))
        (ingestEvent request manifest.originDeviceID manifest.publishedAt sequence) d with
    | (.error e, d) =>
      ((manifest, some (.wrap "publish sequence %d (rerun with --run-id %s to retry safely): %w"
        [Text.decimal sequence, request.runID] e)), d)
    | (.ok _, d) =>
      publishFrom deliveries request
        { manifest with events := manifest.events ++
            [⟨eventID request.runID manifest.originDeviceID sequence, sequence⟩] }
        remaining (sequence + 1) d

/-- Publish a run at a time; `deliveries` tells what becomes of each call. -/
def publish (deliveries : Nat → Delivery) (now : Instant) (random : Result Text)
    (request : PublishRequest) (d : Daemon) : (RunManifest × Option Failure) × Daemon :=
  match checkRequest random request with
  | .error e => ((RunManifest.zero, some e), d)
  | .ok request =>
    match call (deliveries 0) (fun d => (.ok d.deviceID, d)) d with
    | (.error e, d) => ((RunManifest.zero, some (.wrap "read device identity: %w" [] e)), d)
    | (.ok deviceID, d) =>
      if deviceID = [] then
        ((RunManifest.zero, some (.errorf "daemon returned an empty device identity" [])), d)
      else
        match call (deliveries 1) (fun d => (.ok (d.memberships.list.map (·.name)), d)) d with
        | (.error e, d) => ((RunManifest.zero, some (.wrap "list mounted networks: %w" [] e)), d)
        | (.ok names, d) =>
          if request.network ∈ names then
            publishFrom deliveries request
              { version := 1, runID := request.runID, network := request.network
                stream := request.stream, originDeviceID := deviceID, expected := request.count
                publishedAt := now.formatNano, events := [] }
              request.count.toNat 1 d
          else
            ((RunManifest.zero, some (.errorf "network %q is not mounted" [request.network])), d)

/-! ### Payloads -/

namespace TestPayload

/-- The members of the payload before its data. -/
def scalars (payload : TestPayload) : List (Text × Json) :=
  [("kind".toList, .str payload.kind), ("runId".toList, .str payload.runID),
    ("originDeviceId".toList, .str payload.originDeviceID),
    ("sequence".toList, .num (Text.decimal payload.sequence)),
    ("total".toList, .num (Text.decimalInt payload.total))] ++
  (if payload.message = [] then [] else [("message".toList, .str payload.message)]) ++
  [("sentAt".toList, .str payload.sentAt)]

/-- The payload as a JSON value, when the value of its data is the given one. -/
def value (payload : TestPayload) (data : Json) : Json :=
  .obj (payload.scalars ++ [("data".toList, data)])

theorem nodup_names (payload : TestPayload) (data : Json) :
    ((payload.scalars ++ [("data".toList, data)]).map Prod.fst).Nodup := by
  unfold scalars
  split_ifs
  · exact of_decide_eq_true rfl
  · exact of_decide_eq_true rfl

/-- The members before the data are strings and numbers. -/
theorem scalar_cases {payload : TestPayload} {m : Text × Json} (h : m ∈ payload.scalars) :
    (∃ k s, m = (k, .str s)) ∨ ∃ k literal, m = (k, .num literal) ∧ Json.IsNumber literal := by
  unfold scalars at h
  rcases List.mem_append.mp h with h | h
  · rcases List.mem_append.mp h with h | h
    · simp only [List.mem_cons, List.not_mem_nil, or_false] at h
      rcases h with rfl | rfl | rfl | rfl | rfl
      · exact Or.inl ⟨_, _, rfl⟩
      · exact Or.inl ⟨_, _, rfl⟩
      · exact Or.inl ⟨_, _, rfl⟩
      · exact Or.inr ⟨_, _, rfl, Json.isNumber_decimal _⟩
      · exact Or.inr ⟨_, _, rfl, Json.isNumber_decimalInt _⟩
    · split_ifs at h
      · cases h
      · exact Or.inl ⟨_, _, List.mem_singleton.mp h⟩
  · exact Or.inl ⟨_, _, List.mem_singleton.mp h⟩

theorem membersDepth_scalars (payload : TestPayload) (data : Json) :
    Json.membersDepth (payload.scalars ++ [("data".toList, data)]) = data.depth := by
  refine le_antisymm (Json.membersDepth_le_iff.mpr fun m hm => ?_) ?_
  · rcases List.mem_append.mp hm with hm | hm
    · rcases scalar_cases hm with ⟨k, s, rfl⟩ | ⟨k, literal, rfl, -⟩ <;> exact Nat.zero_le _
    · rw [List.mem_singleton.mp hm]
  · exact Json.membersDepth_le_iff.mp le_rfl ("data".toList, data) (by simp)

theorem depth_value (payload : TestPayload) (data : Json) :
    (payload.value data).depth = data.depth + 1 :=
  congrArg (· + 1) (payload.membersDepth_scalars data)

theorem spells_scalar {payload : TestPayload} {m : Text × Json} (h : m ∈ payload.scalars)
    (depth : Nat) : Json.Spells depth m.2 (Json.render m.2) := by
  rcases scalar_cases h with ⟨k, s, rfl⟩ | ⟨k, literal, rfl, hnum⟩
  · exact Json.spells_quote depth s
  · exact Json.spells_number depth hnum

/-- The fields of the encoded payload. -/
def fields (payload : TestPayload) (data : Json) : Json.RawMembers :=
  payload.scalars.map (fun m => (m.1, Json.render m.2, m.2)) ++
    [("data".toList, Json.compactFrom .outside payload.data, data)]

theorem marshal_eq (payload : TestPayload) {data : Json} (h : Json.parse payload.data = some data) :
    Json.marshal payload.marshalable =
      some (Json.renderRecord ((payload.fields data).map fun m => (m.1, m.2.1))) := by
  have hcompact : Json.compact payload.data = some (Json.compactFrom .outside payload.data) := by
    rw [Json.compact, h]
  have hmessage : List.Forall₂ (fun m f => m.1 = f.1 ∧ Json.marshal m.2 = some f.2)
      (if payload.message = [] then [] else [("message".toList, .str payload.message)])
      ((if payload.message = [] then [] else [("message".toList, Json.str payload.message)]).map
        fun m => (m.1, Json.render m.2)) := by
    split_ifs
    · exact .nil
    · exact .cons ⟨rfl, rfl⟩ .nil
  have hnumber : ∀ {literal : Text}, Json.IsNumber literal →
      Json.marshal (.num literal) = some literal := fun hnum => if_pos hnum
  refine Json.marshal_obj_eq ?_
  simp only [fields, scalars, List.map_append, List.map_map, List.map_cons, List.map_nil,
    List.append_assoc, Function.comp_def]
  refine .cons ⟨rfl, rfl⟩ (.cons ⟨rfl, rfl⟩ (.cons ⟨rfl, rfl⟩
    (.cons ⟨rfl, hnumber (Json.isNumber_decimal _)⟩
      (.cons ⟨rfl, hnumber (Json.isNumber_decimalInt _)⟩ ?_))))
  exact List.rel_append hmessage (.cons ⟨rfl, rfl⟩ (.cons ⟨rfl, hcompact⟩ .nil))

/-- The encoding of a payload spells its value. -/
theorem spells_fields (payload : TestPayload) {data : Json}
    (h : Json.parse payload.data = some data) :
    Json.Spells (data.depth + 1) (payload.value data)
      (Json.renderRecord ((payload.fields data).map fun m => (m.1, m.2.1))) := by
  have hspells := @Json.spells_renderRecord data.depth (payload.fields data) (by simp [fields]) ?_
  · have hvalue : (payload.fields data).map (fun m => (m.1, m.2.2)) =
        payload.scalars ++ [("data".toList, data)] := by
      simp [fields, Function.comp_def]
    rwa [hvalue] at hspells
  · intro m hm
    rcases List.mem_append.mp hm with hm | hm
    · obtain ⟨n, hn, rfl⟩ := List.mem_map.mp hm
      exact spells_scalar hn data.depth
    · obtain rfl := List.mem_singleton.mp hm
      exact (Json.parse_spells h).of_depth

/-- A payload is accepted if its data leaves a level to the object around it, and stored as the
canonical text of its value. -/
theorem normalizePayload_eq_ok_iff (payload : TestPayload) {data : Json}
    (h : Json.parse payload.data = some data) {text canonical : Text}
    (htext : Json.marshal payload.marshalable = some text) :
    normalizePayload (payloadOrNull text) = .ok canonical ↔
      data.depth < Json.maxDepth ∧
        canonical = Json.render (Json.canonical (payload.value data)) := by
  obtain rfl := Option.some.inj ((payload.marshal_eq h).symm.trans htext)
  have hspells := payload.spells_fields h
  have hne : Json.renderRecord ((payload.fields data).map fun m => (m.1, m.2.1)) ≠ [] := by
    obtain ⟨c, u, htext, -⟩ := hspells.head
    rw [htext]
    exact List.cons_ne_nil c u
  rw [payloadOrNull, if_neg hne, Thalweg.normalizePayload_eq_ok_iff]
  simp only [hspells.parse_eq_some_iff, payload.depth_value, Nat.succ_le_iff]
  constructor
  · rintro ⟨v, ⟨rfl, hdepth⟩, rfl⟩
    exact ⟨hdepth, rfl⟩
  · rintro ⟨hdepth, rfl⟩
    exact ⟨_, ⟨rfl, hdepth⟩, rfl⟩

theorem wellFormed_value (payload : TestPayload) {data : Json}
    (h : Json.parse payload.data = some data) :
    Json.WellFormed Json.IsNumber (payload.value data) := by
  refine Json.membersWellFormed_iff.mpr fun m hm => ?_
  rcases List.mem_append.mp hm with hm | hm
  · rcases scalar_cases hm with ⟨k, s, rfl⟩ | ⟨k, literal, rfl, hnum⟩
    · trivial
    · exact hnum
  · rw [List.mem_singleton.mp hm]
    exact (Json.parse_spec h).1

/-- Payloads that are stored alike have the same time. -/
theorem sentAt_eq (payload payload' : TestPayload) {data data' : Json}
    (h : Json.parse payload.data = some data) (h' : Json.parse payload'.data = some data')
    (hsame : Json.render (Json.canonical (payload.value data)) =
      Json.render (Json.canonical (payload'.value data'))) : payload.sentAt = payload'.sentAt := by
  have hvalue := Json.render_injective (Json.canonical_spec _ (payload.wellFormed_value h)).1
    (Json.canonical_spec _ (payload'.wellFormed_value h')).1 hsame
  have hmem : ∀ (p : TestPayload) (v : Json),
      ("sentAt".toList, Json.str p.sentAt) ∈ p.scalars ++ [("data".toList, v)] := fun p v =>
    List.mem_append_left _ (List.mem_append_right _ (List.mem_singleton.mpr rfl))
  exact Json.str.inj (Json.canonical_member_eq hvalue (payload.nodup_names data)
    (payload'.nodup_names data') (hmem payload data) (hmem payload' data'))

/-- How deep the stored payload nests. -/
theorem depth_canonical_value (payload : TestPayload) (data : Json) :
    (Json.canonical (payload.value data)).depth = (Json.canonical data).depth + 1 := by
  have hscalars : Json.canonicalMembers payload.scalars = payload.scalars := by
    rw [Json.canonicalMembers_eq_map]
    refine (List.map_congr_left fun m hm => ?_).trans (List.map_id _)
    rcases scalar_cases hm with ⟨k, s, rfl⟩ | ⟨k, literal, rfl, -⟩ <;> rfl
  rw [value, Json.depth_canonical_obj (payload.nodup_names data), Json.canonicalMembers_eq_map,
    List.map_append, ← Json.canonicalMembers_eq_map, hscalars]
  exact congrArg (· + 1) (payload.membersDepth_scalars (Json.canonical data))

end TestPayload

end Thalweg.Lab
