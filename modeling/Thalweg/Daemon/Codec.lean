import Mathlib.Data.List.Pairwise
import Thalweg.Daemon.Event

/-!
# Normal forms and records of envelopes

What normalization returns and what it leaves alone, and when the record of an envelope reads back.

* `Storable`: an envelope with canonical timestamps and a canonical payload, as they are stored.
* `Readable`: one whose timestamps have years of at most four digits and whose payload leaves a
  level of nesting for the record; such an envelope reads back (`decodeEvent_eq_ok_iff`), normalizes
  to itself (`normalizeReplicatedEvent_of_readable`) and has a digest (`eventDigest_of_readable`).
-/

namespace Thalweg

/-- A computation in steps succeeds exactly if every step does. -/
theorem bind_eq_ok_iff {α β : Type} {x : Result α} {f : α → Result β} {b : β} :
    (x >>= f) = .ok b ↔ ∃ a, x = .ok a ∧ f a = .ok b := by
  cases x <;> simp [bind, Except.bind]

theorem exists_of_map_eq_ok {α β : Type} {x : Result α} {f : α → β} {b : β}
    (h : x.map f = .ok b) : ∃ a, x = .ok a ∧ f a = b := by
  cases x with
  | error e => cases h
  | ok a => exact ⟨a, rfl, Except.ok.inj h⟩

theorem eq_ok_of_toOption {ε α : Type} {x : Except ε α} {a : α} (h : x.toOption = some a) :
    x = .ok a := by
  cases x with
  | error err => cases h
  | ok b => exact congrArg Except.ok (Option.some.inj h)

theorem bind_eq_error_iff {α β : Type} {x : Result α} {f : α → Result β} {e : Failure} :
    (x >>= f) = .error e ↔ x = .error e ∨ ∃ a, x = .ok a ∧ f a = .error e := by
  cases x <;> simp [bind, Except.bind]

theorem wrapf_eq_ok_iff {α : Type} {format : String} {args : List Text} {x : Result α} {a : α} :
    wrapf format args x = .ok a ↔ x = .ok a := by
  cases x <;> simp [wrapf]

/-! ### Timestamps -/

/-- A canonical timestamp. -/
def IsTimestamp (value : Text) : Prop := ∃ t : Instant, value = t.format

/-- A canonical timestamp whose year has at most four digits. -/
def IsReadableTimestamp (value : Text) : Prop := ∃ t : Instant, t.InRange ∧ value = t.format

theorem IsReadableTimestamp.isTimestamp {value : Text} (h : IsReadableTimestamp value) :
    IsTimestamp value :=
  let ⟨t, _, ht⟩ := h
  ⟨t, ht⟩

theorem normalizeTimestamp_eq_ok_iff {field : String} {value canonical : Text} :
    normalizeTimestamp field value = .ok canonical ↔
      ∃ t, Instant.parse value = some t ∧ canonical = t.format := by
  unfold normalizeTimestamp
  cases Instant.parse value with
  | none => simp
  | some t => simp [eq_comm]

theorem isTimestamp_of_normalizeTimestamp {field : String} {value canonical : Text}
    (h : normalizeTimestamp field value = .ok canonical) : IsTimestamp canonical :=
  let ⟨t, _, ht⟩ := normalizeTimestamp_eq_ok_iff.mp h
  ⟨t, ht⟩

/-- A canonical timestamp normalizes to itself if it normalizes at all. -/
theorem IsTimestamp.normalizeTimestamp_eq_ok_iff {field : String} {value canonical : Text}
    (h : IsTimestamp value) :
    normalizeTimestamp field value = .ok canonical ↔
      IsReadableTimestamp value ∧ canonical = value := by
  obtain ⟨t, rfl⟩ := h
  rw [Thalweg.normalizeTimestamp_eq_ok_iff]
  simp only [Instant.parse_format_eq_some_iff]
  constructor
  · rintro ⟨u, ⟨ht, rfl⟩, rfl⟩
    exact ⟨⟨u, ht, rfl⟩, rfl⟩
  · rintro ⟨⟨u, hu, htu⟩, rfl⟩
    refine ⟨t, ⟨?_, rfl⟩, rfl⟩
    by_contra ht
    have := Instant.parse_format_eq_none ht
    rw [htu, Instant.parse_format hu] at this
    cases this

theorem format_ne_nil (t : Instant) : t.format ≠ [] := by
  simp [Instant.format]

theorem IsTimestamp.ne_nil {value : Text} (h : IsTimestamp value) : value ≠ [] := by
  obtain ⟨t, rfl⟩ := h
  exact format_ne_nil t

/-! ### Payloads -/

/-- A canonical payload. -/
def IsPayload (payload : Text) : Prop :=
  ∃ v, Json.WellFormed Json.IsNumber v ∧ Json.IsCanonical v ∧ v.depth ≤ Json.maxDepth ∧
    payload = Json.render v

/-- The depth to which the arrays and objects of a payload nest. -/
def payloadDepth (payload : Text) : Nat :=
  match Json.parse payload with
  | some v => v.depth
  | none => 0

theorem IsPayload.ne_nil {payload : Text} (h : IsPayload payload) : payload ≠ [] := by
  obtain ⟨v, hv, -, -, rfl⟩ := h
  exact Json.render_ne_nil v hv

theorem IsPayload.payloadOrNull {payload : Text} (h : IsPayload payload) :
    payloadOrNull payload = payload :=
  if_neg h.ne_nil

theorem normalizePayload_eq_ok_iff {payload canonical : Text} :
    normalizePayload payload = .ok canonical ↔
      ∃ v, Json.parse payload = some v ∧ canonical = Json.render (Json.canonical v) := by
  unfold normalizePayload Json.parse
  cases Json.parseFirst payload with
  | none => simp
  | some p =>
    obtain ⟨v, rest⟩ := p
    by_cases hrest : Json.skipSpace rest = []
    · simp [hrest, eq_comm]
    · simp only [hrest, if_false, reduceCtorEq, false_and, exists_false, iff_false]
      cases Json.parseFirst rest <;> simp [errorf]

theorem isPayload_of_normalizePayload {payload canonical : Text}
    (h : normalizePayload payload = .ok canonical) : IsPayload canonical := by
  obtain ⟨v, hv, rfl⟩ := normalizePayload_eq_ok_iff.mp h
  obtain ⟨hwell, hdepth⟩ := Json.parse_spec hv
  obtain ⟨hwell', hdepth'⟩ := Json.canonical_spec v hwell
  exact ⟨_, hwell', Json.canonical_canonical v, hdepth'.trans hdepth, rfl⟩

/-- A canonical payload normalizes to itself. -/
theorem IsPayload.normalizePayload {payload : Text} (h : IsPayload payload) :
    normalizePayload payload = .ok payload := by
  obtain ⟨v, hwell, hcanonical, hdepth, rfl⟩ := h
  exact normalizePayload_eq_ok_iff.mpr ⟨v, Json.parse_render hwell hdepth, by rw [hcanonical]⟩

theorem payloadDepth_render {v : Json} (h : Json.WellFormed Json.IsNumber v)
    (hdepth : v.depth ≤ Json.maxDepth) : payloadDepth (Json.render v) = v.depth := by
  rw [payloadDepth, Json.parse_render h hdepth]

/-! ### Records -/

/-- The members of the record of an envelope with the payload value `v`. -/
def eventMembers (event : ThalwegEvent) (v : Json) : List (Text × Json) :=
  [("id".toList, .str event.id), ("network".toList, .str event.network),
    ("stream".toList, .str event.stream), ("occurredAt".toList, .str event.occurredAt),
    ("insertedAt".toList, .str event.insertedAt),
    ("propagatedAt".toList, .str event.propagatedAt),
    ("counter".toList, .num (Text.decimal event.counter.toNat)),
    ("deviceId".toList, .str event.deviceID), ("payload".toList, v)]

/-- The record of an envelope. -/
def eventText (event : ThalwegEvent) : Text :=
  match marshalEvent event with
  | .ok value => value
  | .error _ => []

theorem marshalEvent_of_render {event : ThalwegEvent} {v : Json}
    (h : Json.WellFormed Json.IsNumber v) (hdepth : v.depth ≤ Json.maxDepth)
    (hpayload : event.payload = Json.render v) :
    marshalEvent event = .ok (Json.render (.obj (eventMembers event v))) := by
  have hnull : payloadOrNull event.payload = Json.render v := by
    rw [hpayload, payloadOrNull, if_neg (Json.render_ne_nil v h)]
  rw [← Json.renderRecord_map]
  simp only [marshalEvent, hnull, Json.compact_render h hdepth, eventMembers, List.map_cons,
    List.map_nil, Json.render]

/-- An envelope with a canonical payload has a record. -/
theorem marshalEvent_of_isPayload {event : ThalwegEvent} (h : IsPayload event.payload) :
    marshalEvent event = .ok (eventText event) := by
  obtain ⟨v, hwell, -, hdepth, hv⟩ := h
  simp only [eventText, marshalEvent_of_render hwell hdepth hv]

theorem eventMembers_wellFormed (event : ThalwegEvent) {v : Json}
    (h : Json.WellFormed Json.IsNumber v) :
    Json.MembersWellFormed Json.IsNumber (eventMembers event v) := by
  simp [eventMembers, Json.MembersWellFormed, Json.WellFormed, Json.isNumber_decimal, h]

theorem eventMembers_depth (event : ThalwegEvent) (v : Json) :
    Json.membersDepth (eventMembers event v) = v.depth := by
  simp [eventMembers, Json.membersDepth, Json.depth]

theorem decodeUInt64_decimal (old n : UInt64) :
    Json.decodeUInt64 old (.num (Text.decimal n.toNat)) = some n := by
  simp [Json.decodeUInt64, n.toNat_lt]

/-- Setting the members of a record one after the other gives the envelope. -/
theorem foldlM_eventMembers (event : ThalwegEvent) {v : Json}
    (hpayload : event.payload = Json.render v) :
    (Json.rawMembers (eventMembers event v)).foldlM (Json.setMember false eventFields)
      ThalwegEvent.zero = some event := by
  obtain ⟨id, network, stream, occurredAt, insertedAt, propagatedAt, counter, deviceID, payload⟩ :=
    event
  simp only at hpayload
  simp [Json.rawMembers, eventMembers, Json.setMember, Json.lookupField, eventFields,
    Json.decodeText, decodeUInt64_decimal, ThalwegEvent.zero, hpayload]

/-- The record of an envelope reads back exactly when its payload leaves a level of nesting for the
record, and then as the envelope. -/
theorem decodeEvent_eq_ok_iff {event found : ThalwegEvent} (h : IsPayload event.payload) :
    decodeEvent (eventText event) = .ok found ↔
      payloadDepth event.payload < Json.maxDepth ∧ found = event := by
  obtain ⟨v, hwell, -, hdepth, hv⟩ := h
  have htext : eventText event = Json.render (.obj (eventMembers event v)) := by
    simp only [eventText, marshalEvent_of_render hwell hdepth hv]
  have hwell' := eventMembers_wellFormed event hwell
  have hdepth' := eventMembers_depth event v
  have hne : eventMembers event v ≠ [] := by simp [eventMembers]
  rw [hv, payloadDepth_render hwell hdepth, htext, decodeEvent]
  by_cases hlt : v.depth < Json.maxDepth
  · rw [Json.decodeRecord_renderRecord _ _ _ hne hwell' (by omega), foldlM_eventMembers event hv]
    simp [hlt, eq_comm]
  · have hnone : Json.parseRecord (Json.render (.obj (eventMembers event v))) = none := by
      rw [Option.eq_none_iff_forall_not_mem]
      intro raw hraw
      have := (Json.parseRecord_render_eq_some hne hwell' hraw).2
      omega
    have hnull : Json.parse (Json.render (.obj (eventMembers event v))) ≠ some .null := by
      intro hparse
      have hstart : ∃ t, Json.render (.obj (eventMembers event v)) = '{' :: t := ⟨_, rfl⟩
      obtain ⟨t, ht⟩ := hstart
      rw [ht] at hparse
      unfold Json.parse Json.parseFirst at hparse
      rw [Json.skipSpace_cons rfl] at hparse
      simp only [Json.parseValue, if_true] at hparse
      split at hparse
      · next w rest hw =>
        simp only [Option.map_eq_some_iff, Prod.mk.injEq] at hw
        obtain ⟨p, -, rfl, -⟩ := hw
        split_ifs at hparse
        cases hparse
      · cases hparse
    have hdecode : Json.decodeRecord false eventFields ThalwegEvent.zero
        (Json.render (.obj (eventMembers event v))) = none := by
      unfold Json.decodeRecord
      rw [hnone]
      simp only
    simp [hdecode, hlt]

/-! ### Envelopes -/

/-- An envelope in the form in which envelopes are stored. -/
structure Storable (event : ThalwegEvent) : Prop where
  id_ne_nil : event.id ≠ []
  network_ne_nil : event.network ≠ []
  stream_ne_nil : event.stream ≠ []
  deviceID_ne_nil : event.deviceID ≠ []
  occurredAt : IsTimestamp event.occurredAt
  insertedAt : IsTimestamp event.insertedAt
  propagatedAt : IsTimestamp event.propagatedAt
  payload : IsPayload event.payload

/-- The timestamps of the envelope have years of at most four digits. -/
structure HasReadableTimes (event : ThalwegEvent) : Prop where
  occurredAt : IsReadableTimestamp event.occurredAt
  insertedAt : IsReadableTimestamp event.insertedAt
  propagatedAt : IsReadableTimestamp event.propagatedAt

/-- The stored envelope can be found by its ID. -/
def Findable (event : ThalwegEvent) : Prop :=
  IsReadableTimestamp event.occurredAt ∧ payloadDepth event.payload < Json.maxDepth

/-- A stored envelope that can be read and digested. -/
structure Readable (event : ThalwegEvent) : Prop where
  storable : Storable event
  times : HasReadableTimes event
  payloadDepth_lt : payloadDepth event.payload < Json.maxDepth

theorem Readable.findable {event : ThalwegEvent} (h : Readable event) : Findable event :=
  ⟨h.times.occurredAt, h.payloadDepth_lt⟩

theorem requireFields_eq_ok_iff {fields : List (String × Text)} :
    requireFields fields = .ok () ↔ ∀ f ∈ fields, f.2 ≠ [] := by
  induction fields with
  | nil => simp [requireFields]
  | cons f fields ih =>
    by_cases hf : f.2 = [] <;> simp [requireFields, hf, ih, errorf]

theorem normalizeReplicatedEvent_eq_ok_iff {event normalized : ThalwegEvent} :
    normalizeReplicatedEvent event = .ok normalized ↔
      (∀ f ∈ requiredFields event, f.2 ≠ []) ∧
      ∃ occurredAt insertedAt propagatedAt payload,
        normalizeTimestamp "occurredAt" event.occurredAt = .ok occurredAt ∧
        normalizeTimestamp "insertedAt" event.insertedAt = .ok insertedAt ∧
        normalizeTimestamp "propagatedAt" event.propagatedAt = .ok propagatedAt ∧
        normalizePayload (payloadOrNull event.payload) = .ok payload ∧
        normalized = { event with occurredAt, insertedAt, propagatedAt, payload } := by
  rw [← requireFields_eq_ok_iff]
  unfold normalizeReplicatedEvent
  cases requireFields (requiredFields event) with
  | error e => simp [bind, Except.bind]
  | ok _ =>
    cases normalizeTimestamp "occurredAt" event.occurredAt with
    | error e => simp [bind, Except.bind]
    | ok occurredAt =>
      cases normalizeTimestamp "insertedAt" event.insertedAt with
      | error e => simp [bind, Except.bind]
      | ok insertedAt =>
        cases normalizeTimestamp "propagatedAt" event.propagatedAt with
        | error e => simp [bind, Except.bind]
        | ok propagatedAt =>
          cases normalizePayload (payloadOrNull event.payload) with
          | error e => simp [bind, Except.bind]
          | ok payload => simp [bind, Except.bind, eq_comm]

/-- The normal form of an envelope can be stored. -/
theorem storable_of_normalizeReplicatedEvent {event normalized : ThalwegEvent}
    (h : normalizeReplicatedEvent event = .ok normalized) : Storable normalized := by
  obtain ⟨hfields, occurredAt, insertedAt, propagatedAt, payload, ho, hi, hp, hv, rfl⟩ :=
    normalizeReplicatedEvent_eq_ok_iff.mp h
  simp only [requiredFields, List.forall_mem_cons] at hfields
  obtain ⟨hid, hnetwork, hstream, hdevice, -⟩ := hfields
  exact ⟨hid, hnetwork, hstream, hdevice, isTimestamp_of_normalizeTimestamp ho,
    isTimestamp_of_normalizeTimestamp hi, isTimestamp_of_normalizeTimestamp hp,
    isPayload_of_normalizePayload hv⟩

/-- A storable envelope normalizes exactly when its timestamps are readable, and then to itself. -/
theorem Storable.normalizeReplicatedEvent_eq_ok_iff {event normalized : ThalwegEvent}
    (h : Storable event) :
    normalizeReplicatedEvent event = .ok normalized ↔
      HasReadableTimes event ∧ normalized = event := by
  rw [Thalweg.normalizeReplicatedEvent_eq_ok_iff]
  simp only [h.occurredAt.normalizeTimestamp_eq_ok_iff, h.insertedAt.normalizeTimestamp_eq_ok_iff,
    h.propagatedAt.normalizeTimestamp_eq_ok_iff, h.payload.payloadOrNull,
    h.payload.normalizePayload]
  constructor
  · rintro ⟨-, _, _, _, _, ⟨ho, rfl⟩, ⟨hi, rfl⟩, ⟨hp, rfl⟩, heq, rfl⟩
    cases heq
    exact ⟨⟨ho, hi, hp⟩, rfl⟩
  · rintro ⟨⟨ho, hi, hp⟩, rfl⟩
    refine ⟨?_, _, _, _, _, ⟨ho, rfl⟩, ⟨hi, rfl⟩, ⟨hp, rfl⟩, rfl, rfl⟩
    simp only [requiredFields, List.forall_mem_cons, List.not_mem_nil, false_implies,
      implies_true, and_true]
    exact ⟨h.id_ne_nil, h.network_ne_nil, h.stream_ne_nil, h.deviceID_ne_nil, h.occurredAt.ne_nil,
      h.insertedAt.ne_nil, h.propagatedAt.ne_nil⟩

theorem normalizeReplicatedEvent_of_readable {event : ThalwegEvent} (h : Readable event) :
    normalizeReplicatedEvent event = .ok event :=
  h.storable.normalizeReplicatedEvent_eq_ok_iff.mpr ⟨h.times, rfl⟩

theorem marshalEvent_of_storable {event : ThalwegEvent} (h : Storable event) :
    marshalEvent event = .ok (eventText event) :=
  marshalEvent_of_isPayload h.payload

/-- The record of an envelope determines it. -/
theorem eventText_injOn {e f : ThalwegEvent} (he : IsPayload e.payload) (hf : IsPayload f.payload)
    (h : eventText e = eventText f) : e = f := by
  obtain ⟨v, hv, -, hvd, hev⟩ := he
  obtain ⟨w, hw, -, hwd, hfw⟩ := hf
  simp only [eventText, marshalEvent_of_render hv hvd hev, marshalEvent_of_render hw hwd hfw] at h
  have hwell : ∀ (g : ThalwegEvent) {u : Json}, Json.WellFormed Json.IsNumber u →
      Json.WellFormed Json.IsNumber (.obj (eventMembers g u)) :=
    fun g _ hu => eventMembers_wellFormed g hu
  have hmembers := Json.render_injective (hwell e hv) (hwell f hw) h
  simp only [eventMembers, Json.obj.injEq, List.cons.injEq, Prod.mk.injEq, true_and, Json.str.injEq,
    Json.num.injEq, and_true] at hmembers
  obtain ⟨hid, hnetwork, hstream, ho, hi, hp, hc, hd, rfl⟩ := hmembers
  obtain ⟨_, _, _, _, _, _, _, _, _⟩ := e
  obtain ⟨_, _, _, _, _, _, _, _, _⟩ := f
  simp only at hid hnetwork hstream ho hi hp hc hd hev hfw
  simp only [hid, hnetwork, hstream, ho, hi, hp, UInt64.toNat_inj.mp (Text.decimal_injective hc), hd,
    hev, hfw]

/-! ### Digests and recovered copies -/

/-- The digest of an envelope in normal form. -/
def digestOf (event : ThalwegEvent) : Text := sha256Text (eventText event)

/-- A storable envelope has a digest exactly when its timestamps are readable. -/
theorem Storable.eventDigest_eq_ok_iff {event : ThalwegEvent} {digest : Text} (h : Storable event) :
    eventDigest event = .ok digest ↔ HasReadableTimes event ∧ digest = digestOf event := by
  have hnormal : normalizeReplicatedEvent event = .ok event ↔ _ :=
    h.normalizeReplicatedEvent_eq_ok_iff
  unfold eventDigest
  cases hn : normalizeReplicatedEvent event with
  | error e =>
    rw [hn] at hnormal
    simp only [reduceCtorEq, and_true, false_iff] at hnormal
    simp [bind, Except.bind, hnormal]
  | ok normalized =>
    obtain ⟨htimes, rfl⟩ := h.normalizeReplicatedEvent_eq_ok_iff.mp hn
    simp [bind, Except.bind, marshalEvent_of_storable h, htimes, digestOf, eq_comm]

theorem eventDigest_of_readable {event : ThalwegEvent} (h : Readable event) :
    eventDigest event = .ok (digestOf event) :=
  h.storable.eventDigest_eq_ok_iff.mpr ⟨h.times, rfl⟩

/-- The copy of an event under its recovered ID. -/
def recoveredCopy (event : ThalwegEvent) : ThalwegEvent :=
  { event with id := recoveredConflictEventID event.network event.id (digestOf event) }

theorem recoveredConflictEventID_ne_nil (networkName eventID digest : Text) :
    recoveredConflictEventID networkName eventID digest ≠ [] := by
  exact List.append_ne_nil_of_left_ne_nil (by decide) _

theorem Storable.recoveredCopy {event : ThalwegEvent} (h : Storable event) :
    Storable (recoveredCopy event) :=
  ⟨recoveredConflictEventID_ne_nil _ _ _, h.network_ne_nil, h.stream_ne_nil, h.deviceID_ne_nil,
    h.occurredAt, h.insertedAt, h.propagatedAt, h.payload⟩

theorem Readable.recoveredCopy {event : ThalwegEvent} (h : Readable event) :
    Readable (recoveredCopy event) :=
  ⟨h.storable.recoveredCopy, ⟨h.times.1, h.times.2, h.times.3⟩, h.payloadDepth_lt⟩

/-! ### Lists of events -/

/-- Events of which no two have the same network and ID. -/
def Distinct (events : List ThalwegEvent) : Prop :=
  events.Pairwise fun e f => e.network = f.network → e.id ≠ f.id

theorem Distinct.eq_of_id {events : List ThalwegEvent} (h : Distinct events) {e f : ThalwegEvent}
    (he : e ∈ events) (hf : f ∈ events) (hnetwork : e.network = f.network) (hid : e.id = f.id) :
    e = f := by
  by_contra hne
  have hsymm : Std.Symm fun e f : ThalwegEvent => e.network = f.network → e.id ≠ f.id :=
    ⟨fun _ _ hef hn => (hef hn.symm).symm⟩
  exact List.Pairwise.forall h he hf hne hnetwork hid

theorem Distinct.append {events : List ThalwegEvent} (h : Distinct events) {e : ThalwegEvent}
    (hnew : ∀ f ∈ events, f.network = e.network → f.id ≠ e.id) : Distinct (events ++ [e]) := by
  refine List.pairwise_append.mpr ⟨h, List.pairwise_singleton _ _, ?_⟩
  intro f hf g hg
  rw [List.mem_singleton.mp hg]
  exact hnew f hf

end Thalweg
