import Thalweg.Data.Json.Nesting
import Thalweg.Daemon.Codec

/-!
# Records of events with any payload

The codec reads back the record of an event whose payload is canonical. The payload of any other
event is embedded in its compact form and taken out as raw text, so the record reads as the event
with the compact form of its payload, if the payload leaves the record a level.

## Main definitions

* `ThalwegEvent.HasPayload`: the value of a payload.
* `ThalwegEvent.sent`: an event as it is read from its record.

## Main results

* `ThalwegEvent.HasPayload.decodeRecord_eventText`: the record reads as `ThalwegEvent.sent`.
-/

namespace Thalweg

/-- The value of the payload of an envelope. -/
def ThalwegEvent.HasPayload (event : ThalwegEvent) (v : Json) : Prop :=
  Json.parse (payloadOrNull event.payload) = some v

/-- The compact form of a payload; an absent one is `null`. -/
def compactPayload (payload : Text) : Text := Json.compactFrom .outside (payloadOrNull payload)

/-- An envelope as it is read from its record. -/
def ThalwegEvent.sent (event : ThalwegEvent) : ThalwegEvent :=
  { event with payload := compactPayload event.payload }

/-- The members of the record of an envelope with the texts that it is written from. -/
def recordMembers (event : ThalwegEvent) (v : Json) : Json.RawMembers :=
  [("id".toList, Json.quote event.id, .str event.id),
    ("network".toList, Json.quote event.network, .str event.network),
    ("stream".toList, Json.quote event.stream, .str event.stream),
    ("occurredAt".toList, Json.quote event.occurredAt, .str event.occurredAt),
    ("insertedAt".toList, Json.quote event.insertedAt, .str event.insertedAt),
    ("propagatedAt".toList, Json.quote event.propagatedAt, .str event.propagatedAt),
    ("counter".toList, Text.decimal event.counter.toNat, .num (Text.decimal event.counter.toNat)),
    ("deviceId".toList, Json.quote event.deviceID, .str event.deviceID),
    ("payload".toList, compactPayload event.payload, v)]

/-- The record of an envelope as a JSON value. -/
def recordValue (event : ThalwegEvent) : Json :=
  .obj (eventMembers event ((Json.parse (payloadOrNull event.payload)).getD .null))

namespace ThalwegEvent.HasPayload

variable {event : ThalwegEvent} {v : Json}

theorem depth_le (h : event.HasPayload v) : v.depth ≤ Json.maxDepth := (Json.parse_spec h).2

theorem payloadDepth_eq (h : event.HasPayload v) :
    payloadDepth (payloadOrNull event.payload) = v.depth := by
  rw [payloadDepth, h]

theorem spells_compactPayload (h : event.HasPayload v) :
    Json.Spells v.depth v (compactPayload event.payload) := (Json.parse_spells h).of_depth

/-- The record of an envelope is written from the compact form of its payload. -/
theorem marshalEvent_eq (h : event.HasPayload v) : marshalEvent event =
    .ok (Json.renderRecord ((recordMembers event v).map fun m => (m.1, m.2.1))) := by
  have hcompact : Json.compact (payloadOrNull event.payload) = some (compactPayload event.payload) := by
    rw [Json.compact, h]
    rfl
  rw [marshalEvent, hcompact]
  rfl

theorem eventText_eq (h : event.HasPayload v) : eventText event =
    Json.renderRecord ((recordMembers event v).map fun m => (m.1, m.2.1)) := by
  rw [eventText, h.marshalEvent_eq]

theorem spells_members (h : event.HasPayload v) :
    ∀ m ∈ recordMembers event v, Json.Spells v.depth m.2.2 m.2.1 := by
  simp only [recordMembers, List.forall_mem_cons, List.not_mem_nil, false_implies, implies_true,
    and_true]
  exact ⟨Json.spells_quote _ _, Json.spells_quote _ _, Json.spells_quote _ _,
    Json.spells_quote _ _, Json.spells_quote _ _, Json.spells_quote _ _,
    Json.spells_number _ (Json.isNumber_decimal _), Json.spells_quote _ _, h.spells_compactPayload⟩

theorem recordValue_eq (h : event.HasPayload v) :
    recordValue event = .obj (eventMembers event v) := by
  rw [recordValue, h]
  rfl

/-- The record of an envelope nests one level deeper than its payload. -/
theorem depth_recordValue (h : event.HasPayload v) : (recordValue event).depth = v.depth + 1 := by
  rw [h.recordValue_eq]
  exact congrArg (· + 1) (eventMembers_depth event v)

theorem spells_recordValue (h : event.HasPayload v) :
    Json.Spells (recordValue event).depth (recordValue event) (eventText event) := by
  rw [h.depth_recordValue, h.recordValue_eq, h.eventText_eq]
  exact Json.spells_renderRecord (List.cons_ne_nil _ _) h.spells_members

/-- The record of an envelope is read as what is sent, if its payload leaves it a level. -/
theorem decodeRecord_eventText (h : event.HasPayload v) (hdepth : v.depth < Json.maxDepth)
    (strict : Bool) :
    Json.decodeRecord strict eventFields ThalwegEvent.zero (eventText event) =
      some event.sent := by
  have hparse := @Json.parseRecord_renderRecord (recordMembers event v) (List.cons_ne_nil _ _)
    fun m hm => (h.spells_members m hm).mono (Nat.le_sub_one_of_lt hdepth)
  rw [h.eventText_eq, Json.decodeRecord, hparse]
  simp [recordMembers, Json.setMember, Json.lookupField, eventFields, Json.decodeText,
    decodeUInt64_decimal, ThalwegEvent.zero, ThalwegEvent.sent]

end ThalwegEvent.HasPayload

end Thalweg
