import Thalweg.Data.Json.Items
import Thalweg.Data.Json.Marshal
import Thalweg.Daemon.Records
import Thalweg.Daemon.Resolution
import Thalweg.Daemon.Sync

/-!
# Events in frames

A frame of the synchronization protocol holds a list of envelopes. The payload of an envelope is
embedded in its compact form and taken out as raw text, so an envelope arrives with the compact
form of its payload; the payload nests three levels less than the frame.

## Main definitions

* `relayEvents`: the events of a frame as the other side reads them.

## Main results

* `relayEvents_eq`: a frame arrives with its events if their payloads leave three levels to the
  frame.
* `relayEvents_ne_ok`: it does not arrive otherwise.
-/

namespace Thalweg

/-- A page or a push of events. -/
def eventsBody (push : Bool) (events : List ThalwegEvent) : SyncBody :=
  if push then .eventsPush events else .eventsPage events

/-- Envelopes with their payloads. -/
theorem marshalEvents_eq : ∀ {events : List ThalwegEvent},
    (∀ event ∈ events, ∃ v, event.HasPayload v) →
    marshalEvents events = .ok (events.map eventText)
  | [], _ => rfl
  | event :: events, h => by
    obtain ⟨⟨v, hv⟩, hevents⟩ := List.forall_mem_cons.mp h
    have htext : marshalEvent event = .ok (eventText event) := by
      rw [hv.eventText_eq, hv.marshalEvent_eq]
    rw [marshalEvents, htext, marshalEvents_eq hevents]
    rfl

/-! ### Frames -/

/-- The type of a frame of events. -/
def eventsType (push : Bool) : Text :=
  if push then "events_push".toList else "events_page".toList

/-- The members of a frame of events with the texts that it is written from. -/
def frameMembers (push : Bool) (networkID : Text) (events : List ThalwegEvent) :
    Json.RawMembers :=
  [("type".toList, Json.quote (eventsType push), .str (eventsType push)),
    ("protocolVersion".toList, Text.decimalInt syncProtocolVersion,
      .num (Text.decimalInt syncProtocolVersion)),
    ("networkId".toList, Json.quote networkID, .str networkID),
    ("events".toList, Json.renderArray (events.map eventText), .arr (events.map recordValue))]

section Frames

variable {events : List ThalwegEvent} (push : Bool) (networkID : Text)

theorem marshalFrame_eventsBody (h : ∀ event ∈ events, ∃ v, event.HasPayload v) :
    marshalFrame ⟨syncProtocolVersion, networkID, eventsBody push events⟩ = .ok (Json.renderRecord
      ((frameMembers push networkID events).map fun m => (m.1, m.2.1))) := by
  cases push <;> simp only [marshalFrame, eventsBody, marshalBody, marshalEvents_eq h, if_true,
    Bool.false_eq_true, if_false, bind, Except.bind] <;> rfl

theorem spells_renderArray_eventText (h : ∀ event ∈ events, ∃ v, event.HasPayload v) :
    Json.Spells (Json.itemsDepth (events.map recordValue) + 1) (.arr (events.map recordValue))
      (Json.renderArray (events.map eventText)) := by
  have hspells := @Json.spells_renderArray (Json.itemsDepth (events.map recordValue))
    (events.map fun event => (eventText event, recordValue event)) ?_
  · simpa [Function.comp_def] using hspells
  · intro m hm
    obtain ⟨event, hevent, rfl⟩ := List.mem_map.mp hm
    obtain ⟨v, hv⟩ := h event hevent
    exact hv.spells_recordValue.mono
      (Json.itemsDepth_le_iff.mp le_rfl _ (List.mem_map_of_mem hevent))

/-- The members of a frame spell their values. -/
theorem spells_frameMembers (h : ∀ event ∈ events, ∃ v, event.HasPayload v) :
    ∀ m ∈ frameMembers push networkID events,
      Json.Spells (Json.itemsDepth (events.map recordValue) + 1) m.2.2 m.2.1 := by
  simp only [frameMembers, List.forall_mem_cons, List.not_mem_nil, false_implies, implies_true,
    and_true]
  exact ⟨Json.spells_quote _ _, Json.spells_number _ (Json.isNumber_decimalInt _),
    Json.spells_quote _ _, spells_renderArray_eventText h⟩

/-- Frames whose events leave three levels arrive, each event as it is sent. -/
theorem decodeRecord_frame
    (h : ∀ event ∈ events, ∃ v, event.HasPayload v ∧ v.depth + 3 ≤ Json.maxDepth) :
    Json.decodeRecord true (syncMessageFields eventsFields) (SyncEnvelope.zero, .nil)
        (Json.renderRecord ((frameMembers push networkID events).map fun m => (m.1, m.2.1))) =
      some (⟨eventsType push, syncProtocolVersion, networkID⟩,
        ⟨events.map ThalwegEvent.sent, []⟩) := by
  have hpayloads : ∀ event ∈ events, ∃ v, event.HasPayload v := fun event hevent =>
    let ⟨v, hv, _⟩ := h event hevent
    ⟨v, hv⟩
  have hdepth : Json.itemsDepth (events.map recordValue) + 2 ≤ Json.maxDepth := by
    have hitems : Json.itemsDepth (events.map recordValue) ≤ Json.maxDepth - 2 := by
      refine Json.itemsDepth_le_iff.mpr fun v hv => ?_
      obtain ⟨event, hevent, rfl⟩ := List.mem_map.mp hv
      obtain ⟨v, hv, hle⟩ := h event hevent
      rw [hv.depth_recordValue]
      omega
    have htwo : 2 ≤ Json.maxDepth := by decide
    omega
  have hparse := @Json.parseRecord_renderRecord (frameMembers push networkID events)
    (List.cons_ne_nil _ _) fun m hm =>
      (spells_frameMembers push networkID hpayloads m hm).mono (by omega)
  have htexts : Json.parseTexts (Json.renderArray (events.map eventText)) =
      some (events.map eventText) := by
    refine Json.parseTexts_renderArray fun w hw => ?_
    obtain ⟨event, hevent, rfl⟩ := List.mem_map.mp hw
    obtain ⟨v, hv, hle⟩ := h event hevent
    exact ⟨_, hv.spells_recordValue.mono (by rw [hv.depth_recordValue]; omega)⟩
  have hevents : Json.decodeSlice (Json.decodeRecord true eventFields) ThalwegEvent.zero .nil
      (Json.renderArray (events.map eventText)) (.arr (events.map recordValue)) =
      some ⟨events.map ThalwegEvent.sent, []⟩ := by
    refine Json.decodeSlice_nil htexts (fun event hevent => ?_) _
    obtain ⟨v, hv, hle⟩ := h event hevent
    exact hv.decodeRecord_eventText (by omega) true
  have hversion : Json.decodeInt 0 (.num (Text.decimalInt syncProtocolVersion)) =
      some syncProtocolVersion := by
    decide
  rw [Json.decodeRecord, hparse]
  simp [frameMembers, Json.setMember, Json.lookupField, syncMessageFields, syncEnvelopeFields,
    eventsFields, Json.decodeText, hevents, hversion, SyncEnvelope.zero]

/-- A frame of events on its way: the events as the other side reads them. -/
def relayEvents (push : Bool) (networkID : Text) (events : List ThalwegEvent) :
    Result (List ThalwegEvent) := do
  let encoded ← marshalFrame ⟨syncProtocolVersion, networkID, eventsBody push events⟩
  let received ← decodeSyncContent eventsFields .nil encoded
  .ok received.items

/-- **Frames of events.** Events arrive if their payloads leave three levels to the frame. -/
theorem relayEvents_eq
    (h : ∀ event ∈ events, ∃ v, event.HasPayload v ∧ v.depth + 3 ≤ Json.maxDepth) :
    relayEvents push networkID events = .ok (events.map ThalwegEvent.sent) := by
  have hpayloads : ∀ event ∈ events, ∃ v, event.HasPayload v := fun event hevent =>
    let ⟨v, hv, _⟩ := h event hevent
    ⟨v, hv⟩
  have hdecode : decodeStrictFrame (syncMessageFields eventsFields) (SyncEnvelope.zero, .nil)
      (Json.renderRecord ((frameMembers push networkID events).map fun m => (m.1, m.2.1))) =
      .ok (⟨eventsType push, syncProtocolVersion, networkID⟩,
        ⟨events.map ThalwegEvent.sent, []⟩) := by
    rw [decodeStrictFrame_eq_ok_iff, Json.trimSpace_renderRecord]
    exact ⟨Json.renderRecord_ne_nil _, decodeRecord_frame push networkID h⟩
  rw [relayEvents, marshalFrame_eventsBody push networkID hpayloads]
  simp only [bind, Except.bind, decodeSyncContent, hdecode, Except.map]

/-- The value of a frame. -/
def frameValue (push : Bool) (networkID : Text) (events : List ThalwegEvent) : Json :=
  .obj ((frameMembers push networkID events).map fun m => (m.1, m.2.2))

/-- A frame nests three levels deeper than the payloads of its events. -/
theorem depth_frameValue {event : ThalwegEvent} (hevent : event ∈ events) {v : Json}
    (hv : event.HasPayload v) : v.depth + 3 ≤ (frameValue push networkID events).depth := by
  have hitem : v.depth + 1 ≤ Json.itemsDepth (events.map recordValue) :=
    hv.depth_recordValue ▸ Json.itemsDepth_le_iff.mp le_rfl _ (List.mem_map_of_mem hevent)
  have hframe : Json.itemsDepth (events.map recordValue) + 2 ≤
      (frameValue push networkID events).depth :=
    Nat.succ_le_succ (Json.membersDepth_le_iff.mp le_rfl
      ("events".toList, .arr (events.map recordValue)) (.tail _ (.tail _ (.tail _ (.head _)))))
  omega

/-- The text of a frame spells its value. -/
theorem spells_frameValue (h : ∀ event ∈ events, ∃ v, event.HasPayload v) :
    Json.Spells (Json.itemsDepth (events.map recordValue) + 1 + 1)
      (frameValue push networkID events) (Json.renderRecord
        ((frameMembers push networkID events).map fun m => (m.1, m.2.1))) :=
  Json.spells_renderRecord (List.cons_ne_nil _ _) (spells_frameMembers push networkID h)

/-- A frame with an event whose payload leaves fewer levels does not arrive. -/
theorem relayEvents_ne_ok (h : ∀ event ∈ events, ∃ v, event.HasPayload v) {event : ThalwegEvent}
    (hevent : event ∈ events) {v : Json} (hv : event.HasPayload v)
    (hdeep : Json.maxDepth < v.depth + 3) (received : List ThalwegEvent) :
    relayEvents push networkID events ≠ .ok received := by
  have hdepth := depth_frameValue push networkID hevent hv
  intro hrelay
  rw [relayEvents, marshalFrame_eventsBody push networkID h] at hrelay
  obtain ⟨encoded, hencoded, hrelay⟩ := bind_eq_ok_iff.mp hrelay
  obtain rfl := Except.ok.inj hencoded
  obtain ⟨content, hcontent, -⟩ := bind_eq_ok_iff.mp hrelay
  obtain ⟨message, hdecode, -⟩ := exists_of_map_eq_ok hcontent
  rw [decodeStrictFrame_eq_ok_iff, Json.trimSpace_renderRecord,
    (spells_frameValue push networkID h).decodeRecord_eq_none (by omega)] at hdecode
  cases hdecode.2

end Frames

end Thalweg
