import Thalweg.Daemon.Convergence
import Thalweg.Daemon.EventFrames
import Thalweg.Daemon.SyncServer

/-!
# Exchanges over a stream

An initiator hands its requests to `serveSyncRequest` as they are; the server of a session reads
them from frames. Requests that arrive as they are sent get the same answers from both, so an
exchange that succeeds is one frame of a session and the frame that answers it.

## Main definitions

* `messageText`: the text of a message with some content.
* `SyncBody.IsRequest`: the contents of requests that arrive as they are sent.
* `answerTurn`: what the server writes for an answer.

## Main results

* `Daemon.serveSyncFrame_of_decodes`: a frame that decodes is served like its content.
* `SyncBody.IsRequest.decodes`: the frames of requests decode as they are sent.
* `exchange_served`: the frame of a successful exchange gets its answer from the server.
-/

namespace Thalweg

/-! ### Messages -/

/-- The members of a message with the texts that it is written from. -/
def messageMembers (type networkID : Text) (content : Json.RawMembers) : Json.RawMembers :=
  ("type".toList, Json.quote type, .str type) ::
    ("protocolVersion".toList, Text.decimalInt syncProtocolVersion,
      .num (Text.decimalInt syncProtocolVersion)) ::
    ("networkId".toList, Json.quote networkID, .str networkID) :: content

/-- The text of a message. -/
def messageText (type networkID : Text) (content : Json.RawMembers) : Text :=
  Json.renderRecord ((messageMembers type networkID content).map fun m => (m.1, m.2.1))

section Messages

variable {type networkID : Text} {content : Json.RawMembers}

theorem parseRecord_messageText
    (h : ∀ m ∈ content, Json.Spells (Json.maxDepth - 1) m.2.2 m.2.1) :
    Json.parseRecord (messageText type networkID content) =
      some (messageMembers type networkID content) := by
  refine Json.parseRecord_renderRecord (List.cons_ne_nil _ _) ?_
  simp only [messageMembers, List.forall_mem_cons]
  exact ⟨Json.spells_quote _ _, Json.spells_number _ (Json.isNumber_decimalInt _),
    Json.spells_quote _ _, h⟩

/-- Members that are no fields are passed over. -/
theorem foldlM_setMember_of_unknown {σ : Type} {fields : List (Text × Json.Setter σ)} (s : σ)
    (h : ∀ m ∈ content, Json.lookupField fields m.1 = none) :
    content.foldlM (Json.setMember false fields) s = some s := by
  induction content with
  | nil => rfl
  | cons m content ih =>
    obtain ⟨hm, hcontent⟩ := List.forall_mem_cons.mp h
    rw [List.foldlM_cons, Json.setMember, hm]
    exact ih hcontent

theorem setMember_mk {σ : Type} (strict : Bool) (fields : List (Text × Json.Setter σ)) (s : σ)
    (key raw : Text) (v : Json) : Json.setMember strict fields s (key, raw, v) =
      match Json.lookupField fields key with
      | some set => set s raw v
      | none => if strict then none else some s := rfl

theorem decodeInt_syncProtocolVersion (old : Int) :
    Json.decodeInt old (.num (Text.decimalInt syncProtocolVersion)) = some syncProtocolVersion :=
  Json.decodeInt_decimalInt old (by decide) (by decide)

/-- The envelope of a message, whatever its content. -/
theorem decodeRecord_envelope (h : ∀ m ∈ content, Json.Spells (Json.maxDepth - 1) m.2.2 m.2.1)
    (hnames : ∀ m ∈ content, Json.lookupField syncEnvelopeFields m.1 = none) :
    Json.decodeRecord false syncEnvelopeFields SyncEnvelope.zero
      (messageText type networkID content) = some ⟨type, syncProtocolVersion, networkID⟩ := by
  have htype : Json.setMember false syncEnvelopeFields SyncEnvelope.zero
      ("type".toList, Json.quote type, .str type) = some ⟨type, 0, []⟩ := by
    simp [setMember_mk, Json.lookupField, syncEnvelopeFields, Json.decodeText, SyncEnvelope.zero]
  have hversion : Json.setMember false syncEnvelopeFields ⟨type, 0, []⟩
      ("protocolVersion".toList, Text.decimalInt syncProtocolVersion,
        .num (Text.decimalInt syncProtocolVersion)) = some ⟨type, syncProtocolVersion, []⟩ := by
    simp [setMember_mk, Json.lookupField, syncEnvelopeFields, decodeInt_syncProtocolVersion]
  have hnetwork : Json.setMember false syncEnvelopeFields ⟨type, syncProtocolVersion, []⟩
      ("networkId".toList, Json.quote networkID, .str networkID) =
        some ⟨type, syncProtocolVersion, networkID⟩ := by
    simp [setMember_mk, Json.lookupField, syncEnvelopeFields, Json.decodeText]
  rw [Json.decodeRecord, parseRecord_messageText h]
  simp only [messageMembers, List.foldlM_cons, htype, hversion, hnetwork, Option.bind_eq_bind,
    Option.bind_some]
  exact foldlM_setMember_of_unknown _ hnames

theorem foldlM_messageMembers {α : Type} (fields : List (Text × Json.Setter α)) (default : α) :
    (messageMembers type networkID content).foldlM (Json.setMember true (syncMessageFields fields))
        (SyncEnvelope.zero, default) =
      content.foldlM (Json.setMember true (syncMessageFields fields))
        (⟨type, syncProtocolVersion, networkID⟩, default) := by
  have htype : Json.setMember true (syncMessageFields fields) (SyncEnvelope.zero, default)
      ("type".toList, Json.quote type, .str type) = some (⟨type, 0, []⟩, default) := by
    simp [setMember_mk, Json.lookupField, syncMessageFields, syncEnvelopeFields, Json.decodeText,
      SyncEnvelope.zero]
  have hversion : Json.setMember true (syncMessageFields fields) (⟨type, 0, []⟩, default)
      ("protocolVersion".toList, Text.decimalInt syncProtocolVersion,
        .num (Text.decimalInt syncProtocolVersion)) =
          some (⟨type, syncProtocolVersion, []⟩, default) := by
    simp [setMember_mk, Json.lookupField, syncMessageFields, syncEnvelopeFields,
      decodeInt_syncProtocolVersion]
  have hnetwork : Json.setMember true (syncMessageFields fields)
      (⟨type, syncProtocolVersion, []⟩, default) ("networkId".toList, Json.quote networkID,
        .str networkID) = some (⟨type, syncProtocolVersion, networkID⟩, default) := by
    simp [setMember_mk, Json.lookupField, syncMessageFields, syncEnvelopeFields, Json.decodeText]
  simp only [messageMembers, List.foldlM_cons, htype, hversion, hnetwork, Option.bind_eq_bind,
    Option.bind_some]

/-- The content of a message, of which its members make up `s`. -/
theorem decodeSyncContent_messageText {α : Type} {fields : List (Text × Json.Setter α)}
    {default s : α} (h : ∀ m ∈ content, Json.Spells (Json.maxDepth - 1) m.2.2 m.2.1)
    (hcontent : content.foldlM (Json.setMember true (syncMessageFields fields))
      (⟨type, syncProtocolVersion, networkID⟩, default) =
        some (⟨type, syncProtocolVersion, networkID⟩, s)) :
    decodeSyncContent fields default (messageText type networkID content) = .ok s := by
  have hdecode : decodeStrictFrame (syncMessageFields fields) (SyncEnvelope.zero, default)
      (messageText type networkID content) =
        .ok (⟨type, syncProtocolVersion, networkID⟩, s) := by
    rw [decodeStrictFrame_eq_ok_iff, messageText, Json.trimSpace_renderRecord, ← messageText]
    refine ⟨Json.renderRecord_ne_nil _, ?_⟩
    rw [Json.decodeRecord, parseRecord_messageText h]
    exact (foldlM_messageMembers fields default).trans hcontent
  rw [decodeSyncContent, hdecode]
  rfl

end Messages

/-! ### Requests -/

/-- The members of an entry with the texts that it is written from. -/
def entryMembers (entry : InventoryEntry) : Json.RawMembers :=
  [("id".toList, Json.quote entry.id, .str entry.id),
    ("digest".toList, Json.quote entry.digest, .str entry.digest)]

theorem spells_entryMembers (entry : InventoryEntry) (depth : Nat) :
    ∀ m ∈ entryMembers entry, Json.Spells depth m.2.2 m.2.1 := by
  simp [entryMembers, Json.spells_quote]

theorem spells_marshalEntry (entry : InventoryEntry) :
    Json.Spells 1 (.obj ((entryMembers entry).map fun m => (m.1, m.2.2))) (marshalEntry entry) :=
  Json.spells_renderRecord (List.cons_ne_nil _ _) (spells_entryMembers entry 0)

theorem decodeRecord_marshalEntry (entry : InventoryEntry) :
    Json.decodeRecord true inventoryEntryFields ⟨[], []⟩ (marshalEntry entry) = some entry := by
  have hparse : Json.parseRecord (marshalEntry entry) = some (entryMembers entry) :=
    Json.parseRecord_renderRecord (List.cons_ne_nil _ _) (spells_entryMembers entry _)
  rw [Json.decodeRecord, hparse]
  simp [entryMembers, setMember_mk, Json.lookupField, inventoryEntryFields, Json.decodeText]

theorem decodeTextElement_quote (text : Text) :
    Json.decodeTextElement [] (Json.quote text) = some text := by
  have hparse : Json.parse (Json.quote text) = some (.str text) :=
    (Json.spells_quote 0 text).parse_eq_some_iff.mpr ⟨rfl, by simp [Json.depth]⟩
  rw [Json.decodeTextElement, hparse]
  rfl

/-- An array whose items spell values, and decode to elements. -/
theorem decodeSlice_renderArray {α β : Type} {decode : α → Text → Option α} {zero : α}
    {text : β → Text} {value : β → Json} {element : β → α} {xs : List β}
    (h : ∀ x ∈ xs, Json.Spells (Json.maxDepth - 2) (value x) (text x))
    (hdecode : ∀ x ∈ xs, decode zero (text x) = some (element x)) :
    Json.Spells (Json.maxDepth - 1) (.arr (xs.map value)) (Json.renderArray (xs.map text)) ∧
      Json.decodeSlice decode zero .nil (Json.renderArray (xs.map text)) (.arr (xs.map value)) =
        some ⟨xs.map element, []⟩ := by
  constructor
  · have hdepth : Json.maxDepth - 1 = Json.maxDepth - 2 + 1 := by decide
    have hspells := @Json.spells_renderArray (Json.maxDepth - 2)
      (xs.map fun x => (text x, value x)) ?_
    · rw [hdepth]
      simpa [Function.comp_def] using hspells
    · intro m hm
      obtain ⟨x, hx, rfl⟩ := List.mem_map.mp hm
      exact h x hx
  · refine Json.decodeSlice_nil (Json.parseTexts_renderArray fun w hw => ?_) hdecode _
    obtain ⟨x, hx, rfl⟩ := List.mem_map.mp hw
    exact ⟨_, (h x hx).mono (by decide)⟩

/-- The frame decodes as a message of the network with the content. -/
structure DecodesAs (networkID : Text) (body : SyncBody) (frame : Text) (type : Text) : Prop where
  envelope : Json.decodeRecord false syncEnvelopeFields SyncEnvelope.zero frame =
    some ⟨type, syncProtocolVersion, networkID⟩
  content : decodeSyncBody type frame = .ok body

section Requests

variable {networkID : Text}

theorem marshalFrame_of_marshalBody {body : SyncBody} {type : Text} {content : Json.RawMembers}
    (h : marshalBody body = .ok (type, content.map fun m => (m.1, m.2.1))) :
    marshalFrame ⟨syncProtocolVersion, networkID, body⟩ =
      .ok (messageText type networkID content) := by
  rw [marshalFrame, h]
  simp only [bind, Except.bind, messageText, messageMembers, List.map_cons]

/-- A body is decoded from the message that it is written as, if its content is. -/
theorem decodes_of_content {body : SyncBody} {type : Text} {content : Json.RawMembers} {α : Type}
    {fields : List (Text × Json.Setter α)} {default s : α} (toBody : α → SyncBody)
    (hmarshal : marshalBody body = .ok (type, content.map fun m => (m.1, m.2.1)))
    (hspells : ∀ m ∈ content, Json.Spells (Json.maxDepth - 1) m.2.2 m.2.1)
    (hnames : ∀ m ∈ content, Json.lookupField syncEnvelopeFields m.1 = none)
    (hcontent : content.foldlM (Json.setMember true (syncMessageFields fields))
      (⟨type, syncProtocolVersion, networkID⟩, default) =
        some (⟨type, syncProtocolVersion, networkID⟩, s))
    (hbody : ∀ frame,
      decodeSyncBody type frame = (decodeSyncContent fields default frame).map toBody)
    (hs : toBody s = body) : ∃ encoded type,
      marshalFrame ⟨syncProtocolVersion, networkID, body⟩ = .ok encoded ∧
        DecodesAs networkID body encoded type := by
  refine ⟨_, type, marshalFrame_of_marshalBody hmarshal, decodeRecord_envelope hspells hnames, ?_⟩
  rw [hbody, decodeSyncContent_messageText hspells hcontent, ← hs]
  rfl

theorem decodes_inventoryOffer (entries : List InventoryEntry) : ∃ encoded type,
    marshalFrame ⟨syncProtocolVersion, networkID, .inventoryOffer entries⟩ = .ok encoded ∧
      DecodesAs networkID (.inventoryOffer entries) encoded type := by
  obtain ⟨hspells, hslice⟩ := @decodeSlice_renderArray InventoryEntry InventoryEntry
    (Json.decodeRecord true inventoryEntryFields) ⟨[], []⟩ marshalEntry
    (fun e => .obj ((entryMembers e).map fun m => (m.1, m.2.2))) id entries
    (fun e _ => (spells_marshalEntry e).mono (by decide)) fun e _ => decodeRecord_marshalEntry e
  refine @decodes_of_content networkID _ "inventory_offer".toList [("entries".toList,
    Json.renderArray (entries.map marshalEntry), .arr (entries.map fun e =>
      .obj ((entryMembers e).map fun m => (m.1, m.2.2))))] _ inventoryOfferFields .nil
    ⟨entries, []⟩ (fun s => .inventoryOffer s.items) rfl (List.forall_mem_singleton.mpr hspells)
    (by simp [Json.lookupField, syncEnvelopeFields]) ?_ (fun _ => rfl) rfl
  simp [setMember_mk, Json.lookupField, syncMessageFields, syncEnvelopeFields,
    inventoryOfferFields, hslice]

theorem decodes_inventoryRequest (cursor : Text) {limit : Nat} (hlimit : limit < 2 ^ 63) :
    ∃ encoded type,
      marshalFrame ⟨syncProtocolVersion, networkID, .inventoryRequest cursor limit⟩ = .ok encoded ∧
        DecodesAs networkID (.inventoryRequest cursor limit) encoded type := by
  have hdecode : Json.decodeInt 0 (.num (Text.decimal limit)) = some (limit : Int) := by
    have hdecimal := @Json.decodeInt_decimalInt 0 (limit : Int) (by omega) (by omega)
    rwa [Text.decimalInt, if_neg (by omega)] at hdecimal
  refine @decodes_of_content networkID _ "inventory_request".toList
    ((if cursor = [] then [] else [("cursor".toList, Json.quote cursor, .str cursor)]) ++
      [("limit".toList, Text.decimal limit, .num (Text.decimal limit))]) _ inventoryRequestFields
    ([], 0) (cursor, (limit : Int)) (fun r => .inventoryRequest r.1 r.2.toNat) ?_ ?_ ?_ ?_
    (fun _ => rfl) rfl
  all_goals split_ifs with hcursor
  · simp [marshalBody, hcursor]
  · simp [marshalBody, hcursor]
  · simp [Json.spells_number _ (Json.isNumber_decimal limit)]
  · simp [Json.spells_number _ (Json.isNumber_decimal limit), Json.spells_quote]
  · simp [Json.lookupField, syncEnvelopeFields]
  · simp [Json.lookupField, syncEnvelopeFields]
  · simp [setMember_mk, Json.lookupField, syncMessageFields, syncEnvelopeFields,
      inventoryRequestFields, hdecode, hcursor]
  · simp [setMember_mk, Json.lookupField, syncMessageFields, syncEnvelopeFields,
      inventoryRequestFields, hdecode, Json.decodeText]

theorem decodes_eventsRequest (ids : List Text) : ∃ encoded type,
    marshalFrame ⟨syncProtocolVersion, networkID, .eventsRequest ids⟩ = .ok encoded ∧
      DecodesAs networkID (.eventsRequest ids) encoded type := by
  obtain ⟨hspells, hslice⟩ := @decodeSlice_renderArray Text Text Json.decodeTextElement []
    Json.quote .str id ids (fun id _ => Json.spells_quote _ id)
    fun id _ => decodeTextElement_quote id
  refine @decodes_of_content networkID _ "events_request".toList [("ids".toList, marshalTexts ids,
    .arr (ids.map .str))] _ eventsRequestFields .nil ⟨ids, []⟩ (fun s => .eventsRequest s.items)
    rfl (List.forall_mem_singleton.mpr hspells) (by simp [Json.lookupField, syncEnvelopeFields])
    ?_ (fun _ => rfl) rfl
  simp [setMember_mk, Json.lookupField, syncMessageFields, syncEnvelopeFields,
    eventsRequestFields, marshalTexts, hslice]

theorem decodes_eventsPush {events : List ThalwegEvent}
    (hpayloads : ∀ event ∈ events, ∃ v, event.HasPayload v ∧ v.depth + 3 ≤ Json.maxDepth)
    (hsent : ∀ event ∈ events, event.sent = event) : ∃ encoded type,
      marshalFrame ⟨syncProtocolVersion, networkID, .eventsPush events⟩ = .ok encoded ∧
        DecodesAs networkID (.eventsPush events) encoded type := by
  obtain ⟨hspells, hslice⟩ := @decodeSlice_renderArray ThalwegEvent ThalwegEvent
    (Json.decodeRecord true eventFields) ThalwegEvent.zero eventText recordValue ThalwegEvent.sent
    events (fun event hevent => by
      obtain ⟨v, hv, hdepth⟩ := hpayloads event hevent
      exact hv.spells_recordValue.mono (by rw [hv.depth_recordValue]; omega))
    fun event hevent => by
      obtain ⟨v, hv, hdepth⟩ := hpayloads event hevent
      exact hv.decodeRecord_eventText (by omega) true
  have hmarshal : marshalEvents events = .ok (events.map eventText) :=
    marshalEvents_eq fun event hevent =>
      let ⟨v, hv, _⟩ := hpayloads event hevent
      ⟨v, hv⟩
  rw [List.map_congr_left hsent, List.map_id'] at hslice
  refine @decodes_of_content networkID _ "events_push".toList [("events".toList,
    Json.renderArray (events.map eventText), .arr (events.map recordValue))] _ eventsFields .nil
    ⟨events, []⟩ (fun s => .eventsPush s.items) ?_ (List.forall_mem_singleton.mpr hspells)
    (by simp [Json.lookupField, syncEnvelopeFields]) ?_ (fun _ => rfl) rfl
  · simp only [marshalBody, hmarshal, bind, Except.bind, List.map_cons, List.map_nil]
  · simp [setMember_mk, Json.lookupField, syncMessageFields, syncEnvelopeFields, eventsFields,
      hslice]

end Requests

/-- The content of a request as an initiator makes it: events in the form in which they are stored,
and a limit that fits its field. -/
inductive SyncBody.IsRequest : SyncBody → Prop
  | inventoryOffer (entries : List InventoryEntry) : IsRequest (.inventoryOffer entries)
  | inventoryRequest (cursor : Text) {limit : Nat} : limit < 2 ^ 63 →
      IsRequest (.inventoryRequest cursor limit)
  | eventsRequest (ids : List Text) : IsRequest (.eventsRequest ids)
  | eventsPush {events : List ThalwegEvent} : (∀ event ∈ events, IsPayload event.payload) →
      IsRequest (.eventsPush events)

/-- A canonical payload is embedded as it is. -/
theorem IsPayload.hasPayload {event : ThalwegEvent} (h : IsPayload event.payload) :
    (∃ v, event.HasPayload v) ∧ event.sent = event := by
  have hnull := h.payloadOrNull
  obtain ⟨v, hwell, -, hdepth, hv⟩ := h
  have hparse : event.HasPayload v := by
    rw [ThalwegEvent.HasPayload, hnull, hv, Json.parse_render hwell hdepth]
  have hcompact := Json.compact_render hwell hdepth
  rw [Json.compact, Json.parse_render hwell hdepth] at hcompact
  have hpayload : compactPayload event.payload = event.payload := by
    rw [compactPayload, hnull, hv]
    exact Option.some.inj hcompact
  exact ⟨⟨v, hparse⟩, by rw [ThalwegEvent.sent, hpayload]⟩

/-- The frames of requests that arrive decode as they are sent. -/
theorem SyncBody.IsRequest.decodes {body : SyncBody} {networkID : Text} (h : body.IsRequest)
    {arrived : SyncFrame}
    (harrives : transmit ⟨syncProtocolVersion, networkID, body⟩ = .ok arrived) :
    ∃ encoded type, marshalFrame ⟨syncProtocolVersion, networkID, body⟩ = .ok encoded ∧
      DecodesAs networkID body encoded type := by
  cases h with
  | inventoryOffer entries => exact decodes_inventoryOffer entries
  | inventoryRequest cursor hlimit => exact decodes_inventoryRequest cursor hlimit
  | eventsRequest ids => exact decodes_eventsRequest ids
  | @eventsPush events hpayloads =>
    have hvalues : ∀ event ∈ events, ∃ v, event.HasPayload v := fun event hevent =>
      (hpayloads event hevent).hasPayload.1
    refine decodes_eventsPush (fun event hevent => ?_) fun event hevent =>
      (hpayloads event hevent).hasPayload.2
    obtain ⟨v, hv⟩ := hvalues event hevent
    -- what arrives parses, so its depth is within the limit
    obtain ⟨-, encoded, hmarshal, -, u, hparse⟩ := Daemon.transmit_spec harrives
    have hencoded := marshalFrame_eventsBody true networkID hvalues
    obtain rfl := Except.ok.inj (hencoded.symm.trans hmarshal)
    have hdepth := ((spells_frameValue true networkID hvalues).parse_eq_some_iff.mp hparse).2
    exact ⟨v, hv, (depth_frameValue true networkID hevent hv).trans hdepth⟩

/-! ### Answers -/

section Answers

variable {describe : Failure → Text} {fuel : Nat} {membership : NetworkMembership} {d d' : Daemon}

variable (describe membership) in
/-- What the server writes for what a request gives. -/
def answerTurn : Result SyncFrame → SyncTurn
  | .error err => rejectSyncFrame describe membership.id err
  | .ok answer => writeSyncFrame describe (.frame answer)

/-- A frame that decodes is served like its content. -/
theorem Daemon.serveSyncFrame_of_decodes {type : Text} {body : SyncBody} {frame : List UInt8}
    (h : DecodesAs membership.id body (Text.ofBytes frame) type) (d : Daemon) :
    serveSyncFrame describe fuel membership d frame =
      (d.serveSyncRequest fuel membership ⟨syncProtocolVersion, membership.id, body⟩).map
        (Prod.map (answerTurn describe membership) id) := by
  simp only [serveSyncFrame, h.envelope, h.content, serveSyncRequest, ne_eq, not_true_eq_false,
    if_false]
  rcases d.serveSyncBody fuel membership.name body with _ | ⟨_ | _, _⟩ <;> rfl

/-- **Exchanges over a stream.** A successful exchange is a frame that the server answers with the
frame of the answer. -/
theorem exchange_served {body answer : SyncBody} (hbody : body.IsRequest)
    (h : exchange fuel d membership body = some (.ok answer, d')) : ∃ encoded,
      marshalFrame ⟨syncProtocolVersion, membership.id, body⟩ = .ok encoded ∧
      Daemon.serveSyncFrame describe fuel membership d (Text.toBytes encoded) =
        some (⟨[.frame ⟨syncProtocolVersion, membership.id, answer⟩], none⟩, d') := by
  obtain ⟨⟨request, hrequest⟩, hserve, response, hresponse⟩ := Daemon.exchange_spec h
  obtain ⟨encoded, type, hmarshal, hdecodes⟩ := hbody.decodes hrequest
  obtain ⟨-, answered, hanswered, hlength, -⟩ := Daemon.transmit_spec hresponse
  have hwritten : answerTurn describe membership
      (.ok ⟨syncProtocolVersion, membership.id, answer⟩) =
        ⟨[.frame ⟨syncProtocolVersion, membership.id, answer⟩], none⟩ := by
    simp only [answerTurn, writeSyncFrame, marshalReply, hanswered, if_neg (Nat.not_lt.mpr hlength)]
  refine ⟨encoded, hmarshal, ?_⟩
  rw [← Text.ofBytes_toBytes encoded] at hdecodes
  rw [Daemon.serveSyncFrame_of_decodes hdecodes, Daemon.serveSyncRequest]
  simp only [ne_eq, not_true_eq_false, if_false, hserve, Option.map_some, Prod.map_apply, hwritten,
    id_eq]

/-- The events that an initiator pushes are those of a request. -/
theorem Daemon.Holds.isRequest_eventsPush {L : Ledger} (h : d.Holds L) {networkName : Text}
    {ids : List Text} {events : List ThalwegEvent}
    (hevents : d.eventsByIDs networkName ids = .ok events) :
    (SyncBody.eventsPush events).IsRequest :=
  .eventsPush fun e he =>
    (h.represents.storable e ((h.eventsByIDs hevents).2 e he).1).payload

end Answers

end Thalweg
