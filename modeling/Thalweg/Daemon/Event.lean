import Thalweg.Data.Base64Url
import Thalweg.Data.Json.Record
import Thalweg.Data.Sha256
import Thalweg.Data.Time

/-!
# Event envelopes

The immutable envelope of an event, the normal form that stored and exchanged envelopes have, their
records in the store, their digests and the keys they are stored under.

Strings reach the daemon through JSON, so they are texts; the raw text of a payload is the text that
its bytes decode to.

## Main definitions

* `ThalwegEvent`, `normalizeReplicatedEvent`, `marshalEvent`, `decodeEvent`.
* `eventKey`, `eventIDKey`, `eventDigest`, `recoveredConflictEventID`.
* `parseConflictResolution`.
-/

namespace Thalweg

/-- The error of a call: a format with its arguments, with or without an error that it wraps, or an
error of a package outside this repository. -/
inductive Failure where
  | errorf (format : String) (args : List Text)
  | wrap (format : String) (args : List Text) (cause : Failure)
  | external (package : String)

/-- The result of a call that may fail. -/
abbrev Result (α : Type) := Except Failure α

/-- An error message without a cause. -/
def errorf {α : Type} (format : String) (args : List Text) : Result α := .error (.errorf format args)

/-- A call whose error is wrapped in a message. -/
def wrapf {α : Type} (format : String) (args : List Text) : Result α → Result α
  | .ok a => .ok a
  | .error e => .error (.wrap format args e)

/-- An event envelope. -/
structure ThalwegEvent where
  id : Text
  network : Text
  stream : Text
  occurredAt : Text
  insertedAt : Text
  propagatedAt : Text
  counter : UInt64
  deviceID : Text
  payload : Text
  deriving DecidableEq

/-- The envelope with all fields empty. -/
def ThalwegEvent.zero : ThalwegEvent := ⟨[], [], [], [], [], [], 0, [], []⟩

/-! ### Normal form -/

/-- The canonical text of a timestamp; `field` names it in the error. -/
def normalizeTimestamp (field : String) (value : Text) : Result Text :=
  match Instant.parse value with
  | some t => .ok t.format
  | none => .error (.wrap "%s must be RFC3339/RFC3339Nano: %w" [field.toList] (.external "time"))

/-- The canonical text of a payload. -/
def normalizePayload (payload : Text) : Result Text :=
  match Json.parseFirst payload with
  | none => .error (.wrap "payload must be valid JSON: %w" [] (.external "encoding/json"))
  | some (value, rest) =>
    if Json.skipSpace rest = [] then .ok (Json.render (Json.canonical value))
    else
      match Json.parseFirst rest with
      | some _ => errorf "payload must contain exactly one JSON value" []
      | none => .error (.wrap "payload must be valid JSON: %w" [] (.external "encoding/json"))

/-- The payload text `null`. -/
def nullPayload : Text := ['n', 'u', 'l', 'l']

/-- The payload of a request or of an envelope; an absent one is `null`. -/
def payloadOrNull (payload : Text) : Text := if payload = [] then nullPayload else payload

/-- The fields that a replicated event must have, with their values. -/
def requiredFields (event : ThalwegEvent) : List (String × Text) :=
  [("id", event.id), ("network", event.network), ("stream", event.stream),
    ("deviceId", event.deviceID), ("occurredAt", event.occurredAt),
    ("insertedAt", event.insertedAt), ("propagatedAt", event.propagatedAt)]

/-- The first of the fields that is empty is an error. -/
def requireFields : List (String × Text) → Result Unit
  | [] => .ok ()
  | f :: fields =>
    if f.2 = [] then errorf "%s is required" [f.1.toList] else requireFields fields

/-- The normal form of an envelope from another node. -/
def normalizeReplicatedEvent (event : ThalwegEvent) : Result ThalwegEvent := do
  requireFields (requiredFields event)
  let occurredAt ← normalizeTimestamp "occurredAt" event.occurredAt
  let insertedAt ← normalizeTimestamp "insertedAt" event.insertedAt
  let propagatedAt ← normalizeTimestamp "propagatedAt" event.propagatedAt
  let payload ← normalizePayload (payloadOrNull event.payload)
  .ok { event with occurredAt, insertedAt, propagatedAt, payload }

/-! ### Records -/

/-- The JSON text of an envelope. -/
def marshalEvent (event : ThalwegEvent) : Result Text :=
  match Json.compact (payloadOrNull event.payload) with
  | none => .error (.external "encoding/json")
  | some payload => .ok (Json.renderRecord
    [("id".toList, Json.quote event.id), ("network".toList, Json.quote event.network),
      ("stream".toList, Json.quote event.stream),
      ("occurredAt".toList, Json.quote event.occurredAt),
      ("insertedAt".toList, Json.quote event.insertedAt),
      ("propagatedAt".toList, Json.quote event.propagatedAt),
      ("counter".toList, Text.decimal event.counter.toNat),
      ("deviceId".toList, Json.quote event.deviceID), ("payload".toList, payload)])

/-- The fields of an envelope in its JSON text. -/
def eventFields : List (Text × Json.Setter ThalwegEvent) :=
  [("id".toList, fun e _ v => (Json.decodeText e.id v).map fun x => { e with id := x }),
    ("network".toList, fun e _ v =>
      (Json.decodeText e.network v).map fun x => { e with network := x }),
    ("stream".toList, fun e _ v => (Json.decodeText e.stream v).map fun x => { e with stream := x }),
    ("occurredAt".toList, fun e _ v =>
      (Json.decodeText e.occurredAt v).map fun x => { e with occurredAt := x }),
    ("insertedAt".toList, fun e _ v =>
      (Json.decodeText e.insertedAt v).map fun x => { e with insertedAt := x }),
    ("propagatedAt".toList, fun e _ v =>
      (Json.decodeText e.propagatedAt v).map fun x => { e with propagatedAt := x }),
    ("counter".toList, fun e _ v =>
      (Json.decodeUInt64 e.counter v).map fun x => { e with counter := x }),
    ("deviceId".toList, fun e _ v =>
      (Json.decodeText e.deviceID v).map fun x => { e with deviceID := x }),
    ("payload".toList, fun e raw _ => some { e with payload := raw })]

/-- The envelope of a JSON text. -/
def decodeEvent (value : Text) : Result ThalwegEvent :=
  match Json.decodeRecord false eventFields ThalwegEvent.zero value with
  | some event => .ok event
  | none => .error (.external "encoding/json")

/-! ### Keys -/

/-- A string as a part of a key. -/
def encodeKeyPart (value : Text) : Text := Base64Url.encode (Text.toBytes value)

/-- The start of the primary keys of all events. -/
def eventKeyFamily : Text := "event-v3:".toList

/-- The start of the primary keys of a network's events. -/
def eventNetworkPrefix (networkName : Text) : Text :=
  eventKeyFamily ++ encodeKeyPart networkName ++ [':']

/-- The start of the primary keys of the events of a stream. -/
def eventStreamPrefix (networkName stream : Text) : Text :=
  eventNetworkPrefix networkName ++ encodeKeyPart stream ++ [':']

/-- The primary key of an event. -/
def eventKey (event : ThalwegEvent) : Text :=
  eventStreamPrefix event.network event.stream ++ event.occurredAt ++
    ':' :: Text.padDecimal 20 event.counter.toNat ++ ':' :: encodeKeyPart event.deviceID ++
    ':' :: encodeKeyPart event.id

/-- The start of the keys of the ID index. -/
def eventIDFamily : Text := "event-id-v3:".toList

/-- The start of the ID index keys of a network. -/
def eventIDPrefix (networkName : Text) : Text := eventIDFamily ++ encodeKeyPart networkName ++ [':']

/-- The ID index key of an event ID. -/
def eventIDKey (networkName eventID : Text) : Text :=
  eventIDPrefix networkName ++ encodeKeyPart eventID

/-- The text that events are ordered by. -/
def chronologicalKey (event : ThalwegEvent) : Text :=
  event.occurredAt ++ ':' :: event.insertedAt ++ ':' :: Text.padDecimal 20 event.counter.toNat ++
    ':' :: event.deviceID ++ ':' :: event.stream ++ ':' :: event.id

/-! ### Digests -/

/-- SHA-256 of a text, as text. -/
def sha256Text (t : Text) : Text := Base64Url.encode (Sha256.digest (Text.toBytes t))

/-- The digest of an envelope. -/
def eventDigest (event : ThalwegEvent) : Result Text := do
  let normalized ← normalizeReplicatedEvent event
  let encoded ← marshalEvent normalized
  .ok (sha256Text encoded)

/-- The start of the IDs of recovered copies. -/
def recoveredIDFamily : Text := "evt_conflict_".toList

/-- The ID of the recovered copy of the variant of an event ID that has the given digest. -/
def recoveredConflictEventID (networkName eventID digest : Text) : Text :=
  recoveredIDFamily ++
    sha256Text (networkName ++ Char.ofNat 0 :: eventID ++ Char.ofNat 0 :: digest)

/-! ### Conflict resolutions -/

/-- The stream of conflict resolutions. -/
def conflictResolutionStream : Text := "system:conflict_resolution".toList

/-- The version of conflict resolution payloads. -/
def conflictResolutionVersion : Int := 1

/-- The one strategy of conflict resolution. -/
def conflictResolutionStrategy : Text := "preserve-both".toList

/-- The payload of a conflict resolution: it names the event ID that it resolves. -/
structure ConflictResolutionPayload where
  version : Int
  eventID : Text
  strategy : Text
  deriving DecidableEq

/-- The JSON text of a conflict resolution payload. -/
def marshalConflictResolution (payload : ConflictResolutionPayload) : Text :=
  Json.renderRecord [("version".toList, Text.decimal payload.version.toNat),
    ("eventId".toList, Json.quote payload.eventID),
    ("strategy".toList, Json.quote payload.strategy)]

/-- The fields of a conflict resolution payload in its JSON text. -/
def conflictResolutionFields : List (Text × Json.Setter ConflictResolutionPayload) :=
  [("version".toList, fun p _ v => (Json.decodeInt p.version v).map fun x => { p with version := x }),
    ("eventId".toList, fun p _ v =>
      (Json.decodeText p.eventID v).map fun x => { p with eventID := x }),
    ("strategy".toList, fun p _ v =>
      (Json.decodeText p.strategy v).map fun x => { p with strategy := x })]

/-- A frame that holds exactly one JSON object, without unknown fields. -/
def decodeStrictFrame {σ : Type} (fields : List (Text × Json.Setter σ)) (default : σ)
    (frame : Text) : Result σ :=
  if Text.trimSpace frame = [] then errorf "mesh frame is empty" []
  else
    match Json.decodeRecord true fields default (Text.trimSpace frame) with
    | some value => .ok value
    | none => .error (.external "encoding/json")

/-- The payload of an event of the conflict resolution stream; other events have none. -/
def parseConflictResolution (event : ThalwegEvent) : Result (Option ConflictResolutionPayload) :=
  if event.stream ≠ conflictResolutionStream then .ok none
  else
    match wrapf "decode conflict resolution event %q: %w" [event.id]
        (decodeStrictFrame conflictResolutionFields ⟨0, [], []⟩ event.payload) with
    | .error e => .error e
    | .ok payload =>
      if payload.version ≠ conflictResolutionVersion ∨ payload.eventID = [] ∨
          payload.strategy ≠ conflictResolutionStrategy then
        errorf "invalid conflict resolution event %q" [event.id]
      else if payload.eventID = event.id then
        errorf "conflict resolution event cannot resolve itself" []
      else .ok (some payload)

end Thalweg
