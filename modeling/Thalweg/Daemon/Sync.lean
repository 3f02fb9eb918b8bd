import Thalweg.Data.Json.Items
import Thalweg.Daemon.Query

/-!
# Synchronization sessions

A session of two daemons for a network that both have mounted under the same credentials. The
initiator offers its inventory page by page and pushes the events that the responder misses; then it
pulls the responder's inventory page by page and fetches the events that it misses itself.

Frames travel as JSON lines of at most 1 MiB: a frame whose line is longer, or nests deeper than
JSON texts are read, ends the session; any other frame arrives as it was sent. Both sides run this
code, and the handshake is taken to succeed exactly when the credentials agree.

## Main definitions

* `SyncFrame`, `transmit`, `Daemon.serveSyncRequest`.
* `SyncEnvelope`, `decodeSyncContent`: what the reader of a frame takes out of it.
* `pushInventory`, `pullInventory`, `synchronizePeer`.
-/

namespace Thalweg

/-- The version of the synchronization protocol. -/
def syncProtocolVersion : Int := 1

/-- The most bytes of a frame. -/
def syncMaxFrameBytes : Nat := 1024 * 1024

/-! ### Frames -/

/-- The content of a frame by its type. -/
inductive SyncBody where
  | inventoryOffer (entries : List InventoryEntry)
  | inventoryNeed (ids conflicts : List Text)
  | inventoryRequest (cursor : Text) (limit : Nat)
  | inventoryPage (page : InventoryPage)
  | eventsRequest (ids : List Text)
  | eventsPage (events : List ThalwegEvent)
  | eventsPush (events : List ThalwegEvent)
  | eventsAck (received created : Nat)

/-- A frame of the synchronization protocol. -/
structure SyncFrame where
  protocolVersion : Int
  networkID : Text
  body : SyncBody

/-- The JSON text of an entry. -/
def marshalEntry (entry : InventoryEntry) : Text :=
  Json.renderRecord [("id".toList, Json.quote entry.id), ("digest".toList, Json.quote entry.digest)]

/-- The JSON text of an array of texts. -/
def marshalTexts (texts : List Text) : Text := Json.renderArray (texts.map Json.quote)

/-- The texts of events. -/
def marshalEvents : List ThalwegEvent → Result (List Text)
  | [] => .ok []
  | event :: events => do
    let text ← marshalEvent event
    let texts ← marshalEvents events
    .ok (text :: texts)

/-- The type of a frame and the fields after the envelope. -/
def marshalBody : SyncBody → Result (Text × List (Text × Text))
  | .inventoryOffer entries => .ok ("inventory_offer".toList,
      [("entries".toList, Json.renderArray (entries.map marshalEntry))])
  | .inventoryNeed ids conflicts => .ok ("inventory_need".toList,
      ("ids".toList, marshalTexts ids) ::
        if conflicts = [] then [] else [("conflicts".toList, marshalTexts conflicts)])
  | .inventoryRequest cursor limit => .ok ("inventory_request".toList,
      (if cursor = [] then [] else [("cursor".toList, Json.quote cursor)]) ++
        [("limit".toList, Text.decimal limit)])
  | .inventoryPage page => .ok ("inventory_page".toList,
      ("entries".toList, Json.renderArray (page.entries.map marshalEntry)) ::
        (if page.nextCursor = [] then [] else [("nextCursor".toList, Json.quote page.nextCursor)]) ++
        [("done".toList, Json.render (.bool page.done))])
  | .eventsRequest ids => .ok ("events_request".toList, [("ids".toList, marshalTexts ids)])
  | .eventsPage events => do
    let texts ← marshalEvents events
    .ok ("events_page".toList, [("events".toList, Json.renderArray texts)])
  | .eventsPush events => do
    let texts ← marshalEvents events
    .ok ("events_push".toList, [("events".toList, Json.renderArray texts)])
  | .eventsAck received created => .ok ("events_ack".toList,
      [("received".toList, Text.decimal received), ("created".toList, Text.decimal created)])

/-- The JSON text of a frame. -/
def marshalFrame (frame : SyncFrame) : Result Text := do
  let (type, fields) ← marshalBody frame.body
  .ok (Json.renderRecord (("type".toList, Json.quote type) ::
    ("protocolVersion".toList, Text.decimalInt frame.protocolVersion) ::
    ("networkId".toList, Json.quote frame.networkID) :: fields))

/-- A frame on its way to the other side. -/
def transmit (frame : SyncFrame) : Result SyncFrame := do
  let encoded ← marshalFrame frame
  if syncMaxFrameBytes < (Text.toBytes encoded).length then
    errorf "mesh frame exceeds %d bytes" [Text.decimal syncMaxFrameBytes]
  else if (Json.parse encoded).isNone then .error (.external "encoding/json")
  else .ok frame

/-! ### Reading frames -/

/-- What every frame of the protocol has. -/
structure SyncEnvelope where
  type : Text
  protocolVersion : Int
  networkID : Text

/-- The envelope that a frame is decoded into. -/
def SyncEnvelope.zero : SyncEnvelope := ⟨[], 0, []⟩

/-- The fields of an envelope. -/
def syncEnvelopeFields : List (Text × Json.Setter SyncEnvelope) :=
  [("type".toList, fun f _ v => (Json.decodeText f.type v).map fun x => { f with type := x }),
    ("protocolVersion".toList, fun f _ v =>
      (Json.decodeInt f.protocolVersion v).map fun x => { f with protocolVersion := x }),
    ("networkId".toList, fun f _ v =>
      (Json.decodeText f.networkID v).map fun x => { f with networkID := x })]

/-- The fields of a message: those of its envelope and those of its content. -/
def syncMessageFields {α : Type} (content : List (Text × Json.Setter α)) :
    List (Text × Json.Setter (SyncEnvelope × α)) :=
  (syncEnvelopeFields.map fun f => (f.1, fun m raw v => (f.2 m.1 raw v).map fun x => (x, m.2))) ++
    content.map fun f => (f.1, fun m raw v => (f.2 m.2 raw v).map fun x => (m.1, x))

/-- The content of a message. -/
def decodeSyncContent {α : Type} (content : List (Text × Json.Setter α)) (default : α)
    (frame : Text) : Result α :=
  (decodeStrictFrame (syncMessageFields content) (SyncEnvelope.zero, default) frame).map Prod.snd

/-- The content of a push or a page of events; the events are read as strictly as the frame. -/
def eventsFields : List (Text × Json.Setter (Json.Slice ThalwegEvent)) :=
  [("events".toList, fun s raw v =>
    Json.decodeSlice (Json.decodeRecord true eventFields) ThalwegEvent.zero s raw v)]

/-! ### The responder -/

namespace Daemon

/-- Receive the events of a page, one after the other: how many are new. -/
def ingestEvents (fuel : Nat) : Daemon → List ThalwegEvent → Option (Result Nat × Daemon)
  | d, [] => some (.ok 0, d)
  | d, event :: events =>
    match ingestReplicated fuel d event with
    | none => none
    | some (.error e, d) => some (.error e, d)
    | some (.ok (_, created), d) =>
      match ingestEvents fuel d events with
      | none => none
      | some (.error e, d) => some (.error e, d)
      | some (.ok n, d) => some (.ok (if created then n + 1 else n), d)

end Daemon

/-- The events of a push in normal form, all of one network. -/
def normalizePushedEvents (networkName : Text) : List ThalwegEvent → Result (List ThalwegEvent)
  | [] => .ok []
  | event :: events => do
    let normalized ← normalizeReplicatedEvent event
    if normalized.network ≠ networkName then errorf "cross-network event rejected" []
    else
      let rest ← normalizePushedEvents networkName events
      .ok (normalized :: rest)

namespace Daemon

/-- The answer of the responder to the content of a request. -/
def serveSyncBody (fuel : Nat) (d : Daemon) (networkName : Text) :
    SyncBody → Option (Result SyncBody × Daemon)
  | .inventoryOffer entries =>
    match validateInventoryEntries entries with
    | .error e => some (.error e, d)
    | .ok () =>
      match d.compareInventory networkName entries with
      | (.error e, d) => some (.error e, d)
      | (.ok (missing, conflicts), d) => some (.ok (.inventoryNeed missing conflicts), d)
  | .inventoryRequest cursor limit =>
    match d.inventoryPage networkName cursor limit with
    | .error e => some (.error e, d)
    | .ok page => some (.ok (.inventoryPage page), d)
  | .eventsRequest ids =>
    match validateIDPage ids with
    | .error e => some (.error e, d)
    | .ok () =>
      match d.eventsByIDs networkName ids with
      | .error e => some (.error e, d)
      | .ok events => some (.ok (.eventsPage events), d)
  | .eventsPush events =>
    if events.length = 0 ∨ syncMaxPageSize < events.length then
      some (errorf "invalid event page size" [], d)
    else
      match normalizePushedEvents networkName events with
      | .error e => some (.error e, d)
      | .ok events =>
        match d.ingestEvents fuel events with
        | none => none
        | some (.error e, d) => some (.error e, d)
        | some (.ok created, d) => some (.ok (.eventsAck events.length created), d)
  | _ => some (errorf "unknown synchronization message type" [], d)

/-- The answer of the responder to a request. -/
def serveSyncRequest (fuel : Nat) (d : Daemon) (membership : NetworkMembership)
    (request : SyncFrame) : Option (Result SyncFrame × Daemon) :=
  if request.protocolVersion ≠ syncProtocolVersion then
    some (errorf "unsupported synchronization protocol version %d"
      [Text.decimalInt request.protocolVersion], d)
  else if request.networkID ≠ membership.id then
    some (errorf "synchronization network ID mismatch" [], d)
  else
    match d.serveSyncBody fuel membership.name request.body with
    | none => none
    | some (.error e, d) => some (.error e, d)
    | some (.ok body, d) => some (.ok ⟨syncProtocolVersion, membership.id, body⟩, d)

end Daemon

/-! ### The initiator -/

/-- A request to the responder and the content of its answer, with the responder after it. -/
def exchange (fuel : Nat) (responder : Daemon) (membership : NetworkMembership) (body : SyncBody) :
    Option (Result SyncBody × Daemon) :=
  match transmit ⟨syncProtocolVersion, membership.id, body⟩ with
  | .error e => some (.error e, responder)
  | .ok request =>
    match responder.serveSyncRequest fuel membership request with
    | none => none
    | some (.error e, responder) => some (.error e, responder)
    | some (.ok answer, responder) =>
      match transmit answer with
      | .error e => some (.error e, responder)
      | .ok response =>
        if response.networkID ≠ membership.id then
          some (errorf "synchronization response crossed network boundary" [], responder)
        else if response.protocolVersion ≠ syncProtocolVersion then
          some (errorf "unsupported synchronization protocol version %d"
            [Text.decimalInt response.protocolVersion], responder)
        else some (.ok response.body, responder)

/-- What a session did. -/
structure SyncResult where
  peerID : Text
  network : NetworkMembershipInfo
  inventoried : Nat
  pushed : Nat
  pulled : Nat
  duplicates : Nat
  conflicts : List Text
  deriving DecidableEq

/-- Push the events that the responder needs. -/
def pushNeeded (fuel : Nat) (initiator responder : Daemon) (membership : NetworkMembership)
    (ids : List Text) (result : SyncResult) : Option (Result SyncResult × Daemon) :=
  if ids = [] then some (.ok result, responder)
  else
    match initiator.eventsByIDs membership.name ids with
    | .error e => some (.error e, responder)
    | .ok events =>
      match exchange fuel responder membership (.eventsPush events) with
      | none => none
      | some (.ok (.eventsAck received created), responder) =>
        if received ≠ events.length then
          some (errorf "peer acknowledged %d of %d pushed events"
            [Text.decimal received, Text.decimal events.length], responder)
        else
          some (.ok { result with
            pushed := result.pushed + created
            duplicates := result.duplicates + (received - created) }, responder)
      | some (.ok _, responder) =>
        some (errorf "unexpected synchronization response type %q" [], responder)
      | some (.error e, responder) => some (.error e, responder)

/-- Offer a page of the inventory and push the events that the responder needs. -/
def pushPage (fuel : Nat) (initiator responder : Daemon) (membership : NetworkMembership)
    (entries : List InventoryEntry) (result : SyncResult) : Option (Result SyncResult × Daemon) :=
  if entries = [] then some (.ok result, responder)
  else
    match exchange fuel responder membership (.inventoryOffer entries) with
    | none => none
    | some (.ok (.inventoryNeed ids conflicts), responder) =>
      pushNeeded fuel initiator responder membership ids { result with
        inventoried := result.inventoried + entries.length
        conflicts := appendUniqueStrings result.conflicts conflicts }
    | some (.ok _, responder) =>
      some (errorf "unexpected synchronization response type %q" [], responder)
    | some (.error e, responder) => some (.error e, responder)

/-- Offer the inventory from a cursor on. -/
def pushInventory : Nat → Daemon → Daemon → NetworkMembership → Text → SyncResult →
    Option (Result SyncResult × Daemon)
  | 0, _, _, _, _, _ => none
  | fuel + 1, initiator, responder, membership, cursor, result =>
    match initiator.inventoryPage membership.name cursor syncPageSize with
    | .error e => some (.error e, responder)
    | .ok page =>
      match pushPage fuel initiator responder membership page.entries result with
      | none => none
      | some (.error e, responder) => some (.error e, responder)
      | some (.ok result, responder) =>
        if page.done then some (.ok result, responder)
        else pushInventory fuel initiator responder membership page.nextCursor result

/-- Fetch the events that the initiator misses. -/
def pullMissing (fuel : Nat) (initiator responder : Daemon) (membership : NetworkMembership)
    (missing : List Text) (result : SyncResult) :
    Option (Result SyncResult × Daemon × Daemon) :=
  if missing = [] then some (.ok result, initiator, responder)
  else
    match exchange fuel responder membership (.eventsRequest missing) with
    | none => none
    | some (.ok (.eventsPage events), responder) =>
      match validateRequestedEvents membership.name missing events with
      | .error e => some (.error e, initiator, responder)
      | .ok () =>
        match initiator.ingestEvents fuel events with
        | none => none
        | some (.error e, initiator) => some (.error e, initiator, responder)
        | some (.ok created, initiator) =>
          some (.ok { result with
            pulled := result.pulled + created
            duplicates := result.duplicates + (events.length - created) }, initiator, responder)
    | some (.ok _, responder) =>
      some (errorf "unexpected synchronization response type %q" [], initiator, responder)
    | some (.error e, responder) => some (.error e, initiator, responder)

/-- Fetch a page of the responder's inventory and the events of it that the initiator misses; with
what comes after the page. -/
def pullPage (fuel : Nat) (initiator responder : Daemon) (membership : NetworkMembership)
    (cursor : Text) (result : SyncResult) :
    Option (Result (SyncResult × InventoryPage) × Daemon × Daemon) :=
  match exchange fuel responder membership (.inventoryRequest cursor syncPageSize) with
  | none => none
  | some (.ok (.inventoryPage page), responder) =>
    match initiator.compareInventory membership.name page.entries with
    | (.error e, initiator) => some (.error e, initiator, responder)
    | (.ok (missing, conflicts), initiator) =>
      match pullMissing fuel initiator responder membership missing
          { result with conflicts := appendUniqueStrings result.conflicts conflicts } with
      | none => none
      | some (.error e, initiator, responder) => some (.error e, initiator, responder)
      | some (.ok result, initiator, responder) => some (.ok (result, page), initiator, responder)
  | some (.ok _, responder) =>
    some (errorf "unexpected synchronization response type %q" [], initiator, responder)
  | some (.error e, responder) => some (.error e, initiator, responder)

/-- Fetch the responder's inventory from a cursor on. -/
def pullInventory : Nat → Daemon → Daemon → NetworkMembership → Text → SyncResult →
    Option (Result SyncResult × Daemon × Daemon)
  | 0, _, _, _, _, _ => none
  | fuel + 1, initiator, responder, membership, cursor, result =>
    match pullPage fuel initiator responder membership cursor result with
    | none => none
    | some (.error e, initiator, responder) => some (.error e, initiator, responder)
    | some (.ok (result, page), initiator, responder) =>
      if page.done then some (.ok result, initiator, responder)
      else if page.nextCursor = [] ∨ page.nextCursor ≤ cursor then
        some (errorf "peer returned a non-advancing inventory cursor" [], initiator, responder)
      else pullInventory fuel initiator responder membership page.nextCursor result

/-- The handshake: both daemons have the network mounted under the same credentials. -/
def openAuthenticatedMeshStream (initiator responder : Daemon) (networkName : Text) :
    Result NetworkMembership :=
  match initiator.memberships.get networkName with
  | none => errorf "network %q is not mounted" [networkName]
  | some membership =>
    if responder.memberships.get membership.name = some membership then .ok membership
    else errorf "membership authentication failed" []

/-- A synchronization session with a responder, with both daemons after it. -/
def synchronizePeer (fuel : Nat) (initiator responder : Daemon) (networkName : Text) :
    Option (Result SyncResult × Daemon × Daemon) :=
  match openAuthenticatedMeshStream initiator responder networkName with
  | .error e => some (.error e, initiator, responder)
  | .ok membership =>
    match pushInventory fuel initiator responder membership []
        ⟨responder.deviceID, membership.info, 0, 0, 0, 0, []⟩ with
    | none => none
    | some (.error e, responder) => some (.error e, initiator, responder)
    | some (.ok result, responder) =>
      pullInventory fuel initiator responder membership [] result

end Thalweg
