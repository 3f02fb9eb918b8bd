import Thalweg.Daemon.LocalProtocol
import Thalweg.Daemon.SyncServer

/-!
# Routes

What the handlers of the daemon make of the payload of a request: the arguments that a payload
names, with their checks. The routes of the networks are given whole.

## Main definitions

* `clientRequest`: the request that the payload of an action asks for.
* `clientRoutes`: the handlers of the actions on events, siphons and mesh peers.
* `networkRoutes`: the handlers of the mounted networks.
-/

namespace Thalweg

open Json (Marshalable)

/-! ### Arguments -/

/-- The arguments that a payload names. -/
def decodeArgs {α : Type} (fields : List (Text × Json.Setter α)) (zero : α) (payload : Text) :
    Result α :=
  match Json.decodeRecord false fields zero payload with
  | none => .error (.external "encoding/json")
  | some args => .ok args

/-- The same for a payload that may be absent. -/
def decodeOptionalArgs {α : Type} (fields : List (Text × Json.Setter α)) (zero : α)
    (payload : Text) : Result α :=
  if payload = [] then .ok zero else decodeArgs fields zero payload

section Fields

variable {α : Type}

/-- An argument that is a text. -/
def textField (name : String) (get : α → Text) (set : α → Text → α) : Text × Json.Setter α :=
  (name.toList, fun args _ v => (Json.decodeText (get args) v).map (set args))

/-- An argument that is a number. -/
def intField (name : String) (get : α → Int) (set : α → Int → α) : Text × Json.Setter α :=
  (name.toList, fun args _ v => (Json.decodeInt (get args) v).map (set args))

/-- An argument that is a list of texts. -/
def textsField (name : String) (get : α → Json.Slice Text) (set : α → Json.Slice Text → α) :
    Text × Json.Setter α :=
  (name.toList, fun args raw v =>
    (Json.decodeSlice Json.decodeTextElement [] (get args) raw v).map (set args))

/-- An argument that is a truth value. -/
def boolField (name : String) (get : α → Bool) (set : α → Bool → α) : Text × Json.Setter α :=
  (name.toList, fun args _ v => (decodeBool (get args) v).map (set args))

/-- An argument that is any value, as its raw text. -/
def rawField (name : String) (set : α → Text → α) : Text × Json.Setter α :=
  (name.toList, fun args raw _ => some (set args raw))

end Fields

/-- The arguments of `event_ingest`. -/
structure EventIngestArgs where
  network : Text
  stream : Text
  occurredAt : Text
  payload : Text
  eventID : Text

/-- The fields of these arguments. -/
def eventIngestFields : List (Text × Json.Setter EventIngestArgs) :=
  [textField "network" (·.network) fun args x => { args with network := x },
    textField "stream" (·.stream) fun args x => { args with stream := x },
    textField "occurredAt" (·.occurredAt) fun args x => { args with occurredAt := x },
    rawField "payload" fun args x => { args with payload := x },
    textField "eventId" (·.eventID) fun args x => { args with eventID := x }]

/-- The arguments of `event_query`. -/
structure EventQueryArgs where
  network : Text
  streams : Json.Slice Text
  from' : Text
  to' : Text
  limit : Int
  order : Text

/-- The fields of these arguments. -/
def eventQueryFields : List (Text × Json.Setter EventQueryArgs) :=
  [textField "network" (·.network) fun args x => { args with network := x },
    textsField "streams" (·.streams) fun args x => { args with streams := x },
    textField "from" (·.from') fun args x => { args with from' := x },
    textField "to" (·.to') fun args x => { args with to' := x },
    intField "limit" (·.limit) fun args x => { args with limit := x },
    textField "order" (·.order) fun args x => { args with order := x }]

/-- The arguments of the handlers that ask for a network only. -/
def networkFields : List (Text × Json.Setter Text) := [textField "network" id fun _ x => x]

/-- The arguments of `event_conflict_resolve`. -/
structure EventConflictResolveArgs where
  network : Text
  eventID : Text
  strategy : Text

/-- The fields of these arguments. -/
def eventConflictResolveFields : List (Text × Json.Setter EventConflictResolveArgs) :=
  [textField "network" (·.network) fun args x => { args with network := x },
    textField "eventId" (·.eventID) fun args x => { args with eventID := x },
    textField "strategy" (·.strategy) fun args x => { args with strategy := x }]

/-- The arguments of `durable_siphon_create`. -/
structure DurableSiphonArgs where
  network : Text
  name : Text
  streams : Json.Slice Text
  start : Text

/-- The fields of these arguments. -/
def durableSiphonCreateFields : List (Text × Json.Setter DurableSiphonArgs) :=
  [textField "network" (·.network) fun args x => { args with network := x },
    textField "name" (·.name) fun args x => { args with name := x },
    textsField "streams" (·.streams) fun args x => { args with streams := x },
    textField "start" (·.start) fun args x => { args with start := x }]

/-- The arguments of `durable_siphon_poll`. -/
structure DurableSiphonPollArgs where
  network : Text
  name : Text
  limit : Int
  waitMillis : Int

/-- The fields of these arguments. -/
def durableSiphonPollFields : List (Text × Json.Setter DurableSiphonPollArgs) :=
  [textField "network" (·.network) fun args x => { args with network := x },
    textField "name" (·.name) fun args x => { args with name := x },
    intField "limit" (·.limit) fun args x => { args with limit := x },
    intField "waitMillis" (·.waitMillis) fun args x => { args with waitMillis := x }]

/-- The arguments of `durable_siphon_ack`. -/
structure DurableSiphonAckArgs where
  network : Text
  name : Text
  deliveryID : Text

/-- The fields of these arguments. -/
def durableSiphonAckFields : List (Text × Json.Setter DurableSiphonAckArgs) :=
  [textField "network" (·.network) fun args x => { args with network := x },
    textField "name" (·.name) fun args x => { args with name := x },
    textField "deliveryId" (·.deliveryID) fun args x => { args with deliveryID := x }]

/-- The arguments of `mesh_sync`. -/
structure MeshSyncArgs where
  targetAddr : Text
  legacyTargetAddr : Text
  network : Text
  debug : Bool

/-- The fields of these arguments. -/
def meshSyncFields : List (Text × Json.Setter MeshSyncArgs) :=
  [textField "targetAddr" (·.targetAddr) fun args x => { args with targetAddr := x },
    textField "target_addr" (·.legacyTargetAddr) fun args x => { args with legacyTargetAddr := x },
    textField "network" (·.network) fun args x => { args with network := x },
    boolField "debug" (·.debug) fun args x => { args with debug := x }]

/-- The arguments of a synchronization, with the older name of the address. -/
def checkMeshSyncArgs (args : MeshSyncArgs) : Result ClientRequest :=
  let targetAddr := if args.targetAddr = [] then args.legacyTargetAddr else args.targetAddr
  if targetAddr = [] then errorf "targetAddr is required" []
  else if args.network = [] then errorf "network is required" []
  else .ok (.meshSync targetAddr args.network)

/-- What a request meets that it does not name: the random part of an ID, whether the daemon closes,
and what wakes a poll that waits. -/
structure Circumstances where
  random : Text
  closed : Bool
  wakes : List Text

/-- What the payload of an action asks for, for the actions on events, siphons and mesh peers. -/
def clientRequest (action : Text) : Option (Circumstances → Text → Result ClientRequest) :=
  if action = "event_ingest".toList then
    some fun c payload =>
      (decodeArgs eventIngestFields ⟨[], [], [], [], []⟩ payload).map fun args =>
        .eventIngest args.network args.stream args.occurredAt args.eventID args.payload c.random
  else if action = "event_query".toList then
    some fun _ payload =>
      (decodeArgs eventQueryFields ⟨[], .nil, [], [], 0, []⟩ payload).map fun args =>
        .eventQuery args.network args.streams.items args.from' args.to' args.limit args.order
  else if action = "event_conflict_list".toList then
    some fun _ payload => (decodeArgs networkFields [] payload).map .eventConflictList
  else if action = "event_conflict_resolve".toList then
    some fun c payload =>
      (decodeArgs eventConflictResolveFields ⟨[], [], []⟩ payload).map fun args =>
        .eventConflictResolve args.network args.eventID args.strategy c.random
  else if action = "durable_siphon_create".toList then
    some fun _ payload =>
      (decodeArgs durableSiphonCreateFields ⟨[], [], .nil, []⟩ payload).map fun args =>
        .durableSiphon (.durableSiphonCreate args.network args.name args.streams.items args.start)
  else if action = "durable_siphon_list".toList then
    some fun _ payload => (decodeOptionalArgs networkFields [] payload).map fun network =>
      .durableSiphon (.durableSiphonList network)
  else if action = "durable_siphon_poll".toList then
    some fun c payload =>
      (decodeArgs durableSiphonPollFields ⟨[], [], 0, 0⟩ payload).map fun args =>
        .durableSiphon (.durableSiphonPoll args.network args.name args.limit args.waitMillis
          c.random c.closed c.wakes)
  else if action = "durable_siphon_ack".toList then
    some fun _ payload =>
      (decodeArgs durableSiphonAckFields ⟨[], [], []⟩ payload).map fun args =>
        .durableSiphon (.durableSiphonAck args.network args.name args.deliveryID)
  else if action = "mesh_sync".toList then
    some fun _ payload =>
      decodeArgs meshSyncFields ⟨[], [], [], false⟩ payload >>= checkMeshSyncArgs
  else if action = "mesh_peer_list".toList then
    some fun _ payload => (decodeOptionalArgs networkFields [] payload).map .meshPeerList
  else none

/-- The handlers of these actions: the request that the payload asks for is served, and an error is
told in a text. -/
def clientRoutes {σ : Type} (describe : Failure → LocalError) (circumstances : σ → Circumstances)
    (serve : σ → ClientRequest → Result ClientAnswer × σ) : Routes σ := fun action =>
  (clientRequest action).map fun request s payload =>
    match request (circumstances s) payload with
    | .error err => (.error (describe err), s)
    | .ok request =>
      match serve s request with
      | (.error err, s) => (.error (describe err), s)
      | (.ok answer, s) => (.ok (some answer.marshalable), s)

/-! ### Networks -/

/-- The data of a handler that answers with a map; the encoder sorts the names. -/
def mapData (members : List (Text × Marshalable)) : Option Marshalable := some (.obj members)

/-- A handler that gives data or the error, which is told in a text. -/
def answerWith {σ : Type} (describe : Failure → LocalError) (s : σ) :
    Result (Option Marshalable × σ) → Except LocalError (Option Marshalable) × σ
  | .ok (data, s) => (.ok data, s)
  | .error err => (.error (describe err), s)

/-- The data of `network_list`. -/
def networkList (memberships : Memberships) : Marshalable :=
  .arr (memberships.list.map NetworkMembershipInfo.marshalable)

/-- The handler of `network_join`. -/
def handleNetworkJoin (memberships : Memberships) (payload : Text) :
    Result (Option Marshalable × Memberships) := do
  let invitation ← decodeArgs [textField "invitation" id fun _ x => x] [] payload
  let (membership, joined, memberships) ← memberships.join invitation
  .ok (mapData [("joined".toList, .bool joined), ("membership".toList, membership.marshalable)],
    memberships)

/-- The handler of `network_invite`. -/
def handleNetworkInvite (memberships : Memberships) (payload : Text) :
    Result (Option Marshalable × Memberships) := do
  let name ← decodeArgs [textField "name" id fun _ x => x] [] payload
  let (membership, invitation) ← memberships.invite name
  .ok (mapData [("credentialMode".toList, .str "shared-bearer".toList),
    ("invitation".toList, .str invitation), ("membership".toList, membership.marshalable)],
    memberships)

/-- The handlers that need the mounted networks only. -/
def networkRoutes (describe : Failure → LocalError) : Routes Memberships := fun action =>
  if action = "network_list".toList then
    some fun memberships _ => (.ok (some (networkList memberships)), memberships)
  else if action = "network_join".toList then
    some fun memberships payload =>
      answerWith describe memberships (handleNetworkJoin memberships payload)
  else if action = "network_invite".toList then
    some fun memberships payload =>
      answerWith describe memberships (handleNetworkInvite memberships payload)
  else none

end Thalweg
