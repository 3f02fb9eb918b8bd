import Mathlib.Logic.Function.Basic
import Thalweg.Data.Machine
import Thalweg.Daemon.Mesh
import Thalweg.Daemon.Sync

/-!
# Mesh peers and leaving a network

The peers of its networks that a daemon remembers, and what writes and removes their records:
inbound handshakes, dials, synchronizations and leaving. Each of these is a call of its own, and the
calls take their steps in any order; what they leave open (connections, clocks, random bytes, the
frames of an outbound session, whether a write fails) is a part of the action.

The records stand in a store of their own under the keys that they have in the database. The rest of
the database, which inbound sessions read and write, is an argument of their steps.

## Main definitions

* `PersistedMeshPeer`, `updateMeshPeer`.
* `MeshState.step`: one step of a daemon or of one of its calls.
-/

namespace Thalweg

/-! ### Records of peers -/

/-- The record of a peer of a network. -/
structure PersistedMeshPeer where
  network : Text
  peerID : Text
  address : Text
  lastAttemptAt : Text
  lastSuccessAt : Text
  lastError : Text
  nextAttemptAt : Text
  consecutiveFailures : Int
  lastResult : Option SyncResult
  deriving DecidableEq

/-- The records of mesh peers, by their keys. -/
abbrev MeshPeers := OrderedStore Char PersistedMeshPeer

/-- Change the record of a peer, from a new one if there is none. -/
def updateMeshPeer (peers : MeshPeers) (networkName peerID : Text)
    (update : PersistedMeshPeer → PersistedMeshPeer) : MeshPeers :=
  let key := meshPeerKey networkName peerID
  let record := (peers.get key).getD ⟨networkName, peerID, [], [], [], [], [], 0, none⟩
  peers.set key (update record)

/-- Persist a peer with its address. -/
def persistMeshPeer (peers : MeshPeers) (networkName peerID address : Text) : MeshPeers :=
  updateMeshPeer peers networkName peerID fun record =>
    { record with network := networkName, peerID, address }

/-- Whether a peer has a record in the network. -/
def meshPeerExists (peers : MeshPeers) (networkName peerID : Text) : Bool :=
  (peers.get (meshPeerKey networkName peerID)).isSome

/-- Note that a synchronization with a peer begins. -/
def recordMeshPeerAttempt (peers : MeshPeers) (networkName peerID : Text) (now : Instant) :
    MeshPeers :=
  updateMeshPeer peers networkName peerID fun record =>
    { record with lastAttemptAt := now.format, nextAttemptAt := [] }

/-- Note what a synchronization with a peer has done. -/
def recordMeshPeerSuccess (peers : MeshPeers) (networkName peerID : Text) (now next : Instant)
    (result : SyncResult) : MeshPeers :=
  updateMeshPeer peers networkName peerID fun record =>
    { record with
      lastAttemptAt := now.format
      lastSuccessAt := now.format
      lastError := []
      consecutiveFailures := 0
      nextAttemptAt := next.format
      lastResult := some result }

/-- Note why a synchronization with a peer has failed. -/
def recordMeshPeerFailure (peers : MeshPeers) (networkName peerID : Text) (now next : Instant)
    (syncErr : Text) : MeshPeers :=
  updateMeshPeer peers networkName peerID fun record =>
    { record with
      lastAttemptAt := now.format
      lastError := syncErr
      consecutiveFailures := record.consecutiveFailures + 1
      nextAttemptAt := next.format }

/-- Remove the records of a network's peers. -/
def forgetMeshPeers (peers : MeshPeers) (networkName : Text) : MeshPeers :=
  let pre := meshPeerPrefix networkName
  (peers.scan pre pre).foldl (fun peers entry => peers.delete entry.1) peers

/-! ### Calls -/

/-- What an outbound handshake is for: `mesh_dial` or `synchronizeKnownPeer`. -/
inductive MeshPurpose where
  | dial (networkName address : Text)
  | sync (networkName address : Text) (known : Bool)
  deriving DecidableEq

/-- The network that a call is for. -/
def MeshPurpose.networkName : MeshPurpose → Text
  | .dial networkName _ | .sync networkName _ _ => networkName

/-- Where a call stands. -/
inductive MeshCall where
  | idle
  /-- `network_leave` has marked the network as being left. -/
  | leaving (networkName : Text)
  /-- The network is unmounted; its peers are to be removed. -/
  | forgetting (networkName : Text)
  /-- `network_leave` is to take its mark off and to return. -/
  | leaveReturning (networkName : Text) (success : Bool)
  /-- `handleMeshStream` has accepted a hello; the welcome is to be written. -/
  | welcoming (membership : NetworkMembership) (initiator : PeerID)
  /-- The initiator is to be remembered. -/
  | remembering (membership : NetworkMembership) (initiator : PeerID)
  /-- The requests of the initiator are served. -/
  | serving (membership : NetworkMembership) (initiator : PeerID)
  /-- `synchronizeKnownPeer` has marked the peer as being synchronized. -/
  | starting (networkName : Text) (remote : PeerID) (address : Text)
  /-- It knows whether there is a record; the attempt is to be recorded if there is. -/
  | attempting (networkName : Text) (remote : PeerID) (address : Text) (known : Bool)
  /-- The peer is connected; `openAuthenticatedMeshStream` is to look up the membership. -/
  | opening (remote : PeerID) (purpose : MeshPurpose)
  /-- The hello is sent. -/
  | greeting (remote : PeerID) (purpose : MeshPurpose) (membership : NetworkMembership)
    (nonce : Text)
  /-- The session of a synchronization. -/
  | exchanging (networkName : Text) (remote : PeerID) (address : Text) (known : Bool)
      (membership : NetworkMembership)
  /-- The address of the peer is to be recorded. -/
  | persisting (remote : PeerID) (purpose : MeshPurpose)
  | succeeding (networkName : Text) (remote : PeerID)
  | failing (networkName : Text) (remote : PeerID) (known : Bool)
  /-- `synchronizeKnownPeer` is to take its mark off and to return. -/
  | syncReturning (networkName : Text) (remote : PeerID)

/-- What happens to networks. -/
inductive MeshEvent where
  | mounted (membership : NetworkMembership)
  | unmounted (networkName : Text)
  /-- The records of the network's peers have been removed. -/
  | forgotten (networkName : Text)
  /-- `network_leave` has returned success. -/
  | left (networkName : Text)
  /-- A handshake for the membership has succeeded. -/
  | authenticated (membership : NetworkMembership)
  /-- A frame of a session for the network has been sent. -/
  | sent (networkName : Text) (body : SyncBody)
  /-- Received events have been stored in a session for the network. -/
  | stored (networkName : Text) (events : List ThalwegEvent)

/-- The event belongs to a session for the network. -/
def MeshEvent.OfSession (networkName : Text) : MeshEvent → Prop
  | .sent n _ | .stored n _ => n = networkName
  | _ => False

/-- The part of a daemon that its peers matter to. -/
structure MeshState where
  self : PeerID
  memberships : Memberships
  peers : MeshPeers
  /-- The keys of the peers that are being synchronized. -/
  meshSyncing : List Text
  /-- The networks that are being left. -/
  meshLeaving : List Text
  calls : Nat → MeshCall
  history : List MeshEvent

namespace MeshState

/-- A daemon that has just started on the memberships of its file and the records of its peers. -/
def initial (self : PeerID) (loaded : List NetworkMembership) (peers : MeshPeers) : MeshState where
  self
  memberships := loaded.foldl (fun ms membership => ms.set membership.name membership)
    OrderedStore.empty
  peers
  meshSyncing := []
  meshLeaving := []
  calls _ := .idle
  history := []

/-- What a daemon or one of its calls does next. -/
inductive Action where
  | create (name : Text) (id secret : List UInt8)
  | join (invitation : Text)
  | startMeshNetworkLeave (call : Nat) (networkName : Text)
  | leave (call : Nat)
  | removeMeshPeersForNetwork (call : Nat)
  | finishMeshNetworkLeave (call : Nat)
  /-- `handleMeshStream` reads a hello and checks it. -/
  | handleMeshStream (call : Nat) (initiator : PeerID) (responderNonce : Text) (line : List UInt8)
  | writeWelcome (call : Nat)
  /-- Without a usable address, or when the write fails, there is no record. -/
  | rememberInboundMeshPeer (call : Nat) (address : Option Text)
  | serveSyncRequest (call : Nat) (fuel : Nat) (d : Daemon) (request : SyncFrame)
  | meshDial (call : Nat) (networkName : Text) (remote : PeerID) (address : Text)
  | startMeshPeerSync (call : Nat) (networkName : Text) (remote : PeerID) (address : Text)
  | meshPeerExists (call : Nat)
  | recordAttempt (call : Nat) (now : Instant)
  | openAuthenticatedMeshStream (call : Nat) (initiatorNonce : Text)
  | readWelcome (call : Nat) (line : List UInt8)
  /-- A step of an outbound session, with what it sends or what it stores. -/
  | exchange (call : Nat) (sent : Option SyncBody) (stored : List ThalwegEvent)
  | synchronized (call : Nat)
  | persistMeshPeer (call : Nat)
  | recordSuccess (call : Nat) (now next : Instant) (result : SyncResult)
  | recordFailure (call : Nat) (now next : Instant) (syncErr : Text)
  | finishMeshPeerSync (call : Nat)
  /-- The connection or the database fails. -/
  | fail (call : Nat)

/-- The state with a call set. -/
def setCall (s : MeshState) (call : Nat) (c : MeshCall) : MeshState :=
  { s with calls := Function.update s.calls call c }

/-- The state with one more entry in its history. -/
def record (s : MeshState) (event : MeshEvent) : MeshState :=
  { s with history := s.history ++ [event] }

/-- The events of a request that `serveSyncRequests` hands to the database. -/
def pushedEvents (membership : NetworkMembership) (request : SyncFrame) : List ThalwegEvent :=
  if request.protocolVersion ≠ syncProtocolVersion ∨ request.networkID ≠ membership.id then []
  else
    match request.body with
    | .eventsPush events =>
      if events.length = 0 ∨ syncMaxPageSize < events.length then []
      else
        match normalizePushedEvents membership.name events with
        | .ok events => events
        | .error _ => []
    | _ => []

/-- The events of a request that a daemon has only after it has served the request. -/
def storedEvents (d d' : Daemon) (membership : NetworkMembership) (request : SyncFrame) :
    List ThalwegEvent :=
  (pushedEvents membership request).filter fun event =>
    (d.store.get (eventIDKey event.network event.id)).isNone &&
      (d'.store.get (eventIDKey event.network event.id)).isSome

/-- The state with the events noted that were stored, if there are any. -/
def recordStored (s : MeshState) (networkName : Text) (events : List ThalwegEvent) : MeshState :=
  if events = [] then s else s.record (.stored networkName events)

/-- The state with an answer noted that was sent, if there is one. -/
def recordSent (s : MeshState) (networkName : Text) : Option SyncBody → MeshState
  | some body => s.record (.sent networkName body)
  | none => s

/-- What follows a welcome that is accepted. -/
def welcomed (remote : PeerID) (membership : NetworkMembership) : MeshPurpose → MeshCall
  | .dial networkName address => .persisting remote (.dial networkName address)
  | .sync networkName address known => .exchanging networkName remote address known membership

/-- A call whose connection fails, or whose write to the database does. -/
def failed : MeshCall → Option MeshCall
  | .forgetting networkName => some (.leaveReturning networkName false)
  | .welcoming _ _ | .remembering _ _ | .serving _ _ => some .idle
  | .opening _ (.dial _ _) | .greeting _ (.dial _ _) _ _ | .persisting _ (.dial _ _) => some .idle
  | .opening remote (.sync networkName _ known) | .greeting remote (.sync networkName _ known) _ _
  | .exchanging networkName remote _ known _ => some (.failing networkName remote known)
  | .attempting networkName remote address known =>
    some (.opening remote (.sync networkName address known))
  | .persisting remote (.sync networkName _ _) | .succeeding networkName remote
  | .failing networkName remote _ => some (.syncReturning networkName remote)
  | _ => none

/-- One step; an action that is not possible in the state leads nowhere. A call that is refused
leaves the state. -/
def step (s : MeshState) : Action → Option MeshState
  | .create name id secret =>
    match s.memberships.create name id secret with
    | .error _ => some s
    | .ok (_, _, memberships) => some ({ s with memberships }.record
        (.mounted ⟨name, Base64Url.encode id, Base64Url.encode secret⟩))
  | .join invitation =>
    match s.memberships.join invitation, decodeNetworkInvitation invitation with
    | .ok (_, true, memberships), .ok membership =>
      some ({ s with memberships }.record (.mounted membership))
    | _, _ => some s
  | .startMeshNetworkLeave call networkName =>
    match s.calls call with
    | .idle =>
      if networkName ∈ s.meshLeaving ∨ ∃ key ∈ s.meshSyncing,
        meshPeerPrefix networkName <+: key then
        some s
      else
        some ({ s with meshLeaving := networkName :: s.meshLeaving }.setCall call
          (.leaving networkName))
    | _ => none
  | .leave call =>
    match s.calls call with
    | .leaving networkName =>
      match s.memberships.leave networkName with
      | .error _ => some (s.setCall call (.leaveReturning networkName false))
      | .ok (_, memberships) =>
        some (({ s with memberships }.setCall call (.forgetting networkName)).record
          (.unmounted networkName))
    | _ => none
  | .removeMeshPeersForNetwork call =>
    match s.calls call with
    | .forgetting networkName =>
      some (({ s with peers := forgetMeshPeers s.peers networkName }.setCall call
        (.leaveReturning networkName true)).record (.forgotten networkName))
    | _ => none
  | .finishMeshNetworkLeave call =>
    match s.calls call with
    | .leaveReturning networkName success =>
      let s := { s with meshLeaving := s.meshLeaving.filter (· ≠ networkName) }.setCall call .idle
      some (if success then s.record (.left networkName) else s)
    | _ => none
  | .handleMeshStream call initiator responderNonce line =>
    match s.calls call with
    | .idle =>
      match handleMeshHello s.memberships initiator s.self responderNonce line with
      | (.ok _, some (membership, _)) =>
        some ((s.setCall call (.welcoming membership initiator)).record (.authenticated membership))
      | _ => some s
    | _ => none
  | .writeWelcome call =>
    match s.calls call with
    | .welcoming membership initiator => some (s.setCall call (.remembering membership initiator))
    | _ => none
  | .rememberInboundMeshPeer call address =>
    match s.calls call with
    | .remembering membership initiator =>
      match address with
      | some address =>
        some ({ s with
          peers := Thalweg.persistMeshPeer s.peers membership.name initiator.text address }.setCall
            call (.serving membership initiator))
      | none => some (s.setCall call (.serving membership initiator))
    | _ => none
  | .serveSyncRequest call fuel d request =>
    match s.calls call with
    | .serving membership _ =>
      match d.serveSyncRequest fuel membership request with
      | none => none
      | some (.ok answer, d') =>
        some ((s.recordStored membership.name (storedEvents d d' membership request)).record
          (.sent membership.name answer.body))
      | some (.error _, d') =>
        some ((s.recordStored membership.name (storedEvents d d' membership request)).setCall call
          .idle)
    | _ => none
  | .meshDial call networkName remote address =>
    match s.calls call with
    | .idle => some (s.setCall call (.opening remote (.dial networkName address)))
    | _ => none
  | .startMeshPeerSync call networkName remote address =>
    match s.calls call with
    | .idle =>
      if networkName ∈ s.meshLeaving ∨
        meshPeerKey networkName remote.text ∈ s.meshSyncing then some s
      else
        some ({ s with
          meshSyncing := meshPeerKey networkName remote.text :: s.meshSyncing }.setCall call
            (.starting networkName remote address))
    | _ => none
  | .meshPeerExists call =>
    match s.calls call with
    | .starting networkName remote address =>
      some (s.setCall call (.attempting networkName remote address
        (Thalweg.meshPeerExists s.peers networkName remote.text)))
    | _ => none
  | .recordAttempt call now =>
    match s.calls call with
    | .attempting networkName remote address known =>
      let peers :=
        if known then recordMeshPeerAttempt s.peers networkName remote.text now else s.peers
      some ({ s with peers }.setCall call (.opening remote (.sync networkName address known)))
    | _ => none
  | .openAuthenticatedMeshStream call initiatorNonce =>
    match s.calls call with
    | .opening remote purpose =>
      match s.memberships.get purpose.networkName with
      | none => (failed (s.calls call)).map (s.setCall call)
      | some membership =>
        match sendMeshHello membership s.self remote initiatorNonce with
        | .error _ => (failed (s.calls call)).map (s.setCall call)
        | .ok _ => some (s.setCall call (.greeting remote purpose membership initiatorNonce))
    | _ => none
  | .readWelcome call line =>
    match s.calls call with
    | .greeting remote purpose membership initiatorNonce =>
      match receiveMeshWelcome membership s.self remote initiatorNonce line with
      | .error _ => (failed (s.calls call)).map (s.setCall call)
      | .ok _ =>
        some ((s.setCall call (welcomed remote membership purpose)).record
          (.authenticated membership))
    | _ => none
  | .exchange call sent stored =>
    match s.calls call with
    | .exchanging _ _ _ _ membership =>
      some ((s.recordStored membership.name stored).recordSent membership.name sent)
    | _ => none
  | .synchronized call =>
    match s.calls call with
    | .exchanging networkName remote address known _ =>
      some (s.setCall call (.persisting remote (.sync networkName address known)))
    | _ => none
  | .persistMeshPeer call =>
    match s.calls call with
    | .persisting remote (.dial networkName address) =>
      some ({ s with
        peers := Thalweg.persistMeshPeer s.peers networkName remote.text address }.setCall call
          .idle)
    | .persisting remote (.sync networkName address _) =>
      some ({ s with
        peers := Thalweg.persistMeshPeer s.peers networkName remote.text address }.setCall call
          (.succeeding networkName remote))
    | _ => none
  | .recordSuccess call now next result =>
    match s.calls call with
    | .succeeding networkName remote =>
      some ({ s with
        peers := recordMeshPeerSuccess s.peers networkName remote.text now next result }.setCall
          call (.syncReturning networkName remote))
    | _ => none
  | .recordFailure call now next syncErr =>
    match s.calls call with
    | .failing networkName remote known =>
      let peers :=
        if known then recordMeshPeerFailure s.peers networkName remote.text now next syncErr
        else s.peers
      some ({ s with peers }.setCall call (.syncReturning networkName remote))
    | _ => none
  | .finishMeshPeerSync call =>
    match s.calls call with
    | .syncReturning networkName remote =>
      some ({ s with
        meshSyncing := s.meshSyncing.filter (· ≠ meshPeerKey networkName remote.text) }.setCall call
          .idle)
    | _ => none
  | .fail call => (failed (s.calls call)).map (s.setCall call)

/-! ### What a step does -/

/-- The call that an action belongs to. -/
def Action.call : Action → Option Nat
  | .create _ _ _ | .join _ => none
  | .startMeshNetworkLeave call _ | .leave call | .removeMeshPeersForNetwork call
  | .finishMeshNetworkLeave call | .handleMeshStream call _ _ _ | .writeWelcome call
  | .rememberInboundMeshPeer call _ | .serveSyncRequest call _ _ _ | .meshDial call _ _ _
  | .startMeshPeerSync call _ _ _ | .meshPeerExists call | .recordAttempt call _
  | .openAuthenticatedMeshStream call _ | .readWelcome call _ | .exchange call _ _
  | .synchronized call | .persistMeshPeer call | .recordSuccess call _ _ _
  | .recordFailure call _ _ _ | .finishMeshPeerSync call | .fail call => some call

/-- A call goes on without a trace. -/
inductive Moves (s : MeshState) : MeshCall → MeshCall → Prop where
  | refuseLeave (n : Text) : Moves s (.leaving n) (.leaveReturning n false)
  | failed {c next : MeshCall} : MeshState.failed c = some next → Moves s c next
  | welcome (m : NetworkMembership) (p : PeerID) : Moves s (.welcoming m p) (.remembering m p)
  | skip (m : NetworkMembership) (p : PeerID) : Moves s (.remembering m p) (.serving m p)
  | dial (n : Text) (p : PeerID) (address : Text) : Moves s .idle (.opening p (.dial n address))
  | inquire (n : Text) (p : PeerID) (address : Text) : Moves s (.starting n p address)
      (.attempting n p address (Thalweg.meshPeerExists s.peers n p.text))
  | attempt (n : Text) (p : PeerID) (address : Text) :
      Moves s (.attempting n p address false) (.opening p (.sync n address false))
  | greet (p : PeerID) {purpose : MeshPurpose} {m : NetworkMembership} (nonce : Text) :
      s.memberships.get purpose.networkName = some m →
      Moves s (.opening p purpose) (.greeting p purpose m nonce)
  | synchronized (n : Text) (p : PeerID) (address : Text) (known : Bool) (m : NetworkMembership) :
      Moves s (.exchanging n p address known m) (.persisting p (.sync n address known))
  | unrecorded (n : Text) (p : PeerID) : Moves s (.failing n p false) (.syncReturning n p)

/-- A call goes on and writes the record of a network's peer. -/
inductive Writes : MeshCall → MeshCall → Text → PeerID → Prop where
  | remember (m : NetworkMembership) (p : PeerID) :
      Writes (.remembering m p) (.serving m p) m.name p
  | attempt (n : Text) (p : PeerID) (address : Text) :
      Writes (.attempting n p address true) (.opening p (.sync n address true)) n p
  | dial (n : Text) (p : PeerID) (address : Text) :
      Writes (.persisting p (.dial n address)) .idle n p
  | sync (n : Text) (p : PeerID) (address : Text) (known : Bool) :
      Writes (.persisting p (.sync n address known)) (.succeeding n p) n p
  | success (n : Text) (p : PeerID) : Writes (.succeeding n p) (.syncReturning n p) n p
  | failure (n : Text) (p : PeerID) : Writes (.failing n p true) (.syncReturning n p) n p

/-- A call serves its session for a network. -/
inductive Serves (m : NetworkMembership) : MeshCall → MeshCall → Prop where
  | answer (p : PeerID) : Serves m (.serving m p) (.serving m p)
  | refuse (p : PeerID) : Serves m (.serving m p) .idle
  | exchange (n : Text) (p : PeerID) (address : Text) (known : Bool) :
      Serves m (.exchanging n p address known m) (.exchanging n p address known m)

/-- What an action does. -/
inductive Effect (s : MeshState) (a : Action) : MeshState → Prop where
  | quiet : Effect s a s
  | mount (m : NetworkMembership) : s.memberships.get m.name = none →
      Effect s a ({ s with memberships := s.memberships.set m.name m }.record (.mounted m))
  | mark {call : Nat} {n : Text} : a.call = some call → s.calls call = .idle →
      n ∉ s.meshLeaving →
      (∀ key ∈ s.meshSyncing, ¬ meshPeerPrefix n <+: key) →
      Effect s a ({ s with meshLeaving := n :: s.meshLeaving }.setCall call (.leaving n))
  | unmount {call : Nat} {n : Text} : a.call = some call → s.calls call = .leaving n →
      Effect s a (({ s with memberships := s.memberships.delete n }.setCall call
        (.forgetting n)).record (.unmounted n))
  | forget {call : Nat} {n : Text} : a = .removeMeshPeersForNetwork call →
      s.calls call = .forgetting n →
      Effect s a (({ s with peers := forgetMeshPeers s.peers n }.setCall call
        (.leaveReturning n true)).record (.forgotten n))
  | unmark {call : Nat} {n : Text} {success : Bool} : a = .finishMeshNetworkLeave call →
      s.calls call = .leaveReturning n success →
      Effect s a ({ s with
        meshLeaving := s.meshLeaving.filter (· ≠ n)
        history := s.history ++ if success then [MeshEvent.left n] else [] }.setCall call .idle)
  | start {call : Nat} {n address : Text} {p : PeerID} : a.call = some call →
      s.calls call = .idle → n ∉ s.meshLeaving → meshPeerKey n p.text ∉ s.meshSyncing →
      Effect s a ({ s with meshSyncing := meshPeerKey n p.text :: s.meshSyncing }.setCall call
        (.starting n p address))
  | finish {call : Nat} {n : Text} {p : PeerID} : a.call = some call →
      s.calls call = .syncReturning n p →
      Effect s a ({ s with
        meshSyncing := s.meshSyncing.filter (· ≠ meshPeerKey n p.text) }.setCall call .idle)
  | accept {call : Nat} {n : Text} {m : NetworkMembership} (p : PeerID) : a.call = some call →
      s.calls call = .idle → s.memberships.get n = some m →
      Effect s a ((s.setCall call (.welcoming m p)).record (.authenticated m))
  | authenticate {call : Nat} {p : PeerID} {purpose : MeshPurpose} {m : NetworkMembership}
      {nonce : Text} : a.call = some call → s.calls call = .greeting p purpose m nonce →
      Effect s a ((s.setCall call (welcomed p m purpose)).record (.authenticated m))
  | move {call : Nat} {next : MeshCall} : a.call = some call → Moves s (s.calls call) next →
      Effect s a (s.setCall call next)
  | write {call : Nat} {next : MeshCall} {n : Text} {p : PeerID}
      (update : PersistedMeshPeer → PersistedMeshPeer) : a.call = some call →
      Writes (s.calls call) next n p →
      Effect s a ({ s with peers := updateMeshPeer s.peers n p.text update }.setCall call next)
  | session {call : Nat} {next : MeshCall} {m : NetworkMembership} {events : List MeshEvent} :
      a.call = some call → Serves m (s.calls call) next → (∀ e ∈ events, e.OfSession m.name) →
      Effect s a ({ s with history := s.history ++ events }.setCall call next)

theorem recordStored_eq (s : MeshState) (networkName : Text) (events : List ThalwegEvent) :
    ∃ new : List MeshEvent, (∀ e ∈ new, e.OfSession networkName) ∧
      s.recordStored networkName events = { s with history := s.history ++ new } := by
  unfold recordStored
  split_ifs
  · exact ⟨[], by simp, by simp⟩
  · exact ⟨[.stored networkName events], by simp [MeshEvent.OfSession], rfl⟩

theorem recordSent_eq (s : MeshState) (networkName : Text) (body : Option SyncBody) :
    ∃ new : List MeshEvent, (∀ e ∈ new, e.OfSession networkName) ∧
      s.recordSent networkName body = { s with history := s.history ++ new } := by
  cases body with
  | none => exact ⟨[], by simp, by simp [recordSent]⟩
  | some body => exact ⟨[.sent networkName body], by simp [MeshEvent.OfSession], rfl⟩

theorem effect_of_failed {s s' : MeshState} {a : Action} {call : Nat} (ha : a.call = some call)
    (h : (failed (s.calls call)).map (s.setCall call) = some s') : Effect s a s' := by
  obtain ⟨next, hnext, rfl⟩ := Option.map_eq_some_iff.mp h
  exact .move ha (.failed hnext)

/-- What is stored and sent in a session. -/
theorem effect_of_serves {s : MeshState} {a : Action} {call : Nat} {next : MeshCall}
    {m : NetworkMembership} (ha : a.call = some call) (h : Serves m (s.calls call) next)
    (events : List ThalwegEvent) (body : Option SyncBody) :
    Effect s a (((s.recordStored m.name events).recordSent m.name body).setCall call next) := by
  obtain ⟨stored, hstored, heq⟩ := recordStored_eq s m.name events
  obtain ⟨sent, hsent, heq'⟩ := recordSent_eq (s.recordStored m.name events) m.name body
  rw [heq', heq]
  have hevents : ∀ e ∈ stored ++ sent, e.OfSession m.name := fun e he =>
    (List.mem_append.mp he).elim (hstored e) (hsent e)
  simpa using Effect.session ha h hevents

theorem effect_of_serves_self {s : MeshState} {a : Action} {call : Nat} {m : NetworkMembership}
    (ha : a.call = some call) (h : Serves m (s.calls call) (s.calls call))
    (events : List ThalwegEvent) (body : Option SyncBody) :
    Effect s a ((s.recordStored m.name events).recordSent m.name body) := by
  have heffect := effect_of_serves ha h events body
  obtain ⟨stored, -, heq⟩ := recordStored_eq s m.name events
  obtain ⟨sent, -, heq'⟩ := recordSent_eq (s.recordStored m.name events) m.name body
  rw [heq', heq] at heffect ⊢
  simpa [setCall] using heffect

/-- What each action does. -/
theorem step_effect {s s' : MeshState} {a : Action} (h : step s a = some s') : Effect s a s' := by
  cases a with
  | create name id secret =>
    simp only [step] at h
    split at h
    · cases h
      exact .quiet
    · next hcreate =>
      cases h
      rw [Memberships.create_eq_ok hcreate]
      exact .mount _ (Memberships.get_eq_none_of_create hcreate)
  | join invitation =>
    simp only [step] at h
    split at h
    · next hjoin hdecode =>
      cases h
      obtain ⟨hfree, rfl⟩ := Memberships.eq_set_of_join hjoin hdecode
      exact .mount _ hfree
    · cases h
      exact .quiet
  | startMeshNetworkLeave call networkName =>
    simp only [step] at h
    split at h
    · next hcall =>
      split_ifs at h with hbusy
      · cases h
        exact .quiet
      · cases h
        obtain ⟨hleaving, hsyncing⟩ := not_or.mp hbusy
        exact .mark rfl hcall hleaving fun key hkey hpre => hsyncing ⟨key, hkey, hpre⟩
    · cases h
  | leave call =>
    simp only [step] at h
    split at h
    · next hcall =>
      split at h
      · cases h
        exact .move rfl (hcall ▸ .refuseLeave _)
      · next hleave =>
        cases h
        rw [Memberships.leave_eq_ok hleave]
        exact .unmount rfl hcall
    · cases h
  | removeMeshPeersForNetwork call =>
    simp only [step] at h
    split at h
    · next hcall =>
      cases h
      exact .forget rfl hcall
    · cases h
  | finishMeshNetworkLeave call =>
    simp only [step] at h
    split at h
    · next n success hcall =>
      cases h
      have heffect := Effect.unmark (s := s) rfl hcall
      cases success
      · simpa [setCall] using heffect
      · simpa [setCall, record] using heffect
    · cases h
  | handleMeshStream call initiator responderNonce line =>
    simp only [step] at h
    split at h
    · next hcall =>
      split at h
      · next hhello =>
        cases h
        exact .accept _ rfl hcall (checkMeshHello_spec (handleMeshHello_eq_some hhello)).2.1
      · cases h
        exact .quiet
    · cases h
  | writeWelcome call =>
    simp only [step] at h
    split at h
    · next hcall =>
      cases h
      exact .move rfl (hcall ▸ .welcome _ _)
    · cases h
  | rememberInboundMeshPeer call address =>
    simp only [step] at h
    split at h
    · next hcall =>
      split at h
      · cases h
        exact .write _ rfl (hcall ▸ Writes.remember _ _)
      · cases h
        exact .move rfl (hcall ▸ .skip _ _)
    · cases h
  | serveSyncRequest call fuel d request =>
    simp only [step] at h
    split at h
    · next m p hcall =>
      split at h
      · cases h
      · cases h
        exact effect_of_serves_self rfl (hcall ▸ Serves.answer p) _ (some _)
      · cases h
        exact effect_of_serves rfl (hcall ▸ .refuse p) _ none
    · cases h
  | meshDial call networkName remote address =>
    simp only [step] at h
    split at h
    · next hcall =>
      cases h
      exact .move rfl (hcall ▸ .dial _ _ _)
    · cases h
  | startMeshPeerSync call networkName remote address =>
    simp only [step] at h
    split at h
    · next hcall =>
      split_ifs at h with hbusy
      · cases h
        exact .quiet
      · cases h
        obtain ⟨hleaving, hsyncing⟩ := not_or.mp hbusy
        exact .start rfl hcall hleaving hsyncing
    · cases h
  | meshPeerExists call =>
    simp only [step] at h
    split at h
    · next hcall =>
      cases h
      exact .move rfl (hcall ▸ .inquire _ _ _)
    · cases h
  | recordAttempt call now =>
    simp only [step] at h
    split at h
    · next known hcall =>
      cases h
      cases known
      · exact .move rfl (hcall ▸ .attempt _ _ _)
      · simp only [if_true]
        exact .write _ rfl (hcall ▸ Writes.attempt _ _ _)
    · cases h
  | openAuthenticatedMeshStream call initiatorNonce =>
    simp only [step] at h
    split at h
    · next hcall =>
      split at h
      · exact effect_of_failed rfl h
      · next hget =>
        split at h
        · exact effect_of_failed rfl h
        · cases h
          exact .move rfl (hcall ▸ .greet _ _ hget)
    · cases h
  | readWelcome call line =>
    simp only [step] at h
    split at h
    · next hcall =>
      split at h
      · exact effect_of_failed rfl h
      · cases h
        exact .authenticate rfl hcall
    · cases h
  | exchange call sent stored =>
    simp only [step] at h
    split at h
    · next hcall =>
      cases h
      exact effect_of_serves_self rfl (hcall ▸ Serves.exchange _ _ _ _) _ _
    · cases h
  | synchronized call =>
    simp only [step] at h
    split at h
    · next hcall =>
      cases h
      exact .move rfl (hcall ▸ .synchronized _ _ _ _ _)
    · cases h
  | persistMeshPeer call =>
    simp only [step] at h
    split at h
    · next hcall =>
      cases h
      exact .write _ rfl (hcall ▸ .dial _ _ _)
    · next hcall =>
      cases h
      exact .write _ rfl (hcall ▸ .sync _ _ _ _)
    · cases h
  | recordSuccess call now next result =>
    simp only [step] at h
    split at h
    · next hcall =>
      cases h
      exact .write _ rfl (hcall ▸ .success _ _)
    · cases h
  | recordFailure call now next syncErr =>
    simp only [step] at h
    split at h
    · next known hcall =>
      cases h
      cases known
      · exact .move rfl (hcall ▸ .unrecorded _ _)
      · simp only [if_true]
        exact .write _ rfl (hcall ▸ Writes.failure _ _)
    · cases h
  | finishMeshPeerSync call =>
    simp only [step] at h
    split at h
    · next hcall =>
      cases h
      exact .finish rfl hcall
    · cases h
  | fail call => exact effect_of_failed rfl h

/-- Other calls stay where they are. -/
theorem calls_of_step {s s' : MeshState} {a : Action} (h : step s a = some s') {c : Nat}
    (hc : a.call ≠ some c) : s'.calls c = s.calls c := by
  have hother : ∀ {call}, a.call = some call → ∀ next,
      Function.update s.calls call next c = s.calls c := by
    rintro call ha next
    refine Function.update_of_ne ?_ next s.calls
    rintro rfl
    exact hc ha
  cases step_effect h with
  | quiet | mount => rfl
  | forget ha | unmark ha =>
    subst ha
    exact hother rfl _
  | mark ha | unmount ha | start ha | finish ha | accept _ ha | authenticate ha | move ha
  | write _ ha | session ha => exact hother ha _

end MeshState

end Thalweg
