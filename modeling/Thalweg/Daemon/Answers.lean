import Thalweg.Data.Json.Encoded
import Thalweg.Daemon.MeshPeers
import Thalweg.Daemon.PublicSiphons

/-!
# What clients are answered

The requests of clients about events, conflicts, durable siphons and mesh peers, the results that
they are answered with, and what is encoded for a result. A slice is nil until an item is appended
to it, and a nil slice is encoded as `null`; an empty one that `make` built is an empty array.

* `MeshState.listMeshPeers`
* `ClientAnswered`: the results of the requests.
* `ClientAnswer.marshalable`: what is encoded for a result.
-/

namespace Thalweg

open Json (Marshalable)

/-! ### The list of mesh peers -/

/-- What clients are told of a known peer; the texts are empty where there is nothing to tell. -/
structure MeshPeerStatus where
  network : NetworkMembershipInfo
  peerID : Text
  address : Text
  state : Text
  connected : Bool
  lastAttemptAt : Text
  lastSuccessAt : Text
  lastError : Text
  nextAttemptAt : Text
  consecutiveFailures : Int
  lastResult : Option SyncResult

/-- What the host of the connections knows: which texts are IDs of peers, the peer of an address,
and to which peers it is connected. -/
structure MeshHost where
  decodes : Text → Bool
  peerOfAddress : Text → Option Text
  connected : Text → Bool

namespace MeshState

/-- The records of the peers; one without a peer takes it from its address. -/
def loadMeshPeers (s : MeshState) (host : MeshHost) : List PersistedMeshPeer :=
  (s.peers.scan meshPeerFamily meshPeerFamily).map fun entry =>
    if entry.2.peerID = [] ∧ entry.2.address ≠ [] then
      { entry.2 with peerID := (host.peerOfAddress entry.2.address).getD [] }
    else entry.2

/-- The state of a peer, by its record. -/
def peerState (s : MeshState) (record : PersistedMeshPeer) (connected : Bool) : Text :=
  if meshPeerKey record.network record.peerID ∈ s.meshSyncing then "syncing".toList
  else if record.lastError ≠ [] then "degraded".toList
  else if record.lastSuccessAt ≠ [] then "healthy".toList
  else if connected then "connected".toList
  else "known".toList

/-- What is listed for a record: nothing if its network is not mounted or its peer has no ID. -/
def meshPeerStatus (s : MeshState) (host : MeshHost) (record : PersistedMeshPeer) :
    Option MeshPeerStatus :=
  (s.memberships.get record.network).bind fun membership =>
    if host.decodes record.peerID then
      some {
        network := membership.info
        peerID := record.peerID
        address := record.address
        state := s.peerState record (host.connected record.peerID)
        connected := host.connected record.peerID
        lastAttemptAt := record.lastAttemptAt
        lastSuccessAt := record.lastSuccessAt
        lastError := record.lastError
        nextAttemptAt := record.nextAttemptAt
        consecutiveFailures := record.consecutiveFailures
        lastResult := record.lastResult }
    else none

/-- The peers of a network, or of all networks, by network and peer. -/
def listMeshPeers (s : MeshState) (host : MeshHost) (networkName : Text) :
    Result (List MeshPeerStatus) :=
  if networkName ≠ [] ∧ (s.memberships.get networkName).isNone then
    errorf "network %q is not mounted" [networkName]
  else
    let records := (s.loadMeshPeers host).filter fun record =>
      networkName = [] ∨ record.network = networkName
    .ok ((records.filterMap (s.meshPeerStatus host)).insertionSort fun a b =>
      a.network.name < b.network.name ∨ a.network.name = b.network.name ∧ a.peerID ≤ b.peerID)

end MeshState

/-! ### Requests and results -/

/-- A request of a client. The random parts of IDs are arguments. -/
inductive ClientRequest where
  | durableSiphon (request : PublicSiphonRequest)
  | eventIngest (network stream occurredAt eventID payload random : Text)
  | eventQuery (network : Text) (streams : List Text) (from' to' : Text) (limit : Int)
      (order : Text)
  | eventConflictList (network : Text)
  | eventConflictResolve (network eventID strategy random : Text)
  | meshSync (targetAddr network : Text)
  | meshPeerList (network : Text)

/-- The result of a request. -/
inductive ClientAnswer where
  | durableSiphon (answer : PublicSiphonAnswer)
  | event (event : ThalwegEvent)
  | events (events : List ThalwegEvent)
  | conflicts (conflicts : List EventConflictInfo)
  | resolution (result : EventConflictResolutionResult)
  | sync (result : SyncResult)
  | meshPeers (peers : List MeshPeerStatus)

/-- The result of a request that succeeds. What a synchronization counts is up to its peer, so any
result may answer it. -/
inductive ClientAnswered (d : Daemon) (s : MeshState) (host : MeshHost) :
    ClientRequest → ClientAnswer → Prop where
  | durableSiphon {request : PublicSiphonRequest} {answer : PublicSiphonAnswer}
    (h : (d.handlePublicSiphon request).1 = .ok answer) :
    ClientAnswered d s host (.durableSiphon request) (.durableSiphon answer)
  | eventIngest {network stream occurredAt eventID payload random : Text} {event : ThalwegEvent}
    (h : (d.ingest network stream occurredAt eventID payload random).1 = .ok event) :
    ClientAnswered d s host (.eventIngest network stream occurredAt eventID payload random)
      (.event event)
  | eventQuery {network : Text} {streams : List Text} {from' to' : Text} {limit : Int}
    {order : Text} {events : List ThalwegEvent}
    (h : d.queryOrdered network streams from' to' limit order = .ok events) :
    ClientAnswered d s host (.eventQuery network streams from' to' limit order) (.events events)
  | eventConflictList {network : Text} {conflicts : List EventConflictInfo}
    (h : d.listEventConflicts network = .ok conflicts) :
    ClientAnswered d s host (.eventConflictList network) (.conflicts conflicts)
  | eventConflictResolve {network eventID strategy random : Text} {fuel : Nat} {d' : Daemon}
    {result : EventConflictResolutionResult}
    (h : d.resolveEventConflict fuel network eventID strategy random = some (.ok result, d')) :
    ClientAnswered d s host (.eventConflictResolve network eventID strategy random)
      (.resolution result)
  | meshSync {targetAddr network : Text} (result : SyncResult) :
    ClientAnswered d s host (.meshSync targetAddr network) (.sync result)
  | meshPeerList {network : Text} {peers : List MeshPeerStatus}
    (h : s.listMeshPeers host network = .ok peers) :
    ClientAnswered d s host (.meshPeerList network) (.meshPeers peers)

/-! ### Encodings -/

/-- The fields of a record with what is encoded for them; a field without a value is left out. -/
abbrev Fields := List (Text × Option Marshalable)

/-- The fields that have a value. -/
def present : Fields → List (Text × Marshalable)
  | [] => []
  | (name, some value) :: fields => (name, value) :: present fields
  | (_, none) :: fields => present fields

/-- A record is an object of the fields that have a value. -/
def marshalableRecord (fields : Fields) : Marshalable := .obj (present fields)

/-- An integer in decimal. -/
def marshalableInt (n : Int) : Marshalable := .num (Text.decimalInt n)

/-- A natural number in decimal. -/
def marshalableNat (n : Nat) : Marshalable := .num (Text.decimal n)

/-- A slice that is not nil. -/
def marshalableTexts (values : List Text) : Marshalable := .arr (values.map .str)

/-- A slice to which the values were appended one by one, from a nil one. -/
def appendedTexts (values : List Text) : Marshalable :=
  if values = [] then .null else marshalableTexts values

/-- A text that is left out if it is empty. -/
def omitempty (value : Text) : Option Marshalable :=
  if value = [] then none else some (.str value)

/-- A slice that is left out if it is empty. -/
def omitemptyTexts (values : List Text) : Option Marshalable :=
  if values = [] then none else some (marshalableTexts values)

/-- The fields of an event; an empty payload is null. -/
def ThalwegEvent.fields (event : ThalwegEvent) : Fields :=
  [("id".toList, some (.str event.id)), ("network".toList, some (.str event.network)),
    ("stream".toList, some (.str event.stream)),
    ("occurredAt".toList, some (.str event.occurredAt)),
    ("insertedAt".toList, some (.str event.insertedAt)),
    ("propagatedAt".toList, some (.str event.propagatedAt)),
    ("counter".toList, some (marshalableNat event.counter.toNat)),
    ("deviceId".toList, some (.str event.deviceID)),
    ("payload".toList, some (.raw (payloadOrNull event.payload)))]

/-- What is encoded for an event. -/
def ThalwegEvent.marshalable (event : ThalwegEvent) : Marshalable := marshalableRecord event.fields

/-- The fields of a durable siphon; its streams were appended one by one. -/
def DurableSiphonInfo.fields (info : DurableSiphonInfo) : Fields :=
  [("version".toList, some (marshalableInt info.version)), ("name".toList, some (.str info.name)),
    ("network".toList, some (.str info.network)),
    ("streams".toList, some (appendedTexts info.streams)),
    ("cursor".toList, some (marshalableNat info.cursor.toNat)),
    ("createdAt".toList, some (.str info.createdAt)),
    ("updatedAt".toList, some (.str info.updatedAt)),
    ("pendingDeliveryId".toList, omitempty info.pendingDeliveryID),
    ("pendingCount".toList, some (marshalableNat info.pendingCount)),
    ("pendingAttempts".toList, some (marshalableInt info.pendingAttempts))]

/-- What is encoded for a durable siphon. -/
def DurableSiphonInfo.marshalable (info : DurableSiphonInfo) : Marshalable :=
  marshalableRecord info.fields

/-- The fields of a delivery; its events are a slice that is not nil. -/
def DurableSiphonDelivery.fields (delivery : DurableSiphonDelivery) : Fields :=
  [("version".toList, some (marshalableInt delivery.version)),
    ("name".toList, some (.str delivery.name)), ("network".toList, some (.str delivery.network)),
    ("deliveryId".toList, omitempty delivery.deliveryID),
    ("cursorFrom".toList, some (marshalableNat delivery.cursorFrom.toNat)),
    ("cursorThrough".toList, some (marshalableNat delivery.cursorThrough.toNat)),
    ("attempt".toList, some (marshalableInt delivery.attempt)),
    ("events".toList, some (.arr (delivery.events.map ThalwegEvent.marshalable)))]

/-- What is encoded for a delivery. -/
def DurableSiphonDelivery.marshalable (delivery : DurableSiphonDelivery) : Marshalable :=
  marshalableRecord delivery.fields

/-- The fields of a conflict; the digests of its variants were appended one by one. -/
def EventConflictInfo.fields (info : EventConflictInfo) : Fields :=
  [("network".toList, some (.str info.network)), ("eventId".toList, some (.str info.eventID)),
    ("localDigest".toList, some (.str info.localDigest)),
    ("remoteDigests".toList, some (appendedTexts info.remoteDigests)),
    ("firstObservedAt".toList, some (.str info.firstObservedAt)),
    ("resolved".toList, some (.bool info.resolved)),
    ("resolutionEventIds".toList, omitemptyTexts info.resolutionEventIDs),
    ("recoveredEventId".toList, omitempty info.recoveredEventID)]

/-- What is encoded for a conflict. -/
def EventConflictInfo.marshalable (info : EventConflictInfo) : Marshalable :=
  marshalableRecord info.fields

/-- The fields of a resolution, with the two events. -/
def EventConflictResolutionResult.fields (result : EventConflictResolutionResult) : Fields :=
  [("network".toList, some (.str result.network)), ("eventId".toList, some (.str result.eventID)),
    ("strategy".toList, some (.str result.strategy)),
    ("resolutionEvent".toList, some result.resolutionEvent.marshalable),
    ("recoveredEvent".toList, some result.recoveredEvent.marshalable),
    ("alreadyResolved".toList, some (.bool result.alreadyResolved))]

/-- What is encoded for a resolution. -/
def EventConflictResolutionResult.marshalable (result : EventConflictResolutionResult) :
    Marshalable := marshalableRecord result.fields

/-- The fields of a membership that clients are told. -/
def NetworkMembershipInfo.fields (info : NetworkMembershipInfo) : Fields :=
  [("name".toList, some (.str info.name)), ("id".toList, some (.str info.id))]

/-- What is encoded for a membership. -/
def NetworkMembershipInfo.marshalable (info : NetworkMembershipInfo) : Marshalable :=
  marshalableRecord info.fields

/-- The fields of a synchronization; no conflicts are left out. -/
def SyncResult.fields (result : SyncResult) : Fields :=
  [("peerId".toList, some (.str result.peerID)),
    ("network".toList, some result.network.marshalable),
    ("inventoried".toList, some (marshalableNat result.inventoried)),
    ("pushed".toList, some (marshalableNat result.pushed)),
    ("pulled".toList, some (marshalableNat result.pulled)),
    ("duplicates".toList, some (marshalableNat result.duplicates)),
    ("conflicts".toList, omitemptyTexts result.conflicts)]

/-- What is encoded for a synchronization. -/
def SyncResult.marshalable (result : SyncResult) : Marshalable := marshalableRecord result.fields

/-- The fields of a known peer; empty texts and a missing result are left out. -/
def MeshPeerStatus.fields (status : MeshPeerStatus) : Fields :=
  [("network".toList, some status.network.marshalable),
    ("peerId".toList, some (.str status.peerID)),
    ("address".toList, some (.str status.address)), ("state".toList, some (.str status.state)),
    ("connected".toList, some (.bool status.connected)),
    ("lastAttemptAt".toList, omitempty status.lastAttemptAt),
    ("lastSuccessAt".toList, omitempty status.lastSuccessAt),
    ("lastError".toList, omitempty status.lastError),
    ("nextAttemptAt".toList, omitempty status.nextAttemptAt),
    ("consecutiveFailures".toList, some (marshalableInt status.consecutiveFailures)),
    ("lastResult".toList, status.lastResult.map SyncResult.marshalable)]

/-- What is encoded for a known peer. -/
def MeshPeerStatus.marshalable (status : MeshPeerStatus) : Marshalable :=
  marshalableRecord status.fields

/-- What is encoded for an answer; lists of records are never nil. -/
def ClientAnswer.marshalable : ClientAnswer → Marshalable
  | .durableSiphon (.info info) => info.marshalable
  | .durableSiphon (.infos infos) => .arr (infos.map DurableSiphonInfo.marshalable)
  | .durableSiphon (.delivery delivery) => delivery.marshalable
  | .event e => e.marshalable
  | .events es => .arr (es.map ThalwegEvent.marshalable)
  | .conflicts infos => .arr (infos.map EventConflictInfo.marshalable)
  | .resolution result => result.marshalable
  | .sync result => result.marshalable
  | .meshPeers statuses => .arr (statuses.map MeshPeerStatus.marshalable)

/-! ### Slices that stay nil -/

theorem mem_sortTexts {s : Text} {texts : List Text} : s ∈ sortTexts texts ↔ s ∈ texts :=
  (List.perm_insertionSort _ texts).mem_iff

theorem eq_nil_of_mem_iff {α : Type*} {l l' : List α} (h : ∀ a, a ∈ l ↔ a ∈ l') :
    l = [] ↔ l' = [] := by
  simp only [List.eq_nil_iff_forall_not_mem, h]

theorem sortTexts_eq_nil {texts : List Text} : sortTexts texts = [] ↔ texts = [] :=
  eq_nil_of_mem_iff fun _ => mem_sortTexts

theorem normalizeDurableStreams_eq_nil {streams normalized : List Text}
    (h : normalizeDurableStreams streams = .ok normalized) : normalized = [] ↔ streams = [] := by
  unfold normalizeDurableStreams at h
  split_ifs at h
  · cases h
  · obtain rfl := Except.ok.inj h
    have hnames : appendUniqueStrings [] (streams.map Text.trimSpace) = [] ↔
        streams.map Text.trimSpace = [] :=
      eq_nil_of_mem_iff fun s => mem_appendUniqueStrings.trans (by simp)
    rw [sortTexts_eq_nil, hnames, List.map_eq_nil_iff]

namespace Daemon

variable {d : Daemon} {network name : Text} {info : DurableSiphonInfo}

/-- A siphon that is created or found has streams if the request names any. -/
theorem streams_createDurableSiphon {streams : List Text} {start : Text}
    (h : (d.createDurableSiphon network name streams start).1 = .ok info) :
    info.streams = [] ↔ streams = [] := by
  unfold createDurableSiphon at h
  split at h
  · cases h
  split at h
  · cases h
  · cases h
  next normalized _ hstreams =>
  rw [← normalizeDurableStreams_eq_nil hstreams]
  split at h
  · cases h
  split at h
  · cases h
  · next existing _ =>
    split at h
    · cases h
    · next hsame =>
      obtain rfl := Except.ok.inj h
      exact not_not.mp hsame ▸ Iff.rfl
  · split at h
    · cases h
    · obtain rfl := Except.ok.inj h
      exact Iff.rfl

theorem exists_acknowledgeDurableSiphon {deliveryID : Text}
    (h : (d.acknowledgeDurableSiphon network name deliveryID).1 = .ok info) :
    ∃ definition, readDurableSiphon d.store network name = .ok (some definition) ∧
      info.streams = definition.streams := by
  unfold acknowledgeDurableSiphon at h
  split at h
  · cases h
  split at h
  · cases h
  · cases h
  next definition hread =>
  split at h
  · cases h
  split at h
  · cases h
  · obtain rfl := Except.ok.inj h
    exact ⟨definition, hread, rfl⟩

end Daemon

theorem forall₂_durableSiphonInfos {entries : List (Text × Text)} {infos : List DurableSiphonInfo}
    (h : durableSiphonInfos entries = .ok infos) :
    List.Forall₂ (fun entry info => ∃ definition, decodeDurableSiphon entry.2 = .ok definition ∧
      info = definition.info) entries infos := by
  induction entries generalizing infos with
  | nil =>
    obtain rfl := Except.ok.inj h
    exact .nil
  | cons entry entries ih =>
    rw [durableSiphonInfos] at h
    obtain ⟨definition, hdecode, h⟩ := bind_eq_ok_iff.mp h
    obtain ⟨rest, hrest, h⟩ := bind_eq_ok_iff.mp h
    obtain rfl := Except.ok.inj h
    exact .cons ⟨definition, hdecode, rfl⟩ (ih hrest)

/-- The siphons that are listed name streams if the records do that are not reserved. -/
theorem forall_streams_durableSiphonInfos {entries : List (Text × Text)}
    {infos : List DurableSiphonInfo} (h : durableSiphonInfos entries = .ok infos) :
    (∀ info ∈ infos, registryReservedPrefix.isPrefixOf info.name = false → info.streams ≠ []) ↔
      ∀ entry ∈ entries, ∀ definition, decodeDurableSiphon entry.2 = .ok definition →
        ¬ registryReservedPrefix <+: definition.name → definition.streams ≠ [] := by
  have hall := forall₂_durableSiphonInfos h
  clear h
  induction hall with
  | nil => simp
  | @cons entry info entries infos hfirst _ ih =>
    obtain ⟨definition, hdecode, rfl⟩ := hfirst
    have hname : registryReservedPrefix.isPrefixOf definition.info.name = false ↔
        ¬ registryReservedPrefix <+: definition.name := by
      rw [← List.isPrefixOf_iff_prefix, Bool.not_eq_true]
      exact Iff.rfl
    rw [List.forall_mem_cons, List.forall_mem_cons, hdecode, hname]
    refine and_congr ⟨fun h definition' heq => ?_, fun h => h definition rfl⟩ ih
    obtain rfl := Except.ok.inj heq
    exact h

theorem streams_handlePublicSiphon_list {d : Daemon} {network : Text} {answer : PublicSiphonAnswer}
    (h : (d.handlePublicSiphon (.durableSiphonList network)).1 = .ok answer) :
    ∃ infos, answer = .infos infos ∧ ((∀ info ∈ infos, info.streams ≠ []) ↔
      ∀ entry ∈ d.store.scan (durableSiphonPrefix network) (durableSiphonPrefix network),
        ∀ definition, decodeDurableSiphon entry.2 = .ok definition →
          ¬ registryReservedPrefix <+: definition.name → definition.streams ≠ []) := by
  obtain ⟨sorted, hsorted, rfl⟩ := exists_of_map_eq_ok h
  unfold Daemon.listDurableSiphons at hsorted
  obtain ⟨infos, hinfos, hsorted⟩ := bind_eq_ok_iff.mp hsorted
  obtain rfl := Except.ok.inj hsorted
  refine ⟨_, rfl, ?_⟩
  rw [← forall_streams_durableSiphonInfos hinfos]
  simp only [List.mem_filter, (List.perm_insertionSort _ infos).mem_iff, Bool.not_eq_true',
    and_imp]

/-! ### Conflicts without an observation -/

/-- An observation names the event ID. -/
def Observed (store : Store) (networkName eventID : Text) : Prop :=
  ∃ entry ∈ store.scan (conflictObservationPrefix networkName [])
      (conflictObservationPrefix networkName []),
    ∃ observation, Json.decodeRecord false observationFields ⟨0, [], [], [], [], []⟩ entry.2 =
      some observation ∧ observation.eventID = eventID

theorem remoteDigests_observe_ne_nil (entry : EventConflictInfo)
    (observation : ConflictObservation) : (entry.observe observation).remoteDigests ≠ [] :=
  List.ne_nil_of_mem (mem_appendUniqueStrings.mpr (Or.inr (List.mem_singleton.mpr rfl)))

/-- Every conflict that is entered has a remote digest. -/
theorem remoteDigests_groupObservation_ne_nil {networkName : Text}
    (observation : ConflictObservation) {entries : List EventConflictInfo}
    (h : ∀ entry ∈ entries, entry.remoteDigests ≠ []) :
    ∀ entry ∈ groupObservation networkName observation entries, entry.remoteDigests ≠ [] := by
  induction entries with
  | nil => exact List.forall_mem_singleton.mpr (remoteDigests_observe_ne_nil _ _)
  | cons first entries ih =>
    obtain ⟨hfirst, hentries⟩ := List.forall_mem_cons.mp h
    rw [groupObservation]
    split_ifs
    · exact List.forall_mem_cons.mpr ⟨remoteDigests_observe_ne_nil _ _, hentries⟩
    · exact List.forall_mem_cons.mpr ⟨hfirst, ih hentries⟩

theorem exists_mem_groupObservation {networkName eventID : Text} {observation : ConflictObservation}
    {entries : List EventConflictInfo} :
    (∃ entry ∈ groupObservation networkName observation entries, entry.eventID = eventID) ↔
      observation.eventID = eventID ∨ ∃ entry ∈ entries, entry.eventID = eventID := by
  induction entries with
  | nil => simp [groupObservation, EventConflictInfo.observe]
  | cons first entries ih =>
    rw [groupObservation]
    split_ifs with hfirst
    · simp [EventConflictInfo.observe, hfirst]
    · rw [List.exists_mem_cons_iff, ih, List.exists_mem_cons_iff]
      exact or_left_comm

theorem groupObservations_spec {networkName : Text} {entries : List (Text × Text)}
    {grouped grouped' : List EventConflictInfo}
    (h : groupObservations networkName grouped entries = .ok grouped')
    (hne : ∀ entry ∈ grouped, entry.remoteDigests ≠ []) :
    (∀ entry ∈ grouped', entry.remoteDigests ≠ []) ∧
      ∀ eventID, (∃ entry ∈ grouped', entry.eventID = eventID) ↔
        (∃ entry ∈ grouped, entry.eventID = eventID) ∨ ∃ entry ∈ entries, ∃ observation,
          Json.decodeRecord false observationFields ⟨0, [], [], [], [], []⟩ entry.2 =
            some observation ∧ observation.eventID = eventID := by
  induction entries generalizing grouped with
  | nil =>
    obtain rfl := Except.ok.inj h
    exact ⟨hne, fun eventID => by simp⟩
  | cons first entries ih =>
    rw [groupObservations] at h
    split at h
    · cases h
    next observation hdecode =>
    split_ifs at h
    · cases h
    obtain ⟨hne', hids⟩ := ih h (remoteDigests_groupObservation_ne_nil observation hne)
    refine ⟨hne', fun eventID => ?_⟩
    rw [hids, exists_mem_groupObservation, List.exists_mem_cons_iff, hdecode]
    simp only [Option.some.injEq, exists_eq_left']
    rw [or_assoc, or_left_comm]

theorem unobservedConflicts_spec {store : Store} {networkName : Text}
    {resolutions : List (Text × ThalwegEvent)} {eventIDs : List Text}
    {entries : List EventConflictInfo}
    (h : unobservedConflicts store networkName resolutions eventIDs = .ok entries) :
    (entries = [] ↔ eventIDs = []) ∧ ∀ entry ∈ entries, entry.remoteDigests = [] := by
  induction eventIDs generalizing entries with
  | nil =>
    obtain rfl := Except.ok.inj h
    exact ⟨iff_of_true rfl rfl, List.forall_mem_nil _⟩
  | cons eventID eventIDs ih =>
    rw [unobservedConflicts] at h
    obtain ⟨digest, -, h⟩ := bind_eq_ok_iff.mp h
    obtain ⟨rest, hrest, h⟩ := bind_eq_ok_iff.mp h
    obtain rfl := Except.ok.inj h
    exact ⟨iff_of_false (List.cons_ne_nil _ _) (List.cons_ne_nil _ _),
      List.forall_mem_cons.mpr ⟨rfl, (ih hrest).2⟩⟩

theorem forall₂_withResolutions {store : Store} {networkName : Text}
    {resolutions : List (Text × ThalwegEvent)} {entries entries' : List EventConflictInfo}
    (h : withResolutions store networkName resolutions entries = .ok entries') :
    List.Forall₂ (fun entry entry' => entry'.remoteDigests = sortTexts entry.remoteDigests)
      entries entries' := by
  induction entries generalizing entries' with
  | nil =>
    obtain rfl := Except.ok.inj h
    exact .nil
  | cons entry entries ih =>
    rw [withResolutions] at h
    obtain ⟨rest, hrest, h⟩ := bind_eq_ok_iff.mp h
    split_ifs at h
    · obtain ⟨digest, -, h⟩ := bind_eq_ok_iff.mp h
      obtain rfl := Except.ok.inj h
      exact .cons rfl (ih hrest)
    · obtain rfl := Except.ok.inj h
      exact .cons rfl (ih hrest)

theorem forall_ne_nil_of_forall₂ {entries entries' : List EventConflictInfo}
    (h : List.Forall₂ (fun entry entry' => entry'.remoteDigests = sortTexts entry.remoteDigests)
      entries entries') :
    (∀ entry ∈ entries', entry.remoteDigests ≠ []) ↔
      ∀ entry ∈ entries, entry.remoteDigests ≠ [] := by
  induction h with
  | nil => exact Iff.rfl
  | cons hfirst _ ih =>
    rw [List.forall_mem_cons, List.forall_mem_cons, ih, hfirst, ne_eq, sortTexts_eq_nil]

/-- Every conflict of a list has a remote digest if every resolution is of an observed one. -/
theorem remoteDigests_listEventConflicts {d : Daemon} {networkName : Text}
    {infos : List EventConflictInfo} (h : d.listEventConflicts networkName = .ok infos) :
    ∃ resolutions, conflictResolutionsTxn d.store networkName = .ok resolutions ∧
      ((∀ info ∈ infos, info.remoteDigests ≠ []) ↔
        ∀ r ∈ resolutions, Observed d.store networkName r.1) := by
  unfold Daemon.listEventConflicts at h
  split_ifs at h
  · cases h
  obtain ⟨resolutions, hresolutions, h⟩ := bind_eq_ok_iff.mp h
  obtain ⟨grouped, hgrouped, h⟩ := bind_eq_ok_iff.mp h
  obtain ⟨unobserved, hunobserved, h⟩ := bind_eq_ok_iff.mp h
  obtain ⟨entries, hentries, h⟩ := bind_eq_ok_iff.mp h
  obtain rfl := Except.ok.inj h
  obtain ⟨hne, hids⟩ := groupObservations_spec hgrouped (List.forall_mem_nil _)
  obtain ⟨hempty, hnil⟩ := unobservedConflicts_spec hunobserved
  refine ⟨resolutions, hresolutions, ?_⟩
  have hsorted : (∀ info ∈ entries.insertionSort fun a b => a.eventID ≤ b.eventID,
      info.remoteDigests ≠ []) ↔ ∀ info ∈ grouped ++ unobserved, info.remoteDigests ≠ [] := by
    simp only [(List.perm_insertionSort _ entries).mem_iff]
    exact forall_ne_nil_of_forall₂ (forall₂_withResolutions hentries)
  have hall : (∀ info ∈ grouped ++ unobserved, info.remoteDigests ≠ []) ↔ unobserved = [] := by
    constructor
    · intro h
      exact List.eq_nil_iff_forall_not_mem.mpr fun entry hentry =>
        h entry (List.mem_append_right _ hentry) (hnil entry hentry)
    · rintro rfl
      simpa using hne
  have hgroup : ∀ eventID, (grouped.any fun entry => decide (entry.eventID = eventID)) = true ↔
      Observed d.store networkName eventID := by
    intro eventID
    rw [List.any_eq_true]
    simp only [decide_eq_true_eq]
    exact (hids eventID).trans (or_iff_right (by simp))
  rw [hsorted, hall, hempty, List.filter_eq_nil_iff]
  simp only [resolvedEventIDs, mem_appendUniqueStrings, List.not_mem_nil, false_or,
    List.forall_mem_map, Bool.not_eq_true', Bool.not_eq_false, hgroup]

/-! ### Strategies -/

theorem strategy_finishResolution {fuel : Nat} {d d' : Daemon} {networkName eventID : Text}
    {r : ThalwegEvent} {again : Bool} {result : EventConflictResolutionResult}
    (h : d.finishResolution fuel networkName eventID r again = some (.ok result, d')) :
    result.strategy = conflictResolutionStrategy := by
  unfold Daemon.finishResolution at h
  split at h
  · cases h
  · cases h
  · cases h
    rfl

/-- A conflict is resolved by the strategy of the code. -/
theorem strategy_resolveEventConflict {fuel : Nat} {d d' : Daemon}
    {networkName eventID strategy random : Text} {result : EventConflictResolutionResult}
    (h : d.resolveEventConflict fuel networkName eventID strategy random =
      some (.ok result, d')) :
    result.strategy = conflictResolutionStrategy := by
  unfold Daemon.resolveEventConflict at h
  split_ifs at h
  · cases h
  · cases h
  split at h
  · cases h
  unfold Daemon.resolveObserved at h
  split_ifs at h
  · cases h
  split at h
  · cases h
  · cases h
  split at h
  · cases h
  split at h
  · exact strategy_finishResolution h
  split at h
  · cases h
  · exact strategy_finishResolution h

end Thalweg
