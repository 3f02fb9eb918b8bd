import Thalweg.Daemon.Conflicts

/-!
# Durable siphons

Named cursors over the arrival index of a network: creation, polling, acknowledgement and deletion.
-/

namespace Thalweg

/-- The version of the records of siphons. -/
def durableSiphonVersion : Int := 1

/-- The most events of a delivery. -/
def durableSiphonMaxBatch : Int := 100

/-- The events of a delivery when no limit is asked for. -/
def durableSiphonDefaultBatch : Int := 25

/-- A delivery that waits for its acknowledgement. -/
structure DurableSiphonPending where
  id : Text
  cursorFrom : UInt64
  cursorThrough : UInt64
  eventKeys : List Text
  createdAt : Text
  attempts : Int
  deriving DecidableEq

/-- The state of a durable siphon. -/
structure DurableSiphonDefinition where
  version : Int
  name : Text
  network : Text
  streams : List Text
  cursor : UInt64
  createdAt : Text
  updatedAt : Text
  pending : Option DurableSiphonPending
  deriving DecidableEq

/-- What a request learns about a durable siphon. -/
structure DurableSiphonInfo where
  version : Int
  name : Text
  network : Text
  streams : List Text
  cursor : UInt64
  createdAt : Text
  updatedAt : Text
  pendingDeliveryID : Text
  pendingCount : Nat
  pendingAttempts : Int
  deriving DecidableEq

/-- A batch of events for the consumer of a durable siphon. -/
structure DurableSiphonDelivery where
  version : Int
  name : Text
  network : Text
  deliveryID : Text
  cursorFrom : UInt64
  cursorThrough : UInt64
  attempt : Int
  events : List ThalwegEvent
  deriving DecidableEq

/-- What is told of a siphon. -/
def DurableSiphonDefinition.info (definition : DurableSiphonDefinition) : DurableSiphonInfo :=
  { version := definition.version, name := definition.name, network := definition.network
    streams := definition.streams, cursor := definition.cursor
    createdAt := definition.createdAt, updatedAt := definition.updatedAt
    pendingDeliveryID := (definition.pending.map DurableSiphonPending.id).getD []
    pendingCount := ((definition.pending.map DurableSiphonPending.eventKeys).getD []).length
    pendingAttempts := (definition.pending.map DurableSiphonPending.attempts).getD 0 }

/-! ### Records -/

/-- The start of the keys of siphons. -/
def durableSiphonFamily : Text := "durable-siphon-v1:".toList

/-- The start of the keys of the durable siphons of a network; of all networks, when it is empty. -/
def durableSiphonPrefix (network : Text) : Text :=
  durableSiphonFamily ++ if network = [] then [] else encodeKeyPart network ++ [':']

/-- The key of a siphon. -/
def durableSiphonKey (network name : Text) : Text := durableSiphonPrefix network ++ encodeKeyPart name

/-- The JSON text of a pending delivery. -/
def marshalPending (pending : DurableSiphonPending) : Text :=
  Json.renderRecord [("id".toList, Json.quote pending.id),
    ("cursorFrom".toList, Text.decimal pending.cursorFrom.toNat),
    ("cursorThrough".toList, Text.decimal pending.cursorThrough.toNat),
    ("eventKeys".toList, Json.renderArray (pending.eventKeys.map Json.quote)),
    ("createdAt".toList, Json.quote pending.createdAt),
    ("attempts".toList, Text.decimalInt pending.attempts)]

/-- The record of a siphon. -/
def marshalDurableSiphon (definition : DurableSiphonDefinition) : Text :=
  Json.renderRecord ([("version".toList, Text.decimalInt definition.version),
    ("name".toList, Json.quote definition.name), ("network".toList, Json.quote definition.network),
    ("streams".toList, Json.renderArray (definition.streams.map Json.quote)),
    ("cursor".toList, Text.decimal definition.cursor.toNat),
    ("createdAt".toList, Json.quote definition.createdAt),
    ("updatedAt".toList, Json.quote definition.updatedAt)] ++
      match definition.pending with
      | some pending => [("pending".toList, marshalPending pending)]
      | none => [])

/-- The fields of a pending delivery. -/
def pendingFields : List (Text × Json.Setter DurableSiphonPending) :=
  [("id".toList, fun p _ v => (Json.decodeText p.id v).map fun x => { p with id := x }),
    ("cursorFrom".toList, fun p _ v =>
      (Json.decodeUInt64 p.cursorFrom v).map fun x => { p with cursorFrom := x }),
    ("cursorThrough".toList, fun p _ v =>
      (Json.decodeUInt64 p.cursorThrough v).map fun x => { p with cursorThrough := x }),
    ("eventKeys".toList, fun p _ v => (Json.decodeTexts v).map fun x => { p with eventKeys := x }),
    ("createdAt".toList, fun p _ v =>
      (Json.decodeText p.createdAt v).map fun x => { p with createdAt := x }),
    ("attempts".toList, fun p _ v =>
      (Json.decodeInt p.attempts v).map fun x => { p with attempts := x })]

/-- The pending delivery of a record; `null` is none. -/
def decodePending (old : Option DurableSiphonPending) : Json → Option (Option DurableSiphonPending)
  | .null => some none
  | v => (Json.decodeObject pendingFields (old.getD ⟨[], 0, 0, [], [], 0⟩) v).map some

/-- The fields of a siphon. -/
def durableSiphonFields : List (Text × Json.Setter DurableSiphonDefinition) :=
  [("version".toList, fun d _ v => (Json.decodeInt d.version v).map fun x => { d with version := x }),
    ("name".toList, fun d _ v => (Json.decodeText d.name v).map fun x => { d with name := x }),
    ("network".toList, fun d _ v =>
      (Json.decodeText d.network v).map fun x => { d with network := x }),
    ("streams".toList, fun d _ v => (Json.decodeTexts v).map fun x => { d with streams := x }),
    ("cursor".toList, fun d _ v =>
      (Json.decodeUInt64 d.cursor v).map fun x => { d with cursor := x }),
    ("createdAt".toList, fun d _ v =>
      (Json.decodeText d.createdAt v).map fun x => { d with createdAt := x }),
    ("updatedAt".toList, fun d _ v =>
      (Json.decodeText d.updatedAt v).map fun x => { d with updatedAt := x }),
    ("pending".toList, fun d _ v =>
      (decodePending d.pending v).map fun x => { d with pending := x })]

/-- The record of a durable siphon in its JSON text. -/
def decodeDurableSiphon (value : Text) : Result DurableSiphonDefinition :=
  match Json.decodeRecord false durableSiphonFields ⟨0, [], [], [], 0, [], [], none⟩ value with
  | none => .error (.wrap "decode durable siphon: %w" [] (.external "encoding/json"))
  | some definition =>
    if definition.version ≠ durableSiphonVersion then
      errorf "unsupported durable siphon version %d" [Text.decimalInt definition.version]
    else .ok definition

/-- The siphon that is stored under a name, if there is one. -/
def readDurableSiphon (store : Store) (network name : Text) :
    Result (Option DurableSiphonDefinition) :=
  match store.get (durableSiphonKey network name) with
  | none => .ok none
  | some value => (decodeDurableSiphon value).map some

/-- The store with the record of a siphon. -/
def writeDurableSiphon (store : Store) (definition : DurableSiphonDefinition) : Store :=
  store.set (durableSiphonKey definition.network definition.name) (marshalDurableSiphon definition)

/-! ### Requests -/

/-- The streams of a request without repetitions, in order. -/
def normalizeDurableStreams (streams : List Text) : Result (List Text) :=
  if streams.any fun s => decide (Text.trimSpace s = []) then
    errorf "streams must not contain empty names" []
  else .ok (sortTexts (appendUniqueStrings [] (streams.map Text.trimSpace)))

/-- A name is not blank. -/
def validateDurableSiphonName (name : Text) : Result Unit :=
  if Text.trimSpace name = [] then errorf "durable siphon name is required" []
  else if name ≠ Text.trimSpace name then
    errorf "durable siphon name must not have leading or trailing whitespace" []
  else if 128 < (Text.toBytes name).length then
    errorf "durable siphon name must be at most 128 bytes" []
  else .ok ()

/-- The event of a primary key. -/
def readEventAtKey (store : Store) (key : Text) : Result ThalwegEvent :=
  match store.get key with
  | none => errorf "event arrival index points to missing event: %s" [key]
  | some value => wrapf "decode event from arrival index: %w" [] (decodeEvent value)

/-- The events of primary keys. -/
def readEventsAtKeys (store : Store) : List Text → Result (List ThalwegEvent)
  | [] => .ok []
  | key :: keys => do
    let event ← readEventAtKey store key
    let events ← readEventsAtKeys store keys
    .ok (event :: events)

/-- The sequence number of an arrival index key. -/
def arrivalSequenceFromKey (pre key : Text) : Result UInt64 :=
  if key.length ≠ pre.length + 20 then errorf "invalid event arrival index key %q" [key]
  else
    match parseUint64 (key.drop pre.length) with
    | some sequence => .ok sequence
    | none =>
      .error (.wrap "invalid event arrival index key %q: %w" [key] (.external "strconv"))

/-- The keys of the next events that a siphon selects, at most `limit` of them after those that are
`taken`, and the sequence number up to which the index was read. -/
def selectArrivals (store : Store) (resolutions : List (Text × ThalwegEvent))
    (definition : DurableSiphonDefinition) (limit : Nat) :
    List Text → UInt64 → List (Text × Text) → Result (List Text × UInt64)
  | taken, through, [] => .ok (taken, through)
  | taken, _, entry :: entries => do
    let through ← arrivalSequenceFromKey (arrivalIndexPrefix definition.network) entry.1
    let event ← readEventAtKey store entry.2
    if isSuperseded resolutions event.id ∨
        (definition.streams ≠ [] ∧ event.stream ∉ definition.streams) then
      selectArrivals store resolutions definition limit taken through entries
    else if taken.length + 1 = limit then .ok (taken ++ [entry.2], through)
    else selectArrivals store resolutions definition limit (taken ++ [entry.2]) through entries

/-- The delivery that a siphon has pending. -/
def durableDeliveryFromDefinition (store : Store) (definition : DurableSiphonDefinition) :
    Result DurableSiphonDelivery :=
  match definition.pending with
  | none => .ok ⟨durableSiphonVersion, definition.name, definition.network, [], definition.cursor,
      definition.cursor, 0, []⟩
  | some pending => do
    let events ← readEventsAtKeys store pending.eventKeys
    .ok ⟨durableSiphonVersion, definition.name, definition.network, pending.id, pending.cursorFrom,
      pending.cursorThrough, pending.attempts, events⟩

/-- What is known about the siphons of a scan. -/
def durableSiphonInfos : List (Text × Text) → Result (List DurableSiphonInfo)
  | [] => .ok []
  | entry :: entries => do
    let definition ← decodeDurableSiphon entry.2
    let infos ← durableSiphonInfos entries
    .ok (definition.info :: infos)

/-- Select the next delivery of a siphon without a pending one; `random` is the fresh part of its
ID. -/
def prepareDurableDelivery (store : Store) (definition : DurableSiphonDefinition) (limit : Nat)
    (now random : Text) : Result (Store × DurableSiphonDefinition) := do
  let resolutions ← conflictResolutionsTxn store definition.network
  let (eventKeys, through) ← selectArrivals store resolutions definition limit [] definition.cursor
    (store.scan (arrivalIndexPrefix definition.network)
      (arrivalIndexKey definition.network (definition.cursor + 1)))
  if eventKeys = [] then
    if definition.cursor < through then
      let definition := { definition with cursor := through, updatedAt := now }
      .ok (writeDurableSiphon store definition, definition)
    else .ok (store, definition)
  else
    let definition := { definition with
      pending := some ⟨randomID "delivery" random, definition.cursor, through, eventKeys, now, 1⟩
      updatedAt := now }
    .ok (writeDurableSiphon store definition, definition)

namespace Daemon

/-- Create a siphon, or find the one that has the name and the same streams. -/
def createDurableSiphon (d : Daemon) (network name : Text) (streams : List Text) (start : Text) :
    Result DurableSiphonInfo × Daemon :=
  if (d.memberships.get network).isNone then (errorf "network %q is not mounted" [network], d)
  else
    match validateDurableSiphonName name, normalizeDurableStreams streams with
    | .error e, _ => (.error e, d)
    | .ok (), .error e => (.error e, d)
    | .ok (), .ok streams =>
      if start ≠ [] ∧ start ≠ "earliest".toList ∧ start ≠ "latest".toList then
        (errorf "start must be \"earliest\" or \"latest\"" [], d)
      else
        match readDurableSiphon d.store network name with
        | .error e => (.error e, d)
        | .ok (some existing) =>
          if existing.streams ≠ streams then
            (errorf "durable siphon %q already exists with different streams" [name], d)
          else (.ok existing.info, d)
        | .ok none =>
          match if start = "latest".toList then readArrivalSequence d.store else .ok 0 with
          | .error e => (.error e, d)
          | .ok cursor =>
            let now := d.clockNow.format
            let definition : DurableSiphonDefinition :=
              ⟨durableSiphonVersion, name, network, streams, cursor, now, now, none⟩
            (.ok definition.info, { d.tick with store := writeDurableSiphon d.store definition })

/-- The siphons of a network, or of all networks when it is empty, by network and name. -/
def listDurableSiphons (d : Daemon) (network : Text) : Result (List DurableSiphonInfo) := do
  let infos ← durableSiphonInfos (d.store.scan (durableSiphonPrefix network)
    (durableSiphonPrefix network))
  .ok (infos.insertionSort fun a b =>
    a.network < b.network ∨ a.network = b.network ∧ a.name ≤ b.name)

/-- The siphon with its next delivery pending: a delivery that was not acknowledged is repeated. -/
def pendDurableDelivery (d : Daemon) (definition : DurableSiphonDefinition) (limit : Nat)
    (random : Text) : Result (Store × DurableSiphonDefinition) :=
  match definition.pending with
  | none => prepareDurableDelivery d.store definition limit d.clockNow.format random
  | some pending =>
    let definition := { definition with
      -- the count is a signed 64-bit number
      pending := some { pending with attempts := (pending.attempts + 1).bmod (2 ^ 64) }
      updatedAt := d.clockNow.format }
    .ok (writeDurableSiphon d.store definition, definition)

/-- The pending delivery of a siphon, or a new one of the events after its cursor. -/
def pollDurableSiphon (d : Daemon) (network name : Text) (limit : Int) (random : Text) :
    Result DurableSiphonDelivery × Daemon :=
  let limit := if limit = 0 then durableSiphonDefaultBatch else limit
  if limit < 1 ∨ durableSiphonMaxBatch < limit then
    (errorf "limit must be between 1 and %d" [Text.decimal durableSiphonMaxBatch.toNat], d)
  else
    match readDurableSiphon d.store network name with
    | .error e => (.error e, d)
    | .ok none => (errorf "durable siphon %q is not registered in network %q" [name, network], d)
    | .ok (some definition) =>
      match d.pendDurableDelivery definition limit.toNat random with
      | .error e => (.error e, d.tick)
      | .ok (store, definition) =>
        match durableDeliveryFromDefinition store definition with
        | .error e => (.error e, d.tick)
        | .ok delivery => (.ok delivery, { d.tick with store })

/-- Poll until there is a delivery, once more at each of the `wakes`; `closed` tells that the daemon
is closed while it waits for the last one. Random parts of delivery IDs are arguments. -/
def awaitDurableDelivery (network name : Text) (limit : Int) (closed : Bool) :
    List Text → Text → Daemon → Result DurableSiphonDelivery × Daemon
  | wakes, random, d =>
    match d.pollDurableSiphon network name limit random with
    | (.error e, d) => (.error e, d)
    | (.ok delivery, d) =>
      if delivery.deliveryID ≠ [] then (.ok delivery, d)
      else
        match wakes with
        | [] => if closed then (.error (.external "context"), d) else (.ok delivery, d)
        | random :: wakes => awaitDurableDelivery network name limit closed wakes random d

/-- Poll a siphon, again after each wake until there is a delivery or the wait is over. -/
def waitForDurableSiphon (d : Daemon) (network name : Text) (limit wait : Int) (random : Text)
    (closed : Bool) (wakes : List Text) : Result DurableSiphonDelivery × Daemon :=
  if wait ≤ 0 then d.pollDurableSiphon network name limit random
  else awaitDurableDelivery network name limit closed wakes random d

/-- Move the cursor of a siphon to the end of its pending delivery. -/
def acknowledgeDurableSiphon (d : Daemon) (network name deliveryID : Text) :
    Result DurableSiphonInfo × Daemon :=
  if Text.trimSpace deliveryID = [] then (errorf "delivery ID is required" [], d)
  else
    match readDurableSiphon d.store network name with
    | .error e => (.error e, d)
    | .ok none => (errorf "durable siphon %q is not registered in network %q" [name, network], d)
    | .ok (some definition) =>
      match definition.pending with
      | none => (errorf "durable siphon %q has no pending delivery" [name], d)
      | some pending =>
        if pending.id ≠ deliveryID then
          (errorf "delivery ID does not match the pending delivery" [], d)
        else
          let definition := { definition with
            cursor := pending.cursorThrough, pending := none, updatedAt := d.clockNow.format }
          (.ok definition.info, { d.tick with store := writeDurableSiphon d.store definition })

/-- Delete the record of a siphon. -/
def deleteDurableSiphon (d : Daemon) (network name : Text) : Result Unit × Daemon :=
  match readDurableSiphon d.store network name with
  | .error e => (.error e, d)
  | .ok none => (.ok (), d)
  | .ok (some _) => (.ok (), { d with store := d.store.delete (durableSiphonKey network name) })

end Daemon

end Thalweg
