import Mathlib.Data.List.Sort
import Thalweg.Daemon.Index

/-!
# The storage schema

`ensureStorageSchema` brings a database to the current schema, one migration and one transaction at
a time; an error of a migration leaves the ones before it in place.
-/

namespace Thalweg

/-- The schema that the daemon works with. -/
def currentStorageSchemaVersion : Int := 4

/-- The key of the mark of the schema. -/
def storageSchemaVersionKey : Text := "meta:storage-schema-version".toList

/-- A signed 64-bit number in decimal. -/
def parseInt64 : Text → Option Int
  | '-' :: digits =>
    match Text.parseDecimal digits with
    | some n => if n ≤ 2 ^ 63 then some (-(n : Int)) else none
    | none => none
  | '+' :: digits =>
    match Text.parseDecimal digits with
    | some n => if n < 2 ^ 63 then some (n : Int) else none
    | none => none
  | digits =>
    match Text.parseDecimal digits with
    | some n => if n < 2 ^ 63 then some (n : Int) else none
    | none => none

/-- The stored schema version, if there is one. -/
def readStorageSchemaVersion (store : Store) : Result (Option Int) :=
  match store.get storageSchemaVersionKey with
  | none => .ok none
  | some value =>
    match parseInt64 value with
    | some version => .ok (some version)
    | none => .error (.wrap "read storage schema version: %w" []
        (.wrap "invalid storage schema version %q: %w" [value] (.external "strconv")))

/-- The store with the mark of a schema. -/
def writeStorageSchemaVersion (store : Store) (version : Nat) : Store :=
  store.set storageSchemaVersionKey (Text.decimal version)

/-- The start of the keys of events before schema 3. -/
def legacyEventKeyFamily : Text := "event:".toList

/-- A part of a legacy key, without colons. -/
def escapeKeyPart (value : Text) : Text :=
  value.flatMap fun c => if c = ':' then "%3A".toList else [c]

/-- The key of an event before schema 3. -/
def legacyEventKey (event : ThalwegEvent) : Text :=
  legacyEventKeyFamily ++ escapeKeyPart event.network ++ ':' :: escapeKeyPart event.stream ++
    ':' :: event.occurredAt ++ ':' :: Text.padDecimal 20 event.counter.toNat ++
    ':' :: escapeKeyPart event.deviceID ++ ':' :: escapeKeyPart event.id

/-- The greatest stamp of the events of a scan. -/
def greatestStamp : HlcTimestamp → List (Text × Text) → Result HlcTimestamp
  | state, [] => .ok state
  | state, entry :: entries => do
    let event ← wrapf "decode event during HLC migration: %w" [] (decodeEvent entry.2)
    let physical ← normalizeTimestamp "stored insertedAt" event.insertedAt
    if state.physical < physical ∨ physical = state.physical ∧ state.logical < event.counter then
      greatestStamp ⟨physical, event.counter⟩ entries
    else greatestStamp state entries

/-- Schema 1 to 2: the clock state is the greatest stamp of the events. -/
def migrateStorageV1ToV2 (store : Store) : Result Store := do
  let state ← greatestStamp HlcTimestamp.zero
    (store.scan legacyEventKeyFamily legacyEventKeyFamily)
  .ok (writeStorageSchemaVersion (setHLCState store state) 2)

/-- An event of schema 2 in the form of schema 3. -/
structure MigratedEvent where
  oldKey : Text
  primaryKey : Text
  indexKey : Text
  value : Text

/-- The event of an entry of schema 2, and its form in schema 3. -/
def migrateEvent (entry : Text × Text) : Result (ThalwegEvent × MigratedEvent) := do
  let event ← wrapf "decode event during ID-index migration: %w" [] (decodeEvent entry.2)
  let occurredAt ← normalizeTimestamp "stored occurredAt" event.occurredAt
  let insertedAt ← normalizeTimestamp "stored insertedAt" event.insertedAt
  let propagatedAt ←
    if event.propagatedAt = [] then .ok []
    else normalizeTimestamp "stored propagatedAt" event.propagatedAt
  let event := { event with occurredAt, insertedAt, propagatedAt }
  let value ← wrapf "encode migrated event: %w" [] (marshalEvent event)
  .ok (event, ⟨entry.1, eventKey event, eventIDKey event.network event.id, value⟩)

/-- The events of the entries of schema 2, after the ones that are `done`. -/
def migrateEvents : List MigratedEvent → List (Text × Text) → Result (List MigratedEvent)
  | done, [] => .ok done
  | done, entry :: entries => do
    let (event, migrated) ← migrateEvent entry
    if done.any fun e => decide (e.indexKey = migrated.indexKey) then
      errorf "duplicate event ID %q in network %q prevents migration" [event.id, event.network]
    else if done.any fun e => decide (e.primaryKey = migrated.primaryKey) then
      errorf "event key collision prevents migration: %s" [migrated.primaryKey]
    else migrateEvents (done ++ [migrated]) entries

/-- Write an event in the form of schema 3 and delete its old record. -/
def writeMigratedEvent (store : Store) (event : MigratedEvent) : Store :=
  ((store.set event.primaryKey event.value).set event.indexKey event.primaryKey).delete event.oldKey

/-- Schema 2 to 3: the events get new keys and an index by their IDs. -/
def migrateStorageV2ToV3 (store : Store) : Result Store := do
  let events ← migrateEvents [] (store.scan legacyEventKeyFamily legacyEventKeyFamily)
  .ok (writeStorageSchemaVersion (events.foldl writeMigratedEvent store) 3)

/-- The entries of the arrival index that a scan of events gets: order key, primary key and
network. -/
def arrivalEntries : List (Text × Text) → Result (List (Text × Text × Text))
  | [] => .ok []
  | entry :: entries => do
    let event ← wrapf "decode event during arrival-index migration: %w" [] (decodeEvent entry.2)
    let rest ← arrivalEntries entries
    .ok ((chronologicalKey event, entry.1, event.network) :: rest)

/-- Number the events from `sequence` on in the arrival index. -/
def writeArrivals : Store → Nat → List (Text × Text × Text) → Store
  | store, _, [] => store
  | store, sequence, (_, primaryKey, network) :: entries =>
    writeArrivals (store.set (arrivalIndexKey network (UInt64.ofNat sequence)) primaryKey)
      (sequence + 1) entries

/-- Schema 3 to 4: the events are numbered as arrivals. -/
def migrateStorageV3ToV4 (store : Store) : Result Store := do
  let events ← arrivalEntries (store.scan eventKeyFamily eventKeyFamily)
  let sorted := events.insertionSort fun a b => a.1 < b.1 ∨ a.1 = b.1 ∧ a.2.1 ≤ b.2.1
  let store := writeArrivals store 1 sorted
  let store := store.set arrivalSequenceKey (Text.decimal events.length)
  .ok (writeStorageSchemaVersion store 4)

/-- The migrations from a schema version on; there are at most three. -/
def migrateStorage : Nat → Int → Store → Result Unit × Store
  | 0, _, store => (.ok (), store)
  | remaining + 1, version, store =>
    if currentStorageSchemaVersion ≤ version then (.ok (), store)
    else if version = 1 then
      match migrateStorageV1ToV2 store with
      | .error e => (.error (.wrap "migrate storage schema 1 to 2: %w" [] e), store)
      | .ok store => migrateStorage remaining 2 store
    else if version = 2 then
      match migrateStorageV2ToV3 store with
      | .error e => (.error (.wrap "migrate storage schema 2 to 3: %w" [] e), store)
      | .ok store => migrateStorage remaining 3 store
    else if version = 3 then
      match migrateStorageV3ToV4 store with
      | .error e => (.error (.wrap "migrate storage schema 3 to 4: %w" [] e), store)
      | .ok store => migrateStorage remaining 4 store
    else
      (errorf "no migration from storage schema version %d" [Text.decimalInt version], store)

/-- Bring a database to the current schema. -/
def ensureStorageSchema (store : Store) : Result Unit × Store :=
  match readStorageSchemaVersion store with
  | .error e => (.error e, store)
  | .ok none => migrateStorage 4 1 (writeStorageSchemaVersion store 1)
  | .ok (some version) =>
    if currentStorageSchemaVersion < version then
      (errorf "unsupported storage schema version %d (daemon supports %d)"
        [Text.decimalInt version, Text.decimalInt currentStorageSchemaVersion], store)
    else migrateStorage 4 version store

end Thalweg
