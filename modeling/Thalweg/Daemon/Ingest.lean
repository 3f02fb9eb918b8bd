import Thalweg.Daemon.Index
import Thalweg.Daemon.Membership

/-!
# The daemon and its ingest paths

The state of a daemon, the ingest of local events, and the receipt of replicated events with the
materialization of preserved conflict variants.

A call takes the state and returns its result with the state after it. A reading of the wall clock
takes the next of the readings that the state holds. The recursion between the receipt of an event
and the materialization of a variant counts down a fuel; a call that runs out of it has no result,
and a call without a result for every fuel does not end.

## Main definitions

* `Daemon`, `Daemon.ingest`, `Daemon.ingestInternal`.
* `Daemon.ingestReplicated`, `Daemon.materializeConflictVariant`.
-/

namespace Thalweg

/-- The state of a daemon. -/
structure Daemon where
  /-- The database. -/
  store : Store
  memberships : Memberships
  deviceID : Text
  deviceID_ne_nil : deviceID ≠ []
  /-- The clock state in memory. -/
  hlc : HlcTimestamp
  /-- The next readings of the wall clock. -/
  now : Nat → Instant
  /-- The events that went to live subscriptions. -/
  broadcasts : List ThalwegEvent

namespace Daemon

/-- The next reading of the wall clock. -/
def clockNow (d : Daemon) : Instant := d.now 0

/-- The daemon after a reading of the wall clock. -/
def tick (d : Daemon) : Daemon := { d with now := fun n => d.now (n + 1) }

/-- The daemon after a transaction that stored an event and its clock state. -/
def commit (d : Daemon) (store : Store) (nextClockState : HlcTimestamp) : Daemon :=
  { d with store, hlc := nextClockState }

/-- The daemon after an event went to live subscriptions. -/
def broadcast (d : Daemon) (event : ThalwegEvent) : Daemon :=
  { d with broadcasts := d.broadcasts ++ [event] }

end Daemon

/-- A fresh ID. -/
def randomID (pre : String) (random : Text) : Text := pre.toList ++ '_' :: random

/-! ### Local events -/

/-- A repeated request asks for what the stored event holds. -/
def validateIdempotentRetry (existing : ThalwegEvent) (stream occurredAt : Text)
    (occurredAtProvided : Bool) (payload : Text) : Result Unit := do
  let existingPayload ← wrapf "decode stored payload for event %s: %w" [existing.id]
    (normalizePayload existing.payload)
  let existingOccurredAt ← normalizeTimestamp "stored occurredAt" existing.occurredAt
  if existing.stream ≠ stream ∨ (occurredAtProvided = true ∧ existingOccurredAt ≠ occurredAt) ∨
      existingPayload ≠ payload then
    errorf "event id %q already exists with different content in network %q"
      [existing.id, existing.network]
  else .ok ()

namespace Daemon

/-- The transaction of the ingest of a local event: it returns the event that is stored under the
ID, or stores a new one. -/
def storeLocal (d : Daemon) (networkName stream occurredAt : Text) (occurredAtProvided : Bool)
    (eventID payload : Text) (wallTime : Instant) : Result ThalwegEvent × Daemon :=
  match findEventByID d.store networkName eventID with
  | .error e => (.error e, d)
  | .ok (some existing) =>
    match validateIdempotentRetry existing stream occurredAt occurredAtProvided payload with
    | .error e => (.error e, d)
    | .ok () => (.ok existing, d)
  | .ok none =>
    match nextLocal d.hlc wallTime with
    | .error e => (.error e, d)
    | .ok nextClockState =>
      let event : ThalwegEvent :=
        { id := eventID, network := networkName, stream, occurredAt
          insertedAt := nextClockState.physical, propagatedAt := nextClockState.physical
          counter := nextClockState.logical, deviceID := d.deviceID, payload }
      match putEvent d.store event nextClockState with
      | .error e => (.error e, d)
      | .ok store => (.ok event, (d.commit store nextClockState).broadcast event)

/-- The ingest of a local event on any stream; `random` is the fresh part of an ID that the request
leaves out. -/
def ingestInternal (d : Daemon) (networkName stream occurredAt eventID payload random : Text) :
    Result ThalwegEvent × Daemon :=
  if networkName = [] then (errorf "network is required" [], d)
  else if stream = [] then (errorf "stream is required" [], d)
  else
    match normalizePayload (payloadOrNull payload) with
    | .error e => (.error e, d)
    | .ok payload =>
      let wallTime := d.clockNow
      match normalizeTimestamp "occurredAt"
          (if occurredAt = [] then wallTime.format else occurredAt) with
      | .error e => (.error e, d.tick)
      | .ok canonicalOccurredAt =>
        d.tick.storeLocal networkName stream canonicalOccurredAt (decide (occurredAt ≠ []))
          (if eventID = [] then randomID "evt" random else eventID) payload wallTime

/-- The ingest of a local event. -/
def ingest (d : Daemon) (networkName stream occurredAt eventID payload random : Text) :
    Result ThalwegEvent × Daemon :=
  if stream = conflictResolutionStream then
    (errorf "stream %q is reserved; use event conflict resolution" [conflictResolutionStream], d)
  else d.ingestInternal networkName stream occurredAt eventID payload random

end Daemon

/-! ### Replicated events -/

/-- A replicated event is the one that is stored under its ID. -/
def validateReplicatedRetry (existing incoming : ThalwegEvent) : Result Unit := do
  let existing ← wrapf "normalize stored event %s: %w" [existing.id]
    (normalizeReplicatedEvent existing)
  if existing ≠ incoming then
    errorf "event id %q already exists with a different origin envelope in network %q"
      [incoming.id, incoming.network]
  else .ok ()

namespace Daemon

/-- The transaction of the receipt of a replicated event, with the broadcast of a new one: it
returns the event that is stored under the ID and whether it is new. -/
def storeReplicated (d : Daemon) (event : ThalwegEvent) : Result (ThalwegEvent × Bool) × Daemon :=
  match findEventByID d.store event.network event.id with
  | .error e => (.error e, d)
  | .ok (some existing) =>
    match validateReplicatedRetry existing event with
    | .error e => (.error e, d)
    | .ok () => (.ok (existing, false), d)
  | .ok none =>
    match mergeHLCTimestamp d.hlc ⟨event.insertedAt, event.counter⟩ d.clockNow with
    | .error e => (.error e, d.tick)
    | .ok nextClockState =>
      match putEvent d.store event nextClockState with
      | .error e => (.error e, d.tick)
      | .ok store => (.ok (event, true), (d.tick.commit store nextClockState).broadcast event)

mutual

/-- The receipt of an envelope from another node, which returns the stored event and whether it is
new. A conflict resolution materializes the variant of the event ID that it names. -/
def ingestReplicated : Nat → Daemon → ThalwegEvent →
    Option (Result (ThalwegEvent × Bool) × Daemon)
  | 0, _, _ => none
  | fuel + 1, d, incoming =>
    match normalizeReplicatedEvent incoming with
    | .error e => some (.error e, d)
    | .ok event =>
      match parseConflictResolution event with
      | .error e => some (.error e, d)
      | .ok resolution =>
        match d.storeReplicated event with
        | (.error e, d) => some (.error e, d)
        | (.ok stored, d) =>
          match resolution with
          | none => some (.ok stored, d)
          | some payload =>
            match materializeConflictVariant fuel d event.network payload.eventID with
            | none => none
            | some (.error e, d) => some (.error e, d)
            | some (.ok _, d) => some (.ok stored, d)

/-- Store the copy, under its recovered ID, of the event that is stored under an ID. -/
def materializeConflictVariant : Nat → Daemon → Text → Text →
    Option (Result (ThalwegEvent × Bool) × Daemon)
  | 0, _, _, _ => none
  | fuel + 1, d, networkName, eventID =>
    match findEventByID d.store networkName eventID with
    | .error e => some (.error e, d)
    | .ok none => some (.ok (ThalwegEvent.zero, false), d)
    | .ok (some original) =>
      match eventDigest original with
      | .error e => some (.error e, d)
      | .ok digest =>
        match ingestReplicated fuel d
            { original with id := recoveredConflictEventID networkName eventID digest } with
        | none => none
        | some (.error e, d) =>
          some (.error (.wrap "materialize preserved conflict variant: %w" [] e), d)
        | some (.ok stored, d) => some (.ok stored, d)

end

end Daemon

end Thalweg
