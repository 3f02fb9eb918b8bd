import Thalweg.Daemon.Hlc

/-!
# Event records and their indexes

Reading an event by its ID, the arrival index, and the write of a new event with its two index
entries and the clock state, which one transaction makes.
-/

namespace Thalweg

/-! ### The ID index -/

/-- The event that is stored under an ID, with its occurrence time and payload in canonical form. -/
def findEventByID (store : Store) (networkName eventID : Text) : Result (Option ThalwegEvent) :=
  match store.get (eventIDKey networkName eventID) with
  | none => .ok none
  | some primaryKey =>
    match store.get primaryKey with
    | none => errorf "event ID index points to missing event: %s" [primaryKey]
    | some value => do
      let event ← decodeEvent value
      if event.id ≠ eventID ∨ event.network ≠ networkName then
        errorf "event ID index points to mismatched event %q in network %q" [event.id, event.network]
      else
        let occurredAt ← normalizeTimestamp "stored occurredAt" event.occurredAt
        let payload ← wrapf "decode stored payload for event %s: %w" [event.id]
          (normalizePayload event.payload)
        .ok (some { event with occurredAt, payload })

/-! ### The arrival index -/

/-- The key of the arrival counter. -/
def arrivalSequenceKey : Text := "meta:event-arrival-sequence".toList

/-- The start of the keys of the arrival index. -/
def arrivalIndexFamily : Text := "event-arrival-v1:".toList

/-- The start of the arrival index keys of a network. -/
def arrivalIndexPrefix (network : Text) : Text :=
  arrivalIndexFamily ++ encodeKeyPart network ++ [':']

/-- The arrival index key of a sequence number. -/
def arrivalIndexKey (network : Text) (sequence : UInt64) : Text :=
  arrivalIndexPrefix network ++ Text.padDecimal 20 sequence.toNat

/-- An unsigned 64-bit number in decimal. -/
def parseUint64 (value : Text) : Option UInt64 :=
  match Text.parseDecimal value with
  | some n => if n < 2 ^ 64 then some (UInt64.ofNat n) else none
  | none => none

/-- The sequence number of the latest arrival. -/
def readArrivalSequence (store : Store) : Result UInt64 :=
  match store.get arrivalSequenceKey with
  | none => .ok 0
  | some value =>
    match parseUint64 value with
    | some sequence => .ok sequence
    | none =>
      .error (.wrap "invalid event arrival sequence %q: %w" [value] (.external "strconv"))

/-- Enter an event into the arrival index. -/
def appendArrivalIndex (store : Store) (event : ThalwegEvent) (primaryKey : Text) :
    Result Store := do
  let sequence ← readArrivalSequence store
  if sequence = maxUint64 then errorf "event arrival sequence exhausted" []
  else
    let sequence := sequence + 1
    let store := store.set (arrivalIndexKey event.network sequence) primaryKey
    .ok (store.set arrivalSequenceKey (Text.decimal sequence.toNat))

/-! ### New events -/

/-- The writes of the transaction that stores a new event with the clock state after it. -/
def putEvent (store : Store) (event : ThalwegEvent) (nextClockState : HlcTimestamp) :
    Result Store := do
  let value ← marshalEvent event
  let store := store.set (eventKey event) value
  let store := store.set (eventIDKey event.network event.id) (eventKey event)
  let store ← appendArrivalIndex store event (eventKey event)
  .ok (setHLCState store nextClockState)

/-- The event ID that an event of the conflict resolution stream names. -/
def resolvedEventID (event : ThalwegEvent) : Result Text := do
  let resolution ← parseConflictResolution event
  .ok (match resolution with
    | some payload => payload.eventID
    | none => [])

/-- Each of the events with the event ID that it names. -/
def resolutionEntries : List (Text × Text) → Result (List (Text × ThalwegEvent))
  | [] => .ok []
  | entry :: entries => do
    let event ← decodeEvent entry.2
    let eventID ← resolvedEventID event
    let rest ← resolutionEntries entries
    .ok ((eventID, event) :: rest)

/-- The conflict resolutions of a network, each with the event ID that it names, in key order. -/
def conflictResolutionsTxn (store : Store) (networkName : Text) :
    Result (List (Text × ThalwegEvent)) :=
  let pre := eventStreamPrefix networkName conflictResolutionStream
  resolutionEntries (store.scan pre pre)

/-- Some of the resolutions names the event ID. -/
def isSuperseded (resolutions : List (Text × ThalwegEvent)) (eventID : Text) : Bool :=
  resolutions.any fun r => decide (r.1 = eventID)

end Thalweg
