import Mathlib.Data.List.Sort
import Thalweg.Daemon.Ingest
import Thalweg.Daemon.Version

/-!
# Event conflicts

Observed conflicts, their resolution by preserving all variants, and the start of a daemon, which
materializes the variants that stored resolutions name.
-/

namespace Thalweg

/-! ### Observations -/

/-- An observed conflict: the digests of two envelopes of one event ID. -/
structure ConflictObservation where
  version : Int
  network : Text
  eventID : Text
  localDigest : Text
  remoteDigest : Text
  observedAt : Text
  deriving DecidableEq

/-- The version of the records of observations. -/
def conflictObservationVersion : Int := 1

/-- The start of the keys of observations. -/
def conflictFamily : Text := "event-conflict-v1:".toList

/-- The start of the keys of a network's observations. -/
def conflictNetworkPrefix (networkName : Text) : Text :=
  conflictFamily ++ encodeKeyPart networkName ++ [':']

/-- The start of the keys of the observations of an event ID; of a network, when it is empty. -/
def conflictObservationPrefix (networkName eventID : Text) : Text :=
  conflictNetworkPrefix networkName ++
    if eventID = [] then [] else encodeKeyPart eventID ++ [':']

/-- The key of an observation. -/
def conflictObservationKey (observation : ConflictObservation) : Text :=
  conflictObservationPrefix observation.network observation.eventID ++ observation.remoteDigest

/-- The JSON text of an observation. -/
def marshalObservation (observation : ConflictObservation) : Text :=
  Json.renderRecord [("version".toList, Text.decimal observation.version.toNat),
    ("network".toList, Json.quote observation.network),
    ("eventId".toList, Json.quote observation.eventID),
    ("localDigest".toList, Json.quote observation.localDigest),
    ("remoteDigest".toList, Json.quote observation.remoteDigest),
    ("observedAt".toList, Json.quote observation.observedAt)]

/-- The fields of an observation. -/
def observationFields : List (Text × Json.Setter ConflictObservation) :=
  [("version".toList, fun o _ v => (Json.decodeInt o.version v).map fun x => { o with version := x }),
    ("network".toList, fun o _ v =>
      (Json.decodeText o.network v).map fun x => { o with network := x }),
    ("eventId".toList, fun o _ v =>
      (Json.decodeText o.eventID v).map fun x => { o with eventID := x }),
    ("localDigest".toList, fun o _ v =>
      (Json.decodeText o.localDigest v).map fun x => { o with localDigest := x }),
    ("remoteDigest".toList, fun o _ v =>
      (Json.decodeText o.remoteDigest v).map fun x => { o with remoteDigest := x }),
    ("observedAt".toList, fun o _ v =>
      (Json.decodeText o.observedAt v).map fun x => { o with observedAt := x })]

/-- Write an observation, unless there is one of the same key. -/
def recordObservation (store : Store) (observation : ConflictObservation) : Store :=
  match store.get (conflictObservationKey observation) with
  | some _ => store
  | none => store.set (conflictObservationKey observation) (marshalObservation observation)

/-- Write the observations of an inventory. -/
def Daemon.recordEventConflicts (d : Daemon) (networkName : Text)
    (observations : List ConflictObservation) : Daemon :=
  if observations = [] then d
  else
    { d.tick with
      store := (observations.map fun o =>
        { o with
          version := conflictObservationVersion, network := networkName
          observedAt := d.clockNow.format }).foldl recordObservation d.store }

/-! ### Listing -/

/-- What is known about a conflict. -/
structure EventConflictInfo where
  network : Text
  eventID : Text
  localDigest : Text
  remoteDigests : List Text
  firstObservedAt : Text
  resolved : Bool
  resolutionEventIDs : List Text
  recoveredEventID : Text
  deriving DecidableEq

/-- The values with the candidates that are not among them. -/
def appendUniqueStrings (values candidates : List Text) : List Text :=
  candidates.foldl (fun values c => if c ∈ values then values else values ++ [c]) values

theorem mem_appendUniqueStrings {s : Text} {values candidates : List Text} :
    s ∈ appendUniqueStrings values candidates ↔ s ∈ values ∨ s ∈ candidates := by
  induction candidates generalizing values with
  | nil => simp [appendUniqueStrings]
  | cons c candidates ih =>
    have hstep : appendUniqueStrings values (c :: candidates) =
        appendUniqueStrings (if c ∈ values then values else values ++ [c]) candidates := rfl
    rw [hstep, ih, List.mem_cons]
    split_ifs with hc
    · constructor
      · exact fun h => h.imp_right Or.inr
      · rintro (h | rfl | h)
        exacts [Or.inl h, Or.inl hc, Or.inr h]
    · rw [List.mem_append, List.mem_singleton, or_assoc]

/-- The texts in order. -/
def sortTexts (texts : List Text) : List Text := texts.insertionSort (· ≤ ·)

/-- The conflict of an event ID with one more observation. -/
def EventConflictInfo.observe (entry : EventConflictInfo) (observation : ConflictObservation) :
    EventConflictInfo :=
  { entry with
    firstObservedAt :=
      if observation.observedAt < entry.firstObservedAt then observation.observedAt
      else entry.firstObservedAt
    remoteDigests := appendUniqueStrings entry.remoteDigests [observation.remoteDigest] }

/-- Enter an observation into the conflicts by event ID. -/
def groupObservation (networkName : Text) (observation : ConflictObservation) :
    List EventConflictInfo → List EventConflictInfo
  | [] => [EventConflictInfo.observe ⟨networkName, observation.eventID, observation.localDigest, [],
      observation.observedAt, false, [], []⟩ observation]
  | entry :: entries =>
    if entry.eventID = observation.eventID then entry.observe observation :: entries
    else entry :: groupObservation networkName observation entries

/-- The conflicts of a scan of observations. -/
def groupObservations (networkName : Text) :
    List EventConflictInfo → List (Text × Text) → Result (List EventConflictInfo)
  | grouped, [] => .ok grouped
  | grouped, entry :: entries =>
    match Json.decodeRecord false observationFields ⟨0, [], [], [], [], []⟩ entry.2 with
    | none =>
      .error (.wrap "decode event conflict observation: %w" [] (.external "encoding/json"))
    | some observation =>
      if observation.version ≠ conflictObservationVersion ∨ observation.network ≠ networkName then
        errorf "invalid event conflict observation for %q" [observation.eventID]
      else groupObservations networkName (groupObservation networkName observation grouped) entries

/-- The resolutions of each event ID, in chronological order; the event IDs in the order of their
first resolution. -/
def resolutionsOf (resolutions : List (Text × ThalwegEvent)) (eventID : Text) : List ThalwegEvent :=
  ((resolutions.filter fun r => decide (r.1 = eventID)).map Prod.snd).insertionSort
    fun a b => chronologicalKey a ≤ chronologicalKey b

/-- The event IDs that resolutions name, each once. -/
def resolvedEventIDs (resolutions : List (Text × ThalwegEvent)) : List Text :=
  appendUniqueStrings [] (resolutions.map Prod.fst)

/-- The digest of the event that is stored under an ID. -/
def storedDigest (store : Store) (networkName eventID : Text) : Result (Option Text) := do
  match ← findEventByID store networkName eventID with
  | none => .ok none
  | some original =>
    let digest ← eventDigest original
    .ok (some digest)

/-- The conflicts of resolved event IDs that have no observation. -/
def unobservedConflicts (store : Store) (networkName : Text)
    (resolutions : List (Text × ThalwegEvent)) : List Text → Result (List EventConflictInfo)
  | [] => .ok []
  | eventID :: eventIDs => do
    let digest ← storedDigest store networkName eventID
    let rest ← unobservedConflicts store networkName resolutions eventIDs
    let firstObservedAt := match resolutionsOf resolutions eventID with
      | event :: _ => event.occurredAt
      | [] => []
    .ok (⟨networkName, eventID, digest.getD [], [], firstObservedAt, false, [], []⟩ :: rest)

/-- The conflicts with what the resolutions say about them. -/
def withResolutions (store : Store) (networkName : Text)
    (resolutions : List (Text × ThalwegEvent)) :
    List EventConflictInfo → Result (List EventConflictInfo)
  | [] => .ok []
  | entry :: entries => do
    let rest ← withResolutions store networkName resolutions entries
    if isSuperseded resolutions entry.eventID then
      let digest ← storedDigest store networkName entry.eventID
      .ok ({ entry with
        remoteDigests := sortTexts entry.remoteDigests
        resolved := true
        resolutionEventIDs :=
          sortTexts ((resolutionsOf resolutions entry.eventID).map ThalwegEvent.id)
        recoveredEventID := match digest with
          | some digest => recoveredConflictEventID networkName entry.eventID digest
          | none => [] } :: rest)
    else .ok ({ entry with remoteDigests := sortTexts entry.remoteDigests } :: rest)

/-- The conflicts of a network, observed or resolved. -/
def Daemon.listEventConflicts (d : Daemon) (networkName : Text) :
    Result (List EventConflictInfo) := do
  if networkName = [] then errorf "network is required" []
  else
    let resolutions ← conflictResolutionsTxn d.store networkName
    let pre := conflictObservationPrefix networkName []
    let grouped ← groupObservations networkName [] (d.store.scan pre pre)
    let unobserved ← unobservedConflicts d.store networkName resolutions
      ((resolvedEventIDs resolutions).filter fun eventID =>
        !grouped.any fun entry => decide (entry.eventID = eventID))
    let entries ← withResolutions d.store networkName resolutions (grouped ++ unobserved)
    .ok (entries.insertionSort fun a b => a.eventID ≤ b.eventID)

/-! ### Resolution -/

/-- The result of the resolution of a conflict. -/
structure EventConflictResolutionResult where
  network : Text
  eventID : Text
  strategy : Text
  resolutionEvent : ThalwegEvent
  recoveredEvent : ThalwegEvent
  alreadyResolved : Bool

namespace Daemon

/-- The last steps of the resolution of a conflict: materialize the local variant. -/
def finishResolution (fuel : Nat) (d : Daemon) (networkName eventID : Text)
    (resolutionEvent : ThalwegEvent) (alreadyResolved : Bool) :
    Option (Result EventConflictResolutionResult × Daemon) :=
  match materializeConflictVariant fuel d networkName eventID with
  | none => none
  | some (.error e, d) => some (.error e, d)
  | some (.ok (recovered, _), d) =>
    some (.ok ⟨networkName, eventID, conflictResolutionStrategy, resolutionEvent, recovered,
      alreadyResolved⟩, d)

/-- The steps of the resolution of a conflict after the checks of its arguments. -/
def resolveObserved (fuel : Nat) (d : Daemon) (networkName eventID random : Text)
    (conflicts : List EventConflictInfo) :
    Option (Result EventConflictResolutionResult × Daemon) :=
  if !conflicts.any fun c => decide (c.eventID = eventID) then
    some (errorf "event %q has no observed conflict in network %q" [eventID, networkName], d)
  else
    match findEventByID d.store networkName eventID with
    | .error e => some (.error e, d)
    | .ok none =>
      some (errorf "conflicting event %q is missing in network %q" [eventID, networkName], d)
    | .ok (some _) =>
      match conflictResolutionsTxn d.store networkName with
      | .error e => some (.error e, d)
      | .ok resolutions =>
        match resolutionsOf resolutions eventID with
        | resolutionEvent :: _ => d.finishResolution fuel networkName eventID resolutionEvent true
        | [] =>
          match d.ingestInternal networkName conflictResolutionStream [] []
              (marshalConflictResolution
                ⟨conflictResolutionVersion, eventID, conflictResolutionStrategy⟩) random with
          | (.error e, d) => some (.error (.wrap "record conflict resolution: %w" [] e), d)
          | (.ok resolutionEvent, d) =>
            d.finishResolution fuel networkName eventID resolutionEvent false

/-- Resolve a conflict by preserving all its variants. -/
def resolveEventConflict (fuel : Nat) (d : Daemon) (networkName eventID strategy random : Text) :
    Option (Result EventConflictResolutionResult × Daemon) :=
  if networkName = [] ∨ eventID = [] then some (errorf "network and eventId are required" [], d)
  else if strategy ≠ [] ∧ strategy ≠ conflictResolutionStrategy then
    some (errorf "unsupported conflict strategy %q" [strategy], d)
  else
    match d.listEventConflicts networkName with
    | .error e => some (.error e, d)
    | .ok conflicts => d.resolveObserved fuel networkName eventID random conflicts

/-! ### Starting -/

/-- Materialize the variants of event IDs, one after the other. -/
def materializeAll (fuel : Nat) (networkName : Text) :
    Daemon → List Text → Option (Result Unit × Daemon)
  | d, [] => some (.ok (), d)
  | d, eventID :: eventIDs =>
    match materializeConflictVariant fuel d networkName eventID with
    | none => none
    | some (.error e, d) => some (.error e, d)
    | some (.ok _, d) => materializeAll fuel networkName d eventIDs

/-- Materialize the variants that the resolutions of the networks name. The event IDs that are named
come in no particular order: `order` arranges them. -/
def reconcileNetworks (fuel : Nat) (order : List Text → List Text) :
    Daemon → List NetworkMembershipInfo → Option (Result Unit × Daemon)
  | d, [] => some (.ok (), d)
  | d, membership :: memberships =>
    match conflictResolutionsTxn d.store membership.name with
    | .error e => some (.error e, d)
    | .ok resolutions =>
      match materializeAll fuel membership.name d (order (resolvedEventIDs resolutions)) with
      | none => none
      | some (.error e, d) => some (.error e, d)
      | some (.ok (), d) => reconcileNetworks fuel order d memberships

/-- Materialize the variants that the resolutions of all mounted networks name. -/
def reconcileConflictResolutions (fuel : Nat) (order : List Text → List Text) (d : Daemon) :
    Option (Result Unit × Daemon) :=
  reconcileNetworks fuel order d d.memberships.list

/-- Start a daemon on the database of one that was stopped, with new readings of the wall clock.
Subscriptions do not outlive the daemon. -/
def newWithConfig (fuel : Nat) (order : List Text → List Text) (now : Nat → Instant) (d : Daemon) :
    Option (Result Unit × Daemon) :=
  match ensureStorageSchema d.store with
  | (.error e, store) => some (.error e, { d with store })
  | (.ok (), store) =>
    match loadHLC store with
    | .error e => some (.error e, { d with store })
    | .ok hlc =>
      match reconcileConflictResolutions fuel order
          { d with store, hlc, now, broadcasts := [] } with
      | none => none
      | some (.error e, d) =>
        some (.error (.wrap "reconcile event conflict resolutions: %w" [] e), d)
      | some (.ok (), d) => some (.ok (), d)

end Daemon

end Thalweg
