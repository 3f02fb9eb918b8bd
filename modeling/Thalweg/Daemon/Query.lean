import Thalweg.Daemon.Conflicts

/-!
# Queries and inventories

Reading the visible events of a network: all but those whose ID a stored resolution names. A query
selects and orders them; an inventory lists them with their digests in pages.
-/

namespace Thalweg

/-! ### Queries -/

/-- The starts of the primary keys that a query reads. -/
def queryPrefixes (networkName : Text) (streams : List Text) : List Text :=
  if streams = [] then [eventNetworkPrefix networkName]
  else streams.map (eventStreamPrefix networkName)

/-- The event occurred in the range; an empty bound is none. -/
def inRange (event : ThalwegEvent) (from' to' : Text) : Bool :=
  !(decide (from' ≠ []) && decide (event.occurredAt < from')) &&
    !(decide (to' ≠ []) && decide (to' < event.occurredAt))

/-- The visible events of a scan that are in range, with canonical occurrence times. -/
def collectEvents (resolutions : List (Text × ThalwegEvent)) (from' to' : Text) :
    List (Text × Text) → Result (List ThalwegEvent)
  | [] => .ok []
  | entry :: entries => do
    let event ← decodeEvent entry.2
    if isSuperseded resolutions event.id then collectEvents resolutions from' to' entries
    else
      let occurredAt ← normalizeTimestamp "stored occurredAt" event.occurredAt
      let event := { event with occurredAt }
      let events ← collectEvents resolutions from' to' entries
      .ok (if inRange event from' to' then event :: events else events)

/-- The events of several scans. -/
def collectPrefixes (store : Store) (resolutions : List (Text × ThalwegEvent)) (from' to' : Text) :
    List Text → Result (List ThalwegEvent)
  | [] => .ok []
  | pre :: prefixes => do
    let events ← collectEvents resolutions from' to' (store.scan pre pre)
    let rest ← collectPrefixes store resolutions from' to' prefixes
    .ok (events ++ rest)

/-- A bound of a query in canonical form; an empty one stays empty. -/
def normalizeBound (field : String) (bound : Text) : Result Text :=
  if bound = [] then .ok [] else normalizeTimestamp field bound

/-- The visible events of a network, by stream and occurrence time, in chronological order. -/
def Daemon.queryOrdered (d : Daemon) (networkName : Text) (streams : List Text) (from' to' : Text)
    (limit : Int) (order : Text) : Result (List ThalwegEvent) := do
  let order := if order = [] then "asc".toList else order
  if networkName = [] then errorf "network is required" []
  else if order ≠ "asc".toList ∧ order ≠ "desc".toList then
    errorf "order must be \"asc\" or \"desc\"" []
  else if limit < 0 then errorf "limit must be zero or greater" []
  else
    let from' ← normalizeBound "from" from'
    let to' ← normalizeBound "to" to'
    let resolutions ← conflictResolutionsTxn d.store networkName
    let events ← collectPrefixes d.store resolutions from' to' (queryPrefixes networkName streams)
    let sorted :=
      if order = "desc".toList then
        events.insertionSort fun a b => chronologicalKey b ≤ chronologicalKey a
      else events.insertionSort fun a b => chronologicalKey a ≤ chronologicalKey b
    .ok (if 0 < limit ∧ limit < sorted.length then sorted.take limit.toNat else sorted)

/-! ### Inventories -/

/-- The ID and the digest of an event. -/
structure InventoryEntry where
  id : Text
  digest : Text
  deriving DecidableEq

/-- The entries of a page that an initiator asks for. -/
def syncPageSize : Nat := 64

/-- The most entries of a page. -/
def syncMaxPageSize : Nat := 128

/-- An inventory entry with its position in the ID index. -/
structure IndexedEntry where
  entry : InventoryEntry
  cursor : Text

/-- The entry of a position of the ID index; a superseded event has none. -/
def indexedEntry (store : Store) (resolutions : List (Text × ThalwegEvent))
    (networkName position : Text) : Result (Option IndexedEntry) :=
  match Base64Url.decode position with
  | none => .error (.wrap "decode event ID index key: %w" [] (.external "encoding/base64"))
  | some decodedID =>
    let eventID := Text.ofBytes decodedID
    if isSuperseded resolutions eventID then .ok none
    else do
      match ← findEventByID store networkName eventID with
      | none => errorf "event ID index entry %q is missing" [eventID]
      | some event =>
        let digest ← eventDigest event
        .ok (some ⟨⟨eventID, digest⟩, position⟩)

/-- The entries of positions, at most `room` of them. -/
def indexedEntries (store : Store) (resolutions : List (Text × ThalwegEvent)) (networkName : Text) :
    Nat → List Text → Result (List IndexedEntry)
  | 0, _ => .ok []
  | _ + 1, [] => .ok []
  | room + 1, position :: positions => do
    match ← indexedEntry store resolutions networkName position with
    | none => indexedEntries store resolutions networkName (room + 1) positions
    | some entry =>
      let rest ← indexedEntries store resolutions networkName room positions
      .ok (entry :: rest)

/-- The positions of a network's ID index after a cursor; after none, all. -/
def indexPositions (store : Store) (networkName cursor : Text) : List Text :=
  let pre := eventIDPrefix networkName
  ((store.scan pre (pre ++ cursor)).map fun e => e.1.drop pre.length).filter fun position =>
    decide (cursor = []) || decide (cursor < position)

/-- A page of an inventory: entries in the order of their IDs, the cursor after it, and whether it
is the last one. -/
structure InventoryPage where
  entries : List InventoryEntry
  nextCursor : Text
  done : Bool
  deriving DecidableEq

/-- The page of the first of the entries, at most `limit` of them. -/
def pageOf (indexed : List IndexedEntry) (limit : Nat) : InventoryPage :=
  { entries := ((indexed.take limit).map IndexedEntry.entry).insertionSort fun a b => a.id ≤ b.id
    nextCursor := ((indexed.take limit).getLast?.map IndexedEntry.cursor).getD []
    done := decide (indexed.length ≤ limit) }

namespace Daemon

/-- The page of a network's inventory after a cursor. -/
def inventoryPage (d : Daemon) (networkName cursor : Text) (limit : Int) : Result InventoryPage :=
  if limit ≤ 0 ∨ (syncMaxPageSize : Int) < limit then
    errorf "inventory limit must be between 1 and %d" [Text.decimal syncMaxPageSize]
  else if networkName = [] then errorf "network is required" []
  else if cursor ≠ [] ∧ (Base64Url.decode cursor).isNone then errorf "invalid inventory cursor" []
  else do
    let resolutions ← conflictResolutionsTxn d.store networkName
    let indexed ← indexedEntries d.store resolutions networkName (limit.toNat + 1)
      (indexPositions d.store networkName cursor)
    .ok (pageOf indexed limit.toNat)

end Daemon

/-- The entries of an inventory page from another node are complete and in order, after the IDs that
were `seen`, the last of which is `previous`. -/
def checkInventoryEntries : List Text → Text → List InventoryEntry → Result Unit
  | _, _, [] => .ok ()
  | seen, previous, entry :: entries =>
    if entry.id = [] then errorf "inventory event ID is required" []
    else if entry.id ∈ seen then errorf "duplicate inventory event ID %q" [entry.id]
    else if previous ≠ [] ∧ entry.id ≤ previous then
      errorf "inventory entries must be sorted by event ID" []
    else if (Base64Url.decode entry.digest).map List.length ≠ some 32 then
      errorf "invalid inventory digest for event %q" [entry.id]
    else checkInventoryEntries (entry.id :: seen) entry.id entries

/-- An inventory page from another node is well formed. -/
def validateInventoryEntries (entries : List InventoryEntry) : Result Unit :=
  if entries.length = 0 ∨ syncMaxPageSize < entries.length then
    errorf "inventory page must contain between 1 and %d entries" [Text.decimal syncMaxPageSize]
  else checkInventoryEntries [] [] entries

/-- The requested IDs are present and distinct, after those that were `seen`. -/
def checkIDs : List Text → List Text → Result Unit
  | _, [] => .ok ()
  | seen, id :: ids =>
    if id = [] then errorf "event ID is required" []
    else if id ∈ seen then errorf "duplicate event ID %q" [id]
    else checkIDs (id :: seen) ids

/-- A page of requested event IDs is well formed. -/
def validateIDPage (ids : List Text) : Result Unit :=
  if ids.length = 0 ∨ syncMaxPageSize < ids.length then
    errorf "event ID page must contain between 1 and %d IDs" [Text.decimal syncMaxPageSize]
  else checkIDs [] ids

/-- Each event is one of the expected ones, which its ID takes off. -/
def checkRequested (networkName : Text) : List Text → List ThalwegEvent → Result Unit
  | [], [] => .ok ()
  | _ :: _, [] => errorf "peer omitted requested events" []
  | expected, event :: events =>
    if event.network ≠ networkName then errorf "peer returned a cross-network event" []
    else if event.id ∉ expected then errorf "peer returned unrequested event %q" [event.id]
    else checkRequested networkName (expected.filter fun id => decide (id ≠ event.id)) events

/-- The events of a page are exactly the ones requested. -/
def validateRequestedEvents (networkName : Text) (ids : List Text) (events : List ThalwegEvent) :
    Result Unit :=
  if events.length ≠ ids.length then
    errorf "peer returned %d events for %d requested IDs"
      [Text.decimal events.length, Text.decimal ids.length]
  else checkRequested networkName ids events

/-! ### Comparison -/

/-- What a comparison with an inventory finds: missing IDs, IDs in conflict, and observations. -/
structure InventoryComparison where
  missing : List Text
  conflicts : List Text
  observations : List ConflictObservation

/-- Compare the stored events with the entries of an inventory. -/
def compareEntries (store : Store) (networkName : Text) :
    List InventoryEntry → Result InventoryComparison
  | [] => .ok ⟨[], [], []⟩
  | entry :: entries => do
    match ← findEventByID store networkName entry.id with
    | none =>
      let rest ← compareEntries store networkName entries
      .ok { rest with missing := entry.id :: rest.missing }
    | some event =>
      let digest ← eventDigest event
      let rest ← compareEntries store networkName entries
      if digest ≠ entry.digest then
        .ok { rest with
          conflicts := entry.id :: rest.conflicts
          observations := ⟨0, [], entry.id, digest, entry.digest, []⟩ :: rest.observations }
      else .ok rest

/-- The stored events of a list of IDs. -/
def findEventsByIDs (store : Store) (networkName : Text) : List Text → Result (List ThalwegEvent)
  | [] => .ok []
  | id :: ids => do
    match ← findEventByID store networkName id with
    | none => errorf "requested event %q is missing" [id]
    | some event =>
      let events ← findEventsByIDs store networkName ids
      .ok (event :: events)

namespace Daemon

/-- Compare the stored events with a page of an inventory, and record the conflicts: the missing IDs
and the IDs in conflict. -/
def compareInventory (d : Daemon) (networkName : Text) (entries : List InventoryEntry) :
    Result (List Text × List Text) × Daemon :=
  if entries = [] then (.ok ([], []), d)
  else
    match validateInventoryEntries entries with
    | .error e => (.error e, d)
    | .ok () =>
      match compareEntries d.store networkName entries with
      | .error e => (.error e, d)
      | .ok comparison =>
        (.ok (comparison.missing, comparison.conflicts),
          d.recordEventConflicts networkName comparison.observations)

/-- The stored events of a page of requested IDs. -/
def eventsByIDs (d : Daemon) (networkName : Text) (ids : List Text) :
    Result (List ThalwegEvent) := do
  validateIDPage ids
  findEventsByIDs d.store networkName ids

end Daemon

end Thalweg
