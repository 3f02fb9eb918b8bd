import Thalweg.Data.Text

/-!
# Values and models of the Python SDK

A frame of the daemon is read as a Python value, of which the SDK builds its models. Every decoder
takes the context that its errors name.
-/

namespace Thalweg.SdkPython

/-- A value that JSON is read as. Floats that are not finite have no value here. -/
inductive PyValue where
  | none
  | bool (b : Bool)
  | int (n : Int)
  | float (x : Option Rat)
  | str (s : Text)
  | list (items : List PyValue)
  | dict (entries : List (Text × PyValue))

/-- The entries of a dictionary; its keys are distinct. -/
abbrev PyDict := List (Text × PyValue)

/-- `data[key]`, if the key is there. -/
def PyDict.find? (data : PyDict) (key : Text) : Option PyValue :=
  (List.find? (fun entry => decide (entry.1 = key)) data).map Prod.snd

/-- `data.get(key)` -/
def PyDict.get (data : PyDict) (key : Text) : PyValue := (data.find? key).getD .none

/-! ### Fields -/

/-- An error is the message of a `ThalwegProtocolError`. -/
abbrev Decoded := Except Text

/-- A value that must be an object. -/
def object (value : PyValue) (context : Text) : Decoded PyDict :=
  match value with
  | .dict data => .ok data
  | _ => .error (context ++ " must be a JSON object.".toList)

/-- The field must be there and be a string. -/
def string (data : PyDict) (key context : Text) : Decoded Text :=
  match data.get key with
  | .str value => .ok value
  | _ => .error (context ++ ".".toList ++ key ++ " must be a string.".toList)

/-- The field must be there and be an integer; a boolean is none. -/
def integer (data : PyDict) (key context : Text) : Decoded Int :=
  match data.get key with
  | .int value => .ok value
  | _ => .error (context ++ ".".toList ++ key ++ " must be an integer.".toList)

/-- An absent field and `null` are none. -/
def optionalString (data : PyDict) (key context : Text) : Decoded (Option Text) :=
  match data.get key with
  | .none => .ok none
  | .str value => .ok (some value)
  | _ => .error (context ++ ".".toList ++ key ++ " must be a string.".toList)

/-- The field must be there and be a boolean. -/
def boolean (data : PyDict) (key context : Text) : Decoded Bool :=
  match data.get key with
  | .bool value => .ok value
  | _ => .error (context ++ ".".toList ++ key ++ " must be a boolean.".toList)

/-- The string that a value is, if it is one. -/
def PyValue.text? : PyValue → Option Text
  | .str s => some s
  | _ => Option.none

/-- The message about a field that is no array of strings. -/
def stringsError (key context : Text) : Text :=
  context ++ ".".toList ++ key ++ " must be an array of strings.".toList

/-- The field must be there and be an array of strings. -/
def strings (data : PyDict) (key context : Text) : Decoded (List Text) :=
  match data.get key with
  | .list items =>
    match items.mapM PyValue.text? with
    | some value => .ok value
    | none => .error (stringsError key context)
  | _ => .error (stringsError key context)

/-- An absent field and `null` are the empty tuple. -/
def optionalStrings (data : PyDict) (key context : Text) : Decoded (List Text) :=
  match data.get key with
  | .none => .ok []
  | _ => strings data key context

/-- The items of a response. -/
def list (value : PyValue) (context : Text) : Decoded (List PyValue) :=
  match value with
  | .list items => .ok items
  | _ => .error (context ++ " must be a JSON array.".toList)

/-! ### Events -/

/-- An event of a network. Its payload is the value that was read for it. -/
structure Event where
  id : Text
  network : Text
  stream : Text
  occurredAt : Text
  insertedAt : Text
  propagatedAt : Text
  counter : Int
  deviceId : Text
  payload : PyValue

/-- The payload of an event must be there, but may be any value, `null` among them. -/
def eventFromData (value : PyValue) (context : Text) : Decoded Event := do
  let data ← object value context
  match data.find? "payload".toList with
  | none => .error (context ++ ".payload is required.".toList)
  | some payload =>
    return {
      id := ← string data "id".toList context
      network := ← string data "network".toList context
      stream := ← string data "stream".toList context
      occurredAt := ← string data "occurredAt".toList context
      insertedAt := ← string data "insertedAt".toList context
      propagatedAt := ← string data "propagatedAt".toList context
      counter := ← integer data "counter".toList context
      deviceId := ← string data "deviceId".toList context
      payload }

/-- The events of an array, from the index of the first. -/
def eventsFromData (context : Text) : Nat → List PyValue → Decoded (List Event)
  | _, [] => .ok []
  | index, value :: values => do
    let event ← eventFromData value (context ++ "[".toList ++ Text.decimal index ++ "]".toList)
    let events ← eventsFromData context (index + 1) values
    return event :: events

/-! ### Durable siphons -/

/-- A durable siphon as it is listed. -/
structure DurableSiphon where
  version : Int
  name : Text
  network : Text
  streams : List Text
  cursor : Int
  createdAt : Text
  updatedAt : Text
  pendingDeliveryID : Option Text
  pendingCount : Int
  pendingAttempts : Int

/-- What the errors about a durable siphon name. -/
def durableSiphonContext : Text := "durable siphon".toList

/-- The fields of a durable siphon are read in this order; the first that is wrong is named. -/
def durableSiphonFromData (value : PyValue) : Decoded DurableSiphon := do
  let data ← object value durableSiphonContext
  return {
    version := ← integer data "version".toList durableSiphonContext
    name := ← string data "name".toList durableSiphonContext
    network := ← string data "network".toList durableSiphonContext
    streams := ← strings data "streams".toList durableSiphonContext
    cursor := ← integer data "cursor".toList durableSiphonContext
    createdAt := ← string data "createdAt".toList durableSiphonContext
    updatedAt := ← string data "updatedAt".toList durableSiphonContext
    pendingDeliveryID := ← optionalString data "pendingDeliveryId".toList durableSiphonContext
    pendingCount := ← integer data "pendingCount".toList durableSiphonContext
    pendingAttempts := ← integer data "pendingAttempts".toList durableSiphonContext }

/-- A delivery of a durable siphon; one without events has no ID. -/
structure DurableDelivery where
  version : Int
  name : Text
  network : Text
  deliveryID : Option Text
  cursorFrom : Int
  cursorThrough : Int
  attempt : Int
  events : List Event

/-- What the errors about a delivery name. -/
def durableDeliveryContext : Text := "durable delivery".toList

/-- The events are looked at before the other fields, and read after them. -/
def durableDeliveryFromData (value : PyValue) : Decoded DurableDelivery := do
  let data ← object value durableDeliveryContext
  match data.get "events".toList with
  | .list rawEvents =>
    return {
      version := ← integer data "version".toList durableDeliveryContext
      name := ← string data "name".toList durableDeliveryContext
      network := ← string data "network".toList durableDeliveryContext
      deliveryID := ← optionalString data "deliveryId".toList durableDeliveryContext
      cursorFrom := ← integer data "cursorFrom".toList durableDeliveryContext
      cursorThrough := ← integer data "cursorThrough".toList durableDeliveryContext
      attempt := ← integer data "attempt".toList durableDeliveryContext
      events := ← eventsFromData (durableDeliveryContext ++ ".events".toList) 0 rawEvents }
  | _ => .error (durableDeliveryContext ++ ".events must be an array.".toList)

/-! ### Mesh -/

/-- The public part of a membership. -/
structure NetworkMembership where
  name : Text
  id : Text

/-- Both fields of a membership are strings. -/
def membershipFromData (value : PyValue) (context : Text) : Decoded NetworkMembership := do
  let data ← object value context
  return {
    name := ← string data "name".toList context
    id := ← string data "id".toList context }

/-- What a synchronization with a peer came to. -/
structure MeshSyncResult where
  peerID : Text
  network : NetworkMembership
  inventoried : Int
  pushed : Int
  pulled : Int
  duplicates : Int
  conflicts : List Text

/-- The conflicts may be absent, the numbers may not. -/
def meshSyncFromData (value : PyValue) (context : Text) : Decoded MeshSyncResult := do
  let data ← object value context
  return {
    peerID := ← string data "peerId".toList context
    network := ← membershipFromData (data.get "network".toList) (context ++ ".network".toList)
    inventoried := ← integer data "inventoried".toList context
    pushed := ← integer data "pushed".toList context
    pulled := ← integer data "pulled".toList context
    duplicates := ← integer data "duplicates".toList context
    conflicts := ← optionalStrings data "conflicts".toList context }

/-- How the synchronization with a known peer goes. -/
structure MeshPeerStatus where
  network : NetworkMembership
  peerID : Text
  address : Text
  state : Text
  connected : Bool
  lastAttemptAt : Option Text
  lastSuccessAt : Option Text
  lastError : Option Text
  nextAttemptAt : Option Text
  consecutiveFailures : Int
  lastResult : Option MeshSyncResult

/-- What the errors about a mesh peer name. -/
def meshPeerContext : Text := "mesh peer".toList

/-- The result of the last synchronization, if there was one. -/
def lastResultFromData : PyValue → Decoded (Option MeshSyncResult)
  | .none => .ok none
  | rawLast => (meshSyncFromData rawLast (meshPeerContext ++ ".lastResult".toList)).map some

/-- The fields of a mesh peer; times, the last error and the last result may be absent. -/
def meshPeerFromData (value : PyValue) : Decoded MeshPeerStatus := do
  let data ← object value meshPeerContext
  return {
    network := ←
      membershipFromData (data.get "network".toList) (meshPeerContext ++ ".network".toList)
    peerID := ← string data "peerId".toList meshPeerContext
    address := ← string data "address".toList meshPeerContext
    state := ← string data "state".toList meshPeerContext
    connected := ← boolean data "connected".toList meshPeerContext
    lastAttemptAt := ← optionalString data "lastAttemptAt".toList meshPeerContext
    lastSuccessAt := ← optionalString data "lastSuccessAt".toList meshPeerContext
    lastError := ← optionalString data "lastError".toList meshPeerContext
    nextAttemptAt := ← optionalString data "nextAttemptAt".toList meshPeerContext
    consecutiveFailures := ← integer data "consecutiveFailures".toList meshPeerContext
    lastResult := ← lastResultFromData (data.get "lastResult".toList) }

/-! ### Conflicts -/

/-- A conflict with the digests of its variants, and how it was resolved. -/
structure EventConflict where
  network : Text
  eventID : Text
  localDigest : Text
  remoteDigests : List Text
  firstObservedAt : Text
  resolved : Bool
  resolutionEventIDs : List Text
  recoveredEventID : Option Text

/-- What the errors about a conflict name. -/
def eventConflictContext : Text := "event conflict".toList

/-- The resolutions may be absent, the digests of the variants may not. -/
def conflictFromData (value : PyValue) : Decoded EventConflict := do
  let data ← object value eventConflictContext
  return {
    network := ← string data "network".toList eventConflictContext
    eventID := ← string data "eventId".toList eventConflictContext
    localDigest := ← string data "localDigest".toList eventConflictContext
    remoteDigests := ← strings data "remoteDigests".toList eventConflictContext
    firstObservedAt := ← string data "firstObservedAt".toList eventConflictContext
    resolved := ← boolean data "resolved".toList eventConflictContext
    resolutionEventIDs := ← optionalStrings data "resolutionEventIds".toList eventConflictContext
    recoveredEventID := ← optionalString data "recoveredEventId".toList eventConflictContext }

/-- The strategy is always `preserve-both`. -/
structure ConflictResolution where
  network : Text
  eventID : Text
  resolutionEvent : Event
  recoveredEvent : Event
  alreadyResolved : Bool

/-- The only strategy of resolutions. -/
def preserveBoth : Text := "preserve-both".toList

/-- What the errors about a resolution name. -/
def conflictResolutionContext : Text := "conflict resolution".toList

/-- `repr` is how Python writes a string in a message. -/
def conflictResolutionFromData (repr : Text → Text) (value : PyValue) :
    Decoded ConflictResolution := do
  let data ← object value conflictResolutionContext
  let strategy ← string data "strategy".toList conflictResolutionContext
  if strategy ≠ preserveBoth then
    .error ("Unsupported conflict resolution strategy ".toList ++ repr strategy ++ ".".toList)
  else
    return {
      network := ← string data "network".toList conflictResolutionContext
      eventID := ← string data "eventId".toList conflictResolutionContext
      resolutionEvent := ← eventFromData (data.get "resolutionEvent".toList)
        (conflictResolutionContext ++ ".resolutionEvent".toList)
      recoveredEvent := ← eventFromData (data.get "recoveredEvent".toList)
        (conflictResolutionContext ++ ".recoveredEvent".toList)
      alreadyResolved := ← boolean data "alreadyResolved".toList conflictResolutionContext }

end Thalweg.SdkPython
