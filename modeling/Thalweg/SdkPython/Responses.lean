import Thalweg.Daemon.Answers
import Thalweg.Daemon.Delivery
import Thalweg.SdkPython.Loads

/-!
# Responses

The SDK decodes the response to a request into its models. Of most records that the daemon encodes
it reads the values of the fields. The lists that a durable siphon or a conflict has to hold are the
exception: a nil slice is encoded as `null`, which the decoder refuses where it does not allow an
absent list.

## Main definitions

* `Holds`: an encoded record has one field of a name.
* `decodeResponse`: the models of a response.
* `HasLists`: the slices in the answer to a request are not nil.

## Main results

* `accepted_iff`: the response to a request is decoded to the fields of its result exactly if the
  lists in it are there.
-/

namespace Thalweg.SdkPython

open Json (Marshalable)

/-! ### Fields of an encoded record -/

/-- The dictionary that an encoded record is read as. -/
def dictOf (fields : Fields) : PyDict := ofMembers [] (Json.memberValues (present fields))

theorem ofJson_record (fields : Fields) :
    PyValue.ofJson (marshalableRecord fields).value = .dict (dictOf fields) := rfl

/-- A record has one field of the name, with this value. -/
def Holds (fields : Fields) (key : Text) (value : Option Marshalable) : Prop :=
  fields.filter (fun f => decide (f.1 = key)) = [(key, value)]

theorem lastMember_present_eq_none {fields : Fields} {key : Text} (h : ∀ f ∈ fields, f.1 ≠ key) :
    lastMember key (Json.memberValues (present fields)) = none := by
  induction fields with
  | nil => rfl
  | cons f fields ih =>
    obtain ⟨hf, hfields⟩ := List.forall_mem_cons.mp h
    obtain ⟨name, _ | value⟩ := f
    · exact ih hfields
    · rw [present, Json.memberValues, lastMember, ih hfields, if_neg hf]
      rfl

namespace Holds

variable {fields : Fields} {key : Text} {value : Option Marshalable}

theorem lastMember (h : Holds fields key value) :
    SdkPython.lastMember key (Json.memberValues (present fields)) =
      value.map Marshalable.value := by
  induction fields with
  | nil => cases h
  | cons f fields ih =>
    unfold Holds at h
    by_cases hf : f.1 = key
    · rw [List.filter_cons, if_pos (decide_eq_true hf), List.cons.injEq] at h
      obtain ⟨rfl, hrest⟩ := h
      have hnone : ∀ f ∈ fields, f.1 ≠ key := fun f hmem heq =>
        List.filter_eq_nil_iff.mp hrest f hmem (decide_eq_true heq)
      cases value with
      | none => rw [present, lastMember_present_eq_none hnone, Option.map_none]
      | some value =>
        rw [present, Json.memberValues, SdkPython.lastMember, lastMember_present_eq_none hnone,
          if_pos rfl]
        rfl
    · rw [List.filter_cons, if_neg (by simpa using hf)] at h
      obtain ⟨name, _ | first⟩ := f
      · exact ih h
      · rw [present, Json.memberValues, SdkPython.lastMember, ih h, if_neg hf, Option.or_none]

theorem find?_eq (h : Holds fields key value) :
    (dictOf fields).find? key = value.map fun v => PyValue.ofJson v.value := by
  rw [dictOf, find?_ofJson_obj, h.lastMember, Option.map_map]
  rfl

theorem get_eq (h : Holds fields key value) :
    (dictOf fields).get key = (value.map fun v => PyValue.ofJson v.value).getD .none := by
  rw [PyDict.get, h.find?_eq]

theorem string_eq {s : Text} (h : Holds fields key (some (.str s))) (context : Text) :
    string (dictOf fields) key context = .ok s := by
  rw [string, h.get_eq]
  rfl

theorem integer_eq {n : Int} (h : Holds fields key (some (marshalableInt n))) (context : Text) :
    integer (dictOf fields) key context = .ok n := by
  have hget : (dictOf fields).get key = .int n := h.get_eq.trans (ofNumber_decimalInt n)
  rw [integer, hget]

theorem natural_eq {n : Nat} (h : Holds fields key (some (marshalableNat n))) (context : Text) :
    integer (dictOf fields) key context = .ok n := by
  have hget : (dictOf fields).get key = .int n := h.get_eq.trans (ofNumber_decimal n)
  rw [integer, hget]

theorem boolean_eq {b : Bool} (h : Holds fields key (some (.bool b))) (context : Text) :
    boolean (dictOf fields) key context = .ok b := by
  rw [boolean, h.get_eq]
  rfl

end Holds

theorem mapM_text_ofItems (values : List Text) :
    (ofItems (Json.itemValues (values.map Marshalable.str))).mapM PyValue.text? = some values := by
  induction values with
  | nil => rfl
  | cons s values ih =>
    rw [List.map_cons, Json.itemValues, ofItems, List.mapM_cons, ih]
    rfl

/-- An absent or empty text is `None`. -/
def optionalText (s : Text) : Option Text := if s = [] then none else some s

namespace Holds

variable {fields : Fields} {key : Text} {values : List Text}

theorem optionalString_eq {s : Text} (h : Holds fields key (omitempty s)) (context : Text) :
    optionalString (dictOf fields) key context = .ok (optionalText s) := by
  rw [optionalString, h.get_eq, omitempty, optionalText]
  split_ifs <;> rfl

theorem strings_texts (h : Holds fields key (some (marshalableTexts values))) (context : Text) :
    strings (dictOf fields) key context = .ok values := by
  have hget : (dictOf fields).get key = .list (ofItems (Json.itemValues (values.map .str))) :=
    h.get_eq
  rw [strings, hget]
  simp only [mapM_text_ofItems]

theorem strings_appended (h : Holds fields key (some (appendedTexts values))) (context : Text) :
    strings (dictOf fields) key context =
      if values = [] then .error (stringsError key context) else .ok values := by
  unfold appendedTexts at h
  split_ifs at h ⊢
  · rw [strings, h.get_eq]
    rfl
  · exact h.strings_texts context

theorem optionalStrings_eq (h : Holds fields key (omitemptyTexts values)) (context : Text) :
    optionalStrings (dictOf fields) key context = .ok values := by
  unfold omitemptyTexts at h
  split_ifs at h with hvalues
  · rw [optionalStrings, h.get_eq, hvalues]
    rfl
  · have hget : (dictOf fields).get key = .list (ofItems (Json.itemValues (values.map .str))) :=
      h.get_eq
    rw [optionalStrings, hget]
    exact h.strings_texts context

end Holds

/-! ### Durable siphons -/

/-- The siphon of the SDK for one of the daemon. -/
def siphonModel (info : DurableSiphonInfo) : DurableSiphon where
  version := info.version
  name := info.name
  network := info.network
  streams := info.streams
  cursor := info.cursor.toNat
  createdAt := info.createdAt
  updatedAt := info.updatedAt
  pendingDeliveryID := optionalText info.pendingDeliveryID
  pendingCount := info.pendingCount
  pendingAttempts := info.pendingAttempts

theorem durableSiphonFromData_info (info : DurableSiphonInfo) :
    durableSiphonFromData (PyValue.ofJson info.marshalable.value) =
      if info.streams = [] then .error (stringsError "streams".toList durableSiphonContext)
      else .ok (siphonModel info) := by
  have hversion : Holds info.fields "version".toList (some (marshalableInt info.version)) := rfl
  have hname : Holds info.fields "name".toList (some (.str info.name)) := rfl
  have hnetwork : Holds info.fields "network".toList (some (.str info.network)) := rfl
  have hstreams : Holds info.fields "streams".toList (some (appendedTexts info.streams)) := rfl
  have hcursor : Holds info.fields "cursor".toList (some (marshalableNat info.cursor.toNat)) := rfl
  have hcreated : Holds info.fields "createdAt".toList (some (.str info.createdAt)) := rfl
  have hupdated : Holds info.fields "updatedAt".toList (some (.str info.updatedAt)) := rfl
  have hpending : Holds info.fields "pendingDeliveryId".toList
    (omitempty info.pendingDeliveryID) := rfl
  have hcount : Holds info.fields "pendingCount".toList
    (some (marshalableNat info.pendingCount)) := rfl
  have hattempts : Holds info.fields "pendingAttempts".toList
    (some (marshalableInt info.pendingAttempts)) := rfl
  rw [durableSiphonFromData, DurableSiphonInfo.marshalable, ofJson_record]
  simp only [object, bind, Except.bind, hversion.integer_eq, hname.string_eq, hnetwork.string_eq,
    hstreams.strings_appended, hcursor.natural_eq, hcreated.string_eq, hupdated.string_eq,
    hpending.optionalString_eq, hcount.natural_eq, hattempts.integer_eq]
  split_ifs <;> rfl

/-! ### Events -/

/-- The event of the SDK for one of the daemon. -/
def eventModel (event : ThalwegEvent) : Event where
  id := event.id
  network := event.network
  stream := event.stream
  occurredAt := event.occurredAt
  insertedAt := event.insertedAt
  propagatedAt := event.propagatedAt
  counter := event.counter.toNat
  deviceId := event.deviceID
  payload := PyValue.ofJson ((Json.parse (payloadOrNull event.payload)).getD .null)

theorem eventFromData_event (event : ThalwegEvent) (context : Text) :
    eventFromData (PyValue.ofJson event.marshalable.value) context = .ok (eventModel event) := by
  have hid : Holds event.fields "id".toList (some (.str event.id)) := rfl
  have hnetwork : Holds event.fields "network".toList (some (.str event.network)) := rfl
  have hstream : Holds event.fields "stream".toList (some (.str event.stream)) := rfl
  have hoccurred : Holds event.fields "occurredAt".toList (some (.str event.occurredAt)) := rfl
  have hinserted : Holds event.fields "insertedAt".toList (some (.str event.insertedAt)) := rfl
  have hpropagated : Holds event.fields "propagatedAt".toList
    (some (.str event.propagatedAt)) := rfl
  have hcounter : Holds event.fields "counter".toList
    (some (marshalableNat event.counter.toNat)) := rfl
  have hdevice : Holds event.fields "deviceId".toList (some (.str event.deviceID)) := rfl
  have hpayload : Holds event.fields "payload".toList
    (some (.raw (payloadOrNull event.payload))) := rfl
  rw [eventFromData, ThalwegEvent.marshalable, ofJson_record]
  simp only [object, bind, Except.bind, hpayload.find?_eq, Option.map_some, hid.string_eq,
    hnetwork.string_eq, hstream.string_eq, hoccurred.string_eq, hinserted.string_eq,
    hpropagated.string_eq, hcounter.natural_eq, hdevice.string_eq]
  rfl

theorem eventsFromData_events (context : Text) (index : Nat) (events : List ThalwegEvent) :
    eventsFromData context index
      (ofItems (Json.itemValues (events.map ThalwegEvent.marshalable))) =
        .ok (events.map eventModel) := by
  induction events generalizing index with
  | nil => rfl
  | cons event events ih =>
    rw [List.map_cons, Json.itemValues, ofItems, eventsFromData, eventFromData_event, ih]
    rfl

/-- The delivery of the SDK for one of the daemon. -/
def deliveryModel (delivery : DurableSiphonDelivery) : DurableDelivery where
  version := delivery.version
  name := delivery.name
  network := delivery.network
  deliveryID := optionalText delivery.deliveryID
  cursorFrom := delivery.cursorFrom.toNat
  cursorThrough := delivery.cursorThrough.toNat
  attempt := delivery.attempt
  events := delivery.events.map eventModel

theorem durableDeliveryFromData_delivery (delivery : DurableSiphonDelivery) :
    durableDeliveryFromData (PyValue.ofJson delivery.marshalable.value) =
      .ok (deliveryModel delivery) := by
  have hversion : Holds delivery.fields "version".toList
    (some (marshalableInt delivery.version)) := rfl
  have hname : Holds delivery.fields "name".toList (some (.str delivery.name)) := rfl
  have hnetwork : Holds delivery.fields "network".toList (some (.str delivery.network)) := rfl
  have hid : Holds delivery.fields "deliveryId".toList (omitempty delivery.deliveryID) := rfl
  have hfrom : Holds delivery.fields "cursorFrom".toList
    (some (marshalableNat delivery.cursorFrom.toNat)) := rfl
  have hthrough : Holds delivery.fields "cursorThrough".toList
    (some (marshalableNat delivery.cursorThrough.toNat)) := rfl
  have hattempt : Holds delivery.fields "attempt".toList
    (some (marshalableInt delivery.attempt)) := rfl
  have hevents : Holds delivery.fields "events".toList
    (some (.arr (delivery.events.map ThalwegEvent.marshalable))) := rfl
  have hget : (dictOf delivery.fields).get "events".toList =
    .list (ofItems (Json.itemValues (delivery.events.map ThalwegEvent.marshalable))) :=
      hevents.get_eq
  rw [durableDeliveryFromData, DurableSiphonDelivery.marshalable, ofJson_record]
  simp only [object, bind, Except.bind, hget, hversion.integer_eq, hname.string_eq,
    hnetwork.string_eq, hid.optionalString_eq, hfrom.natural_eq, hthrough.natural_eq,
    hattempt.integer_eq, eventsFromData_events]
  rfl

/-! ### Mesh -/

/-- The membership of the SDK for one of the daemon. -/
def membershipModel (info : NetworkMembershipInfo) : NetworkMembership := ⟨info.name, info.id⟩

theorem membershipFromData_info (info : NetworkMembershipInfo) (context : Text) :
    membershipFromData (PyValue.ofJson info.marshalable.value) context =
      .ok (membershipModel info) := by
  have hname : Holds info.fields "name".toList (some (.str info.name)) := rfl
  have hid : Holds info.fields "id".toList (some (.str info.id)) := rfl
  rw [membershipFromData, NetworkMembershipInfo.marshalable, ofJson_record]
  simp only [object, bind, Except.bind, hname.string_eq, hid.string_eq]
  rfl

/-- The result of a synchronization of the SDK for one of the daemon. -/
def syncModel (result : SyncResult) : MeshSyncResult where
  peerID := result.peerID
  network := membershipModel result.network
  inventoried := result.inventoried
  pushed := result.pushed
  pulled := result.pulled
  duplicates := result.duplicates
  conflicts := result.conflicts

theorem meshSyncFromData_result (result : SyncResult) (context : Text) :
    meshSyncFromData (PyValue.ofJson result.marshalable.value) context =
      .ok (syncModel result) := by
  have hpeer : Holds result.fields "peerId".toList (some (.str result.peerID)) := rfl
  have hnetwork : Holds result.fields "network".toList (some result.network.marshalable) := rfl
  have hget : (dictOf result.fields).get "network".toList =
    PyValue.ofJson result.network.marshalable.value := hnetwork.get_eq
  have hinventoried : Holds result.fields "inventoried".toList
    (some (marshalableNat result.inventoried)) := rfl
  have hpushed : Holds result.fields "pushed".toList (some (marshalableNat result.pushed)) := rfl
  have hpulled : Holds result.fields "pulled".toList (some (marshalableNat result.pulled)) := rfl
  have hduplicates : Holds result.fields "duplicates".toList
    (some (marshalableNat result.duplicates)) := rfl
  have hconflicts : Holds result.fields "conflicts".toList
    (omitemptyTexts result.conflicts) := rfl
  rw [meshSyncFromData, SyncResult.marshalable, ofJson_record]
  simp only [object, bind, Except.bind, hpeer.string_eq, hget, membershipFromData_info,
    hinventoried.natural_eq, hpushed.natural_eq, hpulled.natural_eq, hduplicates.natural_eq,
    hconflicts.optionalStrings_eq]
  rfl

/-- The status of a peer of the SDK for one of the daemon. -/
def peerModel (status : Thalweg.MeshPeerStatus) : MeshPeerStatus where
  network := membershipModel status.network
  peerID := status.peerID
  address := status.address
  state := status.state
  connected := status.connected
  lastAttemptAt := optionalText status.lastAttemptAt
  lastSuccessAt := optionalText status.lastSuccessAt
  lastError := optionalText status.lastError
  nextAttemptAt := optionalText status.nextAttemptAt
  consecutiveFailures := status.consecutiveFailures
  lastResult := status.lastResult.map syncModel

/-- The dictionary of a result is not `None`. -/
theorem lastResultFromData_result (result : Option SyncResult) :
    lastResultFromData (((result.map SyncResult.marshalable).map fun v =>
      PyValue.ofJson v.value).getD .none) = .ok (result.map syncModel) := by
  cases result with
  | none => rfl
  | some result =>
    have hdict : PyValue.ofJson result.marshalable.value = .dict (dictOf result.fields) := rfl
    have hdecoded := meshSyncFromData_result result (meshPeerContext ++ ".lastResult".toList)
    rw [hdict] at hdecoded
    simp only [Option.map_some, Option.getD_some, hdict, lastResultFromData, hdecoded]
    rfl

theorem meshPeerFromData_status (status : Thalweg.MeshPeerStatus) :
    meshPeerFromData (PyValue.ofJson status.marshalable.value) = .ok (peerModel status) := by
  have hnetwork : Holds status.fields "network".toList (some status.network.marshalable) := rfl
  have hget : (dictOf status.fields).get "network".toList =
    PyValue.ofJson status.network.marshalable.value := hnetwork.get_eq
  have hpeer : Holds status.fields "peerId".toList (some (.str status.peerID)) := rfl
  have haddress : Holds status.fields "address".toList (some (.str status.address)) := rfl
  have hstate : Holds status.fields "state".toList (some (.str status.state)) := rfl
  have hconnected : Holds status.fields "connected".toList (some (.bool status.connected)) := rfl
  have hattempt : Holds status.fields "lastAttemptAt".toList
    (omitempty status.lastAttemptAt) := rfl
  have hsuccess : Holds status.fields "lastSuccessAt".toList
    (omitempty status.lastSuccessAt) := rfl
  have herror : Holds status.fields "lastError".toList (omitempty status.lastError) := rfl
  have hnext : Holds status.fields "nextAttemptAt".toList (omitempty status.nextAttemptAt) := rfl
  have hfailures : Holds status.fields "consecutiveFailures".toList
    (some (marshalableInt status.consecutiveFailures)) := rfl
  have hlast : Holds status.fields "lastResult".toList
    (status.lastResult.map SyncResult.marshalable) := rfl
  rw [meshPeerFromData, Thalweg.MeshPeerStatus.marshalable, ofJson_record]
  simp only [object, bind, Except.bind, hget, membershipFromData_info, hpeer.string_eq,
    haddress.string_eq, hstate.string_eq, hconnected.boolean_eq, hattempt.optionalString_eq,
    hsuccess.optionalString_eq, herror.optionalString_eq, hnext.optionalString_eq,
    hfailures.integer_eq, hlast.get_eq, lastResultFromData_result]
  rfl

/-! ### Conflicts -/

/-- The conflict of the SDK for one of the daemon. -/
def conflictModel (info : EventConflictInfo) : EventConflict where
  network := info.network
  eventID := info.eventID
  localDigest := info.localDigest
  remoteDigests := info.remoteDigests
  firstObservedAt := info.firstObservedAt
  resolved := info.resolved
  resolutionEventIDs := info.resolutionEventIDs
  recoveredEventID := optionalText info.recoveredEventID

theorem conflictFromData_info (info : EventConflictInfo) :
    conflictFromData (PyValue.ofJson info.marshalable.value) =
      if info.remoteDigests = [] then
        .error (stringsError "remoteDigests".toList eventConflictContext)
      else .ok (conflictModel info) := by
  have hnetwork : Holds info.fields "network".toList (some (.str info.network)) := rfl
  have hid : Holds info.fields "eventId".toList (some (.str info.eventID)) := rfl
  have hlocal : Holds info.fields "localDigest".toList (some (.str info.localDigest)) := rfl
  have hremote : Holds info.fields "remoteDigests".toList
    (some (appendedTexts info.remoteDigests)) := rfl
  have hobserved : Holds info.fields "firstObservedAt".toList
    (some (.str info.firstObservedAt)) := rfl
  have hresolved : Holds info.fields "resolved".toList (some (.bool info.resolved)) := rfl
  have hresolutions : Holds info.fields "resolutionEventIds".toList
    (omitemptyTexts info.resolutionEventIDs) := rfl
  have hrecovered : Holds info.fields "recoveredEventId".toList
    (omitempty info.recoveredEventID) := rfl
  rw [conflictFromData, EventConflictInfo.marshalable, ofJson_record]
  simp only [object, bind, Except.bind, hnetwork.string_eq, hid.string_eq, hlocal.string_eq,
    hremote.strings_appended, hobserved.string_eq, hresolved.boolean_eq,
    hresolutions.optionalStrings_eq, hrecovered.optionalString_eq]
  split_ifs <;> rfl

/-- The resolution of the SDK for one of the daemon. -/
def resolutionModel (result : EventConflictResolutionResult) : ConflictResolution where
  network := result.network
  eventID := result.eventID
  resolutionEvent := eventModel result.resolutionEvent
  recoveredEvent := eventModel result.recoveredEvent
  alreadyResolved := result.alreadyResolved

theorem conflictResolutionFromData_result (repr : Text → Text)
    {result : EventConflictResolutionResult} (h : result.strategy = preserveBoth) :
    conflictResolutionFromData repr (PyValue.ofJson result.marshalable.value) =
      .ok (resolutionModel result) := by
  have hnetwork : Holds result.fields "network".toList (some (.str result.network)) := rfl
  have hid : Holds result.fields "eventId".toList (some (.str result.eventID)) := rfl
  have hstrategy : Holds result.fields "strategy".toList (some (.str result.strategy)) := rfl
  have hresolution : Holds result.fields "resolutionEvent".toList
    (some result.resolutionEvent.marshalable) := rfl
  have hrecovered : Holds result.fields "recoveredEvent".toList
    (some result.recoveredEvent.marshalable) := rfl
  have hresolutionGet : (dictOf result.fields).get "resolutionEvent".toList =
    PyValue.ofJson result.resolutionEvent.marshalable.value := hresolution.get_eq
  have hrecoveredGet : (dictOf result.fields).get "recoveredEvent".toList =
    PyValue.ofJson result.recoveredEvent.marshalable.value := hrecovered.get_eq
  have halready : Holds result.fields "alreadyResolved".toList
    (some (.bool result.alreadyResolved)) := rfl
  rw [conflictResolutionFromData, EventConflictResolutionResult.marshalable, ofJson_record]
  simp only [object, bind, Except.bind, hstrategy.string_eq, h, ne_eq, not_true_eq_false, if_false,
    hnetwork.string_eq, hid.string_eq, hresolutionGet, hrecoveredGet, eventFromData_event,
    halready.boolean_eq]
  rfl

/-! ### Lists -/

/-- A list is decoded if its items are. -/
theorem mapM_ofItems {α β : Type} {decode : PyValue → Decoded β} {encode : α → Marshalable}
    {model : α → β} {items : List α}
    (h : ∀ a ∈ items, decode (PyValue.ofJson (encode a).value) = .ok (model a)) :
    (ofItems (Json.itemValues (items.map encode))).mapM decode = .ok (items.map model) := by
  induction items with
  | nil => rfl
  | cons a items ih =>
    obtain ⟨ha, hitems⟩ := List.forall_mem_cons.mp h
    rw [List.map_cons, Json.itemValues, ofItems, List.mapM_cons, ha, ih hitems]
    rfl

/-- Of a list that is decoded every item is. -/
theorem exists_of_mapM_ofItems {α β : Type} {decode : PyValue → Decoded β}
    {encode : α → Marshalable} {items : List α} {models : List β}
    (h : (ofItems (Json.itemValues (items.map encode))).mapM decode = .ok models) :
    ∀ a ∈ items, ∃ m, decode (PyValue.ofJson (encode a).value) = .ok m := by
  induction items generalizing models with
  | nil => exact List.forall_mem_nil _
  | cons a items ih =>
    rw [List.map_cons, Json.itemValues, ofItems, List.mapM_cons] at h
    cases ha : decode (PyValue.ofJson (encode a).value) with
    | error e =>
      rw [ha] at h
      cases h
    | ok m =>
      rw [ha] at h
      cases hitems : (ofItems (Json.itemValues (items.map encode))).mapM decode with
      | error e =>
        rw [hitems] at h
        cases h
      | ok rest => exact List.forall_mem_cons.mpr ⟨⟨m, ha⟩, ih hitems⟩

section

variable {α β : Type} {decode : PyValue → Decoded β} {encode : α → Marshalable} {model : α → β}
  {slice : α → List Text} {error : Text}

/-- The items of a list that is decoded have their lists, where an item is refused otherwise. -/
theorem slice_ne_nil_of_mapM_ofItems (h : ∀ a, decode (PyValue.ofJson (encode a).value) =
      if slice a = [] then .error error else .ok (model a)) {items : List α} {models : List β}
    (hitems : (ofItems (Json.itemValues (items.map encode))).mapM decode = .ok models) :
    ∀ a ∈ items, slice a ≠ [] := by
  intro a ha hnil
  obtain ⟨m, hm⟩ := exists_of_mapM_ofItems hitems a ha
  rw [h, if_pos hnil] at hm
  cases hm

/-- Where an item is decoded exactly if it has its list, a list is if all its items have theirs. -/
theorem mapM_ofItems_iff (h : ∀ a, decode (PyValue.ofJson (encode a).value) =
      if slice a = [] then .error error else .ok (model a)) (items : List α) :
    (ofItems (Json.itemValues (items.map encode))).mapM decode = .ok (items.map model) ↔
      ∀ a ∈ items, slice a ≠ [] :=
  ⟨slice_ne_nil_of_mapM_ofItems h,
    fun hitems => mapM_ofItems fun a ha => by rw [h, if_neg (hitems a ha)]⟩

/-- A list is decoded to the models of its items or refused. -/
theorem mapM_ofItems_ok_or_error (h : ∀ a, decode (PyValue.ofJson (encode a).value) =
      if slice a = [] then .error error else .ok (model a)) (items : List α) :
    (ofItems (Json.itemValues (items.map encode))).mapM decode = .ok (items.map model) ∨
      ∃ e, (ofItems (Json.itemValues (items.map encode))).mapM decode = .error e := by
  cases hitems : (ofItems (Json.itemValues (items.map encode))).mapM decode with
  | error e => exact Or.inr ⟨e, rfl⟩
  | ok models =>
    rw [← hitems]
    exact Or.inl ((mapM_ofItems_iff h items).mpr (slice_ne_nil_of_mapM_ofItems h hitems))

end

/-! ### Responses -/

/-- What the SDK returns for a response. -/
inductive ResponseModel where
  | durableSiphon (siphon : DurableSiphon)
  | durableSiphons (siphons : List DurableSiphon)
  | durableDelivery (delivery : DurableDelivery)
  | event (event : Event)
  | events (events : List Event)
  | conflicts (conflicts : List EventConflict)
  | resolution (resolution : ConflictResolution)
  | sync (result : MeshSyncResult)
  | meshPeers (peers : List MeshPeerStatus)

/-- The items of a response, each decoded. -/
def decodeList {β : Type} (decode : PyValue → Decoded β) (context : Text) (value : PyValue) :
    Decoded (List β) := do
  let items ← list value context
  items.mapM decode

/-- Decode the response to a request. -/
def decodeResponse (repr : Text → Text) (value : PyValue) : ClientRequest → Decoded ResponseModel
  | .durableSiphon (.durableSiphonCreate ..) => (durableSiphonFromData value).map .durableSiphon
  | .durableSiphon (.durableSiphonList _) =>
    (decodeList durableSiphonFromData "durable_siphon_list response".toList value).map
      .durableSiphons
  | .durableSiphon (.durableSiphonPoll ..) =>
    (durableDeliveryFromData value).map .durableDelivery
  | .durableSiphon (.durableSiphonAck ..) => (durableSiphonFromData value).map .durableSiphon
  | .eventIngest .. => (eventFromData value "event_ingest response".toList).map .event
  | .eventQuery .. => do
    let items ← list value "event_query response".toList
    let events ← eventsFromData "event_query response".toList 0 items
    return .events events
  | .eventConflictList _ =>
    (decodeList conflictFromData "event_conflict_list response".toList value).map .conflicts
  | .eventConflictResolve .. => (conflictResolutionFromData repr value).map .resolution
  | .meshSync .. => (meshSyncFromData value "mesh sync".toList).map .sync
  | .meshPeerList _ =>
    (decodeList meshPeerFromData "mesh_peer_list response".toList value).map .meshPeers

/-- The fields of a result. -/
def answerModel : ClientAnswer → ResponseModel
  | .durableSiphon (.info info) => .durableSiphon (siphonModel info)
  | .durableSiphon (.infos infos) => .durableSiphons (infos.map siphonModel)
  | .durableSiphon (.delivery delivery) => .durableDelivery (deliveryModel delivery)
  | .event e => .event (eventModel e)
  | .events es => .events (es.map eventModel)
  | .conflicts infos => .conflicts (infos.map conflictModel)
  | .resolution result => .resolution (resolutionModel result)
  | .sync result => .sync (syncModel result)
  | .meshPeers statuses => .meshPeers (statuses.map peerModel)

/-- The response is decoded to the fields of the result. -/
def Accepted (repr : Text → Text) (request : ClientRequest) (answer : ClientAnswer) : Prop :=
  decodeResponse repr (PyValue.ofJson answer.marshalable.value) request = .ok (answerModel answer)

/-- The durable siphons and conflicts that answer the request have the lists that the SDK asks for:
a siphon names streams, and a resolved conflict was observed. -/
def HasLists (d : Daemon) : ClientRequest → Prop
  | .durableSiphon (.durableSiphonCreate _ _ streams _) => streams ≠ []
  | .durableSiphon (.durableSiphonList network) =>
    ∀ entry ∈ d.store.scan (durableSiphonPrefix network) (durableSiphonPrefix network),
      ∀ definition, decodeDurableSiphon entry.2 = .ok definition →
        ¬ registryReservedPrefix <+: definition.name → definition.streams ≠ []
  | .durableSiphon (.durableSiphonAck network name _) =>
    ∀ definition, readDurableSiphon d.store network name = .ok (some definition) →
      definition.streams ≠ []
  | .eventConflictList network =>
    ∀ resolutions, conflictResolutionsTxn d.store network = .ok resolutions →
      ∀ r ∈ resolutions, Observed d.store network r.1
  | _ => True

theorem map_eq_ok_iff {ε α β : Type} {x : Except ε α} {f : α → β} (hf : Function.Injective f)
    {a : α} : x.map f = .ok (f a) ↔ x = .ok a := by
  cases x with
  | error e => simp [Except.map]
  | ok b => simp [Except.map, hf.eq_iff]

/-- The response to a request about durable siphons. -/
theorem accepted_durableSiphon_iff (repr : Text → Text) {d : Daemon}
    {request : PublicSiphonRequest} {answer : PublicSiphonAnswer}
    (h : (d.handlePublicSiphon request).1 = .ok answer) :
    Accepted repr (.durableSiphon request) (.durableSiphon answer) ↔
      HasLists d (.durableSiphon request) := by
  have hinfo : ∀ info : DurableSiphonInfo, (durableSiphonFromData
      (PyValue.ofJson info.marshalable.value)).map ResponseModel.durableSiphon =
        .ok (.durableSiphon (siphonModel info)) ↔ info.streams ≠ [] := by
    intro info
    rw [map_eq_ok_iff fun _ _ => ResponseModel.durableSiphon.inj, durableSiphonFromData_info]
    split_ifs with hnil <;> simp [hnil]
  cases request with
  | durableSiphonCreate network name streams start =>
    rw [Daemon.handlePublicSiphon] at h
    split at h
    · cases h
    obtain ⟨info, hcreate, rfl⟩ := exists_of_map_eq_ok h
    exact (hinfo info).trans (not_congr (Daemon.streams_createDurableSiphon hcreate))
  | durableSiphonList network =>
    obtain ⟨infos, rfl, hstreams⟩ := streams_handlePublicSiphon_list h
    refine Iff.trans ?_ hstreams
    exact (map_eq_ok_iff fun _ _ => ResponseModel.durableSiphons.inj).trans
      (mapM_ofItems_iff durableSiphonFromData_info infos)
  | durableSiphonPoll network name limit waitMillis random closed wakes =>
    rw [Daemon.handlePublicSiphon] at h
    split at h
    · cases h
    obtain ⟨delivery, -, rfl⟩ := exists_of_map_eq_ok h
    refine iff_of_true ?_ trivial
    exact (map_eq_ok_iff fun _ _ => ResponseModel.durableDelivery.inj).mpr
      (durableDeliveryFromData_delivery delivery)
  | durableSiphonAck network name deliveryID =>
    obtain ⟨info, hack, rfl⟩ := exists_of_map_eq_ok h
    obtain ⟨definition, hread, hstreams⟩ := Daemon.exists_acknowledgeDurableSiphon hack
    refine (hinfo info).trans ?_
    rw [hstreams]
    constructor
    · intro hne definition' hread'
      rw [hread] at hread'
      obtain rfl := Option.some.inj (Except.ok.inj hread')
      exact hne
    · exact fun hall => hall definition hread

/-- What the SDK makes of a response is the result exactly if its lists are there. -/
theorem accepted_iff (repr : Text → Text) {d : Daemon} {s : MeshState} {host : MeshHost}
    {request : ClientRequest} {answer : ClientAnswer} (h : ClientAnswered d s host request answer) :
    Accepted repr request answer ↔ HasLists d request := by
  cases h with
  | durableSiphon h => exact accepted_durableSiphon_iff repr h
  | eventIngest _ =>
    exact iff_of_true ((map_eq_ok_iff fun _ _ => ResponseModel.event.inj).mpr
      (eventFromData_event _ _)) trivial
  | @eventQuery network streams from' to' limit order events _ =>
    have hevents := eventsFromData_events "event_query response".toList 0 events
    refine iff_of_true ?_ trivial
    change (eventsFromData _ 0 (ofItems (Json.itemValues _)) >>= fun events =>
      pure (ResponseModel.events events)) = _
    rw [hevents]
    rfl
  | @eventConflictList network conflicts h =>
    obtain ⟨resolutions, hresolutions, hdigests⟩ := remoteDigests_listEventConflicts h
    have hlists : (∀ r ∈ resolutions, Observed d.store network r.1) ↔
        HasLists d (.eventConflictList network) := by
      constructor
      · intro hall resolutions' heq
        rw [hresolutions] at heq
        obtain rfl := Except.ok.inj heq
        exact hall
      · exact fun hall => hall resolutions hresolutions
    rw [← hlists, ← hdigests]
    exact (map_eq_ok_iff fun _ _ => ResponseModel.conflicts.inj).trans
      (mapM_ofItems_iff conflictFromData_info _)
  | eventConflictResolve h =>
    exact iff_of_true ((map_eq_ok_iff fun _ _ => ResponseModel.resolution.inj).mpr
      (conflictResolutionFromData_result repr (strategy_resolveEventConflict h))) trivial
  | meshSync result =>
    exact iff_of_true ((map_eq_ok_iff fun _ _ => ResponseModel.sync.inj).mpr
      (meshSyncFromData_result result _)) trivial
  | meshPeerList _ =>
    exact iff_of_true ((map_eq_ok_iff fun _ _ => ResponseModel.meshPeers.inj).mpr
      (mapM_ofItems fun status _ => meshPeerFromData_status status)) trivial

theorem map_ok_or_error {ε α β : Type} {x : Except ε α} {f : α → β} {a : α}
    (h : x = .ok a ∨ ∃ e, x = .error e) : x.map f = .ok (f a) ∨ ∃ e, x.map f = .error e := by
  rcases h with rfl | ⟨e, rfl⟩
  · exact Or.inl rfl
  · exact Or.inr ⟨e, rfl⟩

theorem durableSiphon_accepted_or_error (repr : Text → Text) {d : Daemon}
    {request : PublicSiphonRequest} {answer : PublicSiphonAnswer}
    (h : (d.handlePublicSiphon request).1 = .ok answer) :
    Accepted repr (.durableSiphon request) (.durableSiphon answer) ∨ ∃ message,
      decodeResponse repr (PyValue.ofJson (ClientAnswer.durableSiphon answer).marshalable.value)
        (.durableSiphon request) = .error message := by
  have hinfo (info : DurableSiphonInfo) :
      durableSiphonFromData (PyValue.ofJson info.marshalable.value) = .ok (siphonModel info) ∨
        ∃ e, durableSiphonFromData (PyValue.ofJson info.marshalable.value) = .error e := by
    rw [durableSiphonFromData_info]
    split_ifs
    · exact Or.inr ⟨_, rfl⟩
    · exact Or.inl rfl
  cases request with
  | durableSiphonCreate network name streams start =>
    rw [Daemon.handlePublicSiphon] at h
    split at h
    · cases h
    obtain ⟨info, -, rfl⟩ := exists_of_map_eq_ok h
    exact map_ok_or_error (hinfo info)
  | durableSiphonList network =>
    obtain ⟨infos, rfl, -⟩ := streams_handlePublicSiphon_list h
    exact map_ok_or_error (mapM_ofItems_ok_or_error durableSiphonFromData_info infos)
  | durableSiphonPoll network name limit waitMillis random closed wakes =>
    exact Or.inl ((accepted_durableSiphon_iff repr h).mpr trivial)
  | durableSiphonAck network name deliveryID =>
    obtain ⟨info, -, rfl⟩ := exists_of_map_eq_ok h
    exact map_ok_or_error (hinfo info)

/-- A response is never decoded to anything else than the result. -/
theorem accepted_or_error (repr : Text → Text) {d : Daemon} {s : MeshState} {host : MeshHost}
    {request : ClientRequest} {answer : ClientAnswer} (h : ClientAnswered d s host request answer) :
    Accepted repr request answer ∨ ∃ message,
      decodeResponse repr (PyValue.ofJson answer.marshalable.value) request = .error message := by
  have hiff := accepted_iff repr h
  cases h with
  | durableSiphon h => exact durableSiphon_accepted_or_error repr h
  | @eventConflictList network conflicts _ =>
    exact map_ok_or_error (mapM_ofItems_ok_or_error conflictFromData_info conflicts)
  | eventIngest _ | eventQuery _ | eventConflictResolve _ | meshSync _ | meshPeerList _ =>
    exact Or.inl (hiff.mpr trivial)

/-- **Responses.** The SDK decodes the response to a request, and to the fields of its result,
exactly if the lists are there that it asks for; it raises otherwise. -/
theorem decodes_response_iff (repr : Text → Text) {d : Daemon} {s : MeshState} {host : MeshHost}
    {request : ClientRequest} {answer : ClientAnswer} (h : ClientAnswered d s host request answer)
    {text : Text} (htext : Json.marshal answer.marshalable = some text) :
    ((∃ v, Json.Spells v.depth v text ∧
      decodeResponse repr (PyValue.ofJson v) request = .ok (answerModel answer)) ↔
      HasLists d request) ∧
    (¬ HasLists d request → ∃ v, Json.Spells v.depth v text ∧ ∃ message,
      decodeResponse repr (PyValue.ofJson v) request = .error message) := by
  rw [← accepted_iff repr h]
  have hspells := Json.spells_marshal answer.marshalable htext
  refine ⟨⟨?_, fun hdecode => ⟨_, hspells, hdecode⟩⟩, fun hrefused =>
    ⟨_, hspells, (accepted_or_error repr h).resolve_left hrefused⟩⟩
  rintro ⟨v, hv, hdecode⟩
  rwa [hv.unique hspells] at hdecode

/-- A daemon without peers, and a host without connections. -/
def noPeers : MeshState := .initial ⟨['p'], by decide⟩ [] OrderedStore.empty

def noHost : MeshHost := ⟨fun _ => true, fun _ => none, fun _ => false⟩

/-- A new siphon of one stream. -/
def createStreamA : PublicSiphonRequest := .durableSiphonCreate ['h'] ['s'] [['a']] []

theorem emptyNetwork_decodes_response : ∃ answer text,
    ClientAnswered Daemon.emptyNetwork noPeers noHost (.durableSiphon createStreamA) answer ∧
    Json.marshal answer.marshalable = some text ∧ ∃ v, Json.Spells v.depth v text ∧
      decodeResponse id (PyValue.ofJson v) (.durableSiphon createStreamA) =
        .ok (answerModel answer) := by
  have hsome : ((Daemon.emptyNetwork.handlePublicSiphon createStreamA).1.toOption.bind fun answer =>
      Json.marshal (ClientAnswer.durableSiphon answer).marshalable).isSome = true := by
    decide +kernel
  obtain ⟨text, hbind⟩ := Option.isSome_iff_exists.mp hsome
  obtain ⟨answer, hanswer, htext⟩ := Option.bind_eq_some_iff.mp hbind
  have hanswers : ClientAnswered Daemon.emptyNetwork noPeers noHost (.durableSiphon createStreamA)
      (.durableSiphon answer) := .durableSiphon (eq_ok_of_toOption hanswer)
  exact ⟨_, text, hanswers, htext,
    (decodes_response_iff id hanswers htext).1.mpr (List.cons_ne_nil _ _)⟩

end Thalweg.SdkPython
