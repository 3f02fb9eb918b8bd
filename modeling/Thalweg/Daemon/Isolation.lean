import Thalweg.Data.Agreement
import Thalweg.Daemon.StoreInvariant
import Thalweg.Daemon.SyncServer

/-!
# The isolation of networks in sessions

A peer that holds the credentials of one network may send any frames in its session. It gets
records of that network only, it changes records of that network only, and what it is told does not
depend on the other networks that the daemon has mounted. The clock state and the arrival counter
are shared by all networks, so a session reads and writes them.

## Main definitions

* `sessionKeys`: the keys that a session of a network reads and writes.
* `Daemon.SameSession`, `Daemon.ChangesInside`: two daemons are the same to sessions of a network,
  and one becomes the other in such a session.

## Main results

* `Daemon.Reachable.session_inside`: a session stays in its network.
* `Daemon.Reachable.sessions_alike`: daemons that agree on the network answer alike.
* `Daemon.session_rejected`: frames of other networks, pushes with foreign or malformed events and
  frames that are too long change nothing.
-/

namespace Thalweg

open ByteSpace (newline)
open OrderedStore (AgreeOn)

/-! ### The keys of a session -/

/-- The keys that a session of a network reads and writes: those of the network's records, and the
clock state and the arrival counter, which all networks share. -/
def sessionKeys (networkName : Text) : Set Text :=
  {key | eventNetworkPrefix networkName <+: key ∨ eventIDPrefix networkName <+: key ∨
    arrivalIndexPrefix networkName <+: key ∨ conflictNetworkPrefix networkName <+: key ∨
      key = hlcStateKey ∨ key = arrivalSequenceKey}

variable {networkName : Text}

theorem eventIDKey_mem_sessionKeys (eventID : Text) :
    eventIDKey networkName eventID ∈ sessionKeys networkName :=
  Or.inr (Or.inl (List.prefix_append _ _))

theorem arrivalIndexKey_mem_sessionKeys (sequence : UInt64) :
    arrivalIndexKey networkName sequence ∈ sessionKeys networkName :=
  Or.inr (Or.inr (Or.inl (List.prefix_append _ _)))

theorem conflictObservationKey_mem_sessionKeys {observation : ConflictObservation}
    (h : observation.network = networkName) :
    conflictObservationKey observation ∈ sessionKeys networkName := by
  refine Or.inr (Or.inr (Or.inr (Or.inl ?_)))
  rw [conflictObservationKey, conflictObservationPrefix, h, List.append_assoc]
  exact List.prefix_append _ _

theorem hlcStateKey_mem_sessionKeys : hlcStateKey ∈ sessionKeys networkName :=
  Or.inr (Or.inr (Or.inr (Or.inr (Or.inl rfl))))

theorem arrivalSequenceKey_mem_sessionKeys : arrivalSequenceKey ∈ sessionKeys networkName :=
  Or.inr (Or.inr (Or.inr (Or.inr (Or.inr rfl))))

/-- The ID index of the network leads to the records of the network. -/
def IndexInside (networkName : Text) (store : Store) : Prop :=
  ∀ eventID key, store.get (eventIDKey networkName eventID) = some key →
    eventNetworkPrefix networkName <+: key

theorem Represents.indexInside {store : Store} {events : List ThalwegEvent}
    (h : Represents store events) (networkName : Text) : IndexInside networkName store := by
  intro eventID key hget
  obtain ⟨e, -, hkey, rfl⟩ := (h.index_iff _ _ (by simp)).mp hget
  exact eventNetworkPrefix_isPrefix_eventKey.mpr (eventIDKey_inj.mp hkey).1.symm

/-- The stores are the same to a session of the network. -/
structure SameStore (networkName : Text) (s t : Store) : Prop where
  agree : AgreeOn (sessionKeys networkName) s t
  inside : IndexInside networkName s

namespace SameStore

variable {s t : Store}

/-- The same write to both stores; one of the ID index is of a key of the network's records. -/
theorem set (h : SameStore networkName s t) {key value : Text}
    (hvalue : keyFamily key = .eventID → eventNetworkPrefix networkName <+: value) :
    SameStore networkName (s.set key value) (t.set key value) := by
  refine ⟨h.agree.set key value, fun eventID key' hget => ?_⟩
  rw [OrderedStore.get_set] at hget
  split_ifs at hget with heq
  · cases hget
    exact hvalue (heq ▸ keyFamily_eventIDKey _ _)
  · exact h.inside eventID key' hget

/-! ### Reading -/

theorem findEventByID (h : SameStore networkName s t) (eventID : Text) :
    Thalweg.findEventByID s networkName eventID = Thalweg.findEventByID t networkName eventID := by
  rw [Thalweg.findEventByID, Thalweg.findEventByID,
    ← h.agree _ (eventIDKey_mem_sessionKeys eventID)]
  cases hget : s.get (eventIDKey networkName eventID) with
  | none => rfl
  | some key =>
    have hkey : key ∈ sessionKeys networkName := Or.inl (h.inside eventID key hget)
    simp only [h.agree key hkey]

theorem readArrivalSequence (h : SameStore networkName s t) :
    Thalweg.readArrivalSequence s = Thalweg.readArrivalSequence t := by
  rw [Thalweg.readArrivalSequence, Thalweg.readArrivalSequence,
    h.agree _ arrivalSequenceKey_mem_sessionKeys]

theorem conflictResolutionsTxn (h : SameStore networkName s t) :
    Thalweg.conflictResolutionsTxn s networkName =
      Thalweg.conflictResolutionsTxn t networkName := by
  have hscan := h.agree.scan_eq (List.prefix_refl (eventStreamPrefix networkName
    conflictResolutionStream)) fun key hkey => Or.inl ?_
  · rw [Thalweg.conflictResolutionsTxn, Thalweg.conflictResolutionsTxn, hscan]
  · refine List.IsPrefix.trans ?_ hkey
    rw [eventStreamPrefix, List.append_assoc]
    exact List.prefix_append _ _

theorem indexPositions (h : SameStore networkName s t) (cursor : Text) :
    Thalweg.indexPositions s networkName cursor = Thalweg.indexPositions t networkName cursor := by
  have hscan := h.agree.scan_eq (List.prefix_append (eventIDPrefix networkName) cursor)
    fun key hkey => Or.inr (Or.inl hkey)
  rw [Thalweg.indexPositions, Thalweg.indexPositions, hscan]

theorem indexedEntries (h : SameStore networkName s t) (resolutions : List (Text × ThalwegEvent)) :
    ∀ (room : Nat) (positions : List Text),
      Thalweg.indexedEntries s resolutions networkName room positions =
        Thalweg.indexedEntries t resolutions networkName room positions
  | 0, _ => by simp only [Thalweg.indexedEntries]
  | _ + 1, [] => rfl
  | room + 1, position :: positions => by
    have hentry : indexedEntry s resolutions networkName position =
        indexedEntry t resolutions networkName position := by
      simp only [indexedEntry, h.findEventByID]
    simp only [Thalweg.indexedEntries, hentry, h.indexedEntries resolutions room positions,
      h.indexedEntries resolutions (room + 1) positions]

theorem findEventsByIDs (h : SameStore networkName s t) : ∀ ids : List Text,
    Thalweg.findEventsByIDs s networkName ids = Thalweg.findEventsByIDs t networkName ids
  | [] => rfl
  | id :: ids => by
    simp only [Thalweg.findEventsByIDs, h.findEventByID, h.findEventsByIDs ids]

theorem compareEntries (h : SameStore networkName s t) : ∀ entries : List InventoryEntry,
    Thalweg.compareEntries s networkName entries = Thalweg.compareEntries t networkName entries
  | [] => rfl
  | entry :: entries => by
    simp only [Thalweg.compareEntries, h.findEventByID, h.compareEntries entries]

/-! ### Writing -/

/-- The write of an event of the network. -/
theorem putEvent (h : SameStore networkName s t) {event : ThalwegEvent}
    (hnetwork : event.network = networkName) (clock : HlcTimestamp) :
    (∃ err, Thalweg.putEvent s event clock = .error err ∧
      Thalweg.putEvent t event clock = .error err) ∨
      ∃ s' t', Thalweg.putEvent s event clock = .ok s' ∧ Thalweg.putEvent t event clock = .ok t' ∧
        SameStore networkName s' t' := by
  unfold Thalweg.putEvent appendArrivalIndex
  cases marshalEvent event with
  | error err => exact Or.inl ⟨err, rfl, rfl⟩
  | ok value =>
    have hrecord : SameStore networkName (s.set (eventKey event) value)
        (t.set (eventKey event) value) := h.set (by simp)
    have hindex : SameStore networkName
        ((s.set (eventKey event) value).set (eventIDKey event.network event.id) (eventKey event))
        ((t.set (eventKey event) value).set (eventIDKey event.network event.id) (eventKey event)) :=
      hrecord.set fun _ => eventNetworkPrefix_isPrefix_eventKey.mpr hnetwork
    simp only [bind, Except.bind, hindex.readArrivalSequence]
    cases Thalweg.readArrivalSequence ((t.set (eventKey event) value).set
        (eventIDKey event.network event.id) (eventKey event)) with
    | error err => exact Or.inl ⟨err, rfl, rfl⟩
    | ok sequence =>
      simp only
      by_cases hmax : sequence = maxUint64
      · exact Or.inl ⟨_, by simp only [if_pos hmax]; rfl, by simp only [if_pos hmax]; rfl⟩
      · simp only [if_neg hmax]
        refine Or.inr ⟨_, _, rfl, rfl, ?_⟩
        exact ((hindex.set (by simp)).set (by simp)).set (by simp)

theorem recordObservation (h : SameStore networkName s t) {observation : ConflictObservation}
    (hnetwork : observation.network = networkName) :
    SameStore networkName (Thalweg.recordObservation s observation)
      (Thalweg.recordObservation t observation) := by
  rw [Thalweg.recordObservation, Thalweg.recordObservation,
    ← h.agree _ (conflictObservationKey_mem_sessionKeys hnetwork)]
  cases s.get (conflictObservationKey observation) with
  | some _ => exact h
  | none => exact h.set (by simp)

theorem recordObservations (h : SameStore networkName s t) {observations : List ConflictObservation}
    (hnetwork : ∀ o ∈ observations, o.network = networkName) :
    SameStore networkName (observations.foldl Thalweg.recordObservation s)
      (observations.foldl Thalweg.recordObservation t) := by
  induction observations generalizing s t with
  | nil => exact h
  | cons o observations ih =>
    obtain ⟨ho, hrest⟩ := List.forall_mem_cons.mp hnetwork
    exact ih (h.recordObservation ho) hrest

end SameStore

namespace Daemon

open Session (Alike)

/-! ### Two daemons -/

/-- The daemons are the same to a session of the network. -/
structure SameSession (networkName : Text) (d₁ d₂ : Daemon) : Prop where
  store : SameStore networkName d₁.store d₂.store
  hlc : d₁.hlc = d₂.hlc
  now : d₁.now = d₂.now

namespace SameSession

variable {d₁ d₂ : Daemon}

theorem tick (h : SameSession networkName d₁ d₂) : SameSession networkName d₁.tick d₂.tick :=
  ⟨h.store, h.hlc, by rw [Daemon.tick, Daemon.tick, h.now]⟩

theorem commit (h : SameSession networkName d₁ d₂) {s t : Store}
    (hstore : SameStore networkName s t) (clock : HlcTimestamp) :
    SameSession networkName (d₁.commit s clock) (d₂.commit t clock) :=
  ⟨hstore, rfl, h.now⟩

theorem broadcast (h : SameSession networkName d₁ d₂) (event : ThalwegEvent) :
    SameSession networkName (d₁.broadcast event) (d₂.broadcast event) :=
  ⟨h.store, h.hlc, h.now⟩

theorem recordEventConflicts (h : SameSession networkName d₁ d₂)
    (observations : List ConflictObservation) :
    SameSession networkName (d₁.recordEventConflicts networkName observations)
      (d₂.recordEventConflicts networkName observations) := by
  have hclock : d₁.clockNow = d₂.clockNow := congrFun h.now 0
  unfold Daemon.recordEventConflicts
  split_ifs
  · exact h
  · rw [hclock]
    refine ⟨h.store.recordObservations fun o ho => ?_, h.hlc, h.tick.now⟩
    obtain ⟨o, -, rfl⟩ := List.mem_map.mp ho
    rfl

/-- The transaction of a receipt. -/
theorem storeReplicated (h : SameSession networkName d₁ d₂) {event : ThalwegEvent}
    (hnetwork : event.network = networkName) :
    (d₁.storeReplicated event).1 = (d₂.storeReplicated event).1 ∧
      SameSession networkName (d₁.storeReplicated event).2 (d₂.storeReplicated event).2 := by
  have hclock : d₁.clockNow = d₂.clockNow := congrFun h.now 0
  subst hnetwork
  rw [Daemon.storeReplicated, Daemon.storeReplicated, h.store.findEventByID, h.hlc, hclock]
  cases findEventByID d₂.store event.network event.id with
  | error err => exact ⟨rfl, h⟩
  | ok found =>
    cases found with
    | some existing =>
      simp only
      cases validateReplicatedRetry existing event <;> exact ⟨rfl, h⟩
    | none =>
      simp only
      cases mergeHLCTimestamp d₂.hlc ⟨event.insertedAt, event.counter⟩ d₂.clockNow with
      | error err => exact ⟨rfl, h.tick⟩
      | ok clock =>
        simp only
        rcases h.store.putEvent rfl clock with ⟨err, hs, ht⟩ | ⟨s, t, hs, ht, hput⟩
        · simp only [hs, ht, true_and]
          exact h.tick
        · simp only [hs, ht, true_and]
          exact (h.tick.commit hput clock).broadcast event

end SameSession

/-- The event in normal form is of the network. -/
def NormalInside (networkName : Text) (incoming : ThalwegEvent) : Prop :=
  ∀ e, normalizeReplicatedEvent incoming = .ok e → e.network = networkName

theorem normalInside_of_network {incoming : ThalwegEvent} (h : incoming.network = networkName) :
    NormalInside networkName incoming := by
  intro e he
  obtain ⟨-, _, _, _, _, -, -, -, -, rfl⟩ := normalizeReplicatedEvent_eq_ok_iff.mp he
  exact h

theorem network_of_findEventByID {store : Store} {eventID : Text} {e : ThalwegEvent}
    (h : findEventByID store networkName eventID = .ok (some e)) :
    e.network = networkName ∧ e.id = eventID := by
  unfold findEventByID at h
  split at h
  · cases h
  · split at h
    · cases h
    · obtain ⟨stored, -, h⟩ := bind_eq_ok_iff.mp h
      split_ifs at h with hne
      · cases h
      · obtain ⟨occurredAt, -, h⟩ := bind_eq_ok_iff.mp h
        obtain ⟨payload, -, h⟩ := bind_eq_ok_iff.mp h
        cases h
        push Not at hne
        exact ⟨hne.2, hne.1⟩

/-- Receipts and the materialization of variants, by the fuel that they share. -/
theorem alike_receipts (networkName : Text) (fuel : Nat) :
    (∀ {d₁ d₂ : Daemon} {incoming : ThalwegEvent}, SameSession networkName d₁ d₂ →
      NormalInside networkName incoming → Alike (SameSession networkName)
        (ingestReplicated fuel d₁ incoming) (ingestReplicated fuel d₂ incoming)) ∧
    ∀ {d₁ d₂ : Daemon} {eventID : Text}, SameSession networkName d₁ d₂ →
      Alike (SameSession networkName) (materializeConflictVariant fuel d₁ networkName eventID)
        (materializeConflictVariant fuel d₂ networkName eventID) := by
  induction fuel with
  | zero =>
    refine ⟨fun _ _ => ?_, fun _ => ?_⟩
    · simp only [ingestReplicated]
      exact .none
    · simp only [materializeConflictVariant]
      exact .none
  | succ fuel ih =>
    constructor
    · intro d₁ d₂ incoming h hinside
      rw [ingestReplicated, ingestReplicated]
      cases hnormal : normalizeReplicatedEvent incoming with
      | error err => exact .some _ h
      | ok event =>
        have hnetwork := hinside event hnormal
        simp only
        cases parseConflictResolution event with
        | error err => exact .some _ h
        | ok resolution =>
          obtain ⟨hresult, hstate⟩ := h.storeReplicated hnetwork
          simp only
          revert hresult hstate
          rcases d₁.storeReplicated event with ⟨result, d₁⟩
          rcases d₂.storeReplicated event with ⟨result', d₂⟩
          rintro rfl hstate
          cases result with
          | error err => exact .some _ hstate
          | ok stored =>
            cases resolution with
            | none => exact .some _ hstate
            | some payload =>
              simp only [hnetwork]
              have hm : Alike (SameSession networkName)
                  (materializeConflictVariant fuel d₁ networkName payload.eventID)
                  (materializeConflictVariant fuel d₂ networkName payload.eventID) := ih.2 hstate
              rcases hm.exists_eq_some with ⟨h₁, h₂⟩ | ⟨result, s, t, h₁, h₂, h'⟩
              · simp only [h₁, h₂]
                exact .none
              · cases result <;>
                  · simp only [h₁, h₂]
                    exact .some _ h'
    · intro d₁ d₂ eventID h
      rw [materializeConflictVariant, materializeConflictVariant, h.store.findEventByID]
      cases hfind : findEventByID d₂.store networkName eventID with
      | error err => exact .some _ h
      | ok found =>
        cases found with
        | none => exact .some _ h
        | some original =>
          simp only
          cases eventDigest original with
          | error err => exact .some _ h
          | ok digest =>
            simp only
            have hinside : NormalInside networkName
                { original with id := recoveredConflictEventID networkName eventID digest } :=
              normalInside_of_network (network_of_findEventByID hfind).1
            rcases (ih.1 h hinside).exists_eq_some with ⟨h₁, h₂⟩ | ⟨result, s, t, h₁, h₂, h'⟩
            · simp only [h₁, h₂]
              exact .none
            · cases result <;>
                · simp only [h₁, h₂]
                  exact .some _ h'

theorem network_of_normalizePushedEvents {events normalized : List ThalwegEvent}
    (h : normalizePushedEvents networkName events = .ok normalized) :
    ∀ e ∈ normalized, e.network = networkName := by
  induction events generalizing normalized with
  | nil =>
    cases h
    exact nofun
  | cons event events ih =>
    rw [normalizePushedEvents] at h
    obtain ⟨e, -, h⟩ := bind_eq_ok_iff.mp h
    split_ifs at h with hnetwork
    · cases h
    · obtain ⟨rest, hrest, h⟩ := bind_eq_ok_iff.mp h
      cases h
      exact List.forall_mem_cons.mpr ⟨not_not.mp hnetwork, ih hrest⟩

namespace SameSession

variable {d₁ d₂ : Daemon}

theorem ingestEvents (h : SameSession networkName d₁ d₂) (fuel : Nat) {events : List ThalwegEvent}
    (hnetwork : ∀ e ∈ events, e.network = networkName) :
    Alike (SameSession networkName) (d₁.ingestEvents fuel events)
      (d₂.ingestEvents fuel events) := by
  induction events generalizing d₁ d₂ with
  | nil => exact .some _ h
  | cons event events ih =>
    obtain ⟨hevent, hrest⟩ := List.forall_mem_cons.mp hnetwork
    rw [Daemon.ingestEvents, Daemon.ingestEvents]
    rcases ((alike_receipts networkName fuel).1 h
      (normalInside_of_network hevent)).exists_eq_some with ⟨h₁, h₂⟩ | ⟨result, s, t, h₁, h₂, h'⟩
    · simp only [h₁, h₂]
      exact .none
    · cases result with
      | error err =>
        simp only [h₁, h₂]
        exact .some _ h'
      | ok stored =>
        simp only [h₁, h₂]
        rcases (ih h' hrest).exists_eq_some with ⟨h₁, h₂⟩ | ⟨result, s, t, h₁, h₂, h'⟩
        · simp only [h₁, h₂]
          exact .none
        · cases result <;>
            · simp only [h₁, h₂]
              exact .some _ h'

theorem compareInventory (h : SameSession networkName d₁ d₂) (entries : List InventoryEntry) :
    (d₁.compareInventory networkName entries).1 = (d₂.compareInventory networkName entries).1 ∧
      SameSession networkName (d₁.compareInventory networkName entries).2
        (d₂.compareInventory networkName entries).2 := by
  unfold Daemon.compareInventory
  split_ifs
  · exact ⟨rfl, h⟩
  · cases validateInventoryEntries entries with
    | error err => exact ⟨rfl, h⟩
    | ok u =>
      simp only [h.store.compareEntries]
      cases compareEntries d₂.store networkName entries with
      | error err => exact ⟨rfl, h⟩
      | ok comparison => exact ⟨rfl, h.recordEventConflicts _⟩

theorem inventoryPage (h : SameSession networkName d₁ d₂) (cursor : Text) (limit : Int) :
    d₁.inventoryPage networkName cursor limit = d₂.inventoryPage networkName cursor limit := by
  simp only [Daemon.inventoryPage, h.store.conflictResolutionsTxn, h.store.indexedEntries,
    h.store.indexPositions]

theorem eventsByIDs (h : SameSession networkName d₁ d₂) (ids : List Text) :
    d₁.eventsByIDs networkName ids = d₂.eventsByIDs networkName ids := by
  simp only [Daemon.eventsByIDs, h.store.findEventsByIDs]

theorem serveSyncBody (h : SameSession networkName d₁ d₂) (fuel : Nat) (body : SyncBody) :
    Alike (SameSession networkName) (d₁.serveSyncBody fuel networkName body)
      (d₂.serveSyncBody fuel networkName body) := by
  cases body with
  | inventoryOffer entries =>
    simp only [Daemon.serveSyncBody]
    cases validateInventoryEntries entries with
    | error err => exact .some _ h
    | ok u =>
      obtain ⟨hresult, hstate⟩ := h.compareInventory entries
      revert hresult hstate
      rcases d₁.compareInventory networkName entries with ⟨result, d₁⟩
      rcases d₂.compareInventory networkName entries with ⟨result', d₂⟩
      rintro rfl hstate
      cases result <;> exact .some _ hstate
  | inventoryRequest cursor limit =>
    simp only [Daemon.serveSyncBody, h.inventoryPage]
    cases d₂.inventoryPage networkName cursor limit <;> exact .some _ h
  | eventsRequest ids =>
    simp only [Daemon.serveSyncBody, h.eventsByIDs]
    cases validateIDPage ids with
    | error err => exact .some _ h
    | ok u => cases d₂.eventsByIDs networkName ids <;> exact .some _ h
  | eventsPush events =>
    simp only [Daemon.serveSyncBody]
    split_ifs
    · exact .some _ h
    · cases hnormal : normalizePushedEvents networkName events with
      | error err => exact .some _ h
      | ok normalized =>
        simp only
        rcases (h.ingestEvents fuel (network_of_normalizePushedEvents hnormal)).exists_eq_some with
          ⟨h₁, h₂⟩ | ⟨result, s, t, h₁, h₂, h'⟩
        · simp only [h₁, h₂]
          exact .none
        · cases result <;>
            · simp only [h₁, h₂]
              exact .some _ h'
  | inventoryNeed | inventoryPage | eventsPage | eventsAck => exact .some _ h

theorem serveSyncFrame {membership : NetworkMembership}
    (h : SameSession membership.name d₁ d₂) (describe : Failure → Text) (fuel : Nat)
    (frame : List UInt8) :
    Alike (SameSession membership.name) (Daemon.serveSyncFrame describe fuel membership d₁ frame)
      (Daemon.serveSyncFrame describe fuel membership d₂ frame) := by
  unfold Daemon.serveSyncFrame
  cases Json.decodeRecord false syncEnvelopeFields SyncEnvelope.zero (Text.ofBytes frame) with
  | none => exact .some _ h
  | some envelope =>
    simp only
    split_ifs
    · exact .some _ h
    · exact .some _ h
    · cases decodeSyncBody envelope.type (Text.ofBytes frame) with
      | error err => exact .some _ h
      | ok body =>
        simp only
        rcases (h.serveSyncBody fuel body).exists_eq_some with
          ⟨h₁, h₂⟩ | ⟨result, s, t, h₁, h₂, h'⟩
        · simp only [h₁, h₂]
          exact .none
        · cases result <;>
            · simp only [h₁, h₂]
              exact .some _ h'

theorem serveSyncRequests {membership : NetworkMembership}
    (h : SameSession membership.name d₁ d₂) (describe : Failure → Text) (fuel : Nat)
    (reader : BufferedReader UInt8) :
    Alike (SameSession membership.name)
      (Daemon.serveSyncRequests describe fuel membership d₁ reader)
      (Daemon.serveSyncRequests describe fuel membership d₂ reader) := by
  rw [serveSyncRequests_eq, serveSyncRequests_eq]
  exact (Session.answersAlike (fun _ _ frame h => h.serveSyncFrame describe fuel frame) _ h).map _

end SameSession

/-! ### One daemon -/

/-- What a session of the network leaves as it was: the daemon but for its clocks, the keys that are
not of the session, and what was broadcast before. -/
structure ChangesInside (networkName : Text) (d d' : Daemon) : Prop where
  memberships : d'.memberships = d.memberships
  deviceID : d'.deviceID = d.deviceID
  agree : AgreeOn (sessionKeys networkName)ᶜ d.store d'.store
  broadcasts : ∃ new, d'.broadcasts = d.broadcasts ++ new ∧ ∀ e ∈ new, e.network = networkName

namespace ChangesInside

variable {d d' d'' : Daemon}

theorem of_store (hmemberships : d'.memberships = d.memberships)
    (hdevice : d'.deviceID = d.deviceID) (hbroadcasts : d'.broadcasts = d.broadcasts)
    (hstore : AgreeOn (sessionKeys networkName)ᶜ d.store d'.store) :
    ChangesInside networkName d d' :=
  ⟨hmemberships, hdevice, hstore, [], by rw [hbroadcasts, List.append_nil], nofun⟩

theorem refl (networkName : Text) (d : Daemon) : ChangesInside networkName d d :=
  of_store rfl rfl rfl (.refl _ _)

theorem trans (h : ChangesInside networkName d d') (h' : ChangesInside networkName d' d'') :
    ChangesInside networkName d d'' := by
  obtain ⟨new, hnew, hinside⟩ := h.broadcasts
  obtain ⟨new', hnew', hinside'⟩ := h'.broadcasts
  refine ⟨h'.memberships.trans h.memberships, h'.deviceID.trans h.deviceID,
    h.agree.trans h'.agree, new ++ new', ?_, fun e he => ?_⟩
  · rw [hnew', hnew, List.append_assoc]
  · exact (List.mem_append.mp he).elim (hinside e) (hinside' e)

theorem tick (networkName : Text) (d : Daemon) : ChangesInside networkName d d.tick :=
  of_store rfl rfl rfl (.refl _ _)

end ChangesInside

/-- The write of an event of the network. -/
theorem agreeOn_putEvent {s s' : Store} {event : ThalwegEvent} {clock : HlcTimestamp}
    (hnetwork : event.network = networkName) (h : putEvent s event clock = .ok s') :
    AgreeOn (sessionKeys networkName)ᶜ s s' := by
  unfold putEvent appendArrivalIndex at h
  obtain ⟨value, -, h⟩ := bind_eq_ok_iff.mp h
  obtain ⟨store, hindex, h⟩ := bind_eq_ok_iff.mp h
  obtain ⟨sequence, -, hindex⟩ := bind_eq_ok_iff.mp hindex
  split_ifs at hindex with hmax
  · cases hindex
  · cases hindex
    cases h
    have hrecord : eventKey event ∈ sessionKeys networkName :=
      Or.inl (eventNetworkPrefix_isPrefix_eventKey.mpr hnetwork)
    subst hnetwork
    exact (((((AgreeOn.refl _ s).set_right (not_not.mpr hrecord) _).set_right
      (not_not.mpr (eventIDKey_mem_sessionKeys _)) _).set_right
      (not_not.mpr (arrivalIndexKey_mem_sessionKeys _)) _).set_right
      (not_not.mpr arrivalSequenceKey_mem_sessionKeys) _).set_right
      (not_not.mpr hlcStateKey_mem_sessionKeys) _

theorem changesInside_storeReplicated (d : Daemon) {event : ThalwegEvent}
    (hnetwork : event.network = networkName) :
    ChangesInside networkName d (d.storeReplicated event).2 := by
  unfold storeReplicated
  split
  · exact .refl _ d
  · split <;> exact .refl _ d
  · split
    · exact .tick _ d
    · split
      · exact .tick _ d
      · next hput =>
        exact ⟨rfl, rfl, agreeOn_putEvent hnetwork hput, [event], rfl,
          List.forall_mem_singleton.mpr hnetwork⟩

theorem changesInside_recordEventConflicts (networkName : Text) (d : Daemon)
    (observations : List ConflictObservation) :
    ChangesInside networkName d (d.recordEventConflicts networkName observations) := by
  have hfold : ∀ (observations : List ConflictObservation) (store : Store),
      (∀ o ∈ observations, o.network = networkName) →
      AgreeOn (sessionKeys networkName)ᶜ store (observations.foldl recordObservation store) := by
    intro observations
    induction observations with
    | nil => exact fun _ _ => .refl _ _
    | cons o observations ih =>
      intro store hnetwork
      obtain ⟨ho, hrest⟩ := List.forall_mem_cons.mp hnetwork
      refine AgreeOn.trans ?_ (ih _ hrest)
      unfold recordObservation
      split
      · exact .refl _ _
      · exact (AgreeOn.refl _ store).set_right
          (not_not.mpr (conflictObservationKey_mem_sessionKeys ho)) _
  unfold recordEventConflicts
  split_ifs
  · exact .refl _ d
  · refine .of_store rfl rfl rfl (hfold _ _ fun o ho => ?_)
    obtain ⟨o, -, rfl⟩ := List.mem_map.mp ho
    rfl

/-- Receipts and the materialization of variants, by the fuel that they share. -/
theorem changesInside_receipts (networkName : Text) (fuel : Nat) :
    (∀ {d d' : Daemon} {incoming : ThalwegEvent} {r : Result (ThalwegEvent × Bool)},
      NormalInside networkName incoming → ingestReplicated fuel d incoming = some (r, d') →
      ChangesInside networkName d d') ∧
    ∀ {d d' : Daemon} {eventID : Text} {r : Result (ThalwegEvent × Bool)},
      materializeConflictVariant fuel d networkName eventID = some (r, d') →
      ChangesInside networkName d d' := by
  induction fuel with
  | zero => exact ⟨by simp [ingestReplicated], by simp [materializeConflictVariant]⟩
  | succ fuel ih =>
    constructor
    · intro d d' incoming r hinside h
      rw [ingestReplicated] at h
      split at h
      · cases h
        exact .refl _ d
      · next event hnormal =>
        have hnetwork := hinside event hnormal
        split at h
        · cases h
          exact .refl _ d
        · have hstored := changesInside_storeReplicated d hnetwork
          split at h
          · next hstore =>
            cases h
            rwa [hstore] at hstored
          · next d₁ hstore =>
            rw [hstore] at hstored
            split at h
            · cases h
              exact hstored
            · rw [hnetwork] at h
              split at h
              · cases h
              · next hm =>
                cases h
                exact hstored.trans (ih.2 hm)
              · next hm =>
                cases h
                exact hstored.trans (ih.2 hm)
    · intro d d' eventID r h
      rw [materializeConflictVariant] at h
      split at h
      · cases h
        exact .refl _ d
      · cases h
        exact .refl _ d
      · next original hfind =>
        split at h
        · cases h
          exact .refl _ d
        · next digest hdigest =>
          have hinside : NormalInside networkName
              { original with id := recoveredConflictEventID networkName eventID digest } :=
            normalInside_of_network (network_of_findEventByID hfind).1
          split at h
          · cases h
          · next hi =>
            cases h
            exact ih.1 hinside hi
          · next hi =>
            cases h
            exact ih.1 hinside hi

/-- What a frame of a session of the network does to the daemon, step by step. -/
inductive Serves (networkName : Text) : Daemon → Daemon → Prop
  | receive {fuel : Nat} {incoming : ThalwegEvent} {r : Result (ThalwegEvent × Bool)}
      {d d' : Daemon} : NormalInside networkName incoming →
      ingestReplicated fuel d incoming = some (r, d') → Serves networkName d d'
  | record (d : Daemon) (observations : List ConflictObservation) :
      Serves networkName d (d.recordEventConflicts networkName observations)

theorem Serves.changesInside {d d' : Daemon} (h : Serves networkName d d') :
    ChangesInside networkName d d' := by
  cases h with
  | receive hinside h => exact (changesInside_receipts networkName _).1 hinside h
  | record _ observations => exact changesInside_recordEventConflicts networkName d observations

theorem Serves.holds {d d' : Daemon} {L : Ledger} (h : Serves networkName d d') (hL : d.Holds L) :
    ∃ L', d'.Holds L' ∧ L.events <+: L'.events := by
  cases h with
  | @receive fuel incoming r _ _ _ h =>
    obtain ⟨L', hreceived⟩ := hL.ingestReplicated_spec h
    refine ⟨L', hreceived.holds, ?_⟩
    cases r with
    | ok stored =>
      obtain ⟨e, -, -, -, haccepts, -⟩ := hreceived.accepts stored rfl
      exact haccepts.kept
    | error err =>
      rcases hreceived.rejects err rfl with ⟨-, rfl⟩ | ⟨e, L₁, -, -, hrejects, rfl | rfl⟩
      · exact List.prefix_rfl
      · exact hrejects.kept
      · exact hrejects.kept
  | record observations =>
    exact ⟨_, hL.sameCore (sameCore_recordEventConflicts d _ _), List.prefix_rfl⟩

open Relation (ReflTransGen)

theorem changesInside_of_serves {d d' : Daemon} (h : ReflTransGen (Serves networkName) d d') :
    ChangesInside networkName d d' := by
  induction h with
  | refl => exact .refl _ d
  | tail _ hlast ih => exact ih.trans hlast.changesInside

theorem holds_of_serves {d d' : Daemon} {L : Ledger} (h : ReflTransGen (Serves networkName) d d')
    (hL : d.Holds L) : ∃ L', d'.Holds L' ∧ L.events <+: L'.events := by
  induction h with
  | refl => exact ⟨L, hL, List.prefix_rfl⟩
  | tail _ hlast ih =>
    obtain ⟨L₁, hL₁, hkept⟩ := ih
    obtain ⟨L', hL', hkept'⟩ := hlast.holds hL₁
    exact ⟨L', hL', hkept.trans hkept'⟩

theorem serves_ingestEvents {fuel : Nat} {d d' : Daemon} {events : List ThalwegEvent}
    {r : Result Nat} (hnetwork : ∀ e ∈ events, e.network = networkName)
    (h : d.ingestEvents fuel events = some (r, d')) : ReflTransGen (Serves networkName) d d' := by
  induction events generalizing d r with
  | nil =>
    cases h
    exact .refl
  | cons event events ih =>
    obtain ⟨hevent, hrest⟩ := List.forall_mem_cons.mp hnetwork
    have hinside := normalInside_of_network hevent
    rw [ingestEvents] at h
    split at h
    · cases h
    · next hi =>
      cases h
      exact .single (.receive hinside hi)
    · next hi =>
      refine .head (.receive hinside hi) ?_
      split at h
      · cases h
      · next hlast =>
        cases h
        exact ih hrest hlast
      · next hlast =>
        cases h
        exact ih hrest hlast

theorem serves_compareInventory {d : Daemon} (entries : List InventoryEntry) :
    ReflTransGen (Serves networkName) d (d.compareInventory networkName entries).2 := by
  unfold compareInventory
  split_ifs
  · exact .refl
  · split
    · exact .refl
    · split
      · exact .refl
      · exact .single (.record d _)

theorem serves_serveSyncBody {fuel : Nat} {d d' : Daemon} {body : SyncBody} {r : Result SyncBody}
    (h : d.serveSyncBody fuel networkName body = some (r, d')) :
    ReflTransGen (Serves networkName) d d' := by
  cases body with
  | inventoryOffer entries =>
    have hcompare : ReflTransGen (Serves networkName) d
        (d.compareInventory networkName entries).2 := serves_compareInventory entries
    simp only [serveSyncBody] at h
    split at h
    · cases h
      exact .refl
    · split at h
      · next heq =>
        cases h
        rwa [heq] at hcompare
      · next heq =>
        cases h
        rwa [heq] at hcompare
  | inventoryRequest cursor limit =>
    simp only [serveSyncBody] at h
    split at h <;>
      · cases h
        exact .refl
  | eventsRequest ids =>
    simp only [serveSyncBody] at h
    split at h
    · cases h
      exact .refl
    · split at h <;>
        · cases h
          exact .refl
  | eventsPush events =>
    simp only [serveSyncBody] at h
    split_ifs at h
    · cases h
      exact .refl
    · split at h
      · cases h
        exact .refl
      · next normalized hnormal =>
        have hnetwork := network_of_normalizePushedEvents hnormal
        split at h
        · cases h
        · next hi =>
          cases h
          exact serves_ingestEvents hnetwork hi
        · next hi =>
          cases h
          exact serves_ingestEvents hnetwork hi
  | inventoryNeed | inventoryPage | eventsPage | eventsAck =>
    cases h
    exact .refl

/-! ### What is sent -/

/-- The events of an answer are stored events of the network, and the entries are entries of such
events. -/
def AnswerInside (networkName : Text) (d : Daemon) : SyncBody → Prop
  | .inventoryPage page => ∀ entry ∈ page.entries, ∃ e ∈ storedEvents d.store,
      e.network = networkName ∧ e.id = entry.id ∧ eventDigest e = .ok entry.digest
  | .eventsPage events => ∀ e ∈ events, e ∈ storedEvents d.store ∧ e.network = networkName
  | _ => True

/-- A reply names the network of the session, and its content is of that network. -/
def ReplyInside (membership : NetworkMembership) (d : Daemon) : SyncReply → Prop
  | .frame frame =>
    frame.networkID = membership.id ∧ AnswerInside membership.name d frame.body
  | .syncError networkID _ => networkID = membership.id

theorem AnswerInside.mono {d d' : Daemon} (h : storedEvents d.store ⊆ storedEvents d'.store) :
    ∀ {answer : SyncBody}, AnswerInside networkName d answer → AnswerInside networkName d' answer
  | .inventoryPage _, hanswer => fun entry hentry =>
    let ⟨e, he, hinside⟩ := hanswer entry hentry
    ⟨e, h he, hinside⟩
  | .eventsPage _, hanswer => fun e he => ⟨h (hanswer e he).1, (hanswer e he).2⟩
  | .inventoryOffer _, _ | .inventoryNeed _ _, _ | .inventoryRequest _ _, _ | .eventsRequest _, _
  | .eventsPush _, _ | .eventsAck _ _, _ => trivial

theorem ReplyInside.mono {membership : NetworkMembership} {d d' : Daemon}
    (h : storedEvents d.store ⊆ storedEvents d'.store) :
    ∀ {reply : SyncReply}, ReplyInside membership d reply → ReplyInside membership d' reply
  | .frame _, hreply => ⟨hreply.1, hreply.2.mono h⟩
  | .syncError _ _, hreply => hreply

theorem exists_of_mem_findEventsByIDs {store : Store} {ids : List Text} {events : List ThalwegEvent}
    (h : findEventsByIDs store networkName ids = .ok events) :
    ∀ e ∈ events, ∃ id, findEventByID store networkName id = .ok (some e) := by
  induction ids generalizing events with
  | nil =>
    cases h
    exact nofun
  | cons id ids ih =>
    rw [findEventsByIDs] at h
    obtain ⟨found, hfind, h⟩ := bind_eq_ok_iff.mp h
    cases found with
    | none => cases h
    | some event =>
      obtain ⟨rest, hrest, h⟩ := bind_eq_ok_iff.mp h
      cases h
      exact List.forall_mem_cons.mpr ⟨⟨id, hfind⟩, ih hrest⟩

theorem exists_of_indexedEntry {store : Store} {resolutions : List (Text × ThalwegEvent)}
    {position : Text} {entry : IndexedEntry}
    (h : indexedEntry store resolutions networkName position = .ok (some entry)) :
    ∃ e, findEventByID store networkName entry.entry.id = .ok (some e) ∧
      eventDigest e = .ok entry.entry.digest := by
  unfold indexedEntry at h
  split at h
  · cases h
  · simp only at h
    split_ifs at h
    · cases h
    · obtain ⟨found, hfind, h⟩ := bind_eq_ok_iff.mp h
      cases found with
      | none => cases h
      | some event =>
        obtain ⟨digest, hdigest, h⟩ := bind_eq_ok_iff.mp h
        cases h
        exact ⟨event, hfind, hdigest⟩

theorem exists_of_mem_indexedEntries {store : Store} {resolutions : List (Text × ThalwegEvent)} :
    ∀ {room : Nat} {positions : List Text} {indexed : List IndexedEntry},
      indexedEntries store resolutions networkName room positions = .ok indexed →
      ∀ entry ∈ indexed, ∃ e, findEventByID store networkName entry.entry.id = .ok (some e) ∧
        eventDigest e = .ok entry.entry.digest
  | 0, _, _, h => by
    simp only [indexedEntries] at h
    cases h
    exact nofun
  | _ + 1, [], _, h => by
    cases h
    exact nofun
  | room + 1, position :: positions, indexed, h => by
    rw [indexedEntries] at h
    obtain ⟨found, hfound, h⟩ := bind_eq_ok_iff.mp h
    cases found with
    | none => exact exists_of_mem_indexedEntries h
    | some entry =>
      obtain ⟨rest, hrest, h⟩ := bind_eq_ok_iff.mp h
      cases h
      exact List.forall_mem_cons.mpr
        ⟨exists_of_indexedEntry hfound, exists_of_mem_indexedEntries hrest⟩

/-- The entries of a page are entries of events that are found. -/
theorem exists_of_mem_inventoryPage {d : Daemon} {cursor : Text} {limit : Int}
    {page : InventoryPage} (h : d.inventoryPage networkName cursor limit = .ok page) :
    ∀ entry ∈ page.entries, ∃ e, findEventByID d.store networkName entry.id = .ok (some e) ∧
      eventDigest e = .ok entry.digest := by
  unfold inventoryPage at h
  split_ifs at h
  · cases h
  · cases h
  · cases h
  · obtain ⟨resolutions, -, h⟩ := bind_eq_ok_iff.mp h
    obtain ⟨indexed, hindexed, h⟩ := bind_eq_ok_iff.mp h
    cases h
    intro entry hentry
    obtain ⟨item, hitem, rfl⟩ := List.mem_map.mp (List.mem_insertionSort _ |>.mp hentry)
    exact exists_of_mem_indexedEntries hindexed item (List.mem_of_mem_take hitem)

/-- The answers of a daemon that holds a ledger. -/
theorem answerInside_serveSyncBody {fuel : Nat} {d d' : Daemon} {L : Ledger} (hL : d.Holds L)
    {body answer : SyncBody} (h : d.serveSyncBody fuel networkName body = some (.ok answer, d')) :
    AnswerInside networkName d' answer := by
  have hfound : ∀ {id : Text} {e : ThalwegEvent},
      findEventByID d.store networkName id = .ok (some e) →
      e ∈ storedEvents d.store ∧ e.network = networkName ∧ e.id = id := by
    intro id e hfind
    obtain ⟨he, hn, hi, -⟩ := hL.represents.findEventByID_eq_ok_some_iff.mp hfind
    exact ⟨hL.represents.mem_storedEvents_iff.mpr he, hn, hi⟩
  cases body with
  | inventoryRequest cursor limit =>
    simp only [serveSyncBody] at h
    split at h
    · cases h
    · next page hpage =>
      cases h
      intro entry hentry
      obtain ⟨e, hfind, hdigest⟩ := exists_of_mem_inventoryPage hpage entry hentry
      obtain ⟨he, hn, hi⟩ := hfound hfind
      exact ⟨e, he, hn, hi, hdigest⟩
  | eventsRequest ids =>
    simp only [serveSyncBody] at h
    split at h
    · cases h
    · split at h
      · cases h
      · next events hevents =>
        cases h
        obtain ⟨-, -, hevents⟩ := bind_eq_ok_iff.mp hevents
        intro e he
        obtain ⟨id, hfind⟩ := exists_of_mem_findEventsByIDs hevents e he
        obtain ⟨he, hn, -⟩ := hfound hfind
        exact ⟨he, hn⟩
  | inventoryOffer entries =>
    simp only [serveSyncBody] at h
    split at h
    · cases h
    · split at h <;> cases h
      trivial
  | eventsPush events =>
    simp only [serveSyncBody] at h
    split_ifs at h
    · cases h
    · split at h
      · cases h
      · split at h <;> cases h
        trivial
  | inventoryNeed | inventoryPage | eventsPage | eventsAck => cases h

/-! ### Sessions -/

/-- A daemon with an event of the network `h` and one of the network `n`. -/
def twoNetworks : Daemon :=
  (initial ['d'] deviceName_ne_nil fun _ => newYear).after 0
    [.ingest ['h'] ['s'] [] ['a'] ['1'] [], .ingest ['n'] ['s'] [] ['a'] ['2'] []]

/-- Another record of the network `n`. -/
def otherNetworks : Daemon :=
  { twoNetworks with store := twoNetworks.store.set "event-v3:bg:cw:x".toList ['0'] }

theorem twoNetworks_reachable : twoNetworks.Reachable := ⟨_, _, _, run_after _ _ _⟩

def hostMembership : NetworkMembership := ⟨['h'], ['m'], []⟩

/-- A request for the event `a` of a network. -/
def requestFrame (networkID : Text) : List UInt8 :=
  Text.toBytes (Json.renderRecord [("type".toList, Json.quote "events_request".toList),
    ("protocolVersion".toList, ['1']), ("networkId".toList, Json.quote networkID),
    ("ids".toList, "[\"a\"]".toList)])

/-- A reader of lines that come one by one. -/
def linesReader (lines : List (List UInt8)) : BufferedReader UInt8 :=
  newReaderSize ⟨lines.map (· ++ [newline]), false, by simp⟩ 4096

theorem unread_linesReader (lines : List (List UInt8)) :
    (linesReader lines).unread = terminated lines := rfl

theorem requestFrame_line : ∀ networkID ∈ [['m'], ['k']],
    (newline ∉ requestFrame networkID ∧ (requestFrame networkID).length ≤ syncMaxFrameBytes) ∧
      frameOf (requestFrame networkID) = requestFrame networkID := by
  decide +kernel

/-- The text of an error without arguments. -/
def formatOf : Failure → Text
  | .errorf format _ => format.toList
  | .wrap format _ _ => format.toList
  | .external package => package.toList

section Sessions

variable {describe : Failure → Text} {membership : NetworkMembership} {fuel : Nat} {d d' : Daemon}

/-- An answer to a frame: an error for the peer alone, or an answer to a body that it decodes to. -/
theorem serveSyncFrame_cases {frame : List UInt8} {turn : SyncTurn}
    (h : serveSyncFrame describe fuel membership d frame = some (turn, d')) :
    (∃ message err, turn = writeSyncError describe membership.id message err ∧ d' = d) ∨
      ∃ body r, d.serveSyncBody fuel membership.name body = some (r, d') ∧
        ∀ reply ∈ turn.written, (∃ message, reply = .syncError membership.id message) ∨
          ∃ answer, r = .ok answer ∧
            reply = .frame ⟨syncProtocolVersion, membership.id, answer⟩ := by
  unfold serveSyncFrame at h
  split at h
  · cases h
    exact Or.inl ⟨_, _, rfl, rfl⟩
  · split_ifs at h
    · cases h
      exact Or.inl ⟨_, _, rfl, rfl⟩
    · cases h
      exact Or.inl ⟨_, _, rfl, rfl⟩
    · split at h
      · cases h
        exact Or.inl ⟨_, _, rfl, rfl⟩
      · next body hbody =>
        split at h
        · cases h
        · next err _ hserve =>
          cases h
          exact Or.inr ⟨body, _, hserve, fun reply hreply =>
            Or.inl ⟨err, eq_of_mem_written describe hreply⟩⟩
        · next answer _ hserve =>
          cases h
          exact Or.inr ⟨body, .ok answer, hserve, fun reply hreply =>
            Or.inr ⟨answer, rfl, eq_of_mem_written describe hreply⟩⟩

/-- What one frame does. -/
theorem serveSyncFrame_inside {L : Ledger} (hL : d.Holds L) {frame : List UInt8} {turn : SyncTurn}
    (h : serveSyncFrame describe fuel membership d frame = some (turn, d')) :
    (∃ L', d'.Holds L') ∧ (ChangesInside membership.name d d' ∧
      storedEvents d.store ⊆ storedEvents d'.store) ∧
        ∀ reply ∈ turn.written, ReplyInside membership d' reply := by
  rcases serveSyncFrame_cases h with ⟨message, err, rfl, rfl⟩ | ⟨body, r, hserve, hwritten⟩
  · refine ⟨⟨L, hL⟩, ⟨.refl _ _, Set.Subset.refl _⟩, fun reply hreply => ?_⟩
    obtain rfl := eq_of_mem_written describe hreply
    rfl
  · have hsteps := serves_serveSyncBody hserve
    obtain ⟨L', hL', hkept⟩ := holds_of_serves hsteps hL
    refine ⟨⟨L', hL'⟩, ⟨changesInside_of_serves hsteps, fun e he => ?_⟩, fun reply hreply => ?_⟩
    · rw [hL'.represents.mem_storedEvents_iff]
      exact hkept.subset (hL.represents.mem_storedEvents_iff.mp he)
    · rcases hwritten reply hreply with ⟨message, rfl⟩ | ⟨answer, rfl, rfl⟩
      · rfl
      · exact ⟨rfl, answerInside_serveSyncBody hL hserve⟩

/-- **A session stays in its network.** Whatever bytes the peer sends, every reply names the network
of the session, the events that are sent are stored events of the network and the inventory entries
those of such events; and the session changes no key but those of the network's records, the clock
state and the arrival counter, and broadcasts events of the network only. -/
theorem Reachable.session_inside (h : d.Reachable) {reader : BufferedReader UInt8} {turn : SyncTurn}
    (hserve : serveSyncRequests describe fuel membership d reader = some (turn, d')) :
    ChangesInside membership.name d d' ∧ storedEvents d.store ⊆ storedEvents d'.store ∧
      ∀ reply ∈ turn.written, ReplyInside membership d' reply := by
  obtain ⟨L, hL⟩ := h.exists_holds.1
  rw [serveSyncRequests_eq] at hserve
  obtain ⟨⟨turn', s⟩, hframes, heq⟩ := Option.map_eq_some_iff.mp hserve
  obtain ⟨rfl, rfl⟩ := Prod.mk.inj heq
  have hsession := Session.written (P := fun d : Daemon => ∃ L, d.Holds L)
    (K := fun d d' => ChangesInside membership.name d d' ∧
      storedEvents d.store ⊆ storedEvents d'.store)
    (Q := ReplyInside membership) (fun d => ⟨.refl _ d, Set.Subset.refl _⟩)
    (fun _ _ _ h h' => ⟨h.1.trans h'.1, h.2.trans h'.2⟩) (fun _ _ _ h hreply => hreply.mono h.2)
    (fun _ _ _ _ ⟨_, hL⟩ h => serveSyncFrame_inside hL h) ⟨L, hL⟩ hframes
  exact ⟨hsession.2.1.1, hsession.2.1.2, hsession.2.2⟩

theorem twoNetworks_session_inside :
    let reader := linesReader (List.replicate 2 (requestFrame ['m']))
    ∃ turn d', serveSyncRequests formatOf 0 hostMembership twoNetworks reader =
        some (turn, d') ∧ turn.written.length = 2 ∧
      ChangesInside ['h'] twoNetworks d' ∧ storedEvents twoNetworks.store ⊆ storedEvents d'.store ∧
        ∀ reply ∈ turn.written, ReplyInside hostMembership d' reply := by
  intro reader
  have hline := (requestFrame_line ['m'] (by decide)).1
  have hframe := (requestFrame_line ['m'] (by decide)).2
  have hrun : (serveSyncFrames formatOf 0 hostMembership twoNetworks
      (List.replicate 2 (requestFrame ['m']))).map (fun r => r.1.written.length) = some 2 := by
    decide +kernel
  obtain ⟨⟨turn, d'⟩, hrun, hlength⟩ := Option.map_eq_some_iff.mp hrun
  have hserve : serveSyncRequests formatOf 0 hostMembership twoNetworks reader = some (turn, d') := by
    rw [serveSyncRequests_of_lines (fun line h => List.eq_of_mem_replicate h ▸ hline) _
      (unread_linesReader _), List.map_replicate, hframe, hrun]
  exact ⟨turn, d', hserve, hlength, Reachable.session_inside twoNetworks_reachable hserve⟩

/-- **A session sees its network only.** Two daemons that agree on the keys of the session, on the
clock and on its readings answer whatever bytes the peer sends alike, and agree after it; what they
hold of other networks is not told. -/
theorem Reachable.sessions_alike {d₁ d₂ : Daemon} (h : d₁.Reachable)
    (hstore : AgreeOn (sessionKeys membership.name) d₁.store d₂.store) (hhlc : d₁.hlc = d₂.hlc)
    (hnow : d₁.now = d₂.now) (reader : BufferedReader UInt8) :
    Alike (SameSession membership.name) (serveSyncRequests describe fuel membership d₁ reader)
      (serveSyncRequests describe fuel membership d₂ reader) := by
  obtain ⟨L, hL⟩ := h.exists_holds.1
  exact SameSession.serveSyncRequests ⟨⟨hstore, hL.represents.indexInside _⟩, hhlc, hnow⟩ describe
    fuel reader

theorem otherNetworks_sessions_alike :
    Alike (SameSession hostMembership.name)
      (serveSyncRequests formatOf 0 hostMembership twoNetworks
        (linesReader [requestFrame ['m']]))
      (serveSyncRequests formatOf 0 hostMembership otherNetworks
        (linesReader [requestFrame ['m']])) := by
  have hkey : "event-v3:bg:cw:x".toList ∉ sessionKeys hostMembership.name := by
    unfold sessionKeys
    decide +kernel
  have hstore : AgreeOn (sessionKeys hostMembership.name) twoNetworks.store otherNetworks.store :=
    (AgreeOn.refl _ twoNetworks.store).set_right hkey ['0']
  have hhlc : twoNetworks.hlc = otherNetworks.hlc := rfl
  have hnow : twoNetworks.now = otherNetworks.now := rfl
  exact Reachable.sessions_alike twoNetworks_reachable hstore hhlc hnow _

/-! ### Frames that are rejected -/

/-- The frame is not of the session, cannot be read, or pushes an event that is malformed or of
another network. -/
def Rejected (membership : NetworkMembership) (frame : List UInt8) : Prop :=
  ∀ envelope, Json.decodeRecord false syncEnvelopeFields SyncEnvelope.zero (Text.ofBytes frame) =
      some envelope → envelope.protocolVersion = syncProtocolVersion →
    envelope.networkID = membership.id → ∀ body,
    decodeSyncBody envelope.type (Text.ofBytes frame) = .ok body →
      ∃ events, body = .eventsPush events ∧ ∃ event ∈ events,
        ∀ e, normalizeReplicatedEvent event = .ok e → e.network ≠ membership.name

theorem normalizePushedEvents_eq_error {events : List ThalwegEvent} {event : ThalwegEvent}
    (hevent : event ∈ events)
    (h : ∀ e, normalizeReplicatedEvent event = .ok e → e.network ≠ networkName) :
    ∃ err, normalizePushedEvents networkName events = .error err := by
  induction events with
  | nil => exact absurd hevent List.not_mem_nil
  | cons first events ih =>
    rw [normalizePushedEvents]
    cases hnormal : normalizeReplicatedEvent first with
    | error err => exact ⟨err, rfl⟩
    | ok e =>
      simp only [bind, Except.bind]
      split_ifs with hnetwork
      · exact ⟨_, rfl⟩
      · rcases List.mem_cons.mp hevent with rfl | hevent
        · exact absurd (not_not.mp hnetwork) (h e hnormal)
        · obtain ⟨err, herr⟩ := ih hevent
          exact ⟨err, by rw [herr]⟩

theorem serveSyncFrame_of_rejected {frame : List UInt8} (h : Rejected membership frame)
    (describe : Failure → Text) (fuel : Nat) (d : Daemon) :
    ∃ message err, serveSyncFrame describe fuel membership d frame =
      some (writeSyncError describe membership.id message err, d) := by
  unfold serveSyncFrame
  cases hread : Json.decodeRecord false syncEnvelopeFields SyncEnvelope.zero
      (Text.ofBytes frame) with
  | none => exact ⟨_, _, rfl⟩
  | some envelope =>
    simp only
    split_ifs with hversion hnetwork
    · exact ⟨_, _, rfl⟩
    · exact ⟨_, _, rfl⟩
    · cases hbody : decodeSyncBody envelope.type (Text.ofBytes frame) with
      | error err => exact ⟨_, _, rfl⟩
      | ok body =>
        obtain ⟨events, rfl, event, hevent, hinside⟩ :=
          h envelope hread (not_not.mp hversion) (not_not.mp hnetwork) body hbody
        obtain ⟨err, herr⟩ := normalizePushedEvents_eq_error hevent hinside
        simp only [serveSyncBody, herr]
        split_ifs
        · exact ⟨_, _, rfl⟩
        · exact ⟨_, _, rfl⟩

/-- **A rejected frame changes nothing.** Wherever it comes in a session, the session ends, the
daemon is as it was before the frame, and nothing after it is read. The peer gets an error if its
frame fits the limit of the protocol; a frame that is itself longer than the limit gets none. -/
theorem session_rejected {lines : List (List UInt8)} {line rest : List UInt8}
    {reader : BufferedReader UInt8} {written : List SyncReply}
    (hlines : ∀ line ∈ lines, newline ∉ line ∧ line.length ≤ syncMaxFrameBytes)
    (h : serveSyncFrames describe fuel membership d (lines.map frameOf) =
      some (⟨written, none⟩, d'))
    (hline : newline ∉ line)
    (hunread : reader.unread = terminated lines ++ (line ++ newline :: rest)) :
    (syncMaxFrameBytes < line.length → serveSyncRequests describe fuel membership d reader =
      some (⟨written, some (frameExceeds syncMaxFrameBytes)⟩, d')) ∧
    (line.length ≤ syncMaxFrameBytes → Rejected membership (frameOf line) →
      ∃ message err, serveSyncRequests describe fuel membership d reader =
        some (⟨written ++ if syncMaxFrameBytes <
            (Text.toBytes (marshalSyncError membership.id (describe message))).length
          then [] else [.syncError membership.id message], some err⟩, d')) := by
  obtain ⟨next, hnext, hframes⟩ := readFrames_terminated hlines hunread
  rw [serveSyncRequests_eq, hframes]
  rcases readBoundedFrame_line hline hnext syncMaxFrameBytes with
    ⟨hfits, next', hread, -⟩ | ⟨hlong, next', hread⟩
  · refine ⟨fun hlong => absurd hfits (Nat.not_le.mpr hlong), fun _ hrejected => ?_⟩
    obtain ⟨message, err, hserve⟩ := serveSyncFrame_of_rejected hrejected describe fuel d'
    refine ⟨message, err, ?_⟩
    rw [readFrames_of_frame hread, serveSyncFrames, Session.session_append_cons h hserve,
      written_syncError]
    rfl
  · refine ⟨fun _ => ?_, fun hfits => absurd hfits (Nat.not_le.mpr hlong)⟩
    rw [readFrames_of_error hread, List.append_nil, h]
    rfl

/-- A request for another network, and a line of zeros that is too long. -/
theorem twoNetworks_session_rejected :
    (∃ message err, serveSyncRequests formatOf 0 hostMembership twoNetworks
        (linesReader [requestFrame ['k'], requestFrame ['m']]) =
      some (⟨[] ++ if syncMaxFrameBytes <
          (Text.toBytes (marshalSyncError hostMembership.id (formatOf message))).length
        then [] else [.syncError hostMembership.id message], some err⟩, twoNetworks)) ∧
    serveSyncRequests formatOf 0 hostMembership twoNetworks
        (linesReader [List.replicate (syncMaxFrameBytes + 1) 0]) =
      some (⟨[], some (frameExceeds syncMaxFrameBytes)⟩, twoNetworks) := by
  have hrejected (line rest : List UInt8) (reader : BufferedReader UInt8) :=
    @session_rejected formatOf hostMembership 0 twoNetworks twoNetworks [] line rest reader []
      (List.forall_mem_nil _) rfl
  constructor
  · have hline := requestFrame_line ['k'] (by decide)
    refine (hrejected _ (requestFrame ['m'] ++ [newline]) _ hline.1.1 ?_).2 hline.1.2
      fun envelope hread _ hnetwork => ?_
    · simp [unread_linesReader, terminated]
    · have hforeign : (Json.decodeRecord false syncEnvelopeFields SyncEnvelope.zero
          (Text.ofBytes (requestFrame ['k']))).map SyncEnvelope.networkID = some ['k'] := by
        decide +kernel
      rw [hline.2] at hread
      rw [hread, Option.map_some, hnetwork] at hforeign
      exact absurd (Option.some.inj hforeign) (by decide)
  · refine (hrejected (List.replicate (syncMaxFrameBytes + 1) 0) [] _ ?_ ?_).1 ?_
    · simp [newline]
    · simp [unread_linesReader, terminated]
    · rw [List.length_replicate]
      exact Nat.lt_succ_self _

end Sessions

end Daemon

end Thalweg
