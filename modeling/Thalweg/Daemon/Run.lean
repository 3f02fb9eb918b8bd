import Thalweg.Daemon.Operation
import Thalweg.Daemon.Receipt

/-!
# Every operation keeps the ledger

What each operation does to the ledger that a daemon holds.

* `Daemon.initial_holds`: a fresh daemon holds the empty ledger.
* `Daemon.Holds.ingestInternal_cases`: local events.
* `Daemon.Holds.resolveEventConflict_spec`, `Daemon.Holds.newWithConfig_spec`.
* `Daemon.Holds.perform`: every operation leaves a ledger that extends the one before it.
-/

namespace Thalweg

open Relation

/-! ### Fresh databases -/

/-- The database of a fresh daemon. -/
def initialStore : Store := (ensureStorageSchema OrderedStore.empty).2

theorem entries_initialStore : initialStore.entries =
    [(arrivalSequenceKey, Text.decimal 0), (hlcStateKey, marshalHLCState HlcTimestamp.zero),
      (storageSchemaVersionKey, Text.decimal 4)] := by
  decide +kernel

theorem get_initialStore_eq_some_iff {key value : Text} : initialStore.get key = some value ↔
    key = arrivalSequenceKey ∧ value = Text.decimal 0 ∨
    key = hlcStateKey ∧ value = marshalHLCState HlcTimestamp.zero ∨
    key = storageSchemaVersionKey ∧ value = Text.decimal 4 := by
  simp [OrderedStore.get_eq_some_iff, entries_initialStore]

theorem represents_initialStore : Represents initialStore [] where
  storable := nofun
  distinct := List.Pairwise.nil
  names := nofun
  record_iff key value hkey := by
    rw [get_initialStore_eq_some_iff]
    refine ⟨?_, nofun⟩
    rintro (⟨rfl, -⟩ | ⟨rfl, -⟩ | ⟨rfl, -⟩) <;> simp at hkey
  index_iff key value hkey := by
    rw [get_initialStore_eq_some_iff]
    refine ⟨?_, nofun⟩
    rintro (⟨rfl, -⟩ | ⟨rfl, -⟩ | ⟨rfl, -⟩) <;> simp at hkey
  arrival_iff key value hkey := by
    rw [get_initialStore_eq_some_iff]
    refine ⟨?_, by simp⟩
    rintro (⟨rfl, -⟩ | ⟨rfl, -⟩ | ⟨rfl, -⟩) <;> simp at hkey
  length_lt := by decide
  sequence := get_initialStore_eq_some_iff.mpr (Or.inl ⟨rfl, rfl⟩)

namespace Daemon

/-- The ledger of a fresh daemon. -/
def initialLedger (now : Nat → Instant) : Ledger := ⟨[], List.Pairwise.nil, HlcTimestamp.zero, now⟩

theorem initial_holds (deviceID : Text) (hdeviceID : deviceID ≠ []) (now : Nat → Instant) :
    (initial deviceID hdeviceID now).Holds (initialLedger now) where
  represents := represents_initialStore
  schema := get_initialStore_eq_some_iff.mpr (Or.inr (Or.inr ⟨rfl, rfl⟩))
  persisted := get_initialStore_eq_some_iff.mpr (Or.inr (Or.inl ⟨rfl, rfl⟩))
  clock := rfl
  now := rfl
  canonical := Or.inl rfl
  passed := nofun

/-! ### Operations that leave the events -/

/-- The keys that only events, the clock and the migrations write. -/
def IsCoreKey (key : Text) : Prop :=
  IsEventKey key ∨ key = hlcStateKey ∨ key = storageSchemaVersionKey

theorem not_isCoreKey_of_keyFamily {key : Text} {family : KeyFamily} (h : keyFamily key = family)
    (hfamily : family = .conflict ∨ family = .durableSiphon ∨ family = .meshPeer ∨
      family = .peer) : ¬ IsCoreKey key := by
  rintro (hkey | rfl | rfl)
  · exact not_isEventKey_of_keyFamily h hfamily hkey
  all_goals
    rw [← h] at hfamily
    simp at hfamily

/-- The daemons hold the same under the keys of events, clock and schema. -/
structure SameCore (d d' : Daemon) : Prop where
  get : ∀ key, IsCoreKey key → d'.store.get key = d.store.get key
  hlc : d'.hlc = d.hlc
  deviceID : d'.deviceID = d.deviceID

theorem SameCore.refl (d : Daemon) : d.SameCore d := ⟨fun _ _ => rfl, rfl, rfl⟩

theorem SameCore.of_store_eq {d d' : Daemon} (hs : d'.store = d.store) (hc : d'.hlc = d.hlc)
    (hd : d'.deviceID = d.deviceID) : d.SameCore d' :=
  ⟨fun _ _ => by rw [hs], hc, hd⟩

theorem sameCore_set {d : Daemon} {key value : Text} (hkey : ¬ IsCoreKey key) :
    ∀ k, IsCoreKey k → (d.store.set key value).get k = d.store.get k := by
  intro k hk
  refine OrderedStore.get_set_of_ne _ ?_ _
  rintro rfl
  exact hkey hk

theorem Holds.sameCore {d d' : Daemon} {L : Ledger} (h : d.Holds L) (hs : d.SameCore d') :
    d'.Holds { L with now := d'.now } where
  represents := h.represents.frame fun key hkey => hs.get key (Or.inl hkey)
  schema := by rw [hs.get _ (Or.inr (Or.inr rfl)), h.schema]
  persisted := by rw [hs.get _ (Or.inr (Or.inl rfl)), hs.hlc, h.persisted]
  clock := hs.hlc.trans h.clock
  now := rfl
  canonical := hs.hlc ▸ h.canonical
  passed := fun e he => hs.hlc ▸ h.passed e he

theorem get_recordEventConflicts (d : Daemon) (networkName : Text)
    (observations : List ConflictObservation) {key : Text} (hkey : keyFamily key ≠ .conflict) :
    (d.recordEventConflicts networkName observations).store.get key = d.store.get key := by
  have hfold : ∀ (observations : List ConflictObservation) (store : Store),
      (observations.foldl recordObservation store).get key = store.get key := by
    intro observations
    induction observations with
    | nil => exact fun _ => rfl
    | cons o observations ih =>
      intro store
      rw [List.foldl_cons, ih]
      unfold recordObservation
      split
      · rfl
      · refine OrderedStore.get_set_of_ne _ (ne_of_keyFamily_ne ?_) _
        rwa [keyFamily_conflictObservationKey]
  unfold recordEventConflicts
  split_ifs
  · rfl
  · exact hfold _ _

theorem sameCore_recordEventConflicts (d : Daemon) (networkName : Text)
    (observations : List ConflictObservation) :
    d.SameCore (d.recordEventConflicts networkName observations) := by
  refine ⟨fun key hkey => get_recordEventConflicts _ _ _ fun hfamily => ?_, ?_, ?_⟩
  · exact not_isCoreKey_of_keyFamily hfamily (Or.inl rfl) hkey
  all_goals
    unfold recordEventConflicts
    split_ifs <;> rfl

theorem sameCore_writeDurableSiphon (d : Daemon) (definition : DurableSiphonDefinition) (key : Text)
    (hkey : IsCoreKey key) :
    (writeDurableSiphon d.store definition).get key = d.store.get key :=
  sameCore_set (not_isCoreKey_of_keyFamily (keyFamily_durableSiphonKey _ _)
    (Or.inr (Or.inl rfl))) key hkey

theorem sameCore_createDurableSiphon (d : Daemon) (network name : Text) (streams : List Text)
    (start : Text) : d.SameCore (d.createDurableSiphon network name streams start).2 := by
  unfold createDurableSiphon
  split
  · exact .refl d
  · split
    · exact .refl d
    · exact .refl d
    · split
      · exact .refl d
      · split
        · exact .refl d
        · split <;> exact .refl d
        · split
          · exact .refl d
          · exact ⟨sameCore_writeDurableSiphon d _, rfl, rfl⟩

theorem get_pendDurableDelivery {d : Daemon} {definition definition' : DurableSiphonDefinition}
    {limit : Nat} {random : Text} {store : Store}
    (h : d.pendDurableDelivery definition limit random = .ok (store, definition')) (key : Text)
    (hkey : IsCoreKey key) : store.get key = d.store.get key := by
  unfold pendDurableDelivery at h
  split at h
  · unfold prepareDurableDelivery at h
    simp only [bind, Except.bind] at h
    split at h
    · cases h
    · split at h
      · cases h
      · split_ifs at h
        all_goals cases h
        · exact sameCore_writeDurableSiphon d _ key hkey
        · rfl
        · exact sameCore_writeDurableSiphon d _ key hkey
  · cases h
    exact sameCore_writeDurableSiphon d _ key hkey

theorem sameCore_pollDurableSiphon (d : Daemon) (network name : Text) (limit : Int)
    (random : Text) : d.SameCore (d.pollDurableSiphon network name limit random).2 := by
  unfold pollDurableSiphon
  simp only
  generalize (if limit = 0 then durableSiphonDefaultBatch else limit) = limit
  split
  · exact .refl d
  · split
    · exact .refl d
    · exact .refl d
    · split
      · exact .of_store_eq rfl rfl rfl
      · next store definition hpend =>
        split
        · exact .of_store_eq rfl rfl rfl
        · exact ⟨get_pendDurableDelivery hpend, rfl, rfl⟩

theorem sameCore_acknowledgeDurableSiphon (d : Daemon) (network name deliveryID : Text) :
    d.SameCore (d.acknowledgeDurableSiphon network name deliveryID).2 := by
  unfold acknowledgeDurableSiphon
  split
  · exact .refl d
  · split
    · exact .refl d
    · exact .refl d
    · split
      · exact .refl d
      · split
        · exact .refl d
        · exact ⟨sameCore_writeDurableSiphon d _, rfl, rfl⟩

theorem sameCore_deleteDurableSiphon (d : Daemon) (network name : Text) :
    d.SameCore (d.deleteDurableSiphon network name).2 := by
  unfold deleteDurableSiphon
  split
  · exact .refl d
  · exact .refl d
  · refine ⟨fun key hkey => ?_, rfl, rfl⟩
    rw [OrderedStore.get_delete, if_neg]
    rintro rfl
    exact not_isCoreKey_of_keyFamily (keyFamily_durableSiphonKey _ _) (Or.inr (Or.inl rfl)) hkey

theorem sameCore_networkCreate (d : Daemon) (name : Text) (id secret : List UInt8) :
    d.SameCore (d.networkCreate name id secret).2 := by
  unfold networkCreate
  split <;> exact .of_store_eq rfl rfl rfl

theorem sameCore_networkJoin (d : Daemon) (invitation : Text) :
    d.SameCore (d.networkJoin invitation).2 := by
  unfold networkJoin
  split <;> exact .of_store_eq rfl rfl rfl

theorem get_removeMeshPeersForNetwork (store : Store) (networkName : Text) {key : Text}
    (hkey : keyFamily key ≠ .meshPeer) :
    (removeMeshPeersForNetwork store networkName).get key = store.get key := by
  refine (OrderedStore.get_foldl_delete_scan store _ key).trans (if_neg fun hpre => hkey ?_)
  have hcolon : ':' ∈ meshPeerPrefix networkName := by simp [meshPeerPrefix]
  rw [keyFamily_of_isPrefix hcolon hpre, keyFamily_meshPeerPrefix]

theorem sameCore_networkLeave (d : Daemon) (name : Text) :
    d.SameCore (d.networkLeave name).2 := by
  unfold networkLeave
  split
  · exact .refl d
  · refine ⟨fun key hkey => get_removeMeshPeersForNetwork _ _ fun hfamily => ?_, rfl, rfl⟩
    exact not_isCoreKey_of_keyFamily hfamily (Or.inr (Or.inr (Or.inl rfl))) hkey

/-! ### Local events -/

/-- The event asks for what a request asks for. -/
structure Answers (e : ThalwegEvent) (networkName stream occurredAt eventID payload : Text) :
    Prop where
  network_eq : e.network = networkName
  stream_eq : e.stream = stream
  id_eq : e.id = eventID
  occurredAt_eq : occurredAt ≠ [] → normalizeTimestamp "occurredAt" occurredAt = .ok e.occurredAt
  payload_eq : normalizePayload (payloadOrNull payload) = .ok e.payload

/-- The event is the one that a daemon stores for a new request. -/
structure Issues (d : Daemon) (e : ThalwegEvent) (networkName stream occurredAt eventID payload : Text) :
    Prop extends Answers e networkName stream occurredAt eventID payload where
  occurred_now : occurredAt = [] → normalizeTimestamp "occurredAt" d.clockNow.format = .ok e.occurredAt
  stamp_eq : (⟨e.insertedAt, e.counter⟩ : HlcTimestamp) = localStep d.hlc d.clockNow
  propagatedAt_eq : e.propagatedAt = e.insertedAt
  deviceID_eq : e.deviceID = d.deviceID
  hasRoom : HasRoom d.hlc d.clockNow

theorem validateIdempotentRetry_eq_ok_iff {existing : ThalwegEvent} {stream occurredAt payload : Text}
    {provided : Bool} (h : Storable existing) :
    validateIdempotentRetry existing stream occurredAt provided payload = .ok () ↔
      IsReadableTimestamp existing.occurredAt ∧ existing.stream = stream ∧
        (provided = true → existing.occurredAt = occurredAt) ∧ existing.payload = payload := by
  have htime : ∀ t, normalizeTimestamp "stored occurredAt" existing.occurredAt = .ok t ↔ _ :=
    fun _ => h.occurredAt.normalizeTimestamp_eq_ok_iff
  unfold validateIdempotentRetry
  simp only [h.payload.normalizePayload, wrapf, bind, Except.bind]
  cases hn : normalizeTimestamp "stored occurredAt" existing.occurredAt with
  | error err =>
    have : ¬ IsReadableTimestamp existing.occurredAt := fun hr => by
      have := (htime existing.occurredAt).mpr ⟨hr, rfl⟩
      rw [hn] at this
      cases this
    simp [this]
  | ok t =>
    obtain ⟨hr, rfl⟩ := (htime t).mp hn
    simp only [hr, true_and]
    split_ifs with hdiffers
    · simp only [errorf, reduceCtorEq, false_iff]
      rintro ⟨hs, ho, hp⟩
      rcases hdiffers with hdiffers | ⟨hprovided, hdiffers⟩ | hdiffers
      · exact hdiffers hs
      · exact hdiffers (ho hprovided)
      · exact hdiffers hp
    · push Not at hdiffers
      exact iff_of_true rfl ⟨hdiffers.1, hdiffers.2.1, hdiffers.2.2⟩

namespace Holds

variable {d : Daemon} {L : Ledger}

/-- The ID that a request asks for; a fresh one, when it asks for none. -/
def requestedID (eventID random : Text) : Text :=
  if eventID = [] then randomID "evt" random else eventID

theorem requestedID_ne_nil (eventID random : Text) : requestedID eventID random ≠ [] := by
  unfold requestedID
  split_ifs with h
  · simp [randomID]
  · exact h

/-- The ingest of a local event: it is rejected, answered with the stored event, or stored. -/
theorem ingestInternal_cases (h : d.Holds L)
    {networkName stream occurredAt eventID payload random : Text}
    (hnames : stream = conflictResolutionStream → ∀ e : ThalwegEvent, L.Fresh e →
      d.Issues e networkName stream occurredAt (requestedID eventID random) payload →
      ∃ named, e.names = some named ∧ named ≠ e.id) :
    (∃ err d', d.ingestInternal networkName stream occurredAt eventID payload random =
      (.error err, d') ∧ (d' = d ∨ d' = d.tick)) ∨
    (∃ e ∈ L.events, Findable e ∧
      Answers e networkName stream occurredAt (requestedID eventID random) payload ∧
      d.ingestInternal networkName stream occurredAt eventID payload random = (.ok e, d.tick)) ∨
    ∃ (e : ThalwegEvent) (hfresh : L.Fresh e) (d' : Daemon),
      d.Issues e networkName stream occurredAt (requestedID eventID random) payload ∧ Storable e ∧
      L.events.length + 1 < 2 ^ 64 ∧
      d'.Holds (L.record e hfresh (localStep d.hlc d.clockNow)) ∧ d.SameElsewhere d' ∧
      d.ingestInternal networkName stream occurredAt eventID payload random = (.ok e, d') := by
  unfold ingestInternal
  by_cases hn : networkName = []
  · exact Or.inl ⟨_, d, if_pos hn, Or.inl rfl⟩
  rw [if_neg hn]
  by_cases hs : stream = []
  · exact Or.inl ⟨_, d, if_pos hs, Or.inl rfl⟩
  rw [if_neg hs]
  cases hp : normalizePayload (payloadOrNull payload) with
  | error err => exact Or.inl ⟨err, d, rfl, Or.inl rfl⟩
  | ok canonical =>
    simp only
    cases ho : normalizeTimestamp "occurredAt"
        (if occurredAt = [] then d.clockNow.format else occurredAt) with
    | error err => exact Or.inl ⟨err, d.tick, rfl, Or.inr rfl⟩
    | ok occurred =>
      change _ ∨ _ ∨ ∃ e hfresh d', _ ∧ _ ∧ _ ∧ _ ∧ _ ∧
        d.tick.storeLocal networkName stream occurred (decide (occurredAt ≠ []))
          (requestedID eventID random) canonical d.clockNow = _
      have hstore : ∀ r, d.tick.storeLocal networkName stream occurred (decide (occurredAt ≠ []))
          (if eventID = [] then randomID "evt" random else eventID) canonical d.clockNow = r ↔
          d.tick.storeLocal networkName stream occurred (decide (occurredAt ≠ []))
            (requestedID eventID random) canonical d.clockNow = r := fun _ => Iff.rfl
      simp only [hstore]
      generalize hid : requestedID eventID random = id at hnames ⊢
      have hid' : id ≠ [] := hid ▸ requestedID_ne_nil eventID random
      unfold storeLocal
      cases hfind : findEventByID d.tick.store networkName id with
      | error err => exact Or.inl ⟨err, d.tick, rfl, Or.inr rfl⟩
      | ok found =>
        cases found with
        | some existing =>
          obtain ⟨he, hen, hei, hef⟩ := h.readable_of_find hfind
          have hretry : validateIdempotentRetry existing stream occurred (decide (occurredAt ≠ []))
              canonical = .ok () ↔ _ :=
            validateIdempotentRetry_eq_ok_iff (h.represents.storable existing he)
          simp only
          cases hv : validateIdempotentRetry existing stream occurred (decide (occurredAt ≠ []))
              canonical with
          | error err => exact Or.inl ⟨err, d.tick, rfl, Or.inr rfl⟩
          | ok _ =>
            obtain ⟨-, hes, heo, hep⟩ := hretry.mp hv
            refine Or.inr (Or.inl ⟨existing, he, hef, ⟨hen, hes, hei, fun hne => ?_, ?_⟩, rfl⟩)
            · rw [heo (decide_eq_true hne), ← ho, if_neg hne]
            · rw [hep, hp]
        | none =>
          have hfresh := h.represents.findEventByID_eq_ok_none_iff.mp hfind
          have hnext : ∀ c, nextLocal d.hlc d.clockNow = .ok c ↔ _ := fun _ => nextLocal_eq_ok_iff
          simp only
          cases hc : nextLocal d.tick.hlc d.clockNow with
          | error err => exact Or.inl ⟨err, d.tick, rfl, Or.inr rfl⟩
          | ok clock =>
            obtain ⟨hroom, rfl⟩ := (hnext clock).mp hc
            simp only
            generalize he : (⟨id, networkName, stream, occurred,
              (localStep d.hlc d.clockNow).physical, (localStep d.hlc d.clockNow).physical,
              (localStep d.hlc d.clockNow).logical, d.tick.deviceID, canonical⟩ : ThalwegEvent) = e
            have htime := isTimestamp_localStep h.canonical d.clockNow
            have hstorable : Storable e := by
              subst he
              exact ⟨hid', hn, hs, d.deviceID_ne_nil, isTimestamp_of_normalizeTimestamp ho, htime,
                htime, isPayload_of_normalizePayload hp⟩
            have hfresh' : L.Fresh e := by
              subst he
              exact hfresh
            have hissues : d.Issues e networkName stream occurredAt id payload := by
              subst he
              refine ⟨⟨rfl, rfl, rfl, fun hne => ?_, hp⟩, fun heq => ?_, rfl, rfl, rfl, hroom⟩
              · rw [← ho, if_neg hne]
              · rw [← ho, if_pos heq]
            have hput : ∀ s, putEvent d.tick.store e (localStep d.hlc d.clockNow) = .ok s ↔ _ :=
              fun _ => h.represents.putEvent_eq_ok_iff hstorable
            cases hp : putEvent d.tick.store e (localStep d.hlc d.clockNow) with
            | error err => exact Or.inl ⟨err, d.tick, rfl, Or.inr rfl⟩
            | ok store =>
              obtain ⟨hlen, rfl⟩ := (hput store).mp hp
              have hstamp : HlcTimestamp.AtMost ⟨e.insertedAt, e.counter⟩
                  (localStep d.hlc d.clockNow) := by
                rw [hissues.stamp_eq]
                exact .refl _
              refine Or.inr (Or.inr ⟨e, hfresh', _, hissues, hstorable, hlen, ?_, ?_, rfl⟩)
              · refine h.record hstorable hfresh' (fun hcrs => ?_) hlen (Or.inr htime)
                  (before_localStep hroom).atMost hstamp
                exact hnames (hissues.stream_eq.symm.trans hcrs) e hfresh' hissues
              · exact sameElsewhere_record _ _ _ _

/-! ### Materializing many variants -/

theorem materializeAll_spec {fuel : Nat} {networkName : Text} {eventIDs : List Text} {d d' : Daemon}
    {L : Ledger} {res : Result Unit} (h : d.Holds L)
    (hrun : materializeAll fuel networkName d eventIDs = some (res, d')) :
    ∃ L', d'.Holds L' ∧ ReflTransGen Ledger.Grows L L' ∧ d.SameElsewhere d' := by
  induction eventIDs generalizing d L with
  | nil =>
    cases hrun
    exact ⟨L, h, ReflTransGen.refl, .refl _⟩
  | cons eventID eventIDs ih =>
    rw [materializeAll] at hrun
    cases hm : materializeConflictVariant fuel d networkName eventID with
    | none => simp [hm] at hrun
    | some p =>
      obtain ⟨res', d₁⟩ := p
      obtain ⟨b, L₁, hspec⟩ := h.materialize_spec fuel hm
      cases res' with
      | error err =>
        simp only [hm, Option.some.injEq, Prod.mk.injEq] at hrun
        obtain ⟨rfl, rfl⟩ := hrun
        exact ⟨L₁, hspec.holds, hspec.grows, hspec.same⟩
      | ok r =>
        simp only [hm] at hrun
        obtain ⟨L', hL', hgrows, hsame⟩ := ih hspec.holds hrun
        exact ⟨L', hL', hspec.grows.trans hgrows, hspec.same.trans hsame⟩

theorem reconcileNetworks_spec {fuel : Nat} {order : List Text → List Text}
    {memberships : List NetworkMembershipInfo} {d d' : Daemon} {L : Ledger} {res : Result Unit}
    (h : d.Holds L) (hrun : reconcileNetworks fuel order d memberships = some (res, d')) :
    ∃ L', d'.Holds L' ∧ ReflTransGen Ledger.Grows L L' ∧ d.SameElsewhere d' := by
  induction memberships generalizing d L with
  | nil =>
    cases hrun
    exact ⟨L, h, ReflTransGen.refl, .refl _⟩
  | cons membership memberships ih =>
    obtain ⟨resolutions, hread, -⟩ := h.represents.conflictResolutionsTxn_spec membership.name
    rw [reconcileNetworks] at hrun
    simp only [hread] at hrun
    cases hm : materializeAll fuel membership.name d (order (resolvedEventIDs resolutions)) with
    | none => simp [hm] at hrun
    | some p =>
      obtain ⟨res', d₁⟩ := p
      obtain ⟨L₁, hL₁, hgrows, hsame⟩ := h.materializeAll_spec hm
      cases res' with
      | error err =>
        simp only [hm, Option.some.injEq, Prod.mk.injEq] at hrun
        obtain ⟨rfl, rfl⟩ := hrun
        exact ⟨L₁, hL₁, hgrows, hsame⟩
      | ok r =>
        simp only [hm] at hrun
        obtain ⟨L', hL', hgrows', hsame'⟩ := ih hL₁ hrun
        exact ⟨L', hL', hgrows.trans hgrows', hsame.trans hsame'⟩

/-! ### Starting -/

/-- A database of the current schema is left as it is. -/
theorem ensureStorageSchema_eq (h : d.Holds L) : ensureStorageSchema d.store = (.ok (), d.store) := by
  have hread : readStorageSchemaVersion d.store = .ok (some 4) := by
    have hparse : parseInt64 (Text.decimal 4) = some 4 := by decide
    simp [readStorageSchemaVersion, h.schema, hparse]
  simp [ensureStorageSchema, hread, currentStorageSchemaVersion, migrateStorage]

/-- The daemon that a restart reads from the database of the one before. -/
def restarted (d : Daemon) (now : Nat → Instant) : Daemon := { d with now, broadcasts := [] }

theorem holds_restarted (h : d.Holds L) (now : Nat → Instant) :
    (restarted d now).Holds { L with now } :=
  h.sameCore ⟨fun _ _ => rfl, rfl, rfl⟩

theorem newWithConfig_eq (h : d.Holds L) (fuel : Nat) (order : List Text → List Text)
    (now : Nat → Instant) : d.newWithConfig fuel order now =
      match loadHLC d.store with
      | .error e => some (.error e, d)
      | .ok _ =>
        match reconcileConflictResolutions fuel order (restarted d now) with
        | none => none
        | some (.error e, d) =>
          some (.error (.wrap "reconcile event conflict resolutions: %w" [] e), d)
        | some (.ok (), d) => some (.ok (), d) := by
  unfold newWithConfig
  simp only [h.ensureStorageSchema_eq]
  cases hload : loadHLC d.store with
  | error e => rfl
  | ok hlc =>
    obtain ⟨-, rfl⟩ := (loadHLC_eq_ok_iff h.persisted h.canonical).mp hload
    rfl

theorem newWithConfig_spec (h : d.Holds L) {fuel : Nat} {order : List Text → List Text}
    {now : Nat → Instant} {res : Result Unit} {d' : Daemon}
    (hrun : d.newWithConfig fuel order now = some (res, d')) :
    ∃ L', d'.Holds L' ∧ (L' = L ∨ ReflTransGen Ledger.Grows { L with now } L') ∧
      d.SameElsewhere d' := by
  rw [h.newWithConfig_eq] at hrun
  cases hload : loadHLC d.store with
  | error e =>
    simp only [hload, Option.some.injEq, Prod.mk.injEq] at hrun
    obtain ⟨-, rfl⟩ := hrun
    exact ⟨L, h, Or.inl rfl, .refl d⟩
  | ok hlc =>
    simp only [hload] at hrun
    cases hr : reconcileConflictResolutions fuel order (restarted d now) with
    | none => simp [hr] at hrun
    | some p =>
      obtain ⟨res', d₁⟩ := p
      obtain ⟨L', hL', hgrows, hsame⟩ := (h.holds_restarted now).reconcileNetworks_spec hr
      have hd₁ : d₁ = d' := by
        cases res' <;> simp only [hr, Option.some.injEq, Prod.mk.injEq] at hrun <;> exact hrun.2
      subst hd₁
      exact ⟨L', hL', Or.inr hgrows, ⟨hsame.memberships, hsame.deviceID, hsame.get⟩⟩

/-! ### Resolving a conflict -/

theorem mem_of_mem_resolutionsOf {resolutions : List (Text × ThalwegEvent)} {eventID : Text}
    {r : ThalwegEvent} (hr : r ∈ resolutionsOf resolutions eventID) : (eventID, r) ∈ resolutions := by
  unfold resolutionsOf at hr
  rw [List.mem_insertionSort, List.mem_map] at hr
  obtain ⟨⟨named, r'⟩, hmem, rfl⟩ := hr
  obtain ⟨hin, hnamed⟩ := List.mem_filter.mp hmem
  obtain rfl : named = eventID := by simpa using hnamed
  exact hin

/-- What an event names that answers the request of a resolution. -/
theorem names_of_answers {e : ThalwegEvent} {networkName occurredAt id eventID : Text}
    (heventID : eventID ≠ []) (h : Answers e networkName conflictResolutionStream occurredAt id
      (marshalConflictResolution (resolutionOf eventID))) : e.names = some eventID := by
  have hpayload := h.payload_eq
  rw [payloadOrNull_marshalConflictResolution, normalizePayload_marshalConflictResolution] at hpayload
  exact names_of_resolutionMembers heventID h.stream_eq (Except.ok.inj hpayload).symm

/-- A new resolution names the stored event that it resolves, not itself. -/
theorem names_of_issues {e original : ThalwegEvent} {networkName occurredAt id eventID : Text}
    (heventID : eventID ≠ []) (horiginal : original ∈ L.events)
    (hnetwork : original.network = networkName) (hid : original.id = eventID) (hfresh : L.Fresh e)
    (h : d.Issues e networkName conflictResolutionStream occurredAt id
      (marshalConflictResolution (resolutionOf eventID))) :
    e.names = some eventID ∧ eventID ≠ e.id := by
  refine ⟨names_of_answers heventID h.toAnswers, ?_⟩
  rintro rfl
  exact hfresh original horiginal (hnetwork.trans h.network_eq.symm) hid

/-- The result of a resolution is that of the materialization of its last step. -/
theorem finishResolution_eq_some {fuel : Nat} {d d' : Daemon} {networkName eventID : Text}
    {r : ThalwegEvent} {again : Bool} {res : Result EventConflictResolutionResult}
    (hrun : d.finishResolution fuel networkName eventID r again = some (res, d')) :
    ∃ res', materializeConflictVariant fuel d networkName eventID = some (res', d') ∧
      ((∃ err, res = .error err ∧ res' = .error err) ∨
        ∃ copy created, res' = .ok (copy, created) ∧ res = .ok ⟨networkName, eventID,
          conflictResolutionStrategy, r, copy, again⟩) := by
  unfold finishResolution at hrun
  cases hm : materializeConflictVariant fuel d networkName eventID with
  | none => simp [hm] at hrun
  | some p =>
    obtain ⟨res', d₁⟩ := p
    cases res' with
    | error err =>
      simp only [hm, Option.some.injEq, Prod.mk.injEq] at hrun
      obtain ⟨rfl, rfl⟩ := hrun
      exact ⟨_, rfl, Or.inl ⟨err, rfl, rfl⟩⟩
    | ok stored =>
      obtain ⟨copy, created⟩ := stored
      simp only [hm, Option.some.injEq, Prod.mk.injEq] at hrun
      obtain ⟨rfl, rfl⟩ := hrun
      exact ⟨_, rfl, Or.inr ⟨copy, created, rfl, rfl⟩⟩

/-- What the resolution of a conflict does: it is rejected, finishes a resolution that is stored, or
stores one and finishes it. -/
inductive Resolves (d : Daemon) (L : Ledger) (fuel : Nat) (networkName eventID random : Text)
    (res : Result EventConflictResolutionResult) (d' : Daemon) : Prop
  | rejected (err : Failure) : res = .error err → (d' = d ∨ d' = d.tick) →
      Resolves d L fuel networkName eventID random res d'
  | again (r : ThalwegEvent) : r ∈ L.events → r.network = networkName → r.names = some eventID →
      d.finishResolution fuel networkName eventID r true = some (res, d') →
      Resolves d L fuel networkName eventID random res d'
  | anew (r : ThalwegEvent) (hfresh : L.Fresh r) (d₁ : Daemon) (original : ThalwegEvent) :
      (∀ q ∈ L.events, q.network = networkName → q.names ≠ some eventID) →
      original ∈ L.events → original.network = networkName → original.id = eventID →
      d.Issues r networkName conflictResolutionStream [] (randomID "evt" random)
        (marshalConflictResolution (resolutionOf eventID)) → Storable r → r.names = some eventID →
      d₁.Holds (L.record r hfresh (localStep d.hlc d.clockNow)) → d.SameElsewhere d₁ →
      d₁.finishResolution fuel networkName eventID r false = some (res, d') →
      Resolves d L fuel networkName eventID random res d'

theorem resolveEventConflict_spec (h : d.Holds L) {fuel : Nat}
    {networkName eventID strategy random : Text} {res : Result EventConflictResolutionResult}
    {d' : Daemon}
    (hrun : d.resolveEventConflict fuel networkName eventID strategy random = some (res, d')) :
    Resolves d L fuel networkName eventID random res d' := by
  unfold resolveEventConflict at hrun
  split at hrun
  · cases hrun
    exact .rejected _ rfl (Or.inl rfl)
  next hrequired =>
  split at hrun
  · cases hrun
    exact .rejected _ rfl (Or.inl rfl)
  split at hrun
  · cases hrun
    exact .rejected _ rfl (Or.inl rfl)
  unfold resolveObserved at hrun
  split at hrun
  · cases hrun
    exact .rejected _ rfl (Or.inl rfl)
  split at hrun
  · cases hrun
    exact .rejected _ rfl (Or.inl rfl)
  · cases hrun
    exact .rejected _ rfl (Or.inl rfl)
  next original hfind =>
  obtain ⟨horiginal, hon, hoi, -⟩ := h.readable_of_find hfind
  obtain ⟨resolutions, hread, hspec⟩ := h.represents.conflictResolutionsTxn_spec networkName
  rw [hread] at hrun
  simp only at hrun
  split at hrun
  · next r rest hr =>
    obtain ⟨hmem, hn, hname⟩ := (hspec eventID r).mp (mem_of_mem_resolutionsOf (by rw [hr]; simp))
    exact .again r hmem hn hname hrun
  · next hnone =>
    have hunresolved : ∀ q ∈ L.events, q.network = networkName → q.names ≠ some eventID := by
      intro q hq hqn hname
      have hin : q ∈ resolutionsOf resolutions eventID := by
        unfold resolutionsOf
        rw [List.mem_insertionSort, List.mem_map]
        exact ⟨(eventID, q), List.mem_filter.mpr ⟨(hspec eventID q).mpr ⟨hq, hqn, hname⟩, by simp⟩, rfl⟩
      rw [hnone] at hin
      cases hin
    have heventID : eventID ≠ [] := fun heq => hrequired (Or.inr heq)
    have hnames : ∀ e : ThalwegEvent, L.Fresh e → d.Issues e networkName conflictResolutionStream []
        (requestedID [] random) (marshalConflictResolution (resolutionOf eventID)) →
        e.names = some eventID ∧ eventID ≠ e.id :=
      fun e hfresh hissues => names_of_issues heventID horiginal hon hoi hfresh hissues
    rcases h.ingestInternal_cases fun _ e hfresh hissues => ⟨eventID, hnames e hfresh hissues⟩ with
      ⟨err, d₁, hi, hd₁⟩ | ⟨e, he, -, hanswers, hi⟩ |
        ⟨e, hfresh, d₁, hissues, hstorable, -, hd₁, hsame, hi⟩
    · rw [resolutionOf] at hi
      simp only [hi, Option.some.injEq, Prod.mk.injEq] at hrun
      obtain ⟨rfl, rfl⟩ := hrun
      exact .rejected _ rfl hd₁
    · -- an event of the fresh ID that names the event ID would be a stored resolution
      exact absurd (names_of_answers heventID hanswers) (hunresolved e he hanswers.network_eq)
    · rw [resolutionOf] at hi
      simp only [hi] at hrun
      exact .anew e hfresh d₁ original hunresolved horiginal hon hoi hissues hstorable
        (hnames e hfresh hissues).1 hd₁ hsame hrun

theorem Resolves.grows (h : d.Holds L) {fuel : Nat} {networkName eventID random : Text}
    {res : Result EventConflictResolutionResult} {d' : Daemon}
    (hres : Resolves d L fuel networkName eventID random res d') :
    ∃ L₁ L', d'.Holds L' ∧ ReflTransGen Ledger.Grows L₁ L' ∧ d.SameElsewhere d' ∧ (L₁ = L ∨
      ∃ (r : ThalwegEvent) (hfresh : L.Fresh r),
        d.Issues r networkName conflictResolutionStream [] (randomID "evt" random)
          (marshalConflictResolution (resolutionOf eventID)) ∧ Storable r ∧
        L₁ = L.record r hfresh (localStep d.hlc d.clockNow)) := by
  cases hres with
  | rejected err _ hd =>
    rcases hd with rfl | rfl
    · exact ⟨L, L, h, ReflTransGen.refl, .refl _, Or.inl rfl⟩
    · exact ⟨L, _, h.tick, ReflTransGen.single .reading, .tick d, Or.inl rfl⟩
  | again r _ _ _ hfinish =>
    obtain ⟨res', hm, -⟩ := finishResolution_eq_some hfinish
    obtain ⟨b, L', hspec⟩ := h.materialize_spec fuel hm
    exact ⟨L, L', hspec.holds, hspec.grows, hspec.same, Or.inl rfl⟩
  | anew r hfresh d₁ original _ _ _ _ hissues hstorable _ hd₁ hsame hfinish =>
    obtain ⟨res', hm, -⟩ := finishResolution_eq_some hfinish
    obtain ⟨b, L', hspec⟩ := hd₁.materialize_spec fuel hm
    exact ⟨_, L', hspec.holds, hspec.grows, hsame.trans hspec.same,
      Or.inr ⟨r, hfresh, hissues, hstorable, rfl⟩⟩

end Holds

/-! ### Every operation -/

/-- Every network is mounted under its own name. -/
def Named (d : Daemon) : Prop :=
  ∀ name membership, d.memberships.get name = some membership → membership.name = name

theorem voidResult_eq {α : Type} {r : Result α × Daemon} {res : Result Unit} {d' : Daemon}
    (h : voidResult r = (res, d')) : ∃ res', r = (res', d') ∧
      ((∃ err, res' = .error err ∧ res = .error err) ∨ ∃ a, res' = .ok a ∧ res = .ok ()) := by
  obtain ⟨res', d₁⟩ := r
  cases h
  cases res' with
  | error err => exact ⟨_, rfl, Or.inl ⟨err, rfl, rfl⟩⟩
  | ok a => exact ⟨_, rfl, Or.inr ⟨a, rfl, rfl⟩⟩

/-- The operations that leave events, clock and schema. -/
def IsQuiet : Operation → Prop
  | .ingest .. | .ingestReplicated _ | .resolveEventConflict .. | .restart ..
  | .killedReceipt _ | .killedResolution .. => False
  | _ => True

theorem Performs.sameCore {d d' : Daemon} {op : Operation} {r : Result Unit}
    (hp : d.Performs op r d') (hquiet : IsQuiet op) : d.SameCore d' := by
  obtain ⟨fuel, hp⟩ := hp
  cases op with
  | ingest | ingestReplicated | resolveEventConflict | restart | killedReceipt
    | killedResolution => exact hquiet.elim
  | recordEventConflicts networkName observations =>
    cases hp
    exact sameCore_recordEventConflicts d networkName observations
  | createDurableSiphon network name streams start =>
    cases hp
    exact sameCore_createDurableSiphon d network name streams start
  | pollDurableSiphon network name limit random =>
    cases hp
    exact sameCore_pollDurableSiphon d network name limit random
  | acknowledgeDurableSiphon network name deliveryID =>
    cases hp
    exact sameCore_acknowledgeDurableSiphon d network name deliveryID
  | deleteDurableSiphon network name =>
    have := sameCore_deleteDurableSiphon d network name
    rwa [Option.some.inj hp] at this
  | networkCreate name id secret =>
    have := sameCore_networkCreate d name id secret
    rwa [Option.some.inj hp] at this
  | networkJoin invitation =>
    have := sameCore_networkJoin d invitation
    rwa [Option.some.inj hp] at this
  | networkLeave name =>
    have := sameCore_networkLeave d name
    rwa [Option.some.inj hp] at this
  | persistMeshPeer networkName peerID record =>
    cases hp
    exact ⟨sameCore_set (not_isCoreKey_of_keyFamily (keyFamily_meshPeerKey _ _) (by simp)), rfl, rfl⟩
  | persistPeer peerID address =>
    cases hp
    exact ⟨sameCore_set (not_isCoreKey_of_keyFamily (keyFamily_peerKey _) (by simp)), rfl, rfl⟩

theorem Holds.ingest_cases {d : Daemon} {L : Ledger} (h : d.Holds L)
    (networkName stream occurredAt eventID payload random : Text) :
    (∃ err d', d.ingest networkName stream occurredAt eventID payload random = (.error err, d') ∧
      (d' = d ∨ d' = d.tick)) ∨
    (∃ e ∈ L.events, Findable e ∧
      Answers e networkName stream occurredAt (Holds.requestedID eventID random) payload ∧
      d.ingest networkName stream occurredAt eventID payload random = (.ok e, d.tick)) ∨
    ∃ (e : ThalwegEvent) (hfresh : L.Fresh e) (d' : Daemon), stream ≠ conflictResolutionStream ∧
      d.Issues e networkName stream occurredAt (Holds.requestedID eventID random) payload ∧
      Storable e ∧ d'.Holds (L.record e hfresh (localStep d.hlc d.clockNow)) ∧ d.SameElsewhere d' ∧
      d.ingest networkName stream occurredAt eventID payload random = (.ok e, d') := by
  unfold ingest
  split_ifs with hs
  · exact Or.inl ⟨_, d, rfl, Or.inl rfl⟩
  · rcases h.ingestInternal_cases fun heq => absurd heq hs with
      hcase | hcase | ⟨e, hfresh, d', hissues, hstorable, -, hd', hsame, hi⟩
    · exact Or.inl hcase
    · exact Or.inr (Or.inl hcase)
    · exact Or.inr (Or.inr ⟨e, hfresh, d', hs, hissues, hstorable, hd', hsame, hi⟩)

/-- The first transaction of a receipt. -/
theorem Holds.receiptTransaction_cases {d : Daemon} {L : Ledger} (h : d.Holds L)
    (incoming : ThalwegEvent) :
    (d.receiptTransaction incoming = d ∨ d.receiptTransaction incoming = d.tick) ∨
    ∃ e L', normalizeReplicatedEvent incoming = .ok e ∧ L.Admits e L' ∧
      (d.receiptTransaction incoming).Holds L' ∧ d.SameElsewhere (d.receiptTransaction incoming) := by
  unfold receiptTransaction
  cases hnormal : normalizeReplicatedEvent incoming with
  | error err => exact Or.inl (Or.inl rfl)
  | ok e =>
    simp only
    cases hparse : parseConflictResolution e with
    | error err => exact Or.inl (Or.inl rfl)
    | ok resolution =>
      have hnames := names_of_parseConflictResolution hparse
      simp only
      rcases h.storeReplicated_cases (storable_of_normalizeReplicatedEvent hnormal) hnames with
        ⟨err, d', hstore, hd', -⟩ | ⟨hstore, -, hadmits⟩ | ⟨d', L', hstore, -, hadmits, hd', hsame⟩
      all_goals rw [hstore]
      · exact Or.inl hd'
      · exact Or.inl (Or.inl rfl)
      · exact Or.inr ⟨e, L', rfl, hadmits, hd', hsame⟩

/-- The first transaction of the resolution of a conflict. -/
theorem Holds.resolutionTransaction_cases {d : Daemon} {L : Ledger} (h : d.Holds L)
    (networkName eventID random : Text) :
    (d.resolutionTransaction networkName eventID random = d ∨
      d.resolutionTransaction networkName eventID random = d.tick) ∨
    ∃ (e : ThalwegEvent) (hfresh : L.Fresh e),
      d.Issues e networkName conflictResolutionStream [] (randomID "evt" random)
        (marshalConflictResolution (resolutionOf eventID)) ∧ Storable e ∧
      (d.resolutionTransaction networkName eventID random).Holds
        (L.record e hfresh (localStep d.hlc d.clockNow)) ∧
      d.SameElsewhere (d.resolutionTransaction networkName eventID random) := by
  unfold resolutionTransaction
  split_ifs with heventID
  · exact Or.inl (Or.inl rfl)
  · split
    · next original hfind =>
      obtain ⟨horiginal, hon, hoi, -⟩ := h.readable_of_find hfind
      rcases h.ingestInternal_cases fun _ e hfresh hissues => ⟨eventID,
          Holds.names_of_issues heventID horiginal hon hoi hfresh hissues⟩ with
        ⟨err, d₁, hi, hd₁⟩ | ⟨e, -, -, -, hi⟩ | ⟨e, hfresh, d₁, hissues, hs, -, hd₁, hsame, hi⟩
      all_goals
        rw [resolutionOf] at hi
        rw [hi]
      · exact Or.inl hd₁
      · exact Or.inl (Or.inr rfl)
      · exact Or.inr ⟨e, hfresh, hissues, hs, hd₁, hsame⟩
    · exact Or.inl (Or.inl rfl)

/-- The ledger after the first transaction of an operation, when it stores an event; the operations
that store none leave the ledger, and a restart has new readings of the wall clock. -/
inductive Begins (d : Daemon) (L : Ledger) : Operation → Ledger → Prop
  | still (op : Operation) : Begins d L op L
  | restart (order : List Text → List Text) (now : Nat → Instant) :
      Begins d L (.restart order now) { L with now }
  | ingest {networkName stream occurredAt eventID payload : Text} (random : Text) {e : ThalwegEvent}
      (hfresh : L.Fresh e) : stream ≠ conflictResolutionStream →
      d.Issues e networkName stream occurredAt (Holds.requestedID eventID random) payload →
      Storable e → Begins d L (.ingest networkName stream occurredAt eventID payload random)
        (L.record e hfresh (localStep d.hlc d.clockNow))
  | resolution {op : Operation} {networkName eventID random : Text} {e : ThalwegEvent}
      (hfresh : L.Fresh e) : ((∃ strategy, op = .resolveEventConflict networkName eventID strategy random) ∨
        op = .killedResolution networkName eventID random) →
      d.Issues e networkName conflictResolutionStream [] (randomID "evt" random)
        (marshalConflictResolution (resolutionOf eventID)) →
      Storable e → Begins d L op (L.record e hfresh (localStep d.hlc d.clockNow))
  | receipt {op : Operation} {incoming e : ThalwegEvent} {L₁ : Ledger} :
      op = .ingestReplicated incoming ∨ op = .killedReceipt incoming →
      normalizeReplicatedEvent incoming = .ok e → L.Admits e L₁ → Begins d L op L₁

theorem Begins.kept {d : Daemon} {L L₁ : Ledger} {op : Operation} (h : d.Begins L op L₁) :
    L.events <+: L₁.events := by
  cases h with
  | still | restart => exact List.prefix_rfl
  | ingest | resolution => exact List.prefix_append _ _
  | receipt _ _ hadmits => exact hadmits.kept

/-- **What an operation does**: a quiet one leaves the events and the clock, another one begins with
at most one event and recovers copies. -/
theorem Holds.perform_cases {d d' : Daemon} {L : Ledger} (h : d.Holds L) {op : Operation}
    {r : Result Unit} (hp : d.Performs op r d') :
    (d'.Holds { L with now := d'.now } ∧ IsQuiet op ∧ d.SameCore d') ∨
    ∃ L₁ L', d.Begins L op L₁ ∧ ReflTransGen Ledger.Grows L₁ L' ∧ d'.Holds L' ∧
      d.SameElsewhere d' := by
  by_cases hquiet : IsQuiet op
  · exact Or.inl ⟨h.sameCore (hp.sameCore hquiet), hquiet, hp.sameCore hquiet⟩
  refine Or.inr ?_
  obtain ⟨fuel, hp⟩ := hp
  have hstill : d' = d ∨ d' = d.tick → ∃ L₁ L', d.Begins L op L₁ ∧
      ReflTransGen Ledger.Grows L₁ L' ∧ d'.Holds L' ∧ d.SameElsewhere d' := by
    rintro (rfl | rfl)
    · exact ⟨L, L, .still op, ReflTransGen.refl, h, .refl _⟩
    · exact ⟨L, L.tick, .still op, ReflTransGen.single .reading, h.tick, .tick d⟩
  cases op with
  | ingest networkName stream occurredAt eventID payload random =>
    obtain ⟨res, hi, -⟩ := voidResult_eq (Option.some.inj hp)
    rcases h.ingest_cases networkName stream occurredAt eventID payload random with
      ⟨err, d₁, hi', hd₁⟩ | ⟨e, -, -, -, hi'⟩ | ⟨e, hfresh, d₁, hs, hissues, hstorable, hd₁, hsame, hi'⟩
    all_goals
      rw [hi'] at hi
      cases hi
    · exact hstill hd₁
    · exact hstill (Or.inr rfl)
    · exact ⟨_, _, .ingest random hfresh hs hissues hstorable, ReflTransGen.refl, hd₁, hsame⟩
  | ingestReplicated incoming =>
    obtain ⟨⟨res, d₁⟩, hi, hv⟩ := Option.map_eq_some_iff.mp hp
    obtain ⟨res', heq, -⟩ := voidResult_eq hv
    cases heq
    obtain ⟨L', hreceived⟩ := h.ingestReplicated_spec hi
    rcases hreceived.grows with (rfl | rfl) | ⟨e, L₁, hnormal, hadmits, hgrows⟩
    · exact ⟨_, _, .still _, ReflTransGen.refl, hreceived.holds, hreceived.same⟩
    · exact ⟨_, _, .still _, ReflTransGen.single .reading, hreceived.holds, hreceived.same⟩
    · exact ⟨L₁, L', .receipt (Or.inl rfl) hnormal hadmits, hgrows, hreceived.holds, hreceived.same⟩
  | resolveEventConflict networkName eventID strategy random =>
    obtain ⟨⟨res, d₁⟩, hi, hv⟩ := Option.map_eq_some_iff.mp hp
    obtain ⟨res', heq, -⟩ := voidResult_eq hv
    cases heq
    obtain ⟨L₁, L', hL', hgrows, hsame, rfl | ⟨e, hfresh, hissues, hs, rfl⟩⟩ :=
      (h.resolveEventConflict_spec hi).grows h
    · exact ⟨_, L', .still _, hgrows, hL', hsame⟩
    · exact ⟨_, L', .resolution hfresh (Or.inl ⟨strategy, rfl⟩) hissues hs, hgrows, hL', hsame⟩
  | restart order now =>
    obtain ⟨L', hL', hgrows, hsame⟩ := h.newWithConfig_spec hp
    rcases hgrows with rfl | hgrows
    · exact ⟨_, _, .still _, ReflTransGen.refl, hL', hsame⟩
    · exact ⟨_, L', .restart order now, hgrows, hL', hsame⟩
  | killedReceipt incoming =>
    cases hp
    rcases h.receiptTransaction_cases incoming with hd | ⟨e, L', hnormal, hadmits, hL', hsame⟩
    · exact hstill hd
    · exact ⟨L', L', .receipt (Or.inr rfl) hnormal hadmits, ReflTransGen.refl, hL', hsame⟩
  | killedResolution networkName eventID random =>
    cases hp
    rcases h.resolutionTransaction_cases networkName eventID random with
      hd | ⟨e, hfresh, hissues, hs, hd', hsame⟩
    · exact hstill hd
    · exact ⟨_, _, .resolution hfresh (Or.inr rfl) hissues hs, ReflTransGen.refl, hd', hsame⟩
  | _ => exact absurd trivial hquiet

/-- **Every operation keeps a ledger**, to whose events it adds at the end only. -/
theorem Holds.perform {d d' : Daemon} {L : Ledger} (h : d.Holds L) {op : Operation}
    {r : Result Unit} (hp : d.Performs op r d') :
    ∃ L', d'.Holds L' ∧ L.events <+: L'.events := by
  rcases h.perform_cases hp with ⟨hL', -⟩ | ⟨L₁, L', hbegins, hgrows, hL', -⟩
  · exact ⟨_, hL', List.prefix_rfl⟩
  · exact ⟨L', hL', hbegins.kept.trans (Ledger.prefix_of_grows hgrows)⟩

theorem named_set {memberships : Memberships}
    (h : ∀ name m, memberships.get name = some m → m.name = name) (membership : NetworkMembership) :
    ∀ name m, (OrderedStore.set memberships membership.name membership).get name = some m →
      m.name = name := by
  intro name m hget
  rw [OrderedStore.get_set] at hget
  split_ifs at hget with hname
  · rw [← Option.some.inj hget, hname]
  · exact h name m hget

theorem named_of_performs {d d' : Daemon} {L : Ledger} (h : d.Holds L) (hnamed : d.Named)
    {op : Operation} {r : Result Unit} (hp : d.Performs op r d') : d'.Named := by
  have hsame : d'.memberships = d.memberships → d'.Named := fun heq => by
    unfold Named
    rwa [heq]
  by_cases hquiet : IsQuiet op
  swap
  · rcases h.perform_cases hp with ⟨-, hq, -⟩ | ⟨-, -, -, -, -, hs⟩
    · exact absurd hq hquiet
    · exact hsame hs.memberships
  obtain ⟨fuel, hp⟩ := hp
  cases op with
  | ingest | ingestReplicated | resolveEventConflict | restart | killedReceipt
    | killedResolution => exact hquiet.elim
  | networkCreate name id secret =>
    obtain rfl : (d.networkCreate name id secret).2 = d' := congrArg Prod.snd (Option.some.inj hp)
    unfold networkCreate
    split
    · exact hnamed
    · next hcreate =>
      obtain rfl := Memberships.create_eq_ok hcreate
      exact named_set hnamed _
  | networkJoin invitation =>
    obtain rfl : (d.networkJoin invitation).2 = d' := congrArg Prod.snd (Option.some.inj hp)
    unfold networkJoin
    split
    · exact hnamed
    · next hjoin =>
      rcases Memberships.join_eq_ok hjoin with rfl | ⟨membership, rfl⟩
      · exact hnamed
      · exact named_set hnamed _
  | networkLeave name =>
    obtain rfl : (d.networkLeave name).2 = d' := congrArg Prod.snd (Option.some.inj hp)
    unfold networkLeave
    split
    · exact hnamed
    · next hleave =>
      obtain rfl := Memberships.leave_eq_ok hleave
      intro n m hget
      rw [OrderedStore.get_delete] at hget
      split_ifs at hget
      exact hnamed n m hget
  | recordEventConflicts networkName observations =>
    obtain rfl : d.recordEventConflicts networkName observations = d' :=
      congrArg Prod.snd (Option.some.inj hp)
    refine hsame ?_
    simp only [recordEventConflicts]
    split <;> rfl
  | createDurableSiphon network name streams start =>
    obtain rfl : (voidResult (d.createDurableSiphon network name streams start)).2 = d' :=
      congrArg Prod.snd (Option.some.inj hp)
    refine hsame ?_
    simp only [voidResult, createDurableSiphon]
    repeat' split
    all_goals rfl
  | pollDurableSiphon network name limit random =>
    obtain rfl : (voidResult (d.pollDurableSiphon network name limit random)).2 = d' :=
      congrArg Prod.snd (Option.some.inj hp)
    refine hsame ?_
    simp only [voidResult, pollDurableSiphon]
    repeat' split
    all_goals rfl
  | acknowledgeDurableSiphon network name deliveryID =>
    obtain rfl : (voidResult (d.acknowledgeDurableSiphon network name deliveryID)).2 = d' :=
      congrArg Prod.snd (Option.some.inj hp)
    refine hsame ?_
    simp only [voidResult, acknowledgeDurableSiphon]
    repeat' split
    all_goals rfl
  | deleteDurableSiphon network name =>
    obtain rfl : (d.deleteDurableSiphon network name).2 = d' :=
      congrArg Prod.snd (Option.some.inj hp)
    refine hsame ?_
    simp only [deleteDurableSiphon]
    repeat' split
    all_goals rfl
  | persistMeshPeer networkName peerID record =>
    cases hp
    exact hsame rfl
  | persistPeer peerID address =>
    cases hp
    exact hsame rfl

theorem Reachable.exists_holds {d : Daemon} (h : d.Reachable) : (∃ L, d.Holds L) ∧ d.Named := by
  refine ReachableBy.induction (p := fun d => (∃ L, d.Holds L) ∧ d.Named) ?_ ?_ h
  · intro deviceID hdeviceID now
    exact ⟨⟨_, initial_holds deviceID hdeviceID now⟩, nofun⟩
  · rintro d d' ⟨⟨L, hL⟩, hnamed⟩ ⟨op, r, hp, -⟩
    obtain ⟨L', hL', -⟩ := hL.perform hp
    exact ⟨⟨L', hL'⟩, named_of_performs hL hnamed hp⟩

/-- A run keeps a ledger. -/
theorem Holds.run {meets : Daemon → Operation → Result Unit → Prop} {d d' : Daemon} {L : Ledger}
    (h : d.Holds L) (hrun : Run meets d d') : ∃ L', d'.Holds L' ∧ L.events <+: L'.events := by
  induction hrun with
  | refl => exact ⟨L, h, List.prefix_rfl⟩
  | tail _ hlast ih =>
    obtain ⟨L₁, hL₁, hkept⟩ := ih
    obtain ⟨op, r, hp, -⟩ := hlast
    obtain ⟨L', hL', hkept'⟩ := hL₁.perform hp
    exact ⟨L', hL', hkept.trans hkept'⟩

end Daemon

end Thalweg
