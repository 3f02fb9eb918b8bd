import Thalweg.Daemon.Keys
import Thalweg.Daemon.Resolution

/-!
# The events of a store

A store represents the list of its events in the order of their arrival: each event has its record,
its entry in the ID index and its entry in the arrival index, and there are no other records and
entries.

## Main definitions

* `storedEvents`, the events whose records a store holds.
* `Represents`: the store represents a list of events.

## Main results

* `Represents.findEventByID_eq_ok_some_iff`, `Represents.findEventByID_eq_ok_none_iff`: what the ID
  index finds.
* `Represents.putEvent_eq_ok_iff`, `Represents.append`: the write of a new event appends it.
* `Represents.frame`: writes to other keys leave the events.
-/

namespace Thalweg

/-! ### Representation -/

/-- The events whose records the store holds. -/
def storedEvents (store : Store) : Set ThalwegEvent :=
  {e | Storable e ∧ store.get (eventKey e) = some (eventText e)}

/-- The store represents the events, in the order of their arrival. -/
structure Represents (store : Store) (events : List ThalwegEvent) : Prop where
  storable : ∀ e ∈ events, Storable e
  distinct : Distinct events
  names : ∀ e ∈ events, e.stream = conflictResolutionStream →
    ∃ eventID, e.names = some eventID ∧ eventID ≠ e.id
  record_iff : ∀ key value, keyFamily key = .event →
    (store.get key = some value ↔ ∃ e ∈ events, key = eventKey e ∧ value = eventText e)
  index_iff : ∀ key value, keyFamily key = .eventID →
    (store.get key = some value ↔
      ∃ e ∈ events, key = eventIDKey e.network e.id ∧ value = eventKey e)
  arrival_iff : ∀ key value, keyFamily key = .arrival →
    (store.get key = some value ↔ ∃ i e, events[i]? = some e ∧
      key = arrivalIndexKey e.network (UInt64.ofNat (i + 1)) ∧ value = eventKey e)
  length_lt : events.length < 2 ^ 64
  sequence : store.get arrivalSequenceKey = some (Text.decimal events.length)

namespace Represents

variable {store : Store} {events : List ThalwegEvent}

theorem get_eventKey (h : Represents store events) {e : ThalwegEvent} (he : e ∈ events) :
    store.get (eventKey e) = some (eventText e) :=
  (h.record_iff _ _ (by simp)).mpr ⟨e, he, rfl, rfl⟩

theorem mem_storedEvents_iff (h : Represents store events) {e : ThalwegEvent} :
    e ∈ storedEvents store ↔ e ∈ events := by
  constructor
  · rintro ⟨he, hget⟩
    obtain ⟨f, hf, -, htext⟩ := (h.record_iff _ _ (by simp)).mp hget
    rwa [eventText_injOn he.payload (h.storable f hf).payload htext]
  · exact fun he => ⟨h.storable e he, h.get_eventKey he⟩

theorem get_eventIDKey (h : Represents store events) {e : ThalwegEvent} (he : e ∈ events) :
    store.get (eventIDKey e.network e.id) = some (eventKey e) :=
  (h.index_iff _ _ (by simp)).mpr ⟨e, he, rfl, rfl⟩

theorem get_eventIDKey_eq_none (h : Represents store events) {networkName eventID : Text}
    (hnone : ∀ e ∈ events, e.network = networkName → e.id ≠ eventID) :
    store.get (eventIDKey networkName eventID) = none := by
  rw [Option.eq_none_iff_forall_not_mem]
  intro value hvalue
  obtain ⟨e, he, hkey, -⟩ := (h.index_iff _ _ (by simp)).mp hvalue
  obtain ⟨hn, hi⟩ := eventIDKey_inj.mp hkey
  exact hnone e he hn.symm hi.symm

/-! ### Finding events -/

theorem findEventByID_eq_none (h : Represents store events) {networkName eventID : Text}
    (hnone : ∀ e ∈ events, e.network = networkName → e.id ≠ eventID) :
    findEventByID store networkName eventID = .ok none := by
  rw [findEventByID, h.get_eventIDKey_eq_none hnone]

/-- The event of an ID is found exactly when its occurrence time and its record can be read. -/
theorem findEventByID_of_mem (h : Represents store events) {e : ThalwegEvent} (he : e ∈ events)
    {found : Option ThalwegEvent} :
    findEventByID store e.network e.id = .ok found ↔ Findable e ∧ found = some e := by
  have hpayload := (h.storable e he).payload
  have hdecode : ∀ f, decodeEvent (eventText e) = .ok f ↔ _ := fun _ =>
    decodeEvent_eq_ok_iff hpayload
  have htime : ∀ t, normalizeTimestamp "stored occurredAt" e.occurredAt = .ok t ↔ _ := fun _ =>
    (h.storable e he).occurredAt.normalizeTimestamp_eq_ok_iff
  rw [findEventByID, h.get_eventIDKey he]
  simp only [h.get_eventKey he, Findable]
  cases hd : decodeEvent (eventText e) with
  | error err =>
    have : ¬ payloadDepth e.payload < Json.maxDepth := fun hlt => by
      have := (hdecode e).mpr ⟨hlt, rfl⟩
      rw [hd] at this
      cases this
    simp [bind, Except.bind, this]
  | ok event =>
    obtain ⟨hlt, rfl⟩ := (hdecode event).mp hd
    cases ht : normalizeTimestamp "stored occurredAt" event.occurredAt with
    | error err =>
      have : ¬ IsReadableTimestamp event.occurredAt := fun hr => by
        have := (htime event.occurredAt).mpr ⟨hr, rfl⟩
        rw [ht] at this
        cases this
      simp [bind, Except.bind, this, ht]
    | ok occurredAt =>
      obtain ⟨hr, rfl⟩ := (htime occurredAt).mp ht
      simp [bind, Except.bind, hr, hlt, ht, hpayload.normalizePayload, wrapf, eq_comm]

theorem findEventByID_eq_ok_none_iff (h : Represents store events) {networkName eventID : Text} :
    findEventByID store networkName eventID = .ok none ↔
      ∀ e ∈ events, e.network = networkName → e.id ≠ eventID := by
  refine ⟨?_, h.findEventByID_eq_none⟩
  rintro hfind e he rfl rfl
  cases ((h.findEventByID_of_mem he).mp hfind).2

theorem findEventByID_eq_ok_some_iff (h : Represents store events) {networkName eventID : Text}
    {e : ThalwegEvent} : findEventByID store networkName eventID = .ok (some e) ↔
      e ∈ events ∧ e.network = networkName ∧ e.id = eventID ∧ Findable e := by
  by_cases hsome : ∃ f ∈ events, f.network = networkName ∧ f.id = eventID
  · obtain ⟨f, hf, rfl, rfl⟩ := hsome
    rw [h.findEventByID_of_mem hf]
    constructor
    · rintro ⟨hfindable, heq⟩
      cases heq
      exact ⟨hf, rfl, rfl, hfindable⟩
    · rintro ⟨he, hn, hi, hfindable⟩
      obtain rfl := h.distinct.eq_of_id he hf hn hi
      exact ⟨hfindable, rfl⟩
  · push Not at hsome
    rw [h.findEventByID_eq_none hsome]
    refine ⟨nofun, ?_⟩
    rintro ⟨he, hn, hi, -⟩
    exact absurd hi (hsome e he hn)

/-- What an error of the search for an event says. -/
theorem exists_of_findEventByID_eq_error (h : Represents store events) {networkName eventID : Text}
    {err : Failure} (herr : findEventByID store networkName eventID = .error err) :
    ∃ e ∈ events, e.network = networkName ∧ e.id = eventID ∧ ¬ Findable e := by
  by_contra hnone
  push Not at hnone
  by_cases hsome : ∃ f ∈ events, f.network = networkName ∧ f.id = eventID
  · obtain ⟨f, hf, rfl, rfl⟩ := hsome
    rw [(h.findEventByID_of_mem hf).mpr ⟨hnone f hf rfl rfl, rfl⟩] at herr
    cases herr
  · push Not at hsome
    rw [h.findEventByID_eq_none hsome] at herr
    cases herr

/-! ### New events -/

theorem readArrivalSequence (h : Represents store events) :
    readArrivalSequence store = .ok (UInt64.ofNat events.length) := by
  simp only [Thalweg.readArrivalSequence, h.sequence, parseUint64, Text.parseDecimal_decimal,
    if_pos h.length_lt]

end Represents

/-- An arrival is entered as long as there is a number left for it. -/
theorem appendArrivalIndex_of_readArrivalSequence {store : Store} {n : Nat}
    (hseq : readArrivalSequence store = .ok (UInt64.ofNat n)) (hn : n < 2 ^ 64)
    {event : ThalwegEvent} {primaryKey : Text} :
    appendArrivalIndex store event primaryKey =
      if n + 1 < 2 ^ 64 then
        .ok ((store.set (arrivalIndexKey event.network (UInt64.ofNat (n + 1))) primaryKey).set
          arrivalSequenceKey (Text.decimal (n + 1)))
      else errorf "event arrival sequence exhausted" [] := by
  have hmax : UInt64.ofNat n = maxUint64 ↔ ¬ n + 1 < 2 ^ 64 := by
    rw [← UInt64.toNat_inj, UInt64.toNat_ofNat_of_lt' hn, maxUint64,
      UInt64.toNat_ofNat_of_lt' (by decide)]
    omega
  unfold appendArrivalIndex
  simp only [hseq, bind, Except.bind, hmax]
  by_cases hlt : n + 1 < 2 ^ 64
  · have hsucc : UInt64.ofNat n + 1 = UInt64.ofNat (n + 1) := (UInt64.ofNat_add n 1).symm
    simp only [hlt, not_true_eq_false, if_true, if_false, hsucc, UInt64.toNat_ofNat_of_lt' hlt]
  · simp only [hlt, not_false_eq_true, if_true, if_false]

/-- The store after the write of a new event, the `n`-th to arrive, with the clock state. -/
def writeEvent (store : Store) (event : ThalwegEvent) (n : Nat) (clock : HlcTimestamp) : Store :=
  setHLCState ((((store.set (eventKey event) (eventText event)).set
    (eventIDKey event.network event.id) (eventKey event)).set
    (arrivalIndexKey event.network (UInt64.ofNat n)) (eventKey event)).set
    arrivalSequenceKey (Text.decimal n)) clock

/-- The keys whose records and entries represent events. -/
def IsEventKey (key : Text) : Prop :=
  keyFamily key = .event ∨ keyFamily key = .eventID ∨ keyFamily key = .arrival ∨
    key = arrivalSequenceKey

theorem hlcStateKey_ne_arrivalSequenceKey : hlcStateKey ≠ arrivalSequenceKey := by
  decide +kernel

theorem not_isEventKey_storageSchemaVersionKey : ¬ IsEventKey storageSchemaVersionKey := by
  have : storageSchemaVersionKey ≠ arrivalSequenceKey := by decide +kernel
  simp [IsEventKey, this]

theorem not_isEventKey_of_keyFamily {key : Text} {family : KeyFamily} (h : keyFamily key = family)
    (hfamily : family = .conflict ∨ family = .durableSiphon ∨ family = .meshPeer ∨
      family = .peer) : ¬ IsEventKey key := by
  rintro (hkey | hkey | hkey | rfl)
  all_goals rcases hfamily with rfl | rfl | rfl | rfl <;> simp_all

theorem ne_of_isEventKey {a b : Text} (ha : IsEventKey a) (hb : ¬ IsEventKey b) : a ≠ b := by
  rintro rfl
  exact hb ha

/-- The write of an event changes its record, its entries, the counter and the clock state only. -/
theorem get_writeEvent {store : Store} {event : ThalwegEvent} {n : Nat} {clock : HlcTimestamp}
    {key : Text} (hkey : ¬ IsEventKey key) (hne : key ≠ hlcStateKey) :
    (writeEvent store event n clock).get key = store.get key := by
  have h : ∀ k, IsEventKey k → key ≠ k := fun _ hk => (ne_of_isEventKey hk hkey).symm
  rw [writeEvent, setHLCState, OrderedStore.get_set_of_ne _ hne,
    OrderedStore.get_set_of_ne _ (h _ (by simp [IsEventKey])),
    OrderedStore.get_set_of_ne _ (h _ (by simp [IsEventKey])),
    OrderedStore.get_set_of_ne _ (h _ (by simp [IsEventKey])),
    OrderedStore.get_set_of_ne _ (h _ (by simp [IsEventKey]))]

namespace Represents

variable {store : Store} {events : List ThalwegEvent}

/-- A new event is written exactly when there is an arrival number left for it. -/
theorem putEvent_eq_ok_iff (h : Represents store events) {event : ThalwegEvent}
    (hevent : Storable event) {clock : HlcTimestamp} {store' : Store} :
    putEvent store event clock = .ok store' ↔
      events.length + 1 < 2 ^ 64 ∧ store' = writeEvent store event (events.length + 1) clock := by
  have hseq : Thalweg.readArrivalSequence ((store.set (eventKey event) (eventText event)).set
      (eventIDKey event.network event.id) (eventKey event)) =
        .ok (UInt64.ofNat events.length) := by
    rw [← h.readArrivalSequence]
    unfold Thalweg.readArrivalSequence
    rw [OrderedStore.get_set_of_ne _ (ne_of_keyFamily_ne (by simp)),
      OrderedStore.get_set_of_ne _ (ne_of_keyFamily_ne (by simp))]
  unfold putEvent
  simp only [marshalEvent_of_storable hevent, bind, Except.bind,
    appendArrivalIndex_of_readArrivalSequence hseq h.length_lt]
  by_cases hlt : events.length + 1 < 2 ^ 64
  · simp only [hlt, if_true, true_and, Except.ok.injEq, writeEvent, eq_comm]
  · simp only [hlt, if_false, false_and, errorf, reduceCtorEq]

/-- The write of a new event appends it to the events. -/
theorem append (h : Represents store events) {event : ThalwegEvent} (hevent : Storable event)
    (hnew : ∀ e ∈ events, e.network = event.network → e.id ≠ event.id)
    (hnames : event.stream = conflictResolutionStream →
      ∃ eventID, event.names = some eventID ∧ eventID ≠ event.id)
    (hroom : events.length + 1 < 2 ^ 64) (clock : HlcTimestamp) :
    Represents (writeEvent store event (events.length + 1) clock) (events ++ [event]) where
  storable := by simpa [or_imp, forall_and] using ⟨h.storable, hevent⟩
  distinct := h.distinct.append hnew
  names := by simpa [or_imp, forall_and] using ⟨h.names, hnames⟩
  record_iff key value hkey := by
    have hne : ∀ k, keyFamily k ≠ .event → key ≠ k := fun k hk heq => hk (heq ▸ hkey)
    rw [writeEvent, setHLCState, OrderedStore.get_set_of_ne _ (hne _ (by simp)),
      OrderedStore.get_set_of_ne _ (hne _ (by simp)),
      OrderedStore.get_set_of_ne _ (hne _ (by simp)),
      OrderedStore.get_set_of_ne _ (hne _ (by simp)), OrderedStore.get_set]
    split_ifs with hself
    · constructor
      · intro hv
        exact ⟨event, by simp, hself, (Option.some.inj hv).symm⟩
      · rintro ⟨e, he, hek, rfl⟩
        obtain ⟨hn, -, -, -, -, hi⟩ := eventKey_inj.mp (hek.symm.trans hself)
        rcases List.mem_append.mp he with he | he
        · exact absurd hi (hnew e he hn)
        · rw [List.mem_singleton.mp he]
    · rw [h.record_iff _ _ hkey]
      constructor
      · rintro ⟨e, he, hek⟩
        exact ⟨e, by simp [he], hek⟩
      · rintro ⟨e, he, hek, hv⟩
        rcases List.mem_append.mp he with he | he
        · exact ⟨e, he, hek, hv⟩
        · rw [List.mem_singleton.mp he] at hek
          exact absurd hek hself
  index_iff key value hkey := by
    have hne : ∀ k, keyFamily k ≠ .eventID → key ≠ k := fun k hk heq => hk (heq ▸ hkey)
    rw [writeEvent, setHLCState, OrderedStore.get_set_of_ne _ (hne _ (by simp)),
      OrderedStore.get_set_of_ne _ (hne _ (by simp)),
      OrderedStore.get_set_of_ne _ (hne _ (by simp)), OrderedStore.get_set]
    split_ifs with hself
    · constructor
      · intro hv
        exact ⟨event, by simp, hself, (Option.some.inj hv).symm⟩
      · rintro ⟨e, he, hek, rfl⟩
        obtain ⟨hn, hi⟩ := eventIDKey_inj.mp (hek.symm.trans hself)
        rcases List.mem_append.mp he with he | he
        · exact absurd hi (hnew e he hn)
        · rw [List.mem_singleton.mp he]
    · rw [OrderedStore.get_set_of_ne _ (hne _ (by simp)), h.index_iff _ _ hkey]
      constructor
      · rintro ⟨e, he, hek⟩
        exact ⟨e, by simp [he], hek⟩
      · rintro ⟨e, he, hek, hv⟩
        rcases List.mem_append.mp he with he | he
        · exact ⟨e, he, hek, hv⟩
        · rw [List.mem_singleton.mp he] at hek
          exact absurd hek hself
  arrival_iff key value hkey := by
    have hne : ∀ k, keyFamily k ≠ .arrival → key ≠ k := fun k hk heq => hk (heq ▸ hkey)
    rw [writeEvent, setHLCState, OrderedStore.get_set_of_ne _ (hne _ (by simp)),
      OrderedStore.get_set_of_ne _ (hne _ (by simp)), OrderedStore.get_set]
    split_ifs with hself
    · constructor
      · intro hv
        exact ⟨events.length, event, by simp, hself, (Option.some.inj hv).symm⟩
      · rintro ⟨i, e, hi, hek, rfl⟩
        obtain ⟨-, hnum⟩ := arrivalIndexKey_inj.mp (hek.symm.trans hself)
        have hlt : i < (events ++ [event]).length := (List.getElem?_eq_some_iff.mp hi).1
        simp only [List.length_append, List.length_singleton] at hlt
        have hnum' := congrArg UInt64.toNat hnum
        rw [UInt64.toNat_ofNat_of_lt' (lt_of_le_of_lt hlt hroom),
          UInt64.toNat_ofNat_of_lt' hroom] at hnum'
        obtain rfl : i = events.length := by omega
        simp only [List.getElem?_concat_length, Option.some.injEq] at hi
        rw [hi]
    · rw [OrderedStore.get_set_of_ne _ (hne _ (by simp)),
        OrderedStore.get_set_of_ne _ (hne _ (by simp)), h.arrival_iff _ _ hkey]
      constructor
      · rintro ⟨i, e, hi, hek⟩
        exact ⟨i, e, by rw [List.getElem?_append_left (List.getElem?_eq_some_iff.mp hi).1, hi], hek⟩
      · rintro ⟨i, e, hi, hek, hv⟩
        rcases lt_or_ge i events.length with hlt | hge
        · exact ⟨i, e, by rwa [List.getElem?_append_left hlt] at hi, hek, hv⟩
        · have hlt : i < (events ++ [event]).length := (List.getElem?_eq_some_iff.mp hi).1
          simp only [List.length_append, List.length_singleton] at hlt
          obtain rfl : i = events.length := by omega
          simp only [List.getElem?_concat_length, Option.some.injEq] at hi
          subst hi
          exact absurd hek hself
  length_lt := by simpa using hroom
  sequence := by
    rw [writeEvent, setHLCState,
      OrderedStore.get_set_of_ne _ hlcStateKey_ne_arrivalSequenceKey.symm,
      OrderedStore.get_set_self]
    simp

/-- Writes to other keys leave the events. -/
theorem frame (h : Represents store events) {store' : Store}
    (hget : ∀ key, IsEventKey key → store'.get key = store.get key) : Represents store' events where
  storable := h.storable
  distinct := h.distinct
  names := h.names
  record_iff key value hkey := by rw [hget key (Or.inl hkey), h.record_iff _ _ hkey]
  index_iff key value hkey := by rw [hget key (Or.inr (Or.inl hkey)), h.index_iff _ _ hkey]
  arrival_iff key value hkey := by
    rw [hget key (Or.inr (Or.inr (Or.inl hkey))), h.arrival_iff _ _ hkey]
  length_lt := h.length_lt
  sequence := by rw [hget _ (Or.inr (Or.inr (Or.inr rfl))), h.sequence]

theorem set (h : Represents store events) {key : Text} (hkey : ¬ IsEventKey key) (value : Text) :
    Represents (store.set key value) events :=
  h.frame fun _ hk => OrderedStore.get_set_of_ne _ (ne_of_isEventKey hk hkey) _

end Represents

/-! ### Scans -/

/-- The record of an event with its key. -/
def eventEntry (e : ThalwegEvent) : Text × Text := (eventKey e, eventText e)

/-- Entries that are each made from an event are made from a list of events. -/
theorem exists_map_of_forall {β : Type} {p : ThalwegEvent → Prop} {f : ThalwegEvent → β}
    {entries : List β} (h : ∀ entry ∈ entries, ∃ e, p e ∧ entry = f e) :
    ∃ es : List ThalwegEvent, entries = es.map f ∧ ∀ e ∈ es, p e := by
  induction entries with
  | nil => exact ⟨[], rfl, nofun⟩
  | cons entry entries ih =>
    obtain ⟨⟨e, he, rfl⟩, hrest⟩ := List.forall_mem_cons.mp h
    obtain ⟨es, rfl, hes⟩ := ih hrest
    exact ⟨e :: es, rfl, List.forall_mem_cons.mpr ⟨he, hes⟩⟩

namespace Represents

variable {store : Store} {events : List ThalwegEvent}

/-- A scan of primary keys sees the records of the events whose keys have the prefix. -/
theorem scan_events (h : Represents store events) {pre : Text} (hfamily : keyFamily pre = .event)
    (hcolon : ':' ∈ pre) : ∃ es : List ThalwegEvent, store.scan pre pre = es.map eventEntry ∧
      (∀ e, e ∈ es ↔ e ∈ events ∧ pre <+: eventKey e) ∧
      es.Pairwise fun e f => eventKey e < eventKey f := by
  have hmem : ∀ k v, (k, v) ∈ store.scan pre pre ↔
      (∃ e ∈ events, k = eventKey e ∧ v = eventText e) ∧ pre <+: k := by
    intro k v
    rw [store.mem_scan_iff List.prefix_rfl]
    constructor
    · rintro ⟨hget, -, hpre⟩
      exact ⟨(h.record_iff _ _ ((keyFamily_of_isPrefix hcolon hpre).trans hfamily)).mp hget, hpre⟩
    · rintro ⟨⟨e, he, rfl, rfl⟩, hpre⟩
      exact ⟨h.get_eventKey he, OrderedStore.le_of_isPrefix hpre, hpre⟩
  have hentries : ∀ entry ∈ store.scan pre pre, ∃ e, (e ∈ events ∧ pre <+: eventKey e) ∧
      entry = eventEntry e := by
    rintro ⟨k, v⟩ hkv
    obtain ⟨⟨e, he, rfl, rfl⟩, hpre⟩ := (hmem k v).mp hkv
    exact ⟨e, ⟨he, hpre⟩, rfl⟩
  obtain ⟨es, hes, hevents⟩ := exists_map_of_forall hentries
  refine ⟨es, hes, fun e => ⟨hevents e, ?_⟩, ?_⟩
  · rintro ⟨he, hpre⟩
    have hin : eventEntry e ∈ es.map eventEntry := hes ▸ (hmem _ _).mpr ⟨⟨e, he, rfl, rfl⟩, hpre⟩
    obtain ⟨f, hf, hef⟩ := List.mem_map.mp hin
    have htext : eventText f = eventText e := congrArg Prod.snd hef
    rwa [← eventText_injOn (h.storable f (hevents f hf).1).payload (h.storable e he).payload htext]
  · have hsorted := store.sorted_scan pre pre
    rw [hes, List.pairwise_map] at hsorted
    exact hsorted

/-- The conflict resolutions of a network can always be read. -/
theorem conflictResolutionsTxn_spec (h : Represents store events) (networkName : Text) :
    ∃ resolutions, conflictResolutionsTxn store networkName = .ok resolutions ∧
      ∀ eventID r, (eventID, r) ∈ resolutions ↔
        r ∈ events ∧ r.network = networkName ∧ r.names = some eventID := by
  have hcolon : ':' ∈ eventStreamPrefix networkName conflictResolutionStream := by
    simp [eventStreamPrefix]
  obtain ⟨es, hes, hmem, -⟩ := h.scan_events (keyFamily_eventStreamPrefix networkName
    conflictResolutionStream) hcolon
  simp only [eventStreamPrefix_isPrefix_eventKey] at hmem
  have hread : ∀ rs : List ThalwegEvent, (∀ e ∈ rs, e ∈ es) →
      ∃ resolutions, resolutionEntries (rs.map eventEntry) = .ok resolutions ∧
        ∀ eventID r, (eventID, r) ∈ resolutions ↔ r ∈ rs ∧ r.names = some eventID := by
    intro rs
    induction rs with
    | nil => exact fun _ => ⟨[], rfl, by simp⟩
    | cons e rs ih =>
      intro hrs
      obtain ⟨rest, hrest, hspec⟩ := ih fun f hf => hrs f (List.mem_cons_of_mem _ hf)
      obtain ⟨he, hn, hs⟩ := (hmem e).mp (hrs e (by simp))
      obtain ⟨eventID, hname, hself⟩ := h.names e he hs
      have hpayload := (h.storable e he).payload
      have hdecode : decodeEvent (eventText e) = .ok e :=
        (decodeEvent_eq_ok_iff hpayload).mpr ⟨payloadDepth_lt_of_names hpayload hname, rfl⟩
      refine ⟨(eventID, e) :: rest, ?_, ?_⟩
      · simp only [List.map_cons, eventEntry, resolutionEntries, hdecode, resolvedEventID,
          parseConflictResolution_of_names hname hself, resolutionOf, bind, Except.bind]
        rw [hrest]
      · intro named r
        simp only [List.mem_cons, Prod.mk.injEq, hspec]
        constructor
        · rintro (⟨rfl, rfl⟩ | ⟨hr, hr'⟩)
          · exact ⟨Or.inl rfl, hname⟩
          · exact ⟨Or.inr hr, hr'⟩
        · rintro ⟨rfl | hr, hr'⟩
          · rw [hname] at hr'
            exact Or.inl ⟨(Option.some.inj hr').symm, rfl⟩
          · exact Or.inr ⟨hr, hr'⟩
  obtain ⟨resolutions, hok, hspec⟩ := hread es fun _ he => he
  refine ⟨resolutions, by rw [conflictResolutionsTxn, hes, hok], fun eventID r => ?_⟩
  rw [hspec, hmem]
  constructor
  · rintro ⟨⟨hr, hn, -⟩, hname⟩
    exact ⟨hr, hn, hname⟩
  · rintro ⟨hr, hn, hname⟩
    exact ⟨⟨hr, hn, stream_of_names hname⟩, hname⟩

end Represents

end Thalweg
