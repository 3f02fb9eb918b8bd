import Thalweg.Daemon.Run

/-!
# The invariant of the database

In every reachable state the records of events, the entries of the ID index and the entries of the
arrival index correspond one to one, the arrival numbers are those up to the counter, and the
persisted clock state is the one in memory. No step changes or removes a stored event.

* `StoreInvariant`, `Represents.storeInvariant`.
* `Daemon.Reachable.store_invariant`.
-/

namespace Thalweg

/-- Records, ID index and arrival index correspond one to one. -/
structure StoreInvariant (store : Store) : Prop where
  /-- Records are records of events under their keys. -/
  record : ∀ key value, keyFamily key = .event → store.get key = some value →
    ∃ e ∈ storedEvents store, key = eventKey e ∧ value = eventText e
  /-- An entry of the ID index points to a record with its network and ID. -/
  index : ∀ key primaryKey, keyFamily key = .eventID → store.get key = some primaryKey →
    ∃ e ∈ storedEvents store, key = eventIDKey e.network e.id ∧ primaryKey = eventKey e
  /-- An entry of the arrival index points to a record with its network. -/
  arrival : ∀ key primaryKey, keyFamily key = .arrival → store.get key = some primaryKey →
    ∃ e ∈ storedEvents store, ∃ n, key = arrivalIndexKey e.network n ∧ primaryKey = eventKey e
  indexed_once : ∀ e ∈ storedEvents store,
    ∃! key, keyFamily key = .eventID ∧ store.get key = some (eventKey e)
  arrived_once : ∀ e ∈ storedEvents store,
    ∃! key, keyFamily key = .arrival ∧ store.get key = some (eventKey e)
  /-- The arrival numbers are those from one to the counter, each of one network. -/
  sequence : ∃ counter : UInt64, readArrivalSequence store = .ok counter ∧
    (∀ network n, (store.get (arrivalIndexKey network n)).isSome → 1 ≤ n ∧ n ≤ counter) ∧
    ∀ n, 1 ≤ n → n ≤ counter → ∃! network, (store.get (arrivalIndexKey network n)).isSome
  /-- The network and the ID determine a stored event. -/
  unique : ∀ e ∈ storedEvents store, ∀ f ∈ storedEvents store,
    e.network = f.network → e.id = f.id → e = f

namespace Represents

variable {store : Store} {events : List ThalwegEvent}

/-- The arrival number of an event is its position. -/
theorem isSome_arrival_iff (h : Represents store events) {network : Text} {n : UInt64} :
    (store.get (arrivalIndexKey network n)).isSome ↔
      ∃ i e, events[i]? = some e ∧ e.network = network ∧ n = UInt64.ofNat (i + 1) := by
  rw [Option.isSome_iff_exists]
  constructor
  · rintro ⟨value, hvalue⟩
    obtain ⟨i, e, hi, hkey, -⟩ := (h.arrival_iff _ _ (by simp)).mp hvalue
    obtain ⟨rfl, rfl⟩ := arrivalIndexKey_inj.mp hkey
    exact ⟨i, e, hi, rfl, rfl⟩
  · rintro ⟨i, e, hi, rfl, rfl⟩
    exact ⟨_, (h.arrival_iff _ _ (by simp)).mpr ⟨i, e, hi, rfl, rfl⟩⟩

theorem length_eq (h : Represents store events) {i : Nat} {e : ThalwegEvent}
    (hi : events[i]? = some e) : i < events.length ∧ i + 1 < 2 ^ 64 := by
  have hlt := (List.getElem?_eq_some_iff.mp hi).1
  have := h.length_lt
  omega

/-- Two events at the same key are the same. -/
theorem eq_of_eventKey (h : Represents store events) {e f : ThalwegEvent} (he : e ∈ events)
    (hf : f ∈ events) (hkey : eventKey e = eventKey f) : e = f := by
  obtain ⟨hn, -, -, -, -, hi⟩ := eventKey_inj.mp hkey
  exact h.distinct.eq_of_id he hf hn hi

/-- What a store represents corresponds one to one with its indexes. -/
theorem storeInvariant (h : Represents store events) : StoreInvariant store where
  record key value hkey hget := by
    obtain ⟨e, he, hek⟩ := (h.record_iff _ _ hkey).mp hget
    exact ⟨e, h.mem_storedEvents_iff.mpr he, hek⟩
  index key value hkey hget := by
    obtain ⟨e, he, hek⟩ := (h.index_iff _ _ hkey).mp hget
    exact ⟨e, h.mem_storedEvents_iff.mpr he, hek⟩
  arrival key value hkey hget := by
    obtain ⟨i, e, hi, hek, hv⟩ := (h.arrival_iff _ _ hkey).mp hget
    exact ⟨e, h.mem_storedEvents_iff.mpr (List.mem_of_getElem? hi), _, hek, hv⟩
  indexed_once e he := by
    rw [h.mem_storedEvents_iff] at he
    refine ⟨eventIDKey e.network e.id, ⟨by simp, h.get_eventIDKey he⟩, ?_⟩
    rintro key ⟨hkey, hget⟩
    obtain ⟨f, hf, rfl, heq⟩ := (h.index_iff _ _ hkey).mp hget
    rw [h.eq_of_eventKey he hf heq]
  arrived_once e he := by
    rw [h.mem_storedEvents_iff] at he
    obtain ⟨i, hi⟩ := List.mem_iff_getElem?.mp he
    refine ⟨arrivalIndexKey e.network (UInt64.ofNat (i + 1)), ⟨by simp,
      (h.arrival_iff _ _ (by simp)).mpr ⟨i, e, hi, rfl, rfl⟩⟩, ?_⟩
    rintro key ⟨hkey, hget⟩
    obtain ⟨j, f, hj, rfl, heq⟩ := (h.arrival_iff _ _ hkey).mp hget
    obtain rfl := h.eq_of_eventKey he (List.mem_of_getElem? hj) heq
    -- an event stands at one position only
    have hij : i = j := by
      by_contra hne
      have hlt : ∀ {a b : Nat}, a < b → events[a]? = some e → events[b]? = some e → False := by
        intro a b hab ha hb
        obtain ⟨ha', ha⟩ := List.getElem?_eq_some_iff.mp ha
        obtain ⟨hb', hb⟩ := List.getElem?_eq_some_iff.mp hb
        have := List.pairwise_iff_getElem.mp h.distinct a b ha' hb' hab
        rw [ha, hb] at this
        exact this rfl rfl
      rcases lt_or_gt_of_ne hne with hlt' | hlt'
      · exact hlt hlt' hi hj
      · exact hlt hlt' hj hi
    rw [hij]
  sequence := by
    refine ⟨UInt64.ofNat events.length, h.readArrivalSequence, ?_, ?_⟩
    · intro network n hn
      obtain ⟨i, e, hi, -, rfl⟩ := h.isSome_arrival_iff.mp hn
      obtain ⟨hlt, hbound⟩ := h.length_eq hi
      rw [UInt64.le_iff_toNat_le, UInt64.le_iff_toNat_le, UInt64.toNat_ofNat_of_lt' hbound,
        UInt64.toNat_ofNat_of_lt' h.length_lt, UInt64.toNat_one]
      omega
    · intro n h1 hn
      rw [UInt64.le_iff_toNat_le, UInt64.toNat_one] at h1
      rw [UInt64.le_iff_toNat_le, UInt64.toNat_ofNat_of_lt' h.length_lt] at hn
      have hlt : n.toNat - 1 < events.length := by omega
      have hsucc : n = UInt64.ofNat (n.toNat - 1 + 1) := by
        rw [show n.toNat - 1 + 1 = n.toNat by omega]
        simp
      refine ⟨(events[n.toNat - 1]).network, ?_, ?_⟩
      · exact h.isSome_arrival_iff.mpr ⟨n.toNat - 1, _, List.getElem?_eq_getElem hlt, rfl, hsucc⟩
      · intro network hnetwork
        obtain ⟨i, e, hi, rfl, heq⟩ := h.isSome_arrival_iff.mp hnetwork
        obtain ⟨-, hbound⟩ := h.length_eq hi
        have hi' : i + 1 = n.toNat := by
          rw [heq, UInt64.toNat_ofNat_of_lt' hbound]
        obtain rfl : i = n.toNat - 1 := by omega
        rw [List.getElem?_eq_getElem hlt] at hi
        rw [Option.some.inj hi]
  unique e he f hf hn hi :=
    h.distinct.eq_of_id (h.mem_storedEvents_iff.mp he) (h.mem_storedEvents_iff.mp hf) hn hi

end Represents

/-- The second database holds every stored event of the first under the same keys. -/
def KeepsEvents (store store' : Store) : Prop :=
  ∀ networkName eventID primaryKey value, store.get (eventIDKey networkName eventID) = some primaryKey →
    store.get primaryKey = some value →
    store'.get (eventIDKey networkName eventID) = some primaryKey ∧
      store'.get primaryKey = some value

theorem Represents.keepsEvents {store store' : Store} {events events' : List ThalwegEvent}
    (h : Represents store events) (h' : Represents store' events') (hkept : events <+: events') :
    KeepsEvents store store' := by
  intro networkName eventID primaryKey value hindex hrecord
  obtain ⟨e, he, hkey, rfl⟩ := (h.index_iff _ _ (by simp)).mp hindex
  rw [h.get_eventKey he] at hrecord
  have he' := hkept.subset he
  rw [hkey]
  exact ⟨h'.get_eventIDKey he', (h'.get_eventKey he').trans hrecord⟩

namespace Daemon

/-- **The invariant of the database.** In every reachable state the records and the two indexes
correspond one to one, the clock state in memory is persisted, and whatever operation ends keeps the
stored events. -/
theorem Reachable.store_invariant {d : Daemon} (h : d.Reachable) :
    StoreInvariant d.store ∧ d.store.get hlcStateKey = some (marshalHLCState d.hlc) ∧
      ∀ op r d', d.Performs op r d' → KeepsEvents d.store d'.store := by
  obtain ⟨L, hL⟩ := h.exists_holds.1
  refine ⟨hL.represents.storeInvariant, hL.persisted, fun op r d' hp => ?_⟩
  obtain ⟨L', hL', hkept⟩ := hL.perform hp
  exact hL.represents.keepsEvents hL'.represents hkept

/-- A daemon after two local events, one of them on a stream with colons in its name. -/
def twoEvents : Daemon :=
  (initial ['d'] deviceName_ne_nil fun _ => newYear).after 0
    [.ingest ['h'] ['s'] [] ['a'] ['1'] [], .ingest ['h'] ['s', ':', 't'] [] ['b'] ['2'] []]

theorem twoEvents_store_invariant :
    StoreInvariant twoEvents.store ∧ twoEvents.store.get hlcStateKey = some (marshalHLCState twoEvents.hlc) ∧
      ∀ op r d', twoEvents.Performs op r d' → KeepsEvents twoEvents.store d'.store :=
  Reachable.store_invariant ⟨_, _, _, run_after _ _ _⟩

end Daemon

end Thalweg
