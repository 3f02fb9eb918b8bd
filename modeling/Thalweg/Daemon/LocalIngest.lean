import Thalweg.Daemon.Readability
import Thalweg.Daemon.Termination

/-!
# Whether local ingests succeed

The merge of clocks takes over the logical counter that a replicated event carries, and a local
event needs the next number unless the wall clock is ahead. A valid local request with a fresh event
ID succeeds exactly if there is a number left for it, here and in the arrival index.

* `LocalRequest.Valid`, `Daemon.FreshFor`: the requests that the daemon has no reason to reject.
* `HlcTimestamp.HasRoomFor`: the clock has room for as many local events.
* `Daemon.Reachable.local_ingests_succeed_iff`.
-/

namespace Thalweg

/-- A request to ingest a local event; `random` is the fresh part of an ID that it leaves out. -/
structure LocalRequest where
  networkName : Text
  stream : Text
  occurredAt : Text
  eventID : Text
  payload : Text
  random : Text

namespace LocalRequest

/-- The operation that a request is. -/
def operation (r : LocalRequest) : Operation :=
  .ingest r.networkName r.stream r.occurredAt r.eventID r.payload r.random

/-- The network and the ID of the event that the request asks for. -/
def key (r : LocalRequest) : Text × Text :=
  (r.networkName, Daemon.Holds.requestedID r.eventID r.random)

/-- The request names a network and an open stream, its payload is JSON and its occurrence time, if
it has one, is an instant. -/
structure Valid (r : LocalRequest) : Prop where
  networkName_ne_nil : r.networkName ≠ []
  stream_ne_nil : r.stream ≠ []
  stream_open : r.stream ≠ conflictResolutionStream
  payload_parses : (Json.parse (payloadOrNull r.payload)).isSome
  occurredAt_parses : r.occurredAt = [] ∨ (Instant.parse r.occurredAt).isSome

end LocalRequest

/-- The event IDs of the requests differ and are not stored. -/
structure Daemon.FreshFor (d : Daemon) (requests : List LocalRequest) : Prop where
  distinct : (requests.map LocalRequest.key).Nodup
  not_stored : ∀ r ∈ requests, ∀ e ∈ storedEvents d.store, (e.network, e.id) ≠ r.key

/-- The clock has numbers for so many local events: until a reading of the wall clock is later than
the clock's time, each of them takes the next one. -/
def HlcTimestamp.HasRoomFor (state : HlcTimestamp) (now : Nat → Instant) (n : Nat) : Prop :=
  ∀ i < n, (∀ j ≤ i, ¬ state.physical < (now j).format) → state.logical.toNat + i < maxUint64.toNat

theorem HlcTimestamp.hasRoomFor_succ_iff {state : HlcTimestamp} {now : Nat → Instant} {n : Nat}
    (hn : n < maxUint64.toNat) : state.HasRoomFor now (n + 1) ↔
      HasRoom state (now 0) ∧ (localStep state (now 0)).HasRoomFor (fun i => now (i + 1)) n := by
  by_cases hlt : state.physical < (now 0).format
  · -- the counter starts again
    refine iff_of_true (fun i _ hbehind => absurd hlt (hbehind 0 (Nat.zero_le i))) ⟨Or.inl hlt, ?_⟩
    intro i hi _
    have hzero : (localStep state (now 0)).logical.toNat = 0 := by simp [localStep, hlt]
    omega
  · have hphysical : (localStep state (now 0)).physical = state.physical := by simp [localStep, hlt]
    have hroom : HasRoom state (now 0) ↔ state.logical.toNat < maxUint64.toNat := by
      have hne : state.logical ≠ maxUint64 ↔ state.logical.toNat ≠ maxUint64.toNat :=
        not_congr UInt64.toNat_inj.symm
      have hmax := toNat_maxUint64
      have hbound := state.logical.toNat_lt
      simp only [HasRoom, hlt, false_or, hne]
      omega
    have hnumber : state.logical.toNat < maxUint64.toNat →
        (localStep state (now 0)).logical.toNat = state.logical.toNat + 1 := by
      intro hless
      have hne : state.logical ≠ maxUint64 := fun heq => by simp [heq] at hless
      simp [localStep, hlt, toNat_add_one hne]
    have hbehind : ∀ i, (∀ j ≤ i + 1, ¬ state.physical < (now j).format) ↔
        ∀ j ≤ i, ¬ state.physical < (now (j + 1)).format := by
      intro i
      refine ⟨fun h j hj => h (j + 1) (by omega), fun h j hj => ?_⟩
      cases j with
      | zero => exact hlt
      | succ j => exact h j (by omega)
    constructor
    · intro h
      have hzero := h 0 (by omega) fun j hj => by rwa [Nat.le_zero.mp hj]
      refine ⟨hroom.mpr (by omega), fun i hi hphys => ?_⟩
      rw [hphysical] at hphys
      have hnext := h (i + 1) (by omega) ((hbehind i).mpr hphys)
      rw [hnumber (by omega)]
      omega
    · rintro ⟨hfirst, h⟩ i hi hphys
      cases i with
      | zero => exact hroom.mp hfirst
      | succ i =>
        have hnext := h i (by omega) (by rw [hphysical]; exact (hbehind i).mp hphys)
        rw [hnumber (hroom.mp hfirst)] at hnext
        omega

theorem LocalRequest.Valid.exists_normalizePayload {r : LocalRequest} (h : r.Valid) :
    ∃ payload, normalizePayload (payloadOrNull r.payload) = .ok payload :=
  let ⟨v, hv⟩ := Option.isSome_iff_exists.mp h.payload_parses
  ⟨_, normalizePayload_eq_ok_iff.mpr ⟨v, hv, rfl⟩⟩

theorem LocalRequest.Valid.exists_normalizeTimestamp {r : LocalRequest} (h : r.Valid)
    {wallTime : Instant} (hclock : wallTime.InRange) : ∃ occurredAt, normalizeTimestamp "occurredAt"
      (if r.occurredAt = [] then wallTime.format else r.occurredAt) = .ok occurredAt := by
  have hparse : ∃ t, Instant.parse
      (if r.occurredAt = [] then wallTime.format else r.occurredAt) = some t := by
    by_cases hempty : r.occurredAt = []
    · rw [if_pos hempty]
      exact ⟨_, Instant.parse_format hclock⟩
    · rw [if_neg hempty]
      exact Option.isSome_iff_exists.mp (h.occurredAt_parses.resolve_left hempty)
  obtain ⟨t, ht⟩ := hparse
  exact ⟨_, normalizeTimestamp_eq_ok_iff.mpr ⟨t, ht, rfl⟩⟩

namespace Daemon

variable {d : Daemon} {L : Ledger}

/-- A valid request with a fresh event ID succeeds if the clock and the arrival index have a number
for the event. -/
theorem Holds.ingest_ok_of_room (h : d.Holds L) {r : LocalRequest} (hvalid : r.Valid)
    (hclock : d.clockNow.InRange) (hfresh : ∀ e ∈ L.events, (e.network, e.id) ≠ r.key)
    (hroom : HasRoom d.hlc d.clockNow) (hlen : L.events.length + 1 < 2 ^ 64) :
    ∃ e, (d.ingest r.networkName r.stream r.occurredAt r.eventID r.payload r.random).1 = .ok e := by
  obtain ⟨payload, hpayload⟩ := hvalid.exists_normalizePayload
  obtain ⟨occurredAt, hoccurred⟩ := hvalid.exists_normalizeTimestamp hclock
  have hid : (if r.eventID = [] then randomID "evt" r.random else r.eventID) = r.key.2 := rfl
  have hfind : findEventByID d.tick.store r.networkName r.key.2 = .ok none :=
    h.represents.findEventByID_eq_none fun e he hn hi => hfresh e he (Prod.ext hn hi)
  have hnext : nextLocal d.tick.hlc d.clockNow = .ok (localStep d.hlc d.clockNow) :=
    nextLocal_eq_ok_iff.mpr ⟨hroom, rfl⟩
  have htime := isTimestamp_localStep h.canonical d.clockNow
  have hput : ∀ event, Storable event → putEvent d.tick.store event (localStep d.hlc d.clockNow) = _ :=
    fun event hevent => (h.represents.putEvent_eq_ok_iff hevent).mpr ⟨hlen, rfl⟩
  simp only [ingest, if_neg hvalid.stream_open, ingestInternal, if_neg hvalid.networkName_ne_nil,
    if_neg hvalid.stream_ne_nil, hpayload, hoccurred, hid, storeLocal, hfind, hnext]
  rw [hput]
  · exact ⟨_, rfl⟩
  · exact ⟨requestedID_ne_nil _ _, hvalid.networkName_ne_nil, hvalid.stream_ne_nil,
      d.deviceID_ne_nil, isTimestamp_of_normalizeTimestamp hoccurred, htime, htime,
      isPayload_of_normalizePayload hpayload⟩

/-- What a request with a fresh event ID does if it succeeds: it takes the next number of the
clock. -/
theorem Holds.ingest_fresh (h : d.Holds L) {r : LocalRequest}
    (hfresh : ∀ e ∈ L.events, (e.network, e.id) ≠ r.key) {e : ThalwegEvent} {d' : Daemon}
    (hi : d.ingest r.networkName r.stream r.occurredAt r.eventID r.payload r.random = (.ok e, d')) :
    ∃ hnew : L.Fresh e, HasRoom d.hlc d.clockNow ∧
      d'.Holds (L.record e hnew (localStep d.hlc d.clockNow)) ∧ (e.network, e.id) = r.key := by
  rcases h.ingest_cases r.networkName r.stream r.occurredAt r.eventID r.payload r.random with
    ⟨err, d₁, hi', -⟩ | ⟨f, hf, -, hanswers, hi'⟩ | ⟨f, hnew, d₁, -, hissues, -, hd₁, -, hi'⟩
  all_goals
    rw [hi'] at hi
    cases hi
  · exact absurd (Prod.ext hanswers.network_eq hanswers.id_eq) (hfresh _ hf)
  · exact ⟨hnew, hissues.hasRoom, hd₁, Prod.ext hissues.network_eq hissues.id_eq⟩

theorem Holds.freshFor_cons_iff (h : d.Holds L) {r : LocalRequest} {requests : List LocalRequest} :
    d.FreshFor (r :: requests) ↔ (∀ e ∈ L.events, (e.network, e.id) ≠ r.key) ∧
      r.key ∉ requests.map LocalRequest.key ∧ d.FreshFor requests := by
  have hstored : ∀ e, e ∈ storedEvents d.store ↔ e ∈ L.events := fun e =>
    h.represents.mem_storedEvents_iff
  constructor
  · rintro ⟨hdistinct, hnot⟩
    obtain ⟨hnotMem, hdistinct⟩ := List.nodup_cons.mp hdistinct
    exact ⟨fun e he => hnot r (by simp) e ((hstored e).mpr he), hnotMem, hdistinct,
      fun r' hr' => hnot r' (List.mem_cons_of_mem _ hr')⟩
  · rintro ⟨hr, hnotMem, hdistinct, hnot⟩
    refine ⟨List.nodup_cons.mpr ⟨hnotMem, hdistinct⟩, fun r' hr' e he => ?_⟩
    rcases List.mem_cons.mp hr' with rfl | hr'
    · exact hr e ((hstored e).mp he)
    · exact hnot r' hr' e he

theorem Holds.local_ingests_iff (h : d.Holds L) (hclock : ClockInRange d.now)
    {requests : List LocalRequest} (hvalid : ∀ r ∈ requests, r.Valid) (hfresh : d.FreshFor requests) :
    d.allSucceed 0 (requests.map LocalRequest.operation) = true ↔
      L.events.length + requests.length < 2 ^ 64 ∧ d.hlc.HasRoomFor d.now requests.length := by
  induction requests generalizing d L with
  | nil =>
    refine iff_of_true rfl ⟨?_, nofun⟩
    simpa using h.represents.length_lt
  | cons r requests ih =>
    obtain ⟨hr, hnotMem, hrest⟩ := h.freshFor_cons_iff.mp hfresh
    obtain ⟨hvalid, hvalids⟩ := List.forall_mem_cons.mp hvalid
    have hperform : ∀ d : Daemon, Operation.perform 0 d r.operation = some (voidResult
      (d.ingest r.networkName r.stream r.occurredAt r.eventID r.payload r.random)) := fun _ => rfl
    rw [List.map_cons, allSucceed, hperform, List.length_cons]
    cases hi : d.ingest r.networkName r.stream r.occurredAt r.eventID r.payload r.random with
    | mk res d' =>
      cases res with
      | error err =>
        -- a rejected request has no number left
        refine iff_of_false (by simp [voidResult, Except.map]) ?_
        rintro ⟨hlen, hroom⟩
        have hmax := toNat_maxUint64
        obtain ⟨hfirst, -⟩ := (HlcTimestamp.hasRoomFor_succ_iff (by omega)).mp hroom
        obtain ⟨e, he⟩ := h.ingest_ok_of_room hvalid (hclock 0) hr hfirst (by omega)
        rw [hi] at he
        cases he
      | ok e =>
        obtain ⟨hnew, hfirst, hd', hkey⟩ := h.ingest_fresh hr hi
        have hnow : d'.now = fun i => d.now (i + 1) := by rw [hd'.now, h.now]; rfl
        have hhlc : d'.hlc = localStep d.hlc d.clockNow := hd'.clock
        have hfresh' : d'.FreshFor requests := by
          refine ⟨hrest.distinct, fun r' hr' f hf => ?_⟩
          rw [hd'.represents.mem_storedEvents_iff, Ledger.record, List.mem_append,
            List.mem_singleton] at hf
          rcases hf with hf | rfl
          · exact hrest.not_stored r' hr' f (h.represents.mem_storedEvents_iff.mpr hf)
          · rw [hkey]
            exact fun heq => hnotMem (List.mem_map.mpr ⟨r', hr', heq.symm⟩)
        have hnext := ih hd' (hnow ▸ fun i => hclock (i + 1)) hvalids hfresh'
        have hlength : (L.record e hnew (localStep d.hlc d.clockNow)).events.length =
            L.events.length + 1 := by simp [Ledger.record]
        simp only [voidResult, Except.map]
        rw [hnext, hlength, hhlc, hnow]
        have hmax := toNat_maxUint64
        constructor
        · rintro ⟨hlen, hroom⟩
          exact ⟨by omega, (HlcTimestamp.hasRoomFor_succ_iff (by omega)).mpr ⟨hfirst, hroom⟩⟩
        · rintro ⟨hlen, hroom⟩
          exact ⟨by omega, ((HlcTimestamp.hasRoomFor_succ_iff (by omega)).mp hroom).2⟩

/-- **When local ingests succeed.** In every reachable state, whatever replicated events it
accepted, valid local requests with fresh event IDs all succeed exactly if the arrival counter and
the clock have numbers for them. -/
theorem Reachable.local_ingests_succeed_iff (h : d.Reachable) (hclock : ClockInRange d.now) :
    ∃ arrivals, readArrivalSequence d.store = .ok arrivals ∧
      ∀ requests : List LocalRequest, (∀ r ∈ requests, r.Valid) → d.FreshFor requests →
        (d.allSucceed 0 (requests.map LocalRequest.operation) = true ↔
          arrivals.toNat + requests.length < 2 ^ 64 ∧ d.hlc.HasRoomFor d.now requests.length) := by
  obtain ⟨L, hL⟩ := h.exists_holds.1
  refine ⟨_, hL.represents.readArrivalSequence, fun requests hvalid hfresh => ?_⟩
  rw [UInt64.toNat_ofNat_of_lt' hL.represents.length_lt]
  exact hL.local_ingests_iff hclock hvalid hfresh

/-- An event of another device whose clock is far ahead, with the last counter but one. -/
def farEvent : ThalwegEvent :=
  ⟨['e'], ['h'], ['s'], noon.format, "9999-12-31T23:59:59.000000000Z".toList, noon.format,
    UInt64.ofNat (2 ^ 64 - 2), ['o'], ['1']⟩

/-- A daemon that accepted the event. -/
def fullCounter : Daemon :=
  (initial ['d'] deviceName_ne_nil fun _ => noon).after 1 [.ingestReplicated farEvent]

/-- A request to ingest an event. -/
def plainRequest : LocalRequest := ⟨['h'], ['s'], [], ['x'], ['1'], []⟩

theorem plainRequest_valid : plainRequest.Valid :=
  ⟨by decide, by decide, by decide, by decide +kernel, Or.inl rfl⟩

/-- The receipt of the event, after which the wall clock is still in range. -/
theorem fullCounter_clockInRange : ClockInRange fullCounter.now := by
  have hinitial := initial_holds ['d'] deviceName_ne_nil fun _ => noon
  have hrun : (ingestReplicated 1 (initial ['d'] deviceName_ne_nil fun _ => noon) farEvent).map
      (fun p => p.1.isOk) = some true := by decide +kernel
  obtain ⟨⟨res, d'⟩, hrun, hres⟩ := Option.map_eq_some_iff.mp hrun
  have hd' : fullCounter = d' := by
    simp only [fullCounter, after, Operation.perform, hrun, Option.map_some, voidResult]
  obtain ⟨L', hreceived⟩ := hinitial.ingestReplicated_spec hrun
  cases res with
  | error err => cases hres
  | ok r =>
    obtain ⟨e, hnormal, -, -, haccepts, -⟩ := hreceived.accepts r rfl
    have hnoon : ∀ n, L'.now n = noon := by
      rcases haccepts with ⟨-, hadmits⟩ | ⟨eventID, L₁, b, hnames, -⟩
      · cases hadmits <;> exact fun _ => rfl
      · obtain ⟨-, _, _, _, _, -, -, -, -, rfl⟩ := normalizeReplicatedEvent_eq_ok_iff.mp hnormal
        exact absurd (stream_of_names hnames)
          (show farEvent.stream ≠ conflictResolutionStream by decide)
    rw [hd', hreceived.holds.now]
    intro n
    rw [hnoon n]
    decide

theorem fullCounter_freshFor : fullCounter.FreshFor [plainRequest] := by
  have hreachable : fullCounter.Reachable := ⟨_, _, _, run_after _ _ _⟩
  obtain ⟨L, hL⟩ := hreachable.exists_holds.1
  have hfind : findEventByID fullCounter.store ['h'] ['x'] = .ok none :=
    eq_ok_of_toOption (by decide +kernel)
  refine ⟨by simp, fun r hr e he heq => ?_⟩
  obtain rfl := List.mem_singleton.mp hr
  obtain ⟨hn, hi⟩ := Prod.mk.inj heq
  exact hL.represents.findEventByID_eq_ok_none_iff.mp hfind e
    (hL.represents.mem_storedEvents_iff.mp he) hn hi

/-- A valid local request with a fresh event ID fails after the receipt. -/
theorem fullCounter_not_succeeds : fullCounter.Reachable ∧ ClockInRange fullCounter.now ∧
    plainRequest.Valid ∧ fullCounter.FreshFor [plainRequest] ∧
    (initial ['d'] deviceName_ne_nil fun _ => noon).allSucceed 1 [.ingestReplicated farEvent] = true ∧
    fullCounter.allSucceed 0 [plainRequest.operation] = false :=
  ⟨⟨_, _, _, run_after _ _ _⟩, fullCounter_clockInRange, plainRequest_valid, fullCounter_freshFor,
    by decide +kernel, by decide +kernel⟩

theorem fullCounter_local_ingests_succeed_iff : ∃ arrivals,
    readArrivalSequence fullCounter.store = .ok arrivals ∧
      ∀ requests : List LocalRequest, (∀ r ∈ requests, r.Valid) → fullCounter.FreshFor requests →
        (fullCounter.allSucceed 0 (requests.map LocalRequest.operation) = true ↔
          arrivals.toNat + requests.length < 2 ^ 64 ∧
            fullCounter.hlc.HasRoomFor fullCounter.now requests.length) :=
  Reachable.local_ingests_succeed_iff ⟨_, _, _, run_after _ _ _⟩ fullCounter_clockInRange

end Daemon

end Thalweg
