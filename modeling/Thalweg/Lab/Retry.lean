import Thalweg.Lab.Publish

/-!
# Retries of test runs

A publication that breaks off has stored the events of the run up to some number. The run may be
published again: its event IDs are the same, and the daemon answers a request for a stored event
when the payload is the same too. The payload holds the time of the publication.

## Main definitions

* `runEvents`, `HasRun`: the events of a run.
* `CompletesRun`: a publication succeeds and leaves one event for each number.
* `Retryable`: the condition on a request and on the state that the earlier publication left.

## Main results

* `publish_spec`: what a publication leaves, whatever becomes of its calls.
* `allSucceed_run_iff`: when the requests for the numbers of a run all succeed.
* `completesRun_iff`: when the second publication of a run completes it.
-/

namespace Thalweg

namespace Daemon

variable {d : Daemon} {L : Ledger}

/-- The daemon after so many readings of the wall clock. -/
def ticks (d : Daemon) (n : Nat) : Daemon := { d with now := fun i => d.now (i + n) }

theorem Holds.ticks (h : d.Holds L) (n : Nat) :
    (d.ticks n).Holds { L with now := fun i => L.now (i + n) } where
  represents := h.represents
  schema := h.schema
  persisted := h.persisted
  clock := h.clock
  now := congrArg (fun now i => now (i + n)) h.now
  canonical := h.canonical
  passed := h.passed

/-- What the ingest of an event without an occurrence time leaves. -/
theorem Holds.ingest_spec (h : d.Holds L) (hclock : ClockInRange d.now) {r : LocalRequest}
    (htime : r.occurredAt = []) (hid : r.eventID ≠ []) {res : Result ThalwegEvent} {d' : Daemon}
    (hi : d.ingest r.networkName r.stream r.occurredAt r.eventID r.payload r.random = (res, d')) :
    ∃ L', d'.Holds L' ∧ ClockInRange d'.now ∧ d.SameElsewhere d' ∧ L.events <+: L'.events ∧
      ((∃ err, res = .error err) ∧ L'.events = L.events ∨
        ∃ e ∈ L'.events, res = .ok e ∧
          Answers e r.networkName r.stream r.occurredAt r.eventID r.payload ∧
          IsReadableTimestamp e.occurredAt ∧ ∀ f ∈ L'.events, f ∈ L.events ∨ f = e) := by
  have hrequested : Holds.requestedID r.eventID r.random = r.eventID := if_neg hid
  have htick : ClockInRange d.tick.now := fun n => hclock (n + 1)
  rcases h.ingest_cases r.networkName r.stream r.occurredAt r.eventID r.payload r.random with
    ⟨err, d₁, hi', hd₁⟩ | ⟨e, he, hfindable, hanswers, hi'⟩ |
    ⟨e, hfresh, d₁, -, hissues, -, hd₁, hsame, hi'⟩
  all_goals
    rw [hi'] at hi
    cases hi
  · rcases hd₁ with rfl | rfl
    · exact ⟨L, h, hclock, .refl _, List.prefix_rfl, Or.inl ⟨⟨err, rfl⟩, rfl⟩⟩
    · exact ⟨_, h.tick, htick, .tick d, List.prefix_rfl, Or.inl ⟨⟨err, rfl⟩, rfl⟩⟩
  · exact ⟨_, h.tick, htick, .tick d, List.prefix_rfl, Or.inr ⟨e, he, rfl, hrequested ▸ hanswers,
      hfindable.1, fun f hf => Or.inl hf⟩⟩
  · have hnow : d'.now = d.tick.now := by
      rw [hd₁.now, h.tick.now]
      rfl
    obtain ⟨t, ht, htext⟩ := normalizeTimestamp_eq_ok_iff.mp (hissues.occurred_now htime)
    have hrange : d.clockNow.InRange := hclock 0
    obtain rfl := Option.some.inj ((Instant.parse_format hrange).symm.trans ht)
    refine ⟨_, hd₁, hnow ▸ htick, hsame, List.prefix_append _ _, Or.inr ⟨e, ?_, rfl,
      hrequested ▸ hissues.toAnswers, ⟨_, hrange, htext⟩, fun f hf => ?_⟩⟩
    · simp [Ledger.record]
    · simpa [Ledger.record] using hf

/-- A request for a stored event is answered with it, if the event can be found and is what the
request asks for. -/
theorem Holds.ingest_stored (h : d.Holds L) {r : LocalRequest} (hvalid : r.Valid)
    (hclock : d.clockNow.InRange) (htime : r.occurredAt = []) {e : ThalwegEvent}
    (he : e ∈ L.events) (hkey : (e.network, e.id) = r.key) :
    (∀ f d', d.ingest r.networkName r.stream r.occurredAt r.eventID r.payload r.random =
        (.ok f, d') →
      Findable e ∧ e.stream = r.stream ∧
        normalizePayload (payloadOrNull r.payload) = .ok e.payload) ∧
    (Findable e → e.stream = r.stream →
      normalizePayload (payloadOrNull r.payload) = .ok e.payload →
      d.ingest r.networkName r.stream r.occurredAt r.eventID r.payload r.random =
        (.ok e, d.tick)) := by
  obtain ⟨hnetwork, hid⟩ := Prod.mk.inj hkey
  constructor
  · intro f d' hi
    rcases h.ingest_cases r.networkName r.stream r.occurredAt r.eventID r.payload r.random with
      ⟨err, d₁, hi', -⟩ | ⟨g, hg, hfindable, hanswers, hi'⟩ | ⟨g, hfresh, d₁, -, hissues, -⟩
    · rw [hi'] at hi
      cases hi
    · obtain rfl := L.distinct.eq_of_id hg he (hanswers.network_eq.trans hnetwork.symm)
        (hanswers.id_eq.trans hid.symm)
      exact ⟨hfindable, hanswers.stream_eq, hanswers.payload_eq⟩
    · exact absurd (hid.trans hissues.id_eq.symm)
        (hfresh e he (hnetwork.trans hissues.network_eq.symm))
  · intro hfindable hstream hpayload
    obtain ⟨occurredAt, hoccurred⟩ := hvalid.exists_normalizeTimestamp hclock
    have hfind : findEventByID d.tick.store r.networkName r.key.2 = .ok (some e) := by
      have hfound := (h.represents.findEventByID_of_mem he).mpr ⟨hfindable, rfl⟩
      rwa [hnetwork, hid] at hfound
    have hretry : validateIdempotentRetry e r.stream occurredAt (decide (r.occurredAt ≠ []))
        e.payload = .ok () :=
      (validateIdempotentRetry_eq_ok_iff (h.represents.storable e he)).mpr
        ⟨hfindable.1, hstream, by simp [htime], rfl⟩
    have hrequested : (if r.eventID = [] then randomID "evt" r.random else r.eventID) = r.key.2 :=
      rfl
    simp only [ingest, if_neg hvalid.stream_open, ingestInternal,
      if_neg hvalid.networkName_ne_nil, if_neg hvalid.stream_ne_nil, hpayload, hoccurred,
      hrequested, storeLocal, hfind, hretry]

/-- A request that succeeds is on an open stream, and its payload is JSON. -/
theorem Holds.valid_of_ingest (h : d.Holds L) {r : LocalRequest} {e : ThalwegEvent} {d' : Daemon}
    (hi : d.ingest r.networkName r.stream r.occurredAt r.eventID r.payload r.random = (.ok e, d')) :
    r.stream ≠ conflictResolutionStream ∧
      ∃ canonical, normalizePayload (payloadOrNull r.payload) = .ok canonical := by
  refine ⟨fun hstream => ?_, ?_⟩
  · rw [ingest, if_pos hstream] at hi
    cases hi
  · rcases h.ingest_cases r.networkName r.stream r.occurredAt r.eventID r.payload r.random with
      ⟨err, d₁, hi', -⟩ | ⟨g, -, -, hanswers, -⟩ | ⟨g, -, -, -, hissues, -⟩
    · rw [hi'] at hi
      cases hi
    · exact ⟨_, hanswers.payload_eq⟩
    · exact ⟨_, hissues.payload_eq⟩

/-- Requests whose event IDs are stored come before other operations. -/
theorem Holds.allSucceed_stored (h : d.Holds L) (hclock : ClockInRange d.now)
    {requests : List LocalRequest}
    (hrequests : ∀ r ∈ requests, r.Valid ∧ r.occurredAt = [] ∧
      ∃ e ∈ L.events, (e.network, e.id) = r.key) (ops : List Operation) :
    d.allSucceed 0 (requests.map LocalRequest.operation ++ ops) = true ↔
      (∀ r ∈ requests, ∀ e ∈ L.events, (e.network, e.id) = r.key → Findable e ∧
        e.stream = r.stream ∧ normalizePayload (payloadOrNull r.payload) = .ok e.payload) ∧
      (d.ticks requests.length).allSucceed 0 ops = true := by
  induction requests generalizing d L with
  | nil => simp [Daemon.ticks]
  | cons r requests ih =>
    obtain ⟨⟨hvalid, htime, e, he, hkey⟩, hrequests⟩ := List.forall_mem_cons.mp hrequests
    obtain ⟨hsuccess, hstored⟩ := h.ingest_stored hvalid (hclock 0) htime he hkey
    have hnext := ih h.tick (fun n => hclock (n + 1)) hrequests
    have hperform : Operation.perform 0 d r.operation = some (voidResult
      (d.ingest r.networkName r.stream r.occurredAt r.eventID r.payload r.random)) := rfl
    have hunique : ∀ f ∈ L.events, (f.network, f.id) = r.key → f = e := fun f hf hfkey => by
      obtain ⟨hn, hi⟩ := Prod.mk.inj (hfkey.trans hkey.symm)
      exact L.distinct.eq_of_id hf he hn hi
    rw [List.map_cons, List.cons_append, allSucceed, hperform, List.length_cons]
    cases hi : d.ingest r.networkName r.stream r.occurredAt r.eventID r.payload r.random with
    | mk res d' =>
      cases res with
      | error err =>
        refine iff_of_false (by simp [voidResult, Except.map]) ?_
        rintro ⟨hall, -⟩
        obtain ⟨hf, hs, hp⟩ := hall r List.mem_cons_self e he hkey
        rw [hstored hf hs hp] at hi
        cases hi
      | ok f =>
        obtain ⟨hf, hs, hp⟩ := hsuccess f d' hi
        obtain rfl : d.tick = d' := (Prod.mk.inj ((hstored hf hs hp).symm.trans hi)).2
        simp only [voidResult, Except.map]
        rw [hnext]
        refine and_congr ⟨fun hall => List.forall_mem_cons.mpr ⟨fun g hg hgkey => ?_, hall⟩,
          fun hall => (List.forall_mem_cons.mp hall).2⟩ Iff.rfl
        rw [hunique g hg hgkey]
        exact ⟨hf, hs, hp⟩

end Daemon

namespace Lab

open Daemon

/-! ### Checked requests -/

/-- The number of events of a run. -/
def PublishRequest.expected (request : PublishRequest) : Nat := request.withDefaults.count.toNat

theorem PublishRequest.stream_withDefaults_ne_nil (request : PublishRequest) :
    request.withDefaults.stream ≠ [] := by
  unfold withDefaults
  dsimp only
  split_ifs with hstream
  · exact List.cons_ne_nil _ _
  · exact hstream

/-- What a request with a run ID satisfies when it passes the checks. -/
structure Checked (request : PublishRequest) : Prop where
  network_ne_nil : request.withDefaults.network ≠ []
  expected_pos : 0 < request.expected
  data_parses : ∃ data, Json.parse request.withDefaults.data = some data

theorem eq_withDefaults_of_checkRequest {random : Result Text} {request p : PublishRequest}
    (hrun : Text.trimSpace request.runID ≠ []) (h : checkRequest random request = .ok p) :
    p = request.withDefaults ∧ Checked request := by
  replace hrun : request.withDefaults.runID ≠ [] := hrun
  have hexpected : request.expected = request.withDefaults.count.toNat := rfl
  have hchecked : request.withDefaults.network ≠ [] → 0 < request.expected →
    (∃ data, Json.parse request.withDefaults.data = some data) → Checked request := Checked.mk
  unfold checkRequest at h
  generalize request.withDefaults = q at *
  dsimp only at h
  rw [if_neg hrun] at h
  split at h
  · cases h
  next hnetwork =>
  split at h
  · cases h
  next hcount =>
  split at h
  · cases h
  next hdata =>
  split at h
  · cases h
  next runID hrunID =>
  obtain rfl := Except.ok.inj hrunID
  split at h
  · cases h
  refine ⟨(Except.ok.inj h).symm, hchecked hnetwork (by omega) ?_⟩
  exact Option.ne_none_iff_exists'.mp fun hnone => hdata (by rw [hnone]; rfl)

/-- The request for the event of a number. -/
def runRequest (p : PublishRequest) (deviceID publishedAt : Text) (sequence : Nat) :
    LocalRequest where
  networkName := p.network
  stream := p.stream
  occurredAt := []
  eventID := eventID p.runID deviceID sequence
  payload := (Json.marshal (testPayload p deviceID publishedAt sequence).marshalable).getD []
  random := []

theorem eventID_ne_nil (runID deviceID : Text) (sequence : Nat) :
    eventID runID deviceID sequence ≠ [] :=
  List.append_ne_nil_of_right_ne_nil _ (List.cons_ne_nil _ _)

theorem eventID_inj {runID deviceID : Text} {s t : Nat}
    (h : eventID runID deviceID s = eventID runID deviceID t) : s = t := by
  have hnumber := List.append_cancel_left h
  exact Text.padDecimal_injective 4 (List.cons.inj hnumber).2

theorem key_runRequest (p : PublishRequest) (deviceID publishedAt : Text) (sequence : Nat) :
    (runRequest p deviceID publishedAt sequence).key =
      (p.network, eventID p.runID deviceID sequence) :=
  congrArg (Prod.mk p.network) (if_neg (eventID_ne_nil _ _ _))

theorem key_runRequest_injective (p : PublishRequest) (deviceID publishedAt : Text) :
    Function.Injective fun s => (runRequest p deviceID publishedAt s).key := by
  intro s t hkey
  simp only [key_runRequest] at hkey
  exact eventID_inj (Prod.mk.inj hkey).2

section Requests

variable {p : PublishRequest} {data : Json} (hdata : Json.parse p.data = some data)
  (deviceID publishedAt : Text) (sequence : Nat)

include hdata in
theorem marshal_runRequest :
    Json.marshal (testPayload p deviceID publishedAt sequence).marshalable =
      some (runRequest p deviceID publishedAt sequence).payload := by
  rw [runRequest, (testPayload p deviceID publishedAt sequence).marshal_eq hdata]
  rfl

include hdata in
theorem ingestEvent_eq (d : Daemon) : ingestEvent p deviceID publishedAt sequence d =
    d.ingest p.network p.stream [] (eventID p.runID deviceID sequence)
      (runRequest p deviceID publishedAt sequence).payload [] := by
  rw [ingestEvent, marshal_runRequest hdata]

include hdata in
/-- When the payload of a request is accepted, and what is stored of it. -/
theorem normalizePayload_runRequest {canonical : Text} :
    normalizePayload (payloadOrNull (runRequest p deviceID publishedAt sequence).payload) =
        .ok canonical ↔
      data.depth < Json.maxDepth ∧ canonical = Json.render
        (Json.canonical ((testPayload p deviceID publishedAt sequence).value data)) :=
  (testPayload p deviceID publishedAt sequence).normalizePayload_eq_ok_iff hdata
    (marshal_runRequest hdata deviceID publishedAt sequence)

include hdata in
theorem valid_runRequest (hnetwork : p.network ≠ []) (hstream : p.stream ≠ [])
    (hopen : p.stream ≠ conflictResolutionStream) (hdepth : data.depth < Json.maxDepth) :
    (runRequest p deviceID publishedAt sequence).Valid where
  networkName_ne_nil := hnetwork
  stream_ne_nil := hstream
  stream_open := hopen
  payload_parses := by
    obtain ⟨v, hv, -⟩ := normalizePayload_eq_ok_iff.mp
      ((normalizePayload_runRequest hdata deviceID publishedAt sequence).mpr ⟨hdepth, rfl⟩)
    exact Option.isSome_iff_exists.mpr ⟨v, hv⟩
  occurredAt_parses := Or.inl rfl

end Requests

/-! ### What a publication leaves -/

/-- The event is stored for the request, and can be read. -/
def StoredFor (r : LocalRequest) (e : ThalwegEvent) : Prop :=
  Answers e r.networkName r.stream r.occurredAt r.eventID r.payload ∧
    IsReadableTimestamp e.occurredAt

theorem StoredFor.key_eq {r : LocalRequest} {e : ThalwegEvent} (h : StoredFor r e)
    (hid : r.eventID ≠ []) : (e.network, e.id) = r.key := by
  rw [LocalRequest.key, Holds.requestedID, if_neg hid, h.1.network_eq, h.1.id_eq]

/-- What requests for so many numbers of a run leave, from a number on. -/
structure Leaves (requestFor : Nat → LocalRequest) (sequence count : Nat) (d : Daemon) (L : Ledger)
    (d' : Daemon) (L' : Ledger) : Prop where
  holds : d'.Holds L'
  clock : ClockInRange d'.now
  same : d.SameElsewhere d'
  run : Run anyStep d d'
  kept : L.events <+: L'.events
  stored : ∀ i < count, ∃ e ∈ L'.events, StoredFor (requestFor (sequence + i)) e
  added : ∀ e ∈ L'.events, e ∈ L.events ∨
    ∃ i < count, (e.network, e.id) = (requestFor (sequence + i)).key

variable {d d' d'' : Daemon} {L L' L'' : Ledger} {requestFor : Nat → LocalRequest}

theorem Leaves.refl (h : d.Holds L) (hclock : ClockInRange d.now) (sequence : Nat) :
    Leaves requestFor sequence 0 d L d L where
  holds := h
  clock := hclock
  same := .refl d
  run := .refl
  kept := List.prefix_rfl
  stored := nofun
  added := fun _ he => Or.inl he

theorem Leaves.trans {sequence m n : Nat} (h : Leaves requestFor sequence m d L d' L')
    (h' : Leaves requestFor (sequence + m) n d' L' d'' L'') :
    Leaves requestFor sequence (m + n) d L d'' L'' where
  holds := h'.holds
  clock := h'.clock
  same := h.same.trans h'.same
  run := h.run.trans h'.run
  kept := h.kept.trans h'.kept
  stored := by
    intro i hi
    by_cases hlt : i < m
    · obtain ⟨e, he, hstored⟩ := h.stored i hlt
      exact ⟨e, h'.kept.subset he, hstored⟩
    · obtain ⟨j, rfl⟩ := Nat.exists_eq_add_of_le (Nat.le_of_not_lt hlt)
      rw [← Nat.add_assoc]
      exact h'.stored j (Nat.lt_of_add_lt_add_left hi)
  added := by
    intro e he
    rcases h'.added e he with he | ⟨j, hj, hkey⟩
    · rcases h.added e he with he | ⟨i, hi, hkey⟩
      · exact Or.inl he
      · exact Or.inr ⟨i, Nat.lt_add_right n hi, hkey⟩
    · rw [Nat.add_assoc] at hkey
      exact Or.inr ⟨m + j, Nat.add_lt_add_left hj m, hkey⟩

/-- A request for a number leaves its event if it succeeds, and at most that event if it fails. -/
theorem leaves_ingest (h : d.Holds L) (hclock : ClockInRange d.now) {sequence : Nat}
    {r : LocalRequest} (hr : requestFor sequence = r) (htime : r.occurredAt = [])
    (hid : r.eventID ≠ []) {res : Result ThalwegEvent}
    (hi : d.ingest r.networkName r.stream r.occurredAt r.eventID r.payload r.random = (res, d')) :
    ∃ n ≤ 1, ∃ L', Leaves requestFor sequence n d L d' L' ∧ (∀ e, res = .ok e → n = 1) := by
  obtain ⟨L', hd', hclock', hsame, hkept, hcases⟩ := h.ingest_spec hclock htime hid hi
  have hrun : Run anyStep d d' := by
    refine .single ⟨r.operation, _, ⟨0, congrArg (fun r => some (voidResult r)) hi⟩, trivial⟩
  rcases hcases with ⟨⟨err, rfl⟩, hevents⟩ | ⟨e, he, rfl, hanswers, htimes, hadded⟩
  · refine ⟨0, Nat.zero_le 1, L', ⟨hd', hclock', hsame, hrun, hkept, nofun, ?_⟩, nofun⟩
    exact fun e he => Or.inl (hevents ▸ he)
  · refine ⟨1, le_rfl, L', ⟨hd', hclock', hsame, hrun, hkept, ?_, ?_⟩, fun _ _ => rfl⟩
    · intro i hi
      obtain rfl := Nat.lt_one_iff.mp hi
      exact ⟨e, he, hr ▸ hanswers, htimes⟩
    · intro f hf
      refine (hadded f hf).imp_right fun hfe => ⟨0, Nat.one_pos, ?_⟩
      rw [hfe, Nat.add_zero, hr]
      exact StoredFor.key_eq ⟨hanswers, htimes⟩ hid

section Publications

variable {p : PublishRequest} {data : Json} (hdata : Json.parse p.data = some data)

include hdata in
/-- What a call for a number leaves, whatever becomes of it. -/
theorem leaves_call (h : d.Holds L) (hclock : ClockInRange d.now) (delivery : Delivery)
    (deviceID publishedAt : Text) (sequence : Nat) {res : Result ThalwegEvent}
    (hcall : call delivery (ingestEvent p deviceID publishedAt sequence) d = (res, d')) :
    ∃ n ≤ 1, ∃ L', Leaves (runRequest p deviceID publishedAt) sequence n d L d' L' ∧
      (∀ e, res = .ok e → n = 1) := by
  have hingest : ∀ {res d'}, ingestEvent p deviceID publishedAt sequence d = (res, d') →
      ∃ n ≤ 1, ∃ L', Leaves (runRequest p deviceID publishedAt) sequence n d L d' L' ∧
        (∀ e, res = .ok e → n = 1) := fun {res d'} hi =>
    leaves_ingest h hclock rfl rfl (eventID_ne_nil _ _ _)
      ((ingestEvent_eq hdata deviceID publishedAt sequence d).symm.trans hi)
  cases delivery with
  | answered => exact hingest hcall
  | lost =>
    obtain ⟨rfl, rfl⟩ := Prod.mk.inj hcall
    exact ⟨0, Nat.zero_le 1, L, .refl h hclock sequence, nofun⟩
  | unanswered =>
    obtain ⟨rfl, rfl⟩ := Prod.mk.inj hcall
    obtain ⟨n, hn, L', hleaves, -⟩ := hingest rfl
    exact ⟨n, hn, L', hleaves, nofun⟩

include hdata in
/-- A publication leaves the events of the run up to some number, and of all if it succeeds. -/
theorem publishFrom_spec (h : d.Holds L) (hclock : ClockInRange d.now) (deliveries : Nat → Delivery)
    (manifest : RunManifest) (remaining sequence : Nat) {outcome : RunManifest × Option Failure}
    (hpublish : publishFrom deliveries p manifest remaining sequence d = (outcome, d')) :
    ∃ n ≤ remaining, ∃ L', Leaves (runRequest p manifest.originDeviceID manifest.publishedAt)
      sequence n d L d' L' ∧ (outcome.2 = none → n = remaining) := by
  induction remaining generalizing d L manifest sequence with
  | zero =>
    obtain ⟨rfl, rfl⟩ := Prod.mk.inj hpublish
    exact ⟨0, le_rfl, L, .refl h hclock sequence, fun _ => rfl⟩
  | succ remaining ih =>
    rw [publishFrom] at hpublish
    cases hcall : call (deliveries (sequence + 1))
      (ingestEvent p manifest.originDeviceID manifest.publishedAt sequence) d with
    | mk res d₁ =>
    rw [hcall] at hpublish
    obtain ⟨m, hm, L₁, hleaves, hone⟩ := leaves_call hdata h hclock _ _ _ _ hcall
    cases res with
    | error err =>
      obtain ⟨rfl, rfl⟩ := Prod.mk.inj hpublish
      exact ⟨m, hm.trans (Nat.le_add_left 1 remaining), L₁, hleaves, nofun⟩
    | ok e =>
      obtain rfl := hone e rfl
      obtain ⟨n, hn, L', hrest, hall⟩ := ih hleaves.holds hleaves.clock _ _ hpublish
      refine ⟨1 + n, by omega, L', hleaves.trans hrest, fun hnone => ?_⟩
      rw [hall hnone, Nat.add_comm]

include hdata in
/-- A publication whose calls are all answered succeeds if the requests for its numbers do. -/
theorem publishFrom_answered_iff (manifest : RunManifest) (remaining sequence : Nat) (d : Daemon) :
    (publishFrom (fun _ => .answered) p manifest remaining sequence d).1.2 = none ↔
      d.allSucceed 0 (((List.range' sequence remaining).map
        (runRequest p manifest.originDeviceID manifest.publishedAt)).map
          LocalRequest.operation) = true := by
  induction remaining generalizing d manifest sequence with
  | zero => exact iff_of_true rfl rfl
  | succ remaining ih =>
    have hperform : Operation.perform 0 d
        (runRequest p manifest.originDeviceID manifest.publishedAt sequence).operation =
        some (voidResult
          (ingestEvent p manifest.originDeviceID manifest.publishedAt sequence d)) := by
      rw [ingestEvent_eq hdata]
      rfl
    rw [List.range'_succ, List.map_cons, List.map_cons, allSucceed, hperform, publishFrom, call]
    cases ingestEvent p manifest.originDeviceID manifest.publishedAt sequence d with
    | mk res d' =>
      cases res with
      | error err => exact iff_of_false (by simp) (by simp [voidResult, Except.map])
      | ok e => exact ih _ (sequence + 1) d'

end Publications

/-! ### Events of a run -/

theorem Leaves.exists_key_iff (hinj : Function.Injective fun s => (requestFor s).key)
    (hid : ∀ s, (requestFor s).eventID ≠ []) {count : Nat}
    (hbefore : ∀ s, (∃ e ∈ L.events, (e.network, e.id) = (requestFor s).key) → 1 ≤ s ∧ s ≤ count)
    (h : Leaves requestFor 1 count d L d' L') (s : Nat) :
    (∃ e ∈ L'.events, (e.network, e.id) = (requestFor s).key) ↔ 1 ≤ s ∧ s ≤ count := by
  constructor
  · rintro ⟨e, he, hkey⟩
    rcases h.added e he with he | ⟨i, hi, hkey'⟩
    · exact hbefore s ⟨e, he, hkey⟩
    · obtain rfl := hinj (hkey.symm.trans hkey')
      omega
  · rintro ⟨hpos, hle⟩
    obtain ⟨i, rfl⟩ := Nat.exists_eq_add_of_le hpos
    obtain ⟨e, he, hstored⟩ := h.stored i (by omega)
    exact ⟨e, he, hstored.key_eq (hid _)⟩

/-- Whether the daemon answers the request of a later publication with a stored event: the two
publications have the same time, and the event can be decoded. -/
theorem StoredFor.answers_iff {p : PublishRequest} {data : Json}
    (hdata : Json.parse p.data = some data) {deviceID earlier later : Text} {sequence : Nat}
    {e : ThalwegEvent}
    (h : StoredFor (runRequest p deviceID earlier sequence) e) :
    Findable e ∧ e.stream = p.stream ∧ normalizePayload
        (payloadOrNull (runRequest p deviceID later sequence).payload) = .ok e.payload ↔
      earlier = later ∧ (Json.canonical data).depth + 1 < Json.maxDepth := by
  obtain ⟨hanswers, htimes⟩ := h
  obtain ⟨hdepth, hpayload⟩ :=
    (normalizePayload_runRequest hdata deviceID earlier sequence).mp hanswers.payload_eq
  have hwell := (testPayload p deviceID earlier sequence).wellFormed_value hdata
  have hcanonical := Json.canonical_spec _ hwell
  have hvalue := (testPayload p deviceID earlier sequence).depth_canonical_value data
  have hvalueDepth := (testPayload p deviceID earlier sequence).depth_value data
  have hle := hcanonical.2
  have hfindable : Findable e ↔ (Json.canonical data).depth + 1 < Json.maxDepth := by
    rw [Findable, and_iff_right htimes, hpayload, payloadDepth_render hcanonical.1 (by omega),
      hvalue]
  rw [hfindable, normalizePayload_runRequest hdata]
  constructor
  · rintro ⟨hlt, -, -, hsame⟩
    exact ⟨TestPayload.sentAt_eq (testPayload p deviceID earlier sequence)
      (testPayload p deviceID later sequence) hdata hdata (hpayload.symm.trans hsame), hlt⟩
  · rintro ⟨rfl, hlt⟩
    exact ⟨hlt, hanswers.stream_eq, hdepth, hpayload⟩

/-- When the requests for all numbers of a run succeed, if those up to a number are stored. -/
theorem allSucceed_run_iff {p : PublishRequest} {data : Json}
    (hdata : Json.parse p.data = some data) {deviceID earlier later : Text} (h : d.Holds L)
    (hclock : ClockInRange d.now)
    (hnetwork : p.network ≠ []) (hstream : p.stream ≠ []) {count total : Nat} (hle : count ≤ total)
    (htotal : 0 < total)
    (hstored : ∀ s, 1 ≤ s → s ≤ count →
      ∃ e ∈ L.events, StoredFor (runRequest p deviceID earlier s) e)
    (honly : ∀ s, (∃ e ∈ L.events, (e.network, e.id) = (runRequest p deviceID later s).key) →
      1 ≤ s ∧ s ≤ count) :
    d.allSucceed 0 (((List.range' 1 total).map (runRequest p deviceID later)).map
        LocalRequest.operation) = true ↔
      p.stream ≠ conflictResolutionStream ∧ data.depth < Json.maxDepth ∧
        (0 < count → earlier = later ∧ (Json.canonical data).depth + 1 < Json.maxDepth) ∧
        L.events.length + (total - count) < 2 ^ 64 ∧
        d.hlc.HasRoomFor (fun i => d.now (i + count)) (total - count) := by
  -- the first request tells whether the requests are valid
  have hfirst : d.allSucceed 0 (((List.range' 1 total).map (runRequest p deviceID later)).map
      LocalRequest.operation) = true →
      p.stream ≠ conflictResolutionStream ∧ data.depth < Json.maxDepth := by
    obtain ⟨n, rfl⟩ := Nat.exists_eq_add_of_lt htotal
    rw [Nat.zero_add, List.range'_succ, List.map_cons, List.map_cons, allSucceed]
    intro hall
    split at hall
    · next d' hperform =>
      obtain ⟨res, hi, ⟨_, -, hres⟩ | ⟨e, rfl, -⟩⟩ := voidResult_eq (Option.some.inj hperform)
      · cases hres
      obtain ⟨hopen, canonical, hpayload⟩ :=
        h.valid_of_ingest (r := runRequest p deviceID later 1) hi
      exact ⟨hopen, ((normalizePayload_runRequest hdata deviceID later 1).mp hpayload).1⟩
    · cases hall
  by_cases hvalid : p.stream ≠ conflictResolutionStream ∧ data.depth < Json.maxDepth
  · have hsplit : List.range' 1 total =
        List.range' 1 count ++ List.range' (1 + count) (total - count) := by
      rw [List.range'_append_1, Nat.add_sub_cancel' hle]
    have hrequests : ∀ r ∈ (List.range' 1 count).map (runRequest p deviceID later), r.Valid ∧
        r.occurredAt = [] ∧ ∃ e ∈ L.events, (e.network, e.id) = r.key := by
      intro r hr
      obtain ⟨s, hs, rfl⟩ := List.mem_map.mp hr
      obtain ⟨hpos, hlt⟩ := List.mem_range'_1.mp hs
      obtain ⟨e, he, hfor⟩ := hstored s hpos (by omega)
      refine ⟨valid_runRequest hdata _ _ _ hnetwork hstream hvalid.1 hvalid.2, rfl, e, he, ?_⟩
      exact hfor.key_eq (eventID_ne_nil _ _ _)
    rw [hsplit, List.map_append, List.map_append, h.allSucceed_stored hclock hrequests,
      and_iff_right hvalid.1, and_iff_right hvalid.2, List.length_map, List.length_range']
    refine and_congr ⟨?_, ?_⟩ ?_
    · intro hall hpos
      obtain ⟨e, he, hfor⟩ := hstored 1 le_rfl hpos
      refine (hfor.answers_iff hdata).mp (hall _ (List.mem_map.mpr ⟨1, ?_, rfl⟩) e he
        (hfor.key_eq (eventID_ne_nil _ _ _)))
      exact List.mem_range'_1.mpr ⟨le_rfl, by omega⟩
    · intro hall r hr e he hkey
      obtain ⟨s, hs, rfl⟩ := List.mem_map.mp hr
      obtain ⟨hpos, hlt⟩ := List.mem_range'_1.mp hs
      obtain ⟨f, hf, hfor⟩ := hstored s hpos (by omega)
      obtain ⟨hn, hi⟩ := Prod.mk.inj (hkey.trans (hfor.key_eq (eventID_ne_nil _ _ _)).symm)
      obtain rfl := L.distinct.eq_of_id he hf hn hi
      exact (hfor.answers_iff hdata).mpr (hall (by omega))
    · have hrest : (d.ticks count).FreshFor
          ((List.range' (1 + count) (total - count)).map (runRequest p deviceID later)) := by
        refine ⟨?_, fun r hr e he hkey => ?_⟩
        · rw [List.map_map]
          exact List.Nodup.map (key_runRequest_injective p deviceID later) List.nodup_range'
        · obtain ⟨s, hs, rfl⟩ := List.mem_map.mp hr
          have hpos := (List.mem_range'_1.mp hs).1
          have hle := (honly s ⟨e, h.represents.mem_storedEvents_iff.mp he, hkey⟩).2
          omega
      rw [(h.ticks count).local_ingests_iff (fun n => hclock (n + count)) ?_ hrest,
        List.length_map, List.length_range']
      · rfl
      · intro r hr
        obtain ⟨s, -, rfl⟩ := List.mem_map.mp hr
        exact valid_runRequest hdata _ _ _ hnetwork hstream hvalid.1 hvalid.2
  · refine iff_of_false (fun hall => hvalid (hfirst hall)) fun hall => hvalid ⟨hall.1, hall.2.1⟩

/-! ### Retries -/

/-- The stored events of the run of a request. -/
def runEvents (request : PublishRequest) (d : Daemon) : Set ThalwegEvent :=
  {e | e ∈ storedEvents d.store ∧ e.network = Text.trimSpace request.network ∧
    ∃ sequence, e.id = eventID (Text.trimSpace request.runID) d.deviceID sequence}

/-- The stored events of the run are one for each number up to the given one. -/
def HasRun (request : PublishRequest) (d : Daemon) (count : Nat) : Prop :=
  ∃ events : List ThalwegEvent, (∀ e, e ∈ events ↔ e ∈ runEvents request d) ∧
    events.map (·.id) =
      (List.range' 1 count).map (eventID (Text.trimSpace request.runID) d.deviceID)

/-- A publication succeeds, leaves as many events of the run as the request says, one for each
number, and keeps those that were there. -/
structure CompletesRun (request : PublishRequest) (d : Daemon)
    (result : (RunManifest × Option Failure) × Daemon) : Prop where
  succeeds : result.1.2 = none
  hasRun : HasRun request result.2 request.expected
  kept : ∀ e ∈ runEvents request d, e ∈ runEvents request result.2

/-- The condition on a request and on the state in which it is published again, when so many events
of the run are stored: it passes the checks, its events nest less than the decoder allows, there are
numbers left for the others, and the time is the one of the publication that stored events. -/
structure Retryable (random : Result Text) (request : PublishRequest) (d : Daemon)
    (earlier later : Instant) (count : Nat) : Prop where
  passes : checkRequest random request = .ok request.withDefaults
  mounted : request.withDefaults.network ∈ d.memberships.list.map (·.name)
  stream_open : request.withDefaults.stream ≠ conflictResolutionStream
  depth_lt : ∃ data, Json.parse request.withDefaults.data = some data ∧
    data.depth < Json.maxDepth ∧ (0 < count → (Json.canonical data).depth + 1 < Json.maxDepth)
  room : ∃ arrivals, readArrivalSequence d.store = .ok arrivals ∧
    arrivals.toNat + (request.expected - count) < 2 ^ 64 ∧
    d.hlc.HasRoomFor (fun i => d.now (i + count)) (request.expected - count)
  same_time : 0 < count → earlier.formatNano = later.formatNano

section Retries

variable {request : PublishRequest} (random : Result Text) (now : Instant)

/-- A publication fails without a change, or it publishes the events from the first number on. -/
theorem publish_cases (hrun : Text.trimSpace request.runID ≠ []) (deliveries : Nat → Delivery)
    (d : Daemon) :
    (∃ manifest err, publish deliveries now random request d = ((manifest, some err), d)) ∨
    Checked request ∧ ∃ manifest, manifest.originDeviceID = d.deviceID ∧
      manifest.publishedAt = now.formatNano ∧ publish deliveries now random request d =
        publishFrom deliveries request.withDefaults manifest request.expected 1 d := by
  unfold publish
  cases hcheck : checkRequest random request with
  | error err => exact Or.inl ⟨_, _, rfl⟩
  | ok p =>
    obtain ⟨rfl, hchecked⟩ := eq_withDefaults_of_checkRequest hrun hcheck
    cases deliveries 0 with
    | lost => exact Or.inl ⟨_, _, rfl⟩
    | unanswered => exact Or.inl ⟨_, _, rfl⟩
    | answered =>
      dsimp only [call]
      rw [if_neg d.deviceID_ne_nil]
      cases deliveries 1 with
      | lost => exact Or.inl ⟨_, _, rfl⟩
      | unanswered => exact Or.inl ⟨_, _, rfl⟩
      | answered =>
        dsimp only
        split_ifs
        · exact Or.inr ⟨hchecked, _, rfl, rfl, rfl⟩
        · exact Or.inl ⟨_, _, rfl⟩

/-- A publication whose calls are all answered publishes the events if the request passes the checks
and its network is mounted, and fails otherwise. -/
theorem publish_answered_cases (hrun : Text.trimSpace request.runID ≠ []) (d : Daemon) :
    (checkRequest random request = .ok request.withDefaults ∧
      request.withDefaults.network ∈ d.memberships.list.map (·.name) ∧ Checked request ∧
      ∃ manifest, manifest.originDeviceID = d.deviceID ∧ manifest.publishedAt = now.formatNano ∧
        publish (fun _ => .answered) now random request d =
          publishFrom (fun _ => .answered) request.withDefaults manifest request.expected 1 d) ∨
    ¬ (checkRequest random request = .ok request.withDefaults ∧
        request.withDefaults.network ∈ d.memberships.list.map (·.name)) ∧
      (publish (fun _ => .answered) now random request d).1.2 ≠ none := by
  unfold publish
  cases hcheck : checkRequest random request with
  | error err => exact Or.inr ⟨fun h => (nomatch h.1), nofun⟩
  | ok p =>
    obtain ⟨rfl, hchecked⟩ := eq_withDefaults_of_checkRequest hrun hcheck
    dsimp only [call]
    rw [if_neg d.deviceID_ne_nil]
    split_ifs with hmounted
    · exact Or.inl ⟨rfl, hmounted, hchecked, _, rfl, rfl, rfl⟩
    · exact Or.inr ⟨fun h => hmounted h.2, nofun⟩

/-- What a publication leaves, whatever becomes of its calls. -/
theorem publish_spec (h : d.Holds L) (hclock : ClockInRange d.now)
    (hrun : Text.trimSpace request.runID ≠ []) (deliveries : Nat → Delivery) :
    ∃ count ≤ request.expected, ∃ L',
      Leaves (runRequest request.withDefaults d.deviceID now.formatNano) 1 count d L
        (publish deliveries now random request d).2 L' := by
  rcases publish_cases random now hrun deliveries d with
    ⟨manifest, err, hfails⟩ | ⟨hchecked, manifest, hdevice, hpublished, hpublish⟩
  · rw [hfails]
    exact ⟨0, Nat.zero_le _, L, .refl h hclock 1⟩
  · obtain ⟨data, hdata⟩ := hchecked.data_parses
    obtain ⟨count, hle, L', hleaves, -⟩ := publishFrom_spec hdata h hclock deliveries manifest
      request.expected 1 rfl
    rw [hdevice, hpublished] at hleaves
    rw [hpublish]
    exact ⟨count, hle, L', hleaves⟩

/-- The number of an event of the run is the one in its key. -/
theorem exists_key_iff (h : d.Holds L) (publishedAt : Text) (s : Nat) :
    (∃ e ∈ L.events, (e.network, e.id) =
        (runRequest request.withDefaults d.deviceID publishedAt s).key) ↔
      ∃ e ∈ runEvents request d, e.id = eventID (Text.trimSpace request.runID) d.deviceID s := by
  rw [key_runRequest]
  constructor
  · rintro ⟨e, he, hkey⟩
    obtain ⟨hn, hi⟩ := Prod.mk.inj hkey
    exact ⟨e, ⟨h.represents.mem_storedEvents_iff.mpr he, hn, s, hi⟩, hi⟩
  · rintro ⟨e, ⟨he, hn, -⟩, hi⟩
    exact ⟨e, h.represents.mem_storedEvents_iff.mp he, Prod.ext hn hi⟩

theorem hasRun_of_numbers (h : d.Holds L) {count : Nat}
    (hnumbers : ∀ s, (∃ e ∈ runEvents request d,
        e.id = eventID (Text.trimSpace request.runID) d.deviceID s) ↔ 1 ≤ s ∧ s ≤ count) :
    HasRun request d count := by
  have hexists : ∀ s ∈ List.range' 1 count, ∃ e ∈ runEvents request d,
      e.id = eventID (Text.trimSpace request.runID) d.deviceID s := fun s hs => by
    obtain ⟨hpos, hlt⟩ := List.mem_range'_1.mp hs
    exact (hnumbers s).mpr ⟨hpos, by omega⟩
  choose event hevent hid using hexists
  refine ⟨(List.range' 1 count).pmap event fun _ hs => hs, fun e => ⟨fun he => ?_, fun he => ?_⟩,
    ?_⟩
  · obtain ⟨s, hs, rfl⟩ := List.mem_pmap.mp he
    exact hevent s hs
  · obtain ⟨hstored, hnetwork, s, hi⟩ := id he
    obtain ⟨hpos, hle⟩ := (hnumbers s).mp ⟨e, he, hi⟩
    have hs : s ∈ List.range' 1 count := List.mem_range'_1.mpr ⟨hpos, by omega⟩
    refine List.mem_pmap.mpr ⟨s, hs, ?_⟩
    obtain ⟨hstored', hnetwork', -⟩ := hevent s hs
    exact L.distinct.eq_of_id (h.represents.mem_storedEvents_iff.mp hstored')
      (h.represents.mem_storedEvents_iff.mp hstored) (hnetwork'.trans hnetwork.symm)
      ((hid s hs).trans hi.symm)
  · rw [List.map_pmap, ← List.pmap_eq_map (p := (· ∈ List.range' 1 count)) (H := fun _ hs => hs)]
    exact List.pmap_congr_left _ fun s _ hs _ => hid s hs

/-- Whether a run is completed is whether its publication succeeds. -/
theorem completesRun_iff_succeeds (h : d.Holds L) (hclock : ClockInRange d.now)
    (hchecked : Checked request) {count : Nat} (hle : count ≤ request.expected)
    (honly : ∀ s, (∃ e ∈ runEvents request d,
        e.id = eventID (Text.trimSpace request.runID) d.deviceID s) → 1 ≤ s ∧ s ≤ count)
    (manifest : RunManifest) (hdevice : manifest.originDeviceID = d.deviceID) :
    CompletesRun request d
        (publishFrom (fun _ => .answered) request.withDefaults manifest request.expected 1 d) ↔
      (publishFrom (fun _ => .answered) request.withDefaults manifest request.expected 1 d).1.2 =
        none := by
  obtain ⟨data, hdata⟩ := hchecked.data_parses
  refine ⟨fun hcompletes => hcompletes.succeeds, fun hsucceeds => ?_⟩
  obtain ⟨n, -, L', hleaves, hall⟩ := publishFrom_spec hdata h hclock (fun _ => .answered) manifest
    request.expected 1 rfl
  obtain rfl := hall hsucceeds
  have hsame := hleaves.same.deviceID
  rw [hdevice] at hleaves
  refine ⟨hsucceeds, hasRun_of_numbers hleaves.holds fun s => ?_, fun e he => ?_⟩
  · rw [← exists_key_iff hleaves.holds manifest.publishedAt s, hsame]
    refine hleaves.exists_key_iff (key_runRequest_injective _ _ _) (fun _ => eventID_ne_nil _ _ _)
      (fun s hs => ?_) s
    obtain ⟨hpos, hlt⟩ := honly s ((exists_key_iff h manifest.publishedAt s).mp hs)
    exact ⟨hpos, hlt.trans hle⟩
  · obtain ⟨hstored, hnetwork, s, hi⟩ := he
    refine ⟨?_, hnetwork, s, hsame.symm ▸ hi⟩
    rw [hleaves.holds.represents.mem_storedEvents_iff]
    exact hleaves.kept.subset (h.represents.mem_storedEvents_iff.mp hstored)

/-- **When a run may be published again.** A publication of a run leaves its events up to some
number, whatever becomes of its calls. In every later state with these events of the run, a
publication of the same request whose calls are answered completes the run exactly if it is
retryable: if events were stored, it has to be at the time of the publication that stored them. -/
theorem completesRun_iff (h : d.Reachable) (hclock : ClockInRange d.now)
    (hrun : Text.trimSpace request.runID ≠ []) (hnew : runEvents request d = ∅)
    (deliveries : Nat → Delivery) (earlier : Instant) :
    ∃ count ≤ request.expected, ∃ d₁,
      (publish deliveries earlier random request d).2 = d₁ ∧ d₁.Reachable ∧ ClockInRange d₁.now ∧
      HasRun request d₁ count ∧
      ∀ later d', d'.Reachable → ClockInRange d'.now → d'.deviceID = d₁.deviceID →
        runEvents request d' = runEvents request d₁ →
        (CompletesRun request d' (publish (fun _ => .answered) later random request d') ↔
          Retryable random request d' earlier later count) := by
  obtain ⟨L, hL⟩ := h.exists_holds.1
  obtain ⟨count, hle, L₁, hleaves⟩ := publish_spec random earlier hL hclock hrun deliveries
  have hnumbers : ∀ s, (∃ e ∈ runEvents request (publish deliveries earlier random request d).2,
      e.id = eventID (Text.trimSpace request.runID)
        (publish deliveries earlier random request d).2.deviceID s) ↔ 1 ≤ s ∧ s ≤ count := by
    intro s
    rw [← exists_key_iff hleaves.holds earlier.formatNano s, hleaves.same.deviceID]
    refine hleaves.exists_key_iff (key_runRequest_injective _ _ _) (fun _ => eventID_ne_nil _ _ _)
      (fun s hs => ?_) s
    obtain ⟨e, he, -⟩ := (exists_key_iff hL earlier.formatNano s).mp hs
    rw [hnew] at he
    cases he
  refine ⟨count, hle, _, rfl, ReachableBy.run h hleaves.run, hleaves.clock,
    hasRun_of_numbers hleaves.holds hnumbers, fun later d' hreachable' hclock' hdevice hsame => ?_⟩
  obtain ⟨L', hL'⟩ := hreachable'.exists_holds.1
  replace hdevice := hdevice.trans hleaves.same.deviceID
  have honly : ∀ s, (∃ e ∈ runEvents request d',
      e.id = eventID (Text.trimSpace request.runID) d'.deviceID s) → 1 ≤ s ∧ s ≤ count := by
    intro s
    rw [hsame, hdevice, ← hleaves.same.deviceID]
    exact (hnumbers s).mp
  have hstored : ∀ s, 1 ≤ s → s ≤ count → ∃ e ∈ L'.events,
      StoredFor (runRequest request.withDefaults d'.deviceID earlier.formatNano s) e := by
    intro s hpos hs
    obtain ⟨i, rfl⟩ := Nat.exists_eq_add_of_le hpos
    obtain ⟨e, he, hfor⟩ := hleaves.stored i (by omega)
    have hrunEvent : e ∈ runEvents request (publish deliveries earlier random request d).2 :=
      ⟨hleaves.holds.represents.mem_storedEvents_iff.mpr he, hfor.1.network_eq, 1 + i,
        hleaves.same.deviceID ▸ hfor.1.id_eq⟩
    rw [← hsame] at hrunEvent
    exact ⟨e, hL'.represents.mem_storedEvents_iff.mp hrunEvent.1, hdevice ▸ hfor⟩
  rcases publish_answered_cases random later hrun d' with
    ⟨hpasses, hmounted, hchecked, manifest, horigin, hpublished, hpublish⟩ | ⟨hnot, hfails⟩
  · obtain ⟨data, hdata⟩ := hchecked.data_parses
    rw [hpublish, completesRun_iff_succeeds hL' hclock' hchecked hle honly manifest horigin,
      publishFrom_answered_iff hdata, horigin, hpublished, allSucceed_run_iff hdata hL' hclock'
        hchecked.network_ne_nil request.stream_withDefaults_ne_nil hle hchecked.expected_pos hstored
        fun s hs => honly s ((exists_key_iff hL' later.formatNano s).mp hs)]
    have harrivals := hL'.represents.readArrivalSequence
    have hlength : (UInt64.ofNat L'.events.length).toNat = L'.events.length :=
      UInt64.toNat_ofNat_of_lt' hL'.represents.length_lt
    constructor
    · rintro ⟨hopen, hdepth, hrepeat, hroom⟩
      exact ⟨hpasses, hmounted, hopen, ⟨data, hdata, hdepth, fun hpos => (hrepeat hpos).2⟩,
        ⟨_, harrivals, hlength.symm ▸ hroom⟩, fun hpos => (hrepeat hpos).1⟩
    · rintro ⟨-, -, hopen, ⟨data', hdata', hdepth, hrepeat⟩, ⟨arrivals, hread, hroom⟩, htime⟩
      obtain rfl := Option.some.inj (hdata.symm.trans hdata')
      obtain rfl := Except.ok.inj (harrivals.symm.trans hread)
      exact ⟨hopen, hdepth, fun hpos => ⟨htime hpos, hrepeat hpos⟩, hlength ▸ hroom⟩
  · exact iff_of_false (fun hcompletes => hfails hcompletes.succeeds)
      fun hretryable => hnot ⟨hretryable.passes, hretryable.mounted⟩

end Retries

/-! ### A run that cannot be completed -/

/-- A daemon with a network. -/
def networkDaemon : Daemon :=
  ((initial ['d'] deviceName_ne_nil fun _ => noon).networkCreate ['h'] (List.replicate 16 7)
    (List.replicate 32 8)).2

theorem networkDaemon_reachable : networkDaemon.Reachable :=
  ReachableBy.run ⟨_, _, _, .refl⟩ (.single ⟨.networkCreate ['h'] (List.replicate 16 7)
    (List.replicate 32 8), _, ⟨0, rfl⟩, trivial⟩)

theorem networkDaemon_eq : networkDaemon.now = (fun _ => noon) ∧
    networkDaemon.store = (initial ['d'] deviceName_ne_nil fun _ => noon).store := by
  unfold networkDaemon networkCreate
  split <;> exact ⟨rfl, rfl⟩

theorem networkDaemon_clockInRange : ClockInRange networkDaemon.now := by
  rw [networkDaemon_eq.1]
  exact fun _ => show noon.InRange by decide

theorem runEvents_networkDaemon (request : PublishRequest) :
    runEvents request networkDaemon = ∅ := by
  refine Set.eq_empty_of_forall_notMem fun e he => ?_
  have hstored := he.1
  rw [networkDaemon_eq.2, (initial_holds _ _ _).represents.mem_storedEvents_iff] at hstored
  cases hstored

/-- A request for two events. -/
def twoEvents : PublishRequest := ⟨['h'], [], 2, ['r'], [], []⟩

/-- The call for the second event does not reach the daemon. -/
def secondLost : Nat → Delivery := fun n => if n < 3 then .answered else .lost

/-- A publication stops after the first event. Published again twelve hours later the run fails. -/
theorem twoEvents_not_completed :
    let brokenOff := publish secondLost newYear (.ok []) twoEvents networkDaemon
    networkDaemon.Reachable ∧ runEvents twoEvents networkDaemon = ∅ ∧
      (brokenOff.1.1.events.map (·.sequence) = [1] ∧ brokenOff.1.2.isSome = true) ∧
      ¬ CompletesRun twoEvents brokenOff.2
        (publish (fun _ => .answered) noon (.ok []) twoEvents brokenOff.2) := by
  refine ⟨networkDaemon_reachable, runEvents_networkDaemon _, by decide +kernel,
    fun hcompletes => ?_⟩
  have hfails : (publish (fun _ => .answered) noon (.ok []) twoEvents
      (publish secondLost newYear (.ok []) twoEvents networkDaemon).2).1.2.isSome = true := by
    decide +kernel
  exact Bool.false_ne_true ((congrArg Option.isSome hcompletes.succeeds).symm.trans hfails)

theorem twoEvents_completesRun_iff : ∃ count ≤ twoEvents.expected, ∃ d₁,
    (publish secondLost newYear (.ok []) twoEvents networkDaemon).2 = d₁ ∧ d₁.Reachable ∧
      ClockInRange d₁.now ∧ HasRun twoEvents d₁ count ∧
      ∀ later d', d'.Reachable → ClockInRange d'.now → d'.deviceID = d₁.deviceID →
        runEvents twoEvents d' = runEvents twoEvents d₁ →
        (CompletesRun twoEvents d' (publish (fun _ => .answered) later (.ok []) twoEvents d') ↔
          Retryable (.ok []) twoEvents d' newYear later count) :=
  completesRun_iff (.ok []) networkDaemon_reachable networkDaemon_clockInRange (by decide)
    (runEvents_networkDaemon twoEvents) secondLost newYear

end Lab

end Thalweg
