import Thalweg.Daemon.Delivery
import Thalweg.Daemon.Idempotency
import Thalweg.Registry.Consumer

/-!
# Replay of a delivery

A Processor that does not complete a delivery gets it again and runs its command again. The attempts
may be cut off anywhere, and the daemon may restart or handle other requests at any time. What the
command emits is the same in every attempt.

## Main definitions

* `Pends`: the delivery is pending.
* `Replay`, `Replay.step`: the attempts on a delivery.
* `Replay.Settled`: each record has its event.

## Main results

* `Replay.settled`: a completed attempt leaves what a single attempt leaves.
-/

namespace Thalweg.Registry

open Daemon Machine Relation

/-! ### The pending delivery -/

/-- The siphon of a definition has a delivery pending. -/
def Pends (definition : Definition) (deliveryID : Text) (d : Daemon) : Prop :=
  ∃ siphon pending, readDurableSiphon d.store definition.spec.network definition.durableName =
    .ok (some siphon) ∧ siphon.pending = some pending ∧ pending.id = deliveryID

theorem Pends.unique {definition : Definition} {deliveryID deliveryID' : Text} {d : Daemon}
    (h : Pends definition deliveryID d) (h' : Pends definition deliveryID' d) :
    deliveryID = deliveryID' := by
  obtain ⟨siphon, pending, hread, hpending, rfl⟩ := h
  obtain ⟨siphon', pending', hread', hpending', rfl⟩ := h'
  cases hread.symm.trans hread'
  cases hpending.symm.trans hpending'
  rfl

/-- The operation neither acknowledges the delivery nor deletes the siphon. -/
def LeavesPending (definition : Definition) (deliveryID : Text) (op : Operation) : Prop :=
  op ≠ .deleteDurableSiphon definition.spec.network definition.durableName ∧
    op ≠ .acknowledgeDurableSiphon definition.spec.network definition.durableName deliveryID

/-- An acknowledgement that does not name the delivery leaves it. -/
theorem Pends.acknowledge {definition : Definition} {deliveryID deliveryID' : Text} {d : Daemon}
    (h : Pends definition deliveryID d) (hd : d.Reachable) (hne : deliveryID' ≠ deliveryID) :
    Pends definition deliveryID (d.acknowledgeDurableSiphon definition.spec.network
      definition.durableName deliveryID').2 := by
  obtain ⟨siphon, pending, hread, hpending, rfl⟩ := h
  rcases acknowledgeDurableSiphon_cases hd.siphonsFiled hread deliveryID' with
    ⟨e, he⟩ | ⟨pending', -, -, hpending', hid, -⟩
  · rw [he]
    exact ⟨siphon, pending, hread, hpending, rfl⟩
  · cases hpending.symm.trans hpending'
    exact absurd hid.symm hne

/-- A delivery stays pending until it is acknowledged. -/
theorem Pends.performs {definition : Definition} {deliveryID : Text} {d d' : Daemon}
    (h : Pends definition deliveryID d) (hd : d.Reachable) {op : Operation} {r : Result Unit}
    (hp : d.Performs op r d') (hop : LeavesPending definition deliveryID op) :
    Pends definition deliveryID d' := by
  by_cases hacknowledges :
      acknowledges definition.spec.network definition.durableName op r = true
  · obtain ⟨fuel, hp⟩ := hp
    unfold acknowledges at hacknowledges
    split at hacknowledges
    · next network name deliveryID' _ =>
      obtain ⟨rfl, rfl⟩ : network = definition.spec.network ∧ name = definition.durableName := by
        simpa using hacknowledges
      have hne : deliveryID' ≠ deliveryID := fun heq => hop.2 (heq ▸ rfl)
      have hleft := h.acknowledge hd hne
      rwa [show d' = _ from (congrArg Prod.snd (Option.some.inj hp)).symm]
    · cases hacknowledges
  obtain ⟨siphon, pending, hread, hpending, rfl⟩ := h
  obtain ⟨L, hL⟩ := hd.exists_holds.1
  have hroom : siphon.HasRoom L.events := fun hnone => by simp [hpending] at hnone
  obtain ⟨L', siphon', -, -, hread', ⟨-, hkept⟩ | ⟨htrue, -⟩⟩ :=
    hL.siphon_cases hd.siphonsFiled hread hroom hp hop.1
  · rcases hkept with rfl | ⟨-, hpolls⟩
    · exact ⟨siphon', pending, hread', hpending, rfl⟩
    · cases hpolls with
      | unchanged => exact ⟨siphon, pending, hread', hpending, rfl⟩
      | attempt updatedAt hsome =>
        cases hpending.symm.trans hsome
        exact ⟨_, _, hread', rfl, rfl⟩
      | skip updatedAt hnone => cases hpending.symm.trans hnone
      | take id createdAt updatedAt hnone => cases hpending.symm.trans hnone
  · exact absurd htrue hacknowledges

/-- A poll that returns a delivery leaves it pending. -/
theorem pends_of_poll {definition : Definition} {d d' : Daemon} (hd : d.Reachable) {limit : Int}
    {random : Text} {delivery : DurableSiphonDelivery}
    (hpoll : d.pollDurableSiphon definition.spec.network definition.durableName limit random =
      (.ok delivery, d')) (hid : delivery.deliveryID ≠ []) :
    Pends definition delivery.deliveryID d' := by
  obtain ⟨L, hL⟩ := hd.exists_holds.1
  unfold pollDurableSiphon at hpoll
  simp only at hpoll
  generalize (if limit = 0 then durableSiphonDefaultBatch else limit) = limit at hpoll
  split at hpoll
  · cases hpoll
  split at hpoll
  · cases hpoll
  · cases hpoll
  next siphon hread =>
  obtain ⟨hwell, hnetwork, hname, -⟩ := hd.siphonsFiled.of_read hread
  split at hpoll
  · cases hpoll
  next store siphon' hpend =>
  obtain ⟨hwell', hn, hm, -⟩ := pendDurableDelivery_cases hL.represents.arrivalsLead hwell hpend
  split at hpoll
  · cases hpoll
  next delivery' hdelivery =>
  cases hpoll
  have hread' : readDurableSiphon store definition.spec.network definition.durableName =
      .ok (some siphon') := by
    rcases pendDurableDelivery_store hpend with ⟨rfl, rfl⟩ | rfl
    · exact hread
    · rw [← hnetwork, ← hname, ← hn, ← hm, readDurableSiphon_writeDurableSiphon d.store hwell']
  unfold durableDeliveryFromDefinition at hdelivery
  split at hdelivery
  · cases hdelivery
    exact absurd rfl hid
  · next pending hpending =>
    obtain ⟨events, -, hdelivery⟩ := bind_eq_ok_iff.mp hdelivery
    cases hdelivery
    exact ⟨siphon', pending, hread', hpending, rfl⟩

/-- What polls of the siphon leave. -/
structure Kept (definition : Definition) (d d' : Daemon) : Prop where
  reachable : d'.Reachable
  storedEvents : storedEvents d'.store = storedEvents d.store
  pends : ∀ deliveryID, Pends definition deliveryID d → Pends definition deliveryID d'

theorem reachable_of_performs {d d' : Daemon} (hd : d.Reachable) {op : Operation} {r : Result Unit}
    (hp : d.Performs op r d') : d'.Reachable :=
  ReachableBy.run hd (ReflTransGen.single ⟨op, r, hp, trivial⟩)

theorem storedEvents_eq_of_holds {d d' : Daemon} {L L' : Ledger} (h : d.Holds L) (h' : d'.Holds L')
    (hevents : L'.events = L.events) : storedEvents d'.store = storedEvents d.store := by
  ext e
  rw [h'.represents.mem_storedEvents_iff, h.represents.mem_storedEvents_iff, hevents]

theorem Kept.poll {definition : Definition} {d d₁ : Daemon} (h : Kept definition d d₁) (limit : Int)
    (random : Text) : Kept definition d (d₁.pollDurableSiphon definition.spec.network
      definition.durableName limit random).2 := by
  have hp : d₁.Performs (.pollDurableSiphon definition.spec.network definition.durableName limit
      random) _ _ := ⟨0, rfl⟩
  obtain ⟨L, hL⟩ := h.reachable.exists_holds.1
  refine ⟨reachable_of_performs h.reachable hp, ?_, fun deliveryID hpends => ?_⟩
  · rw [← h.storedEvents]
    exact storedEvents_eq_of_holds hL (hL.sameCore (hp.sameCore trivial)) rfl
  · exact (h.pends deliveryID hpends).performs h.reachable hp ⟨by simp, by simp⟩

/-- A poll that waits keeps the events and the pending delivery, and returns the one that is pending
after it. -/
theorem waitForDurableSiphon_spec {definition : Definition} {d d' : Daemon} (hd : d.Reachable)
    {limit wait : Int} {random : Text} {closed : Bool} {wakes : List Text}
    {res : Result DurableSiphonDelivery}
    (hwait : d.waitForDurableSiphon definition.spec.network definition.durableName limit wait random
      closed wakes = (res, d')) :
    Kept definition d d' ∧ ∀ delivery, res = .ok delivery → delivery.deliveryID ≠ [] →
      Pends definition delivery.deliveryID d' := by
  have hself : Kept definition d d := ⟨hd, rfl, fun _ => id⟩
  unfold waitForDurableSiphon at hwait
  split_ifs at hwait
  · have hkept := hself.poll limit random
    rw [hwait] at hkept
    refine ⟨hkept, ?_⟩
    rintro delivery rfl hid
    exact pends_of_poll hd hwait hid
  · obtain ⟨d₁, random₁, hkept, hlast, hanswer⟩ :=
      awaitDurableDelivery_last (fun d₁ random h => h.poll limit random) closed wakes random hself
    have hkept' := hkept.poll limit random₁
    rw [← hlast, hwait] at hkept'
    refine ⟨hkept', ?_⟩
    rintro delivery rfl hid
    rw [hwait] at hanswer hlast
    rcases hanswer with hanswer | hclosed
    · exact pends_of_poll hkept.reachable (Prod.ext hanswer.symm hlast.symm) hid
    · cases hclosed

/-! ### Ingest -/

/-- The event holds what the request asks for. -/
def IngestRequest.StoredAs (request : IngestRequest) (e : ThalwegEvent) : Prop :=
  Answers e request.network request.stream request.occurredAt request.eventID request.payload

theorem mem_storedEvents_of_isSome {d : Daemon} {L : Ledger} (h : d.Holds L) {e : ThalwegEvent}
    (hget : (d.store.get (eventKey e)).isSome = true) :
    ∃ f ∈ L.events, f.network = e.network ∧ f.id = e.id := by
  obtain ⟨value, hvalue⟩ := Option.isSome_iff_exists.mp hget
  obtain ⟨f, hf, hkey, -⟩ := (h.represents.record_iff _ _ (by simp)).mp hvalue
  obtain ⟨hnetwork, -, -, -, -, hid⟩ := eventKey_inj.mp hkey
  exact ⟨f, hf, hnetwork.symm, hid.symm⟩

/-- What the answer to a request with an event ID says about the events: it is an event that is
stored already, or a new one. -/
inductive Ingested (request : IngestRequest) (d d' : Daemon) : Result ThalwegEvent → Prop
  | rejected (err : Failure) : storedEvents d'.store = storedEvents d.store →
      Ingested request d d' (.error err)
  | known {e : ThalwegEvent} : request.StoredAs e → e ∈ storedEvents d.store →
      (d.store.get (eventKey e)).isSome = true → storedEvents d'.store = storedEvents d.store →
      Ingested request d d' (.ok e)
  | new {e : ThalwegEvent} : request.StoredAs e → e ∉ storedEvents d.store →
      (d.store.get (eventKey e)).isSome = false →
      storedEvents d'.store = insert e (storedEvents d.store) → Ingested request d d' (.ok e)

theorem ingested {d d' : Daemon} (hd : d.Reachable) {request : IngestRequest}
    (hid : request.eventID ≠ []) {random : Text} {res : Result ThalwegEvent}
    (hi : d.ingest request.network request.stream request.occurredAt request.eventID request.payload
      random = (res, d')) : Ingested request d d' res := by
  obtain ⟨L, hL⟩ := hd.exists_holds.1
  have hrequested : Holds.requestedID request.eventID random = request.eventID := if_neg hid
  rcases hL.ingest_cases request.network request.stream request.occurredAt request.eventID
      request.payload random with
    ⟨err, d₁, hi', hd₁⟩ | ⟨e, he, -, hanswers, hi'⟩ |
      ⟨e, hfresh, d₁, -, hissues, -, hd₁, -, hi'⟩
  all_goals
    rw [hi'] at hi
    cases hi
  · refine .rejected err ?_
    rcases hd₁ with rfl | rfl <;> rfl
  · rw [hrequested] at hanswers
    refine .known hanswers (hL.represents.mem_storedEvents_iff.mpr he) ?_ rfl
    rw [hL.represents.get_eventKey he]
    rfl
  · have hnone : (d.store.get (eventKey e)).isSome = false := by
      refine Bool.eq_false_iff.mpr fun hsome => ?_
      obtain ⟨f, hf, hnetwork, hfid⟩ := mem_storedEvents_of_isSome hL hsome
      exact hfresh f hf hnetwork hfid
    have hanswers := hissues.toAnswers
    rw [hrequested] at hanswers
    refine .new hanswers ?_ hnone ?_
    · intro he
      exact hfresh e (hL.represents.mem_storedEvents_iff.mp he) rfl rfl
    · ext f
      rw [hd₁.represents.mem_storedEvents_iff, Set.mem_insert_iff,
        hL.represents.mem_storedEvents_iff]
      simp [Ledger.record, or_comm]

/-! ### Attempts -/

/-- The attempts on the deliveries of a definition. -/
structure Replay where
  daemon : Daemon
  /-- The delivery that the worker has got, and how many records of it are ingested. -/
  attempt : Option (Text × Nat)
  /-- The answers of the daemon in the last attempt. -/
  answers : List ThalwegEvent
  /-- The events that all attempts have added to the database. -/
  added : List ThalwegEvent

/-- The steps of attempts and of the daemon. -/
inductive ReplayAction where
  /-- The daemon does something else. -/
  | other (fuel : Nat) (op : Operation)
  /-- The worker polls, with what waiting depends on. -/
  | poll (random : Text) (closed : Bool) (wakes : List Text)
  /-- The worker has the daemon store the next record. -/
  | ingest (random : Text)
  /-- The attempt is cut off. -/
  | stop

/-- The operation is a restart of the daemon. -/
def isRestart : Operation → Bool
  | .restart .. => true
  | _ => false

namespace Replay

/-- The worker has got a delivery. -/
def start (d : Daemon) (deliveryID : Text) : Replay := ⟨d, some (deliveryID, 0), [], []⟩

/-- The next record goes to the daemon; an error ends the attempt. -/
def ingestNext (definition : Definition) (records : List OutputRecord) (s : Replay)
    (random : Text) : Option Replay :=
  match s.attempt with
  | none => none
  | some (deliveryID, sequence) =>
    match (outputRequests definition deliveryID records)[sequence]? with
    | none => none
    | some request =>
      match s.daemon.ingest request.network request.stream request.occurredAt request.eventID
          request.payload random with
      | (.error _, d) => some { s with daemon := d, attempt := none }
      | (.ok e, d) => some
        { daemon := d
          attempt := some (deliveryID, sequence + 1)
          answers := s.answers ++ [e]
          added := if (s.daemon.store.get (eventKey e)).isSome then s.added else s.added ++ [e] }

/-- A worker polls when it has no delivery; a delivery starts an attempt. -/
def poll (definition : Definition) (s : Replay) (random : Text) (closed : Bool)
    (wakes : List Text) : Option Replay :=
  match s.attempt with
  | some _ => none
  | none =>
    match s.daemon.waitForDurableSiphon definition.spec.network definition.durableName
        definition.spec.delivery.maxEvents definition.spec.delivery.wait random closed wakes with
    | (.error _, d) => some { s with daemon := d }
    | (.ok delivery, d) =>
      if delivery.deliveryID = [] then some { s with daemon := d }
      else some { s with daemon := d, attempt := some (delivery.deliveryID, 0), answers := [] }

/-- A step of an attempt or of the daemon. -/
def step (definition : Definition) (records : List OutputRecord) (s : Replay) :
    ReplayAction → Option Replay
  | .other fuel op =>
    match op.perform fuel s.daemon with
    | none => none
    | some (_, d) =>
      some { s with daemon := d, attempt := if isRestart op then none else s.attempt }
  | .poll random closed wakes => poll definition s random closed wakes
  | .ingest random => ingestNext definition records s random
  | .stop => some { s with attempt := none }

/-- The last attempt has ingested all records. -/
def Completed (records : List OutputRecord) (s : Replay) : Prop :=
  ∃ deliveryID, s.attempt = some (deliveryID, records.length)

/-! ### What every attempt keeps -/

variable {definition : Definition} {deliveryID : Text} {records : List OutputRecord} {s s' : Replay}

/-- The attempts go on with the same delivery, and what they have ingested stays. -/
structure Ongoing (definition : Definition) (deliveryID : Text) (records : List OutputRecord)
    (s : Replay) : Prop where
  reachable : s.daemon.Reachable
  pends : Pends definition deliveryID s.daemon
  attempt : ∀ id sequence, s.attempt = some (id, sequence) → id = deliveryID ∧
    sequence ≤ records.length ∧ List.Forall₂ IngestRequest.StoredAs
      ((outputRequests definition deliveryID records).take sequence) s.answers
  answers : ∀ e ∈ s.answers, e ∈ storedEvents s.daemon.store
  added : ∀ e ∈ s.added, e ∈ storedEvents s.daemon.store ∧
    ∃ request ∈ outputRequests definition deliveryID records, request.StoredAs e
  nodup : s.added.Nodup

theorem storedEvents_subset_of_performs {d d' : Daemon} (hd : d.Reachable) {op : Operation}
    {r : Result Unit} (hp : d.Performs op r d') : storedEvents d.store ⊆ storedEvents d'.store := by
  obtain ⟨L, hL⟩ := hd.exists_holds.1
  obtain ⟨L', hL', hkept⟩ := hL.perform hp
  intro e he
  rw [hL.represents.mem_storedEvents_iff] at he
  exact hL'.represents.mem_storedEvents_iff.mpr (hkept.subset he)

/-- The daemon goes on, and the attempt with it unless it is cut off. -/
theorem Ongoing.goesOn (h : Ongoing definition deliveryID records s) {d : Daemon}
    (hd : d.Reachable) (hpends : Pends definition deliveryID d)
    (hsubset : storedEvents s.daemon.store ⊆ storedEvents d.store) {attempt : Option (Text × Nat)}
    (hattempt : attempt = none ∨ attempt = s.attempt) :
    Ongoing definition deliveryID records { s with daemon := d, attempt } where
  reachable := hd
  pends := hpends
  attempt := by
    rcases hattempt with rfl | rfl
    · simp
    · exact h.attempt
  answers e he := hsubset (h.answers e he)
  added e he := ⟨hsubset (h.added e he).1, (h.added e he).2⟩
  nodup := h.nodup

theorem Ongoing.poll (h : Ongoing definition deliveryID records s) {random : Text} {closed : Bool}
    {wakes : List Text} (hpoll : poll definition s random closed wakes = some s') :
    Ongoing definition deliveryID records s' := by
  unfold Replay.poll at hpoll
  split at hpoll
  · cases hpoll
  next hnone =>
  split at hpoll
  · next hwait =>
    cases hpoll
    obtain ⟨hkept, -⟩ := waitForDurableSiphon_spec h.reachable hwait
    exact h.goesOn hkept.reachable (hkept.pends _ h.pends) hkept.storedEvents.ge (Or.inr rfl)
  · next delivery d hwait =>
    obtain ⟨hkept, hdelivery⟩ := waitForDurableSiphon_spec h.reachable hwait
    have hpends := hkept.pends _ h.pends
    split_ifs at hpoll with hid
    · cases hpoll
      exact h.goesOn hkept.reachable hpends hkept.storedEvents.ge (Or.inr rfl)
    · cases hpoll
      have hgoesOn := h.goesOn hkept.reachable hpends hkept.storedEvents.ge (Or.inl rfl)
      refine { hgoesOn with attempt := ?_, answers := by simp }
      rintro id sequence ⟨⟩
      exact ⟨(hdelivery delivery rfl hid).unique hpends, Nat.zero_le _, .nil⟩

/-- The ingest of an event leaves the delivery pending. -/
theorem pends_of_ingest {d d' : Daemon} (hd : d.Reachable) (hpends : Pends definition deliveryID d)
    {network stream occurredAt eventID payload random : Text} {res : Result ThalwegEvent}
    (hi : d.ingest network stream occurredAt eventID payload random = (res, d')) :
    d'.Reachable ∧ Pends definition deliveryID d' := by
  have hp : d.Performs (.ingest network stream occurredAt eventID payload random)
      (res.map fun _ => ()) d' := ⟨0, by rw [Operation.perform, hi]; rfl⟩
  exact ⟨reachable_of_performs hd hp, hpends.performs hd hp ⟨by simp, by simp⟩⟩

/-- An attempt that goes on has one answer more. -/
theorem forall₂_take_succ {requests : List IngestRequest} {answers : List ThalwegEvent}
    {sequence : Nat} {request : IngestRequest} {e : ThalwegEvent}
    (h : List.Forall₂ IngestRequest.StoredAs (requests.take sequence) answers)
    (hrequest : requests[sequence]? = some request) (he : request.StoredAs e) :
    List.Forall₂ IngestRequest.StoredAs (requests.take (sequence + 1)) (answers ++ [e]) := by
  rw [List.take_add_one, hrequest]
  exact List.rel_append h (.cons he .nil)

theorem Ongoing.ingestNext (h : Ongoing definition deliveryID records s) {random : Text}
    (hingest : ingestNext definition records s random = some s') :
    Ongoing definition deliveryID records s' := by
  unfold Replay.ingestNext at hingest
  split at hingest
  · cases hingest
  next id sequence hattempt =>
  obtain ⟨rfl, -, hanswers⟩ := h.attempt id sequence hattempt
  split at hingest
  · cases hingest
  next request hrequest =>
  have hmem := List.mem_of_getElem? hrequest
  have hlt : sequence < records.length := by
    simpa using (List.getElem?_eq_some_iff.mp hrequest).1
  have hid : request.eventID ≠ [] := by
    rw [getElem?_outputRequests, Option.map_eq_some_iff] at hrequest
    obtain ⟨output, -, rfl⟩ := hrequest
    exact eventID_outputRequest_ne_nil definition id (sequence + 1) output
  split at hingest
  · next err d hi =>
    cases hingest
    obtain ⟨hreachable, hpends⟩ := pends_of_ingest h.reachable h.pends hi
    cases ingested h.reachable hid hi with
    | rejected _ hsame => exact h.goesOn hreachable hpends hsame.ge (Or.inl rfl)
  · next e d hi =>
    cases hingest
    obtain ⟨hreachable, hpends⟩ := pends_of_ingest h.reachable h.pends hi
    have hattempt' (he : request.StoredAs e) : ∀ id' sequence',
        some (id, sequence + 1) = some (id', sequence') → id' = id ∧
          sequence' ≤ records.length ∧ List.Forall₂ IngestRequest.StoredAs
            ((outputRequests definition id records).take sequence') (s.answers ++ [e]) := by
      rintro id' sequence' ⟨⟩
      exact ⟨rfl, hlt, forall₂_take_succ hanswers hrequest he⟩
    cases ingested h.reachable hid hi with
    | known he hstored hsome hsame =>
      have hgoesOn := h.goesOn hreachable hpends hsame.ge (Or.inl rfl)
      rw [if_pos hsome]
      refine { hgoesOn with attempt := hattempt' he, answers := ?_ }
      intro f hf
      rcases List.mem_append.mp hf with hf | hf
      · exact hgoesOn.answers f hf
      · rw [List.mem_singleton.mp hf, hsame]
        exact hstored
    | new he hnew hnone hinsert =>
      have hgoesOn := h.goesOn hreachable hpends (hinsert ▸ Set.subset_insert _ _) (Or.inl rfl)
      have hstored : e ∈ storedEvents d.store := hinsert ▸ Set.mem_insert _ _
      rw [if_neg (by simp [hnone])]
      refine ⟨hreachable, hpends, hattempt' he, fun f hf => ?_, fun f hf => ?_, ?_⟩
      · rcases List.mem_append.mp hf with hf | hf
        · exact hgoesOn.answers f hf
        · exact List.mem_singleton.mp hf ▸ hstored
      · rcases List.mem_append.mp hf with hf | hf
        · exact hgoesOn.added f hf
        · obtain rfl := List.mem_singleton.mp hf
          exact ⟨hstored, request, hmem, he⟩
      · refine h.nodup.append (List.nodup_singleton _) (List.disjoint_singleton.mpr fun hf => ?_)
        exact hnew (h.added e hf).1

/-- What else the daemon does leaves the delivery. -/
def Leaves (definition : Definition) (deliveryID : Text) : ReplayAction → Prop
  | .other _ op => LeavesPending definition deliveryID op
  | _ => True

theorem Ongoing.step (h : Ongoing definition deliveryID records s) {a : ReplayAction}
    (ha : Leaves definition deliveryID a) (hstep : step definition records s a = some s') :
    Ongoing definition deliveryID records s' := by
  cases a with
  | other fuel op =>
    simp only [Replay.step] at hstep
    split at hstep
    · cases hstep
    next r d hperform =>
    cases hstep
    have hp : s.daemon.Performs op r d := ⟨fuel, hperform⟩
    refine h.goesOn (reachable_of_performs h.reachable hp) (h.pends.performs h.reachable hp ha)
      (storedEvents_subset_of_performs h.reachable hp) ?_
    split_ifs
    · exact Or.inl rfl
    · exact Or.inr rfl
  | poll random closed wakes => exact h.poll hstep
  | ingest random => exact h.ingestNext hstep
  | stop =>
    cases hstep
    exact h.goesOn h.reachable h.pends subset_rfl (Or.inl rfl)

/-! ### Completed attempts -/

/-- The event is stored under the ID of a record. -/
def Uses (definition : Definition) (deliveryID : Text) (records : List OutputRecord)
    (e : ThalwegEvent) : Prop :=
  e.network = definition.spec.network ∧
    e.id ∈ (outputRequests definition deliveryID records).map IngestRequest.eventID

/-- Each record has exactly one event: the answer of the daemon, which holds what the record asks
for. The attempts have stored no other event, and none twice. -/
structure Settled (definition : Definition) (deliveryID : Text) (records : List OutputRecord)
    (s : Replay) : Prop where
  answers : List.Forall₂ IngestRequest.StoredAs (outputRequests definition deliveryID records)
    s.answers
  nodup : s.answers.Nodup
  mem_answers_iff : ∀ e, e ∈ s.answers ↔
    e ∈ storedEvents s.daemon.store ∧ Uses definition deliveryID records e
  added_nodup : s.added.Nodup
  added_subset : s.added ⊆ s.answers

theorem map_id_eq {requests : List IngestRequest} {answers : List ThalwegEvent}
    (h : List.Forall₂ IngestRequest.StoredAs requests answers) :
    answers.map ThalwegEvent.id = requests.map IngestRequest.eventID := by
  induction h with
  | nil => rfl
  | cons he _ ih => rw [List.map_cons, List.map_cons, ih, he.id_eq]

theorem network_outputRequest {request : IngestRequest}
    (h : request ∈ outputRequests definition deliveryID records) :
    request.network = definition.spec.network := by
  obtain ⟨i, hi⟩ := List.getElem?_of_mem h
  rw [getElem?_outputRequests, Option.map_eq_some_iff] at hi
  obtain ⟨output, -, rfl⟩ := hi
  rfl

theorem uses_of_storedAs {request : IngestRequest}
    (h : request ∈ outputRequests definition deliveryID records) {e : ThalwegEvent}
    (he : request.StoredAs e) : Uses definition deliveryID records e :=
  ⟨he.network_eq.trans (network_outputRequest h), List.mem_map.mpr ⟨request, h, he.id_eq.symm⟩⟩

theorem Ongoing.of_completed (h : Ongoing definition deliveryID records s)
    (hdistinct : DistinctIDs definition deliveryID records) (hcompleted : s.Completed records) :
    s.Settled definition deliveryID records := by
  obtain ⟨id, hattempt⟩ := hcompleted
  obtain ⟨rfl, -, hanswers⟩ := h.attempt id _ hattempt
  rw [List.take_of_length_le (length_outputRequests ..).le] at hanswers
  have hids := map_id_eq hanswers
  have huses : ∀ e ∈ s.answers, Uses definition id records e := by
    intro e he
    obtain ⟨i, hlt, rfl⟩ := List.getElem_of_mem he
    obtain ⟨hlen, hall⟩ := List.forall₂_iff_get.mp hanswers
    exact uses_of_storedAs (List.getElem_mem (hlen ▸ hlt)) (hall i (hlen ▸ hlt) hlt)
  have hmem : ∀ e, e ∈ s.answers ↔
      e ∈ storedEvents s.daemon.store ∧ Uses definition id records e := by
    intro e
    refine ⟨fun he => ⟨h.answers e he, huses e he⟩, ?_⟩
    rintro ⟨he, hnetwork, hid⟩
    -- the answer with the ID of the event is that event
    rw [← hids] at hid
    obtain ⟨f, hf, hfid⟩ := List.mem_map.mp hid
    obtain ⟨L, hL⟩ := h.reachable.exists_holds.1
    have hfstored := hL.represents.mem_storedEvents_iff.mp (h.answers f hf)
    have hestored := hL.represents.mem_storedEvents_iff.mp he
    have heq := L.distinct.eq_of_id hfstored hestored ((huses f hf).1.trans hnetwork.symm) hfid
    exact heq ▸ hf
  refine ⟨hanswers, ?_, hmem, h.nodup, fun e he => ?_⟩
  · refine List.Nodup.of_map ThalwegEvent.id ?_
    rw [hids]
    exact hdistinct.nodup
  · obtain ⟨hstored, request, hrequest, hstoredAs⟩ := h.added e he
    exact (hmem e).mpr ⟨hstored, uses_of_storedAs hrequest hstoredAs⟩

/-- Nothing else stores an event under the ID of a record. -/
def Alone (definition : Definition) (deliveryID : Text) (records : List OutputRecord) (s : Replay) :
    ReplayAction → Prop
  | .other fuel op => ∀ r d, op.perform fuel s.daemon = some (r, d) →
      ∀ e ∈ storedEvents d.store, Uses definition deliveryID records e →
        e ∈ storedEvents s.daemon.store
  | _ => True

/-- The attempts have stored whatever is stored under the ID of a record. -/
def Owned (definition : Definition) (deliveryID : Text) (records : List OutputRecord)
    (s : Replay) : Prop :=
  ∀ e ∈ storedEvents s.daemon.store, Uses definition deliveryID records e → e ∈ s.added

theorem Owned.ingestNext (hs : Owned definition deliveryID records s)
    (h : Ongoing definition deliveryID records s) {random : Text}
    (hingest : ingestNext definition records s random = some s') :
    Owned definition deliveryID records s' := by
  unfold Replay.ingestNext at hingest
  split at hingest
  · cases hingest
  next id sequence hattempt =>
  split at hingest
  · cases hingest
  next request hrequest =>
  have hid : request.eventID ≠ [] := by
    rw [getElem?_outputRequests, Option.map_eq_some_iff] at hrequest
    obtain ⟨output, -, rfl⟩ := hrequest
    exact eventID_outputRequest_ne_nil definition id (sequence + 1) output
  split at hingest
  · next err d hi =>
    cases hingest
    cases ingested h.reachable hid hi with
    | rejected _ hsame => exact fun e he => hs e (hsame ▸ he)
  · next e d hi =>
    cases hingest
    cases ingested h.reachable hid hi with
    | known _ _ hsome hsame =>
      rw [if_pos hsome]
      exact fun f hf => hs f (hsame ▸ hf)
    | new _ _ hnone hinsert =>
      rw [if_neg (by simp [hnone])]
      intro f hf huses
      simp only [hinsert, Set.mem_insert_iff] at hf
      rcases hf with rfl | hf
      · simp
      · exact List.mem_append_left _ (hs f hf huses)

theorem Owned.step (hs : Owned definition deliveryID records s)
    (h : Ongoing definition deliveryID records s) {a : ReplayAction}
    (ha : Alone definition deliveryID records s a)
    (hstep : step definition records s a = some s') : Owned definition deliveryID records s' := by
  cases a with
  | other fuel op =>
    simp only [Replay.step] at hstep
    split at hstep
    · cases hstep
    next r d hperform =>
    cases hstep
    exact fun e he huses => hs e (ha r d hperform e he huses) huses
  | poll random closed wakes =>
    simp only [Replay.step, Replay.poll] at hstep
    split at hstep
    · cases hstep
    split at hstep
    · next hwait =>
      cases hstep
      obtain ⟨hkept, -⟩ := waitForDurableSiphon_spec h.reachable hwait
      exact fun e he => hs e (hkept.storedEvents ▸ he)
    · next hwait =>
      obtain ⟨hkept, -⟩ := waitForDurableSiphon_spec h.reachable hwait
      split_ifs at hstep
      all_goals
        cases hstep
        exact fun e he => hs e (hkept.storedEvents ▸ he)
  | ingest random => exact hs.ingestNext h hstep
  | stop =>
    cases hstep
    exact hs

/-- Two events hold the same for a request; their times may differ where it gives none. -/
structure SameContent (request : IngestRequest) (e e' : ThalwegEvent) : Prop where
  network : e.network = e'.network
  stream : e.stream = e'.stream
  id : e.id = e'.id
  payload : e.payload = e'.payload
  occurredAt : request.occurredAt ≠ [] → e.occurredAt = e'.occurredAt

theorem sameContent_of_storedAs {request : IngestRequest} {e e' : ThalwegEvent}
    (he : request.StoredAs e) (he' : request.StoredAs e') : SameContent request e e' where
  network := he.network_eq.trans he'.network_eq.symm
  stream := he.stream_eq.trans he'.stream_eq.symm
  id := he.id_eq.trans he'.id_eq.symm
  payload := Except.ok.inj (he.payload_eq.symm.trans he'.payload_eq)
  occurredAt h := Except.ok.inj ((he.occurredAt_eq h).symm.trans (he'.occurredAt_eq h))

/-- The answers to each record are the same in both. -/
def SameAnswers (definition : Definition) (deliveryID : Text) (records : List OutputRecord)
    (s s' : Replay) : Prop :=
  ∀ (i : Nat) request e e', (outputRequests definition deliveryID records)[i]? = some request →
    s.answers[i]? = some e → s'.answers[i]? = some e' → SameContent request e e'

theorem Settled.sameAnswers (h : s.Settled definition deliveryID records)
    (h' : s'.Settled definition deliveryID records) :
    SameAnswers definition deliveryID records s s' := by
  intro i request e e' hrequest he he'
  obtain ⟨hlt, rfl⟩ := List.getElem?_eq_some_iff.mp hrequest
  obtain ⟨hlt', rfl⟩ := List.getElem?_eq_some_iff.mp he
  obtain ⟨hlt'', rfl⟩ := List.getElem?_eq_some_iff.mp he'
  exact sameContent_of_storedAs ((List.forall₂_iff_get.mp h.answers).2 i hlt hlt')
    ((List.forall₂_iff_get.mp h'.answers).2 i hlt hlt'')

theorem Settled.perm (h : s.Settled definition deliveryID records)
    (hs : Owned definition deliveryID records s) : s.added.Perm s.answers := by
  refine (List.perm_ext_iff_of_nodup h.added_nodup h.nodup).mpr fun e => ?_
  refine ⟨fun he => h.added_subset he, fun he => ?_⟩
  obtain ⟨hstored, huses⟩ := (h.mem_answers_iff e).mp he
  exact hs e hstored huses

theorem ongoing_start {d : Daemon} (hd : d.Reachable) (hpends : Pends definition deliveryID d) :
    Ongoing definition deliveryID records (start d deliveryID) where
  reachable := hd
  pends := hpends
  attempt := by
    rintro id sequence ⟨⟩
    exact ⟨rfl, Nat.zero_le _, .nil⟩
  answers := by simp [start]
  added := by simp [start]
  nodup := List.nodup_nil

theorem Ongoing.run (h : Ongoing definition deliveryID records s) {actions : List ReplayAction}
    (hleaves : ∀ a ∈ actions, Leaves definition deliveryID a)
    (hrun : Machine.run (Replay.step definition records) s actions = some s') :
    Ongoing definition deliveryID records s' :=
  run_invariant (fun _ _ _ hs ha hstep => Ongoing.step hs ha hstep) h
    (meets_of_forall_mem hleaves s) hrun

/-- **Replay is idempotent.** After any attempts on a delivery, each cut off anywhere, among
anything else that the daemon does and its restarts, a completed attempt leaves exactly one event
for each record, with its stream, payload, ID and occurrence time if given. If nothing else stores
events under these IDs, the attempts have stored these events and no others. All such attempts leave
the same; one of them is a single attempt that is not interrupted. -/
theorem settled {d d₀ : Daemon} (hd : d.Reachable) {definition : Definition} {random : Text}
    {closed : Bool} {wakes : List Text} {delivery : DurableSiphonDelivery}
    (hpoll : d.waitForDurableSiphon definition.spec.network definition.durableName
      definition.spec.delivery.maxEvents definition.spec.delivery.wait random closed wakes =
        (.ok delivery, d₀)) (hid : delivery.deliveryID ≠ []) {records : List OutputRecord}
    (hdistinct : DistinctIDs definition delivery.deliveryID records) {actions : List ReplayAction}
    {s : Replay} (hleaves : ∀ a ∈ actions, Leaves definition delivery.deliveryID a)
    (hrun : run (step definition records) (start d₀ delivery.deliveryID) actions = some s)
    (hcompleted : s.Completed records) :
    s.Settled definition delivery.deliveryID records ∧
      ((∀ e ∈ storedEvents d₀.store, ¬ Uses definition delivery.deliveryID records e) →
        Meets (step definition records) (Alone definition delivery.deliveryID records)
          (start d₀ delivery.deliveryID) actions → s.added.Perm s.answers) ∧
      ∀ actions' s', (∀ a ∈ actions', Leaves definition delivery.deliveryID a) →
        run (step definition records) (start d₀ delivery.deliveryID) actions' = some s' →
          s'.Completed records → SameAnswers definition delivery.deliveryID records s s' := by
  obtain ⟨hkept, hpends⟩ := waitForDurableSiphon_spec hd hpoll
  have hstart : Ongoing definition delivery.deliveryID records (start d₀ delivery.deliveryID) :=
    ongoing_start hkept.reachable (hpends delivery rfl hid)
  have hsettled := (hstart.run hleaves hrun).of_completed hdistinct hcompleted
  refine ⟨hsettled, fun hunused halone => hsettled.perm ?_, fun actions' s' hleaves' hrun' h' => ?_⟩
  · refine (run_invariant (P := fun s => Ongoing definition delivery.deliveryID records s ∧
      Owned definition delivery.deliveryID records s) ?_ ⟨hstart, ?_⟩
      ((meets_of_forall_mem hleaves _).and halone) hrun).2
    · rintro t a t' ⟨ht, howned⟩ ⟨hleave, halone⟩ hstep
      exact ⟨ht.step hleave hstep, howned.step ht halone hstep⟩
    · exact fun e he huses => absurd huses (hunused e he)
  · exact hsettled.sameAnswers ((hstart.run hleaves' hrun').of_completed hdistinct h')

/-! ### A delivery that is replayed -/

/-- A daemon with an event for the siphon of a Processor. -/
def arrived : Daemon :=
  (initial ['d'] deviceName_ne_nil fun _ => noon).after 0
    [.networkCreate ['h'] (List.replicate 16 0) (List.replicate 32 0),
      .createDurableSiphon ['h'] Consumer.tidy.durableName [['s']] [],
      .ingest ['h'] ['s'] [] ['e'] ['1'] []]

/-- The daemon that has handed out the event. -/
def handedOut : Daemon :=
  (arrived.waitForDurableSiphon ['h'] Consumer.tidy.durableName 25 0 ['r'] false []).2

/-- One record with an ID and an occurrence time and one without. -/
def twoRecords : List OutputRecord :=
  [⟨['t'], ['1'], ['x'], "2026-01-01T00:00:00Z".toList⟩, ⟨['t'], ['2'], [], []⟩]

/-- The first attempt is cut off by a restart after a record. -/
def twoAttempts : List ReplayAction :=
  [.ingest [], .other 2 (.restart id fun _ => noon), .poll ['r'] false [], .ingest [], .ingest []]

theorem arrived_reachable : arrived.Reachable := ⟨_, _, _, run_after _ _ _⟩

theorem distinctIDs_twoRecords :
    DistinctIDs Consumer.tidy (randomID "delivery" ['r']) twoRecords where
  given i j output output' hi hj hne heq := by
    rcases i with _ | _ | i
    · rcases j with _ | _ | j
      · rfl
      · cases hi
        cases hj
        cases heq
      · cases hj
    · cases hi
      exact absurd rfl hne
    · cases hi
  unmade := by decide +kernel
  digests := by decide +kernel

theorem settled_twoAttempts : ∃ s,
    run (step Consumer.tidy twoRecords) (start handedOut (randomID "delivery" ['r'])) twoAttempts =
      some s ∧ s.Settled Consumer.tidy (randomID "delivery" ['r']) twoRecords := by
  have hpoll : (arrived.waitForDurableSiphon ['h'] Consumer.tidy.durableName 25 0 ['r'] false
      []).1.toOption.any (fun delivery => delivery.deliveryID = randomID "delivery" ['r']) = true :=
    by decide +kernel
  obtain ⟨delivery, hdelivery, hid⟩ := (Option.any_eq_true _ _).mp hpoll
  have hrun : (run (step Consumer.tidy twoRecords) (start handedOut (randomID "delivery" ['r']))
      twoAttempts).any (fun s => s.attempt = some (randomID "delivery" ['r'], 2)) = true := by
    decide +kernel
  obtain ⟨s, hs, hattempt⟩ := (Option.any_eq_true _ _).mp hrun
  refine ⟨s, hs, ?_⟩
  rw [← of_decide_eq_true hid] at hs hattempt ⊢
  have hleaves : ∀ a ∈ twoAttempts, Leaves Consumer.tidy delivery.deliveryID a := by
    simp [twoAttempts, Leaves, LeavesPending]
  exact (settled arrived_reachable (Prod.ext (eq_ok_of_toOption hdelivery) rfl)
    (by rw [of_decide_eq_true hid]; simp [randomID])
    (by rw [of_decide_eq_true hid]; exact distinctIDs_twoRecords) hleaves hs
    ⟨_, of_decide_eq_true hattempt⟩).1

end Replay

end Thalweg.Registry
