import Thalweg.Data.Machine
import Thalweg.Data.Wakes
import Thalweg.Daemon.Delivery

/-!
# Waiting polls of durable siphons

A poll of a durable siphon that may wait takes the wake channel, polls, and waits for the channel
when nothing is delivered. An ingest that has committed an event closes the channel and replaces it
afterwards. Polls and ingests take their steps in any order, as far as their locks allow; a poll
reads what was committed when its transaction began.

An event is broadcast with its commit, so that the broadcasts of the daemon are the events that were
committed, in their order.

## Main definitions

* `DurableWaits.step`: one step of a waiting poll, of an ingest or of a request on siphons.
* `DurableWaits.NoLostCommit`: no poll waits for a channel that stays open after a commit.

## Main results

* `DurableWaits.noLostCommit_of_run`.
-/

namespace Thalweg

open Machine

/-- What a waiting poll asks for. -/
structure DurableWait where
  network : Text
  name : Text
  limit : Int
  deriving DecidableEq

/-- Where a waiting poll is. -/
inductive DurableWaiter where
  | idle
  /-- It is to take the wake channel. -/
  | capturing (poll : DurableWait)
  | polling (poll : DurableWait) (wake : Nat)
  /-- Its transaction reads the snapshot, to which so many events were committed. -/
  | reading (poll : DurableWait) (wake : Nat) (snapshot : Store) (committed : Nat)
  /-- Nothing was delivered; it waits for the channel. -/
  | blocked (poll : DurableWait) (wake : Nat) (committed : Nat)

/-- The channel that a waiting poll holds. -/
def DurableWaiter.wake : DurableWaiter → Option Nat
  | .polling _ wake | .reading _ wake _ _ | .blocked _ wake _ => some wake
  | _ => none

/-- The channel, and the number of events that were committed before the snapshot of the poll. -/
def DurableWaiter.snapshot : DurableWaiter → Option (Nat × Nat)
  | .reading _ wake _ committed | .blocked _ wake committed => some (wake, committed)
  | _ => none

theorem DurableWaiter.wake_of_snapshot {w : DurableWaiter} {wake committed : Nat}
    (h : w.snapshot = some (wake, committed)) : w.wake = some wake := by
  cases w with
  | idle | capturing | polling => cases h
  | reading | blocked => cases h; rfl

/-- Where an ingest is. -/
inductive DurableIngest where
  | idle
  /-- `ingestReplicated` is to store the event; afterwards it materializes the variant of an event
  ID of a network. -/
  | storing (event : ThalwegEvent) (variant : Option (Text × Text))
  /-- The event is committed; durable siphons are to be signalled. -/
  | signalling (event : ThalwegEvent) (variant : Option (Text × Text))
  | materializing (networkName eventID : Text)

namespace DurableIngest

/-- The ingest after its signal. -/
def signalled : Option (Text × Text) → DurableIngest
  | none => .idle
  | some (networkName, eventID) => .materializing networkName eventID

/-- `ingestReplicated` up to its transaction. -/
def receive (incoming : ThalwegEvent) : DurableIngest :=
  match normalizeReplicatedEvent incoming with
  | .error _ => .idle
  | .ok event =>
    match parseConflictResolution event with
    | .error _ => .idle
    | .ok resolution =>
      .storing event (resolution.map fun payload => (event.network, payload.eventID))

/-- `materializeConflictVariant` up to the transaction of its ingest. -/
def materialize (store : Store) (networkName eventID : Text) : DurableIngest :=
  match findEventByID store networkName eventID with
  | .ok (some original) =>
    match eventDigest original with
    | .error _ => .idle
    | .ok digest =>
      receive { original with id := recoveredConflictEventID networkName eventID digest }
  | _ => .idle

/-- The event that is committed while the signal of the ingest is not finished. -/
def unsignalled : DurableIngest → Option ThalwegEvent
  | .signalling event _ => some event
  | _ => none

theorem unsignalled_signalled (variant : Option (Text × Text)) :
    (signalled variant).unsignalled = none := by
  rcases variant with _ | ⟨networkName, eventID⟩ <;> rfl

theorem unsignalled_receive (incoming : ThalwegEvent) :
    (receive incoming).unsignalled = none := by
  unfold receive
  split
  · rfl
  · split <;> rfl

theorem unsignalled_materialize (store : Store) (networkName eventID : Text) :
    (materialize store networkName eventID).unsignalled = none := by
  unfold materialize
  split
  · split
    · rfl
    · exact unsignalled_receive _
  · rfl

end DurableIngest

/-- Requests on siphons that do not poll. -/
inductive SiphonRequest where
  | create (network name : Text) (streams : List Text) (start : Text)
  | acknowledge (network name deliveryID : Text)
  | delete (network name : Text)

/-- The daemon after the request. -/
def SiphonRequest.perform (d : Daemon) : SiphonRequest → Daemon
  | .create network name streams start => (d.createDurableSiphon network name streams start).2
  | .acknowledge network name deliveryID => (d.acknowledgeDurableSiphon network name deliveryID).2
  | .delete network name => (d.deleteDurableSiphon network name).2

/-- A daemon with its wake channel, the locks of its ingests and of its siphons, and the calls that
go on. -/
structure DurableWaits where
  daemon : Daemon
  durableWake : Gate
  /-- A local ingest holds the lock until its signals are finished. -/
  ingestMu : Option Nat
  durableMu : Bool
  waiters : Nat → DurableWaiter
  ingests : Nat → DurableIngest

namespace DurableWaits

/-- A daemon without waiting polls and ingests. -/
def initial (daemon : Daemon) : DurableWaits :=
  ⟨daemon, ⟨0, []⟩, none, false, fun _ => .idle, fun _ => .idle⟩

/-- The steps of waiters and of ingests. -/
inductive Action where
  | waitForDurableSiphon (waiter : Nat) (poll : DurableWait)
  | durableSiphonWakeChannel (waiter : Nat)
  /-- The transaction of a poll begins. -/
  | beginPoll (waiter : Nat)
  /-- The transaction of a poll is committed; `random` is the fresh part of a delivery ID. -/
  | pollDurableSiphon (waiter : Nat) (random : Text)
  /-- The transaction of a poll fails. -/
  | failPoll (waiter : Nat)
  /-- The channel that the poll holds is closed. -/
  | wake (waiter : Nat)
  /-- The time is up, or the call is cancelled. -/
  | leave (waiter : Nat)
  | ingestInternal (ingest : Nat) (networkName stream occurredAt eventID payload random : Text)
  | ingestReplicated (ingest : Nat) (incoming : ThalwegEvent)
  | storeReplicated (ingest : Nat)
  | signalDurableSiphons (ingest : Nat)
  | materializeConflictVariant (ingest : Nat)
  | request (request : SiphonRequest)

/-- The state with a waiter set. -/
def setWaiter (s : DurableWaits) (waiter : Nat) (w : DurableWaiter) : DurableWaits :=
  { s with waiters := Function.update s.waiters waiter w }

/-- The state with an ingest set. -/
def setIngest (s : DurableWaits) (ingest : Nat) (i : DurableIngest) : DurableWaits :=
  { s with ingests := Function.update s.ingests ingest i }

/-- The event that a transaction has committed. -/
def committed (d d' : Daemon) : Option ThalwegEvent :=
  (d'.broadcasts.drop d.broadcasts.length).head?

/-- The store after a transaction that has read a snapshot and has left the value under the key. -/
def commitKey (store snapshot after : Store) (key : Text) : Store :=
  match after.get key with
  | some value => if snapshot.get key = some value then store else store.set key value
  | none => store

/-- One step; an action that is not possible in the state leads nowhere. -/
def step (s : DurableWaits) : Action → Option DurableWaits
  | .waitForDurableSiphon waiter poll =>
    match s.waiters waiter with
    | .idle => some (s.setWaiter waiter (.capturing poll))
    | _ => none
  | .durableSiphonWakeChannel waiter =>
    match s.waiters waiter with
    | .capturing poll => some (s.setWaiter waiter (.polling poll s.durableWake.current))
    | _ => none
  | .beginPoll waiter =>
    match s.waiters waiter, s.durableMu with
    | .polling poll wake, false =>
      some ({ s with durableMu := true }.setWaiter waiter
        (.reading poll wake s.daemon.store s.daemon.broadcasts.length))
    | _, _ => none
  | .pollDurableSiphon waiter random =>
    match s.waiters waiter with
    | .reading poll wake snapshot committed =>
      match Daemon.pollDurableSiphon { s.daemon with store := snapshot } poll.network poll.name
          poll.limit random with
      | (.error _, d) =>
        some ({ s with
          daemon := { s.daemon with now := d.now }, durableMu := false }.setWaiter waiter .idle)
      | (.ok delivery, d) =>
        let key := durableSiphonKey poll.network poll.name
        let s := { s with
          daemon := { s.daemon with
            now := d.now, store := commitKey s.daemon.store snapshot d.store key }
          durableMu := false }
        if delivery.deliveryID ≠ [] then some (s.setWaiter waiter .idle)
        else some (s.setWaiter waiter (.blocked poll wake committed))
    | _ => none
  | .failPoll waiter =>
    match s.waiters waiter with
    | .reading _ _ _ _ => some ({ s with durableMu := false }.setWaiter waiter .idle)
    | _ => none
  | .wake waiter =>
    match s.waiters waiter with
    | .blocked poll wake _ =>
      if wake ∈ s.durableWake.closed then some (s.setWaiter waiter (.capturing poll)) else none
    | _ => none
  | .leave waiter =>
    match s.waiters waiter with
    | .blocked _ _ _ => some (s.setWaiter waiter .idle)
    | _ => none
  | .ingestInternal ingest networkName stream occurredAt eventID payload random =>
    match s.ingests ingest, s.ingestMu with
    | .idle, none =>
      let d := (s.daemon.ingestInternal networkName stream occurredAt eventID payload random).2
      match committed s.daemon d with
      | none => some { s with daemon := d }
      | some event =>
        some ({ s with daemon := d, ingestMu := some ingest }.setIngest ingest
          (.signalling event none))
    | _, _ => none
  | .ingestReplicated ingest incoming =>
    match s.ingests ingest with
    | .idle => some (s.setIngest ingest (.receive incoming))
    | _ => none
  | .storeReplicated ingest =>
    match s.ingests ingest, s.ingestMu with
    | .storing event variant, none =>
      match s.daemon.storeReplicated event with
      | (.error _, d) => some ({ s with daemon := d }.setIngest ingest .idle)
      | (.ok _, d) =>
        match committed s.daemon d with
        | none => some ({ s with daemon := d }.setIngest ingest (.signalled variant))
        | some event => some ({ s with daemon := d }.setIngest ingest (.signalling event variant))
    | _, _ => none
  | .signalDurableSiphons ingest =>
    match s.ingests ingest with
    | .signalling _ variant =>
      some ({ s with
        durableWake := s.durableWake.signal
        ingestMu := if s.ingestMu = some ingest then none else s.ingestMu }.setIngest ingest
          (.signalled variant))
    | _ => none
  | .materializeConflictVariant ingest =>
    match s.ingests ingest with
    | .materializing networkName eventID =>
      some (s.setIngest ingest (.materialize s.daemon.store networkName eventID))
    | _ => none
  | .request request =>
    if s.durableMu then none else some { s with daemon := request.perform s.daemon }

variable {s s' : DurableWaits} {a : Action}

/-- A poll that waits holds a closed channel, or one that the ingest of every event which was
committed after its snapshot is still to close. -/
def NoLostCommit (s : DurableWaits) : Prop :=
  ∀ waiter poll wake committed event, s.waiters waiter = .blocked poll wake committed →
    event ∈ s.daemon.broadcasts.drop committed →
    wake ∈ s.durableWake.closed ∨ ∃ ingest, (s.ingests ingest).unsignalled = some event

/-! ### Committed events -/

/-- At most one event is committed. -/
def Appends (d d' : Daemon) : Prop :=
  d'.broadcasts = d.broadcasts ∨ ∃ event, d'.broadcasts = d.broadcasts ++ [event]

theorem appends_storeLocal (d : Daemon) (networkName stream occurredAt : Text)
    (occurredAtProvided : Bool) (eventID payload : Text) (wallTime : Instant) :
    Appends d (d.storeLocal networkName stream occurredAt occurredAtProvided eventID payload
      wallTime).2 := by
  unfold Daemon.storeLocal
  split
  · exact Or.inl rfl
  · split <;> exact Or.inl rfl
  · split
    · exact Or.inl rfl
    · dsimp only
      split
      · exact Or.inl rfl
      · exact Or.inr ⟨_, rfl⟩

theorem appends_ingestInternal (d : Daemon)
    (networkName stream occurredAt eventID payload random : Text) :
    Appends d (d.ingestInternal networkName stream occurredAt eventID payload random).2 := by
  unfold Daemon.ingestInternal
  split
  · exact Or.inl rfl
  split
  · exact Or.inl rfl
  split
  · exact Or.inl rfl
  dsimp only
  split
  · exact Or.inl rfl
  · exact appends_storeLocal d.tick _ _ _ _ _ _ _

theorem appends_storeReplicated (d : Daemon) (event : ThalwegEvent) :
    Appends d (d.storeReplicated event).2 := by
  unfold Daemon.storeReplicated
  split
  · exact Or.inl rfl
  · split <;> exact Or.inl rfl
  · split
    · exact Or.inl rfl
    · split
      · exact Or.inl rfl
      · exact Or.inr ⟨_, rfl⟩

theorem broadcasts_of_storeReplicated_eq_error {d d' : Daemon} {event : ThalwegEvent} {e : Failure}
    (h : d.storeReplicated event = (.error e, d')) : d'.broadcasts = d.broadcasts := by
  unfold Daemon.storeReplicated at h
  split at h
  · cases h
    rfl
  · split at h <;> cases h
    rfl
  · split at h
    · cases h
      rfl
    · split at h <;> cases h
      rfl

theorem Appends.of_committed_none {d d' : Daemon} (h : Appends d d')
    (hnone : committed d d' = none) : d'.broadcasts = d.broadcasts := by
  rcases h with h | ⟨event, h⟩
  · exact h
  · simp [committed, h] at hnone

theorem Appends.of_committed_some {d d' : Daemon} (h : Appends d d') {event : ThalwegEvent}
    (hsome : committed d d' = some event) : d'.broadcasts = d.broadcasts ++ [event] := by
  rcases h with h | ⟨e, h⟩
  · simp [committed, h] at hsome
  · obtain rfl : e = event := by simpa [committed, h] using hsome
    exact h

theorem broadcasts_request (d : Daemon) (request : SiphonRequest) :
    (request.perform d).broadcasts = d.broadcasts := by
  cases request with
  | create network name streams start =>
    simp only [SiphonRequest.perform, Daemon.createDurableSiphon]
    split
    · rfl
    split
    · rfl
    · rfl
    split
    · rfl
    split
    · rfl
    · split <;> rfl
    split <;> rfl
  | acknowledge network name deliveryID =>
    simp only [SiphonRequest.perform, Daemon.acknowledgeDurableSiphon]
    split_ifs
    · rfl
    · split
      · rfl
      · rfl
      · split
        · rfl
        · split_ifs <;> rfl
  | delete network name =>
    simp only [SiphonRequest.perform, Daemon.deleteDurableSiphon]
    split <;> rfl

/-! ### Commits and signals -/

/-- The committed events with the wake channel and the ingests that are to signal. -/
def watch (s : DurableWaits) : Watch ThalwegEvent Nat :=
  ⟨s.daemon.broadcasts, s.durableWake, fun ingest => (s.ingests ingest).unsignalled⟩

theorem watch_setIngest (s : DurableWaits) (ingest : Nat) (i : DurableIngest) :
    (s.setIngest ingest i).watch =
      { s.watch with
        unsignalled := Function.update s.watch.unsignalled ingest i.unsignalled } :=
  congrArg (Watch.mk _ _) (Function.comp_update DurableIngest.unsignalled s.ingests ingest i)

/-- A move of an ingest that neither commits nor signals. -/
theorem move_setIngest {ingest : Nat} {i : DurableIngest}
    (h : (s.ingests ingest).unsignalled = none) (hi : i.unsignalled = none)
    (hsame : s'.watch = s.watch) : s.watch.Move (s'.setIngest ingest i).watch := by
  have hupdate : Function.update s.watch.unsignalled ingest none = s.watch.unsignalled :=
    Function.update_eq_self_iff.mpr h.symm
  rw [watch_setIngest, hsame, hi, hupdate]
  exact .rest

/-- A move of an ingest that commits an event and is to signal. -/
theorem move_commit {ingest : Nat} {i : DurableIngest} {event : ThalwegEvent}
    (h : (s.ingests ingest).unsignalled = none) (hi : i.unsignalled = some event)
    (hlog : s'.daemon.broadcasts = s.daemon.broadcasts ++ [event])
    (hgate : s'.durableWake = s.durableWake) (hingests : s'.ingests = s.ingests) :
    s.watch.Move (s'.setIngest ingest i).watch := by
  have hposted := Watch.Move.post (b := s.watch) (c := ingest) (e := event) h
  have hwatch : s'.watch = { s.watch with log := s.watch.log ++ [event] } := by
    rw [watch, watch, hlog, hgate, hingests]
  rw [watch_setIngest, hwatch, hi]
  exact hposted

theorem move_ingestInternal {ingest : Nat}
    {networkName stream occurredAt eventID payload random : Text}
    (hstep : step s (.ingestInternal ingest networkName stream occurredAt eventID payload random) =
      some s') : s.watch.Move s'.watch := by
  have happends := appends_ingestInternal s.daemon networkName stream occurredAt eventID payload
    random
  simp only [step] at hstep
  split at hstep
  · next hidle hfree =>
    split at hstep
    · next hnone =>
      cases hstep
      rw [show s.watch = _ from rfl, watch, ← happends.of_committed_none hnone]
      exact .rest
    · next event hsome =>
      cases hstep
      exact move_commit (congrArg DurableIngest.unsignalled hidle) rfl
        (happends.of_committed_some hsome) rfl rfl
  · cases hstep

theorem move_storeReplicated {ingest : Nat} (hstep : step s (.storeReplicated ingest) = some s') :
    s.watch.Move s'.watch := by
  simp only [step] at hstep
  split at hstep
  · next event variant hstoring hfree =>
    have hunsignalled : (s.ingests ingest).unsignalled = none := by
      rw [hstoring]
      rfl
    have happends := appends_storeReplicated s.daemon event
    split at hstep
    · next e d herror =>
      cases hstep
      refine move_setIngest hunsignalled rfl ?_
      rw [watch, watch, broadcasts_of_storeReplicated_eq_error herror]
    · next stored d hok =>
      rw [hok] at happends
      split at hstep
      · next hnone =>
        cases hstep
        refine move_setIngest hunsignalled (DurableIngest.unsignalled_signalled variant) ?_
        rw [watch, watch, happends.of_committed_none hnone]
      · next committed hsome =>
        cases hstep
        exact move_commit hunsignalled rfl (happends.of_committed_some hsome) rfl rfl
  · cases hstep

theorem move_of_step (hstep : step s a = some s') : s.watch.Move s'.watch := by
  cases a with
  | waitForDurableSiphon waiter poll =>
    simp only [step] at hstep
    split at hstep <;> cases hstep
    exact .rest
  | durableSiphonWakeChannel waiter =>
    simp only [step] at hstep
    split at hstep <;> cases hstep
    exact .rest
  | beginPoll waiter =>
    simp only [step] at hstep
    split at hstep <;> cases hstep
    exact .rest
  | pollDurableSiphon waiter random =>
    simp only [step] at hstep
    split at hstep
    · split at hstep
      · cases hstep
        exact .rest
      · split_ifs at hstep
        · cases hstep
          exact .rest
        · cases hstep
          exact .rest
    · cases hstep
  | failPoll waiter =>
    simp only [step] at hstep
    split at hstep <;> cases hstep
    exact .rest
  | wake waiter =>
    simp only [step] at hstep
    split at hstep
    · split_ifs at hstep
      cases hstep
      exact .rest
    · cases hstep
  | leave waiter =>
    simp only [step] at hstep
    split at hstep <;> cases hstep
    exact .rest
  | ingestInternal ingest networkName stream occurredAt eventID payload random =>
    exact move_ingestInternal hstep
  | ingestReplicated ingest incoming =>
    simp only [step] at hstep
    split at hstep
    · next hidle =>
      cases hstep
      exact move_setIngest (congrArg DurableIngest.unsignalled hidle)
        (DurableIngest.unsignalled_receive incoming) rfl
    · cases hstep
  | storeReplicated ingest => exact move_storeReplicated hstep
  | signalDurableSiphons ingest =>
    simp only [step] at hstep
    split at hstep
    · next event variant hsignalling =>
      cases hstep
      rw [watch_setIngest, DurableIngest.unsignalled_signalled]
      exact .signal ingest
    · cases hstep
  | materializeConflictVariant ingest =>
    simp only [step] at hstep
    split at hstep
    · next networkName eventID hmaterializing =>
      cases hstep
      exact move_setIngest (congrArg DurableIngest.unsignalled hmaterializing)
        (DurableIngest.unsignalled_materialize _ networkName eventID) rfl
    · cases hstep
  | request request =>
    simp only [step] at hstep
    split_ifs at hstep
    cases hstep
    have hsame : ({ s with daemon := request.perform s.daemon } : DurableWaits).watch =
        s.watch := by
      rw [watch, watch, broadcasts_request]
    rw [hsame]
    exact .rest

/-! ### Waiting polls -/

/-- What a step makes of a waiting poll. -/
inductive Advances (s : DurableWaits) : DurableWaiter → DurableWaiter → Prop where
  | rest (w : DurableWaiter) : Advances s w w
  | leave (w : DurableWaiter) : Advances s w .idle
  | start (w : DurableWaiter) (poll : DurableWait) : Advances s w (.capturing poll)
  | capture (w : DurableWaiter) (poll : DurableWait) :
      Advances s w (.polling poll s.durableWake.current)
  | read (poll : DurableWait) (wake : Nat) :
      Advances s (.polling poll wake)
        (.reading poll wake s.daemon.store s.daemon.broadcasts.length)
  | block (poll : DurableWait) (wake : Nat) (snapshot : Store) (committed : Nat) :
      Advances s (.reading poll wake snapshot committed) (.blocked poll wake committed)

theorem advances_setWaiter {waiter : Nat} {w : DurableWaiter} (hwaiters : s'.waiters = s.waiters)
    (h : Advances s (s.waiters waiter) w) (i : Nat) :
    Advances s (s.waiters i) ((s'.setWaiter waiter w).waiters i) := by
  have hupdate : (s'.setWaiter waiter w).waiters = Function.update s.waiters waiter w := by
    rw [← hwaiters]
    rfl
  rw [hupdate]
  by_cases hi : i = waiter
  · rw [hi, Function.update_self]
    exact h
  · rw [Function.update_of_ne hi]
    exact .rest _

theorem advances_of_step (hstep : step s a = some s') (i : Nat) :
    Advances s (s.waiters i) (s'.waiters i) := by
  cases a with
  | waitForDurableSiphon waiter poll =>
    simp only [step] at hstep
    split at hstep <;> cases hstep
    exact advances_setWaiter rfl (.start _ poll) i
  | durableSiphonWakeChannel waiter =>
    simp only [step] at hstep
    split at hstep
    · next poll hcapturing =>
      cases hstep
      exact advances_setWaiter rfl (.capture _ poll) i
    · cases hstep
  | beginPoll waiter =>
    simp only [step] at hstep
    split at hstep
    · next poll wake hpolling hfree =>
      cases hstep
      refine advances_setWaiter rfl ?_ i
      rw [hpolling]
      exact .read poll wake
    · cases hstep
  | pollDurableSiphon waiter random =>
    simp only [step] at hstep
    split at hstep
    · next poll wake snapshot committed hreading =>
      split at hstep
      · cases hstep
        exact advances_setWaiter rfl (.leave _) i
      · split_ifs at hstep
        · cases hstep
          exact advances_setWaiter rfl (.leave _) i
        · cases hstep
          refine advances_setWaiter rfl ?_ i
          rw [hreading]
          exact .block poll wake snapshot committed
    · cases hstep
  | failPoll waiter =>
    simp only [step] at hstep
    split at hstep <;> cases hstep
    exact advances_setWaiter rfl (.leave _) i
  | wake waiter =>
    simp only [step] at hstep
    split at hstep
    · next poll wake committed hblocked =>
      split_ifs at hstep
      cases hstep
      exact advances_setWaiter rfl (.start _ poll) i
    · cases hstep
  | leave waiter =>
    simp only [step] at hstep
    split at hstep <;> cases hstep
    exact advances_setWaiter rfl (.leave _) i
  | ingestInternal ingest networkName stream occurredAt eventID payload random =>
    simp only [step] at hstep
    split at hstep
    · split at hstep <;> cases hstep <;> exact .rest _
    · cases hstep
  | ingestReplicated ingest incoming =>
    simp only [step] at hstep
    split at hstep <;> cases hstep
    exact .rest _
  | storeReplicated ingest =>
    simp only [step] at hstep
    split at hstep
    · split at hstep
      · cases hstep
        exact .rest _
      · split at hstep <;> cases hstep <;> exact .rest _
    · cases hstep
  | signalDurableSiphons ingest =>
    simp only [step] at hstep
    split at hstep <;> cases hstep
    exact .rest _
  | materializeConflictVariant ingest =>
    simp only [step] at hstep
    split at hstep <;> cases hstep
    exact .rest _
  | request request =>
    simp only [step] at hstep
    split_ifs at hstep
    cases hstep
    exact .rest _

/-- The channel of a waiting poll was handed out, and it is closed or is still to be closed for
every event that was committed after the snapshot. -/
structure Attends (s : DurableWaits) (w : DurableWaiter) : Prop where
  issued : ∀ wake, w.wake = some wake → s.durableWake.Issued wake
  noticed : ∀ wake committed, w.snapshot = some (wake, committed) → s.watch.Noticed wake committed

theorem Attends.of_step {w w' : DurableWaiter} (h : Attends s w) (hadvances : Advances s w w')
    (hmove : s.watch.Move s'.watch) : Attends s' w' := by
  have hissued : ∀ {wake}, s.durableWake.Issued wake → s'.durableWake.Issued wake :=
    fun hwake => Watch.issued_of_move (b := s.watch) hwake hmove
  have hnoticed : ∀ {wake committed}, s.durableWake.Issued wake → s.watch.Noticed wake committed →
      s'.watch.Noticed wake committed := fun hwake hseen => hseen.of_move hwake hmove
  cases hadvances with
  | rest =>
    refine ⟨fun wake hwake => hissued (h.issued wake hwake), fun wake committed hsnapshot => ?_⟩
    exact hnoticed (h.issued wake (DurableWaiter.wake_of_snapshot hsnapshot))
      (h.noticed wake committed hsnapshot)
  | leave => exact ⟨nofun, nofun⟩
  | start _ poll => exact ⟨nofun, nofun⟩
  | capture _ poll =>
    refine ⟨fun wake hwake => ?_, nofun⟩
    cases hwake
    exact hissued (Or.inl rfl)
  | read poll wake =>
    have hwake : s.durableWake.Issued wake := h.issued wake rfl
    refine ⟨fun _ hsame => ?_, fun _ _ hsame => ?_⟩
    · cases hsame
      exact hissued hwake
    · cases hsame
      exact hnoticed hwake (Watch.noticed_of_length_le le_rfl)
  | block poll wake snapshot committed =>
    have hwake : s.durableWake.Issued wake := h.issued wake rfl
    refine ⟨fun _ hsame => ?_, fun _ _ hsame => ?_⟩
    · cases hsame
      exact hissued hwake
    · cases hsame
      exact hnoticed hwake (h.noticed wake committed rfl)

/-! ### Runs -/

/-- **No lost wake-up.** Whatever order the steps of waiting polls, ingests and requests on siphons
take, a poll that waits holds no channel that would stay open after a commit. -/
theorem noLostCommit_of_run {d : Daemon} {actions : List Action}
    (hrun : run step (initial d) actions = some s) : NoLostCommit s := by
  have hattends : ∀ waiter, Attends s (s.waiters waiter) := by
    refine Reaches.invariant (P := fun s => ∀ waiter, Attends s (s.waiters waiter)) ?_ ?_
      ⟨actions, hrun⟩
    · exact fun t a t' h hstep waiter =>
        (h waiter).of_step (advances_of_step hstep waiter) (move_of_step hstep)
    · exact fun waiter => ⟨nofun, nofun⟩
  intro waiter poll wake committed event hblocked hevent
  refine (hattends waiter).noticed wake committed ?_ event hevent
  rw [hblocked]
  rfl

/-- An event is committed between the snapshot of a poll and the end of the poll, which delivers
nothing. -/
def overtakenRun : List Action :=
  [.request (.create ['h'] ['s'] [] []), .waitForDurableSiphon 0 ⟨['h'], ['s'], 0⟩,
    .durableSiphonWakeChannel 0, .beginPoll 0, .ingestInternal 0 ['h'] ['t'] [] ['e'] ['1'] [],
    .pollDurableSiphon 0 ['r']]

theorem noLostCommit_overtakenRun :
    ∃ s, run step (initial Daemon.emptyNetwork) overtakenRun = some s ∧ NoLostCommit s := by
  have hsome : (run step (initial Daemon.emptyNetwork) overtakenRun).isSome = true := by
    decide +kernel
  obtain ⟨s, hs⟩ := Option.isSome_iff_exists.mp hsome
  exact ⟨s, hs, noLostCommit_of_run hs⟩

end DurableWaits

end Thalweg
