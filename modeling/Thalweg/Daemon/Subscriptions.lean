import Mathlib.Data.List.Nodup
import Mathlib.Data.List.Perm.Basic
import Thalweg.Daemon.Event
import Thalweg.Data.Machine

/-!
# Live subscriptions

A subscription has a queue of bounded size. An ingest that has committed an event broadcasts it to
the subscriptions that want it: it holds the read lock of the table of subscriptions while it goes
through them, and afterwards takes the write lock to remove those whose queues were full. A
goroutine for each subscription takes the messages out of its queue and encodes them for the client.

Local ingests broadcast before they release the ingest lock, replicated ones after it, so that
several broadcasts may go through the table at the same time. The lock gives way in any order. A
send on a closed queue and a second close of a queue are panics.

## Main definitions

* `Subscription`, `Broadcast`, `LiveState`: subscriptions are numbered in the order in which they
  were made; the table holds the numbers of the registered ones.
* `LiveState.step`: one move of a handler, of an ingest or of a delivery goroutine.
* `LiveState.CutsOffFirst`: a queue that was found full gets nothing more.

## Main results

* `LiveState.noGaps_of_cutsOffFirst`: the events that are placed in a queue are a prefix of the broadcasts
  that reach the subscription, and no message is sent on a closed queue.
-/

namespace Thalweg

/-- The version of the local protocol. -/
def currentLocalProtocolVersion : Int := 1

/-- The most events that wait for a subscriber. -/
def subscriptionQueueSize : Nat := 128

/-- The message of an event for a subscription. -/
structure StreamMessage where
  type : Text
  protocolVersion : Int
  subscriptionID : Text
  event : ThalwegEvent
  deriving DecidableEq

/-- Where the goroutine of a subscription is. -/
inductive Delivery where
  /-- It waits for a message of the queue. -/
  | receiving
  | encoding (message : StreamMessage)
  /-- The message could not be encoded. -/
  | failed
  | ended
  deriving DecidableEq

/-- A subscription with its queue. What happened to it is kept beside it: the events that were taken
out of its queue, those that were placed in it, and those of the broadcasts that have reached it. -/
structure Subscription where
  id : Text
  network : Text
  streams : List Text
  client : Nat
  queue : List StreamMessage
  closed : Bool
  delivery : Delivery
  taken : List ThalwegEvent
  placed : List ThalwegEvent
  reached : List ThalwegEvent
  deriving DecidableEq

/-- The subscription is for events of that network and stream. -/
def Subscription.Wants (sub : Subscription) (event : ThalwegEvent) : Prop :=
  sub.network = event.network ∧ (sub.streams = [] ∨ event.stream ∈ sub.streams)

instance (sub : Subscription) (event : ThalwegEvent) : Decidable (sub.Wants event) := by
  unfold Subscription.Wants
  infer_instance

/-- The message for an event of a subscription. -/
def Subscription.message (sub : Subscription) (event : ThalwegEvent) : StreamMessage :=
  ⟨"event".toList, currentLocalProtocolVersion, sub.id, event⟩

/-- The event reaches the subscription and is placed in its queue. -/
def Subscription.place (sub : Subscription) (event : ThalwegEvent) : Subscription :=
  { sub with
    queue := sub.queue ++ [sub.message event]
    placed := sub.placed ++ [event]
    reached := sub.reached ++ [event] }

/-- The event reaches the subscription and its queue is full. -/
def Subscription.miss (sub : Subscription) (event : ThalwegEvent) : Subscription :=
  { sub with reached := sub.reached ++ [event] }

/-- No event has reached the subscription. -/
def Subscription.Unreached (sub : Subscription) : Prop :=
  sub.taken ++ sub.queue.map StreamMessage.event = [] ∧ sub.placed = [] ∧ sub.reached = []

/-- A subscription for the same events, which the same ones have reached. -/
structure Subscription.Alike (sub sub' : Subscription) : Prop where
  network : sub'.network = sub.network
  streams : sub'.streams = sub.streams
  placed : sub'.placed = sub.placed
  reached : sub'.reached = sub.reached
  taken : sub'.taken ++ sub'.queue.map StreamMessage.event =
    sub.taken ++ sub.queue.map StreamMessage.event

theorem Subscription.alike_refl (sub : Subscription) : sub.Alike sub := ⟨rfl, rfl, rfl, rfl, rfl⟩

theorem Subscription.Alike.trans {sub sub' sub'' : Subscription} (h : sub.Alike sub')
    (h' : sub'.Alike sub'') : sub.Alike sub'' :=
  ⟨h'.network.trans h.network, h'.streams.trans h.streams, h'.placed.trans h.placed,
    h'.reached.trans h.reached, h'.taken.trans h.taken⟩

theorem Subscription.Unreached.of_alike {sub sub' : Subscription} (h : sub.Unreached)
    (halike : sub.Alike sub') : sub'.Unreached :=
  ⟨halike.taken.trans h.1, halike.placed.trans h.2.1, halike.reached.trans h.2.2⟩

theorem Subscription.Alike.wants_iff {sub sub' : Subscription} (h : sub.Alike sub')
    (event : ThalwegEvent) : sub'.Wants event ↔ sub.Wants event := by
  rw [Subscription.Wants, Subscription.Wants, h.network, h.streams]

/-- Where a broadcast is. -/
inductive BroadcastPhase where
  /-- The event is committed. -/
  | committed
  /-- It holds the read lock and has these subscriptions left. -/
  | visiting (rest : List Nat)
  /-- It removes the subscriptions that have overflowed. -/
  | cuttingOff
  deriving DecidableEq

/-- The broadcast of an event. The subscriptions that were registered when it took the lock are kept
beside it. -/
structure Broadcast where
  event : ThalwegEvent
  isLocal : Bool
  phase : BroadcastPhase
  overflowed : List Nat
  entered : List Nat
  deriving DecidableEq

/-- The broadcast holds the read lock. -/
def Broadcast.isVisiting (b : Broadcast) : Bool :=
  match b.phase with
  | .visiting _ => true
  | _ => false

/-- The subscriptions that the broadcast has left. -/
def Broadcast.rest (b : Broadcast) : List Nat :=
  match b.phase with
  | .visiting rest => rest
  | _ => []

/-- The subscriptions of a daemon and the broadcasts under way. -/
structure LiveState where
  all : List Subscription
  registered : List Nat
  broadcasts : List Broadcast
  panicked : Bool
  deriving DecidableEq

namespace LiveState

def initial : LiveState := ⟨[], [], [], false⟩

/-- Some broadcast holds the read lock. -/
def reading (s : LiveState) : Bool := s.broadcasts.any Broadcast.isVisiting

/-- Some local ingest holds the ingest lock. -/
def ingesting (s : LiveState) : Bool := s.broadcasts.any Broadcast.isLocal

/-- The subscription has the ID. -/
def hasID (s : LiveState) (id : Text) (i : Nat) : Bool :=
  s.all[i]?.any fun sub => decide (sub.id = id)

/-- Change a subscription. -/
def modify (s : LiveState) (i : Nat) (f : Subscription → Subscription) : LiveState :=
  { s with all := s.all.modify i f }

/-- Change a broadcast. -/
def setBroadcast (s : LiveState) (k : Nat) (b : Broadcast) : LiveState :=
  { s with broadcasts := s.broadcasts.set k b }

/-- Close the queue of a subscription. -/
def close (s : LiveState) (i : Nat) : LiveState :=
  { s with
    all := s.all.modify i fun sub => { sub with closed := true }
    panicked := s.panicked || s.all[i]?.any Subscription.closed }

/-- Take a subscription out of the table and close its queue. -/
def drop (s : LiveState) (i : Nat) : LiveState :=
  { s.close i with registered := s.registered.filter (· ≠ i) }

/-- Remove the subscription that is registered under an ID, if it is the expected one. -/
def removeSubscription (s : LiveState) (id : Text) (expected : Option Nat) : LiveState :=
  match s.registered.find? (s.hasID id) with
  | none => s
  | some i => if expected.any (· ≠ i) then s else s.drop i

/-- Remove the subscriptions of a client. -/
def removeClientSubscriptions (s : LiveState) (client : Nat) : LiveState :=
  (s.registered.filter fun i => s.all[i]?.any fun sub => decide (sub.client = client)).foldl drop s

/-- Register a new subscription under an ID, which it takes over if it is in use. -/
def register (s : LiveState) (id network : Text) (streams : List Text) (client : Nat) : LiveState :=
  { s with
    all := s.all ++ [⟨id, network, streams, client, [], false, .receiving, [], [], []⟩]
    registered := s.registered.filter (fun i => !s.hasID id i) ++ [s.all.length] }

/-- Offer the event of a broadcast to a subscription: a full queue does not take it. -/
def offer (s : LiveState) (k : Nat) (b : Broadcast) (i : Nat) (sub : Subscription) : LiveState :=
  if sub.Wants b.event then
    if sub.closed then { s with panicked := true }
    else if sub.queue.length < subscriptionQueueSize then s.modify i (·.place b.event)
    else
      (s.modify i (·.miss b.event)).setBroadcast k { b with overflowed := b.overflowed ++ [i] }
  else s

end LiveState

/-- A move of a broadcast. -/
inductive BroadcastMove where
  /-- It takes the read lock and goes through the table in this order. -/
  | enter (order : List Nat)
  | visit
  | leave
  /-- It removes the next subscription that has overflowed. -/
  | cutOff
  | finish

/-- A move of the goroutine of a subscription. -/
inductive DeliveryMove where
  /-- It takes the next message, or ends since the queue is closed. -/
  | receive
  | encoded (ok : Bool)
  /-- It removes its subscription. -/
  | abandon

/-- What happens next: a request of a client, the commit of an ingest (a local one keeps the ingest
lock), or a move of a broadcast or of a delivery goroutine. -/
inductive LiveAction where
  | register (id network : Text) (streams : List Text) (client : Nat)
  | unregister (id : Text)
  | disconnect (client : Nat)
  | commit (event : ThalwegEvent) (isLocal : Bool)
  | broadcast (k : Nat) (move : BroadcastMove)
  | deliver (i : Nat) (move : DeliveryMove)

namespace LiveState

/-- A broadcast moves. -/
def stepBroadcast (s : LiveState) (k : Nat) (b : Broadcast) : BroadcastMove → Option LiveState
  | .enter order =>
    if b.phase = .committed ∧ order.Perm s.registered then
      some (s.setBroadcast k { b with phase := .visiting order, entered := order })
    else none
  | .visit =>
    match b.phase with
    | .visiting (i :: rest) =>
      let b := { b with phase := .visiting rest }
      s.all[i]?.map ((s.setBroadcast k b).offer k b i)
    | _ => none
  | .leave =>
    if b.phase = .visiting [] then some (s.setBroadcast k { b with phase := .cuttingOff }) else none
  | .cutOff =>
    match b.phase, b.overflowed with
    | .cuttingOff, i :: overflowed =>
      if s.reading then none
      else
        s.all[i]?.map fun sub =>
          (s.removeSubscription sub.id (some i)).setBroadcast k { b with overflowed }
    | _, _ => none
  | .finish =>
    if b.phase = .cuttingOff ∧ b.overflowed = [] then
      some { s with broadcasts := s.broadcasts.eraseIdx k }
    else none

/-- A delivery goroutine moves. -/
def stepDelivery (s : LiveState) (i : Nat) (sub : Subscription) : DeliveryMove → Option LiveState
  | .receive =>
    match sub.delivery, sub.queue with
    | .receiving, message :: queue => some (s.modify i fun sub =>
        { sub with queue, delivery := .encoding message, taken := sub.taken ++ [message.event] })
    | .receiving, [] =>
      if sub.closed then some (s.modify i fun sub => { sub with delivery := .ended }) else none
    | _, _ => none
  | .encoded ok =>
    match sub.delivery with
    | .encoding _ => some (s.modify i fun sub =>
        { sub with delivery := if ok then .receiving else .failed })
    | _ => none
  | .abandon =>
    if sub.delivery = .failed ∧ s.reading = false then
      some ((s.removeSubscription sub.id (some i)).modify i fun sub =>
        { sub with delivery := .ended })
    else none

/-- One move. The write lock is taken only while no broadcast holds the read lock, and a commit
happens only while no local ingest holds the ingest lock. -/
def step (s : LiveState) : LiveAction → Option LiveState
  | .register id network streams client =>
    if network = [] ∨ s.reading then none else some (s.register id network streams client)
  | .unregister id => if s.reading then none else some (s.removeSubscription id none)
  | .disconnect client => if s.reading then none else some (s.removeClientSubscriptions client)
  | .commit event isLocal =>
    if s.ingesting then none
    else some { s with broadcasts := s.broadcasts ++ [⟨event, isLocal, .committed, [], []⟩] }
  | .broadcast k move => s.broadcasts[k]?.bind fun b => s.stepBroadcast k b move
  | .deliver i move => s.all[i]?.bind fun sub => s.stepDelivery i sub move

/-! ### The table and its lock -/

/-- The registered subscriptions are open and have different IDs, the broadcasts that hold the read
lock go through registered ones, and nothing was sent on a closed queue. -/
structure Sound (s : LiveState) : Prop where
  nodup : s.registered.Nodup
  opened : ∀ i ∈ s.registered, ∃ sub, s.all[i]? = some sub ∧ sub.closed = false
  unique : ∀ i ∈ s.registered, ∀ j ∈ s.registered, ∀ id, s.hasID id i = true →
    s.hasID id j = true → i = j
  rest : ∀ b ∈ s.broadcasts, ∀ i ∈ b.rest, i ∈ s.registered
  entered : ∀ b ∈ s.broadcasts, ∀ i ∈ b.entered, i < s.all.length
  calm : s.panicked = false

theorem hasID_eq_true_iff {s : LiveState} {id : Text} {i : Nat} :
    s.hasID id i = true ↔ ∃ sub, s.all[i]? = some sub ∧ sub.id = id := by
  simp [hasID, Option.any_eq_true]

theorem getElem?_modify_all (s : LiveState) (i j : Nat) (f : Subscription → Subscription) :
    (s.modify i f).all[j]? = s.all[j]?.map fun sub => if i = j then f sub else sub := by
  simp only [modify, List.getElem?_modify]
  split_ifs <;> simp

theorem rest_eq_nil_of_not_reading {s : LiveState} (h : s.reading = false) {b : Broadcast}
    (hb : b ∈ s.broadcasts) : b.rest = [] := by
  have hidle := List.any_eq_false.mp h b hb
  unfold Broadcast.isVisiting at hidle
  unfold Broadcast.rest
  split at hidle <;> simp_all

/-- A change that leaves the ID of a subscription and whether it is closed keeps the table sound. -/
theorem Sound.modify {s : LiveState} (h : s.Sound) (i : Nat) {f : Subscription → Subscription}
    (hf : ∀ sub, (f sub).id = sub.id ∧ (f sub).closed = sub.closed) : (s.modify i f).Sound := by
  have hid : ∀ id j, (s.modify i f).hasID id j = s.hasID id j := by
    intro id j
    simp only [hasID, getElem?_modify_all, Option.any_map]
    congr 1
    funext sub
    by_cases heq : i = j <;> simp [heq, (hf sub).1]
  refine ⟨h.nodup, fun j hj => ?_, fun j hj k hk id => ?_, h.rest, fun b hb j hj => ?_, h.calm⟩
  · obtain ⟨sub, hsub, hopen⟩ := h.opened j hj
    refine ⟨_, by rw [getElem?_modify_all, hsub]; rfl, ?_⟩
    split_ifs <;> simp [hopen, (hf sub).2]
  · rw [hid, hid]
    exact h.unique j hj k hk id
  · rw [LiveState.modify, List.length_modify]
    exact h.entered b hb j hj

/-- Dropping a registered subscription keeps the table sound, under the write lock. -/
theorem Sound.drop {s : LiveState} (h : s.Sound) (hreading : s.reading = false) {i : Nat}
    (hi : i ∈ s.registered) : (s.drop i).Sound := by
  obtain ⟨dropped, hdropped, hopen⟩ := h.opened i hi
  have hid : ∀ id j, (s.drop i).hasID id j = s.hasID id j := by
    intro id j
    simp only [hasID, LiveState.drop, LiveState.close, List.getElem?_modify]
    split_ifs <;> simp [Option.any_map]
  have hmem : ∀ j ∈ (s.drop i).registered, j ∈ s.registered ∧ j ≠ i := by
    intro j hj
    simpa [LiveState.drop] using hj
  refine ⟨h.nodup.filter _, fun j hj => ?_, fun j hj k hk id => ?_, fun b hb j hj => ?_,
    fun b hb j hj => ?_, ?_⟩
  · obtain ⟨sub, hsub, hsubopen⟩ := h.opened j (hmem j hj).1
    refine ⟨sub, ?_, hsubopen⟩
    simp only [LiveState.drop, LiveState.close]
    rw [List.getElem?_modify_ne _ _ (hmem j hj).2.symm, hsub]
  · rw [hid, hid]
    exact h.unique j (hmem j hj).1 k (hmem k hk).1 id
  · rw [rest_eq_nil_of_not_reading hreading hb] at hj
    cases hj
  · simpa [LiveState.drop, LiveState.close] using h.entered b hb j hj
  · simp [LiveState.drop, LiveState.close, h.calm, hdropped, hopen]

/-- Removing finds a registered subscription to drop, or nothing. -/
theorem removeSubscription_cases (s : LiveState) (id : Text) (expected : Option Nat) :
    s.removeSubscription id expected = s ∨
      ∃ i ∈ s.registered, s.removeSubscription id expected = s.drop i := by
  unfold removeSubscription
  split
  · exact Or.inl rfl
  · next i hi =>
    split_ifs
    · exact Or.inl rfl
    · exact Or.inr ⟨i, List.mem_of_find?_eq_some hi, rfl⟩

theorem length_all_drop (s : LiveState) (i : Nat) : (s.drop i).all.length = s.all.length :=
  List.length_modify ..

theorem length_all_removeSubscription (s : LiveState) (id : Text) (expected : Option Nat) :
    (s.removeSubscription id expected).all.length = s.all.length := by
  rcases removeSubscription_cases s id expected with heq | ⟨i, -, heq⟩
  · rw [heq]
  · rw [heq, length_all_drop]

theorem Sound.removeSubscription {s : LiveState} (h : s.Sound) (hreading : s.reading = false)
    (id : Text) (expected : Option Nat) : (s.removeSubscription id expected).Sound := by
  rcases removeSubscription_cases s id expected with heq | ⟨i, hi, heq⟩
  · rwa [heq]
  · rw [heq]
    exact h.drop hreading hi

/-- A subscription that is removed by its own ID is not registered any more. -/
theorem Sound.notMem_removeSubscription {s : LiveState} (h : s.Sound) {i : Nat} {sub : Subscription}
    (hsub : s.all[i]? = some sub) : i ∉ (s.removeSubscription sub.id (some i)).registered := by
  have hid : s.hasID sub.id i = true := hasID_eq_true_iff.mpr ⟨sub, hsub, rfl⟩
  unfold LiveState.removeSubscription
  split
  · next hnone =>
    intro hi
    exact absurd hid (List.find?_eq_none.mp hnone i hi)
  · next j hj =>
    split_ifs with hother
    · intro hi
      have hji := h.unique j (List.mem_of_find?_eq_some hj) i hi _ (List.find?_some hj) hid
      simp [hji] at hother
    · obtain rfl : i = j := by simpa using hother
      simp [LiveState.drop]

theorem Sound.foldl_drop {s : LiveState} (h : s.Sound) (hreading : s.reading = false)
    {dropped : List Nat} (hdropped : dropped.Nodup) (hmem : ∀ i ∈ dropped, i ∈ s.registered) :
    (dropped.foldl LiveState.drop s).Sound := by
  induction dropped generalizing s with
  | nil => exact h
  | cons i dropped ih =>
    obtain ⟨hi, hmem⟩ := List.forall_mem_cons.mp hmem
    obtain ⟨hnot, hdropped⟩ := List.nodup_cons.mp hdropped
    refine ih (h.drop hreading hi) hreading hdropped fun j hj => ?_
    have hne : j ≠ i := fun heq => hnot (heq ▸ hj)
    simpa [LiveState.drop, hne] using hmem j hj

theorem Sound.removeClientSubscriptions {s : LiveState} (h : s.Sound) (hreading : s.reading = false)
    (client : Nat) : (s.removeClientSubscriptions client).Sound :=
  h.foldl_drop hreading (h.nodup.filter _) fun _ hi => (List.mem_filter.mp hi).1

theorem Sound.setBroadcast {s : LiveState} (h : s.Sound) (k : Nat) {b : Broadcast}
    (hrest : ∀ i ∈ b.rest, i ∈ s.registered) (hentered : ∀ i ∈ b.entered, i < s.all.length) :
    (s.setBroadcast k b).Sound := by
  refine ⟨h.nodup, h.opened, h.unique, fun c hc => ?_, fun c hc => ?_, h.calm⟩
  · rcases List.mem_or_eq_of_mem_set hc with hc | rfl
    · exact h.rest c hc
    · exact hrest
  · rcases List.mem_or_eq_of_mem_set hc with hc | rfl
    · exact h.entered c hc
    · exact hentered

theorem Sound.register {s : LiveState} (h : s.Sound) (hreading : s.reading = false)
    (id network : Text) (streams : List Text) (client : Nat) :
    (s.register id network streams client).Sound := by
  have hlt : ∀ i ∈ s.registered, i < s.all.length := by
    intro i hi
    obtain ⟨sub, hsub, -⟩ := h.opened i hi
    exact (List.getElem?_eq_some_iff.mp hsub).1
  have hold : ∀ i < s.all.length, (s.register id network streams client).all[i]? = s.all[i]? :=
    fun i hi => List.getElem?_append_left hi
  have hnew : (s.register id network streams client).all[s.all.length]? =
      some ⟨id, network, streams, client, [], false, .receiving, [], [], []⟩ := by
    simp [LiveState.register]
  have hmem : ∀ i ∈ (s.register id network streams client).registered,
      i ∈ s.registered ∧ s.hasID id i = false ∨ i = s.all.length := by
    intro i hi
    simpa [LiveState.register] using hi
  have hidOld : ∀ i < s.all.length, ∀ id', (s.register id network streams client).hasID id' i =
      s.hasID id' i := fun i hi id' => by rw [hasID, hold i hi, hasID]
  have hidNew : ∀ id', (s.register id network streams client).hasID id' s.all.length = true →
      id' = id := by
    intro id' hid
    obtain ⟨sub, hsub, rfl⟩ := hasID_eq_true_iff.mp hid
    rw [hnew] at hsub
    rw [← Option.some.inj hsub]
  refine ⟨?_, fun i hi => ?_, fun i hi j hj id' => ?_, fun b hb i hi => ?_, fun b hb i hi => ?_,
    h.calm⟩
  · refine List.nodup_append.mpr ⟨h.nodup.filter _, List.nodup_singleton _, ?_⟩
    intro i hi j hj
    rw [List.mem_singleton.mp hj]
    exact (hlt i (List.mem_filter.mp hi).1).ne
  · rcases hmem i hi with ⟨hi, -⟩ | rfl
    · rw [hold i (hlt i hi)]
      exact h.opened i hi
    · exact ⟨_, hnew, rfl⟩
  · intro hidi hidj
    rcases hmem i hi with ⟨hi, hidi'⟩ | rfl
    · rw [hidOld i (hlt i hi)] at hidi
      rcases hmem j hj with ⟨hj, -⟩ | rfl
      · rw [hidOld j (hlt j hj)] at hidj
        exact h.unique i hi j hj id' hidi hidj
      · rw [hidNew id' hidj, hidi'] at hidi
        cases hidi
    · rcases hmem j hj with ⟨hj, hidj'⟩ | rfl
      · rw [hidOld j (hlt j hj), hidNew id' hidi, hidj'] at hidj
        cases hidj
      · rfl
  · rw [rest_eq_nil_of_not_reading hreading hb] at hi
    cases hi
  · have := h.entered b hb i hi
    simp only [LiveState.register, List.length_append]
    omega

/-- A broadcast that holds the read lock offers its event to a registered subscription. -/
theorem Sound.offer {s : LiveState} (h : s.Sound) (k : Nat) {b : Broadcast} {i : Nat}
    {sub : Subscription} (hi : i ∈ s.registered) (hsub : s.all[i]? = some sub)
    (hrest : ∀ j ∈ b.rest, j ∈ s.registered) (hentered : ∀ j ∈ b.entered, j < s.all.length) :
    (s.offer k b i sub).Sound := by
  obtain ⟨sub', hsub', hopen⟩ := h.opened i hi
  obtain rfl := Option.some.inj (hsub'.symm.trans hsub)
  unfold LiveState.offer
  split_ifs with hwants hclosed hroom
  · rw [hopen] at hclosed
    cases hclosed
  · exact h.modify i fun _ => ⟨rfl, rfl⟩
  · have hmodified : (s.modify i (·.miss b.event)).Sound := h.modify i fun _ => ⟨rfl, rfl⟩
    have hlength : (s.modify i (·.miss b.event)).all.length = s.all.length :=
      List.length_modify ..
    exact hmodified.setBroadcast k hrest fun j hj => hlength ▸ hentered j hj
  · exact h

theorem Sound.stepBroadcast {s s' : LiveState} (h : s.Sound) {k : Nat} {b : Broadcast}
    (hb : s.broadcasts[k]? = some b) {move : BroadcastMove}
    (hs : s.stepBroadcast k b move = some s') : s'.Sound := by
  have hmem := List.mem_of_getElem? hb
  cases move with
  | enter order =>
    simp only [LiveState.stepBroadcast, Option.ite_none_right_eq_some, Option.some.injEq] at hs
    obtain ⟨⟨-, hperm⟩, rfl⟩ := hs
    refine h.setBroadcast k (fun i hi => hperm.mem_iff.mp hi) fun i hi => ?_
    obtain ⟨sub, hsub, -⟩ := h.opened i (hperm.mem_iff.mp hi)
    exact (List.getElem?_eq_some_iff.mp hsub).1
  | visit =>
    simp only [LiveState.stepBroadcast] at hs
    split at hs
    · next i rest hphase =>
      obtain ⟨sub, hsub, rfl⟩ := Option.map_eq_some_iff.mp hs
      have hrest : ∀ j ∈ i :: rest, j ∈ s.registered := fun j hj =>
        h.rest b hmem j (by rwa [Broadcast.rest, hphase])
      obtain ⟨hi, hrest⟩ := List.forall_mem_cons.mp hrest
      have hset := h.setBroadcast k (b := { b with phase := .visiting rest }) hrest
        (h.entered b hmem)
      exact hset.offer k hi hsub hrest (h.entered b hmem)
    · cases hs
  | leave =>
    simp only [LiveState.stepBroadcast, Option.ite_none_right_eq_some, Option.some.injEq] at hs
    obtain ⟨-, rfl⟩ := hs
    exact h.setBroadcast k (by simp [Broadcast.rest]) (h.entered b hmem)
  | cutOff =>
    simp only [LiveState.stepBroadcast] at hs
    split at hs
    · next i overflowed hphase hoverflowed =>
      split_ifs at hs with hreading
      obtain ⟨sub, hsub, rfl⟩ := Option.map_eq_some_iff.mp hs
      rw [Bool.not_eq_true] at hreading
      have hremoved := h.removeSubscription hreading sub.id (some i)
      refine hremoved.setBroadcast k (by simp [Broadcast.rest, hphase]) fun j hj => ?_
      rw [length_all_removeSubscription]
      exact h.entered b hmem j hj
    · cases hs
  | finish =>
    simp only [LiveState.stepBroadcast, Option.ite_none_right_eq_some, Option.some.injEq] at hs
    obtain ⟨-, rfl⟩ := hs
    have hsub : ∀ c ∈ s.broadcasts.eraseIdx k, c ∈ s.broadcasts := fun c hc =>
      (List.eraseIdx_sublist ..).subset hc
    exact ⟨h.nodup, h.opened, h.unique, fun c hc => h.rest c (hsub c hc),
      fun c hc => h.entered c (hsub c hc), h.calm⟩

theorem Sound.stepDelivery {s s' : LiveState} (h : s.Sound) {i : Nat} {sub : Subscription}
    {move : DeliveryMove} (hs : s.stepDelivery i sub move = some s') : s'.Sound := by
  cases move with
  | receive =>
    simp only [LiveState.stepDelivery] at hs
    split at hs
    · cases hs
      exact h.modify i fun _ => ⟨rfl, rfl⟩
    · split_ifs at hs
      cases hs
      exact h.modify i fun _ => ⟨rfl, rfl⟩
    · cases hs
  | encoded ok =>
    simp only [LiveState.stepDelivery] at hs
    split at hs
    · cases hs
      exact h.modify i fun _ => ⟨rfl, rfl⟩
    · cases hs
  | abandon =>
    simp only [LiveState.stepDelivery, Option.ite_none_right_eq_some, Option.some.injEq] at hs
    obtain ⟨⟨-, hreading⟩, rfl⟩ := hs
    exact Sound.modify (h.removeSubscription hreading _ _) i fun _ => ⟨rfl, rfl⟩

theorem Sound.step {s s' : LiveState} (h : s.Sound) {a : LiveAction} (hs : s.step a = some s') :
    s'.Sound := by
  cases a with
  | register id network streams client =>
    simp only [LiveState.step, Option.ite_none_left_eq_some, Option.some.injEq, not_or,
      Bool.not_eq_true] at hs
    obtain ⟨⟨-, hreading⟩, rfl⟩ := hs
    exact h.register hreading id network streams client
  | unregister id =>
    simp only [LiveState.step, Option.ite_none_left_eq_some, Option.some.injEq,
      Bool.not_eq_true] at hs
    obtain ⟨hreading, rfl⟩ := hs
    exact h.removeSubscription hreading id none
  | disconnect client =>
    simp only [LiveState.step, Option.ite_none_left_eq_some, Option.some.injEq,
      Bool.not_eq_true] at hs
    obtain ⟨hreading, rfl⟩ := hs
    exact h.removeClientSubscriptions hreading client
  | commit event isLocal =>
    simp only [LiveState.step, Option.ite_none_left_eq_some, Option.some.injEq] at hs
    obtain ⟨-, rfl⟩ := hs
    refine ⟨h.nodup, h.opened, h.unique, fun b hb => ?_, fun b hb => ?_, h.calm⟩
    · rcases List.mem_append.mp hb with hb | hb
      · exact h.rest b hb
      · rw [List.mem_singleton.mp hb]
        simp [Broadcast.rest]
    · rcases List.mem_append.mp hb with hb | hb
      · exact h.entered b hb
      · rw [List.mem_singleton.mp hb]
        simp
  | broadcast k move =>
    obtain ⟨b, hb, hs⟩ := Option.bind_eq_some_iff.mp hs
    exact h.stepBroadcast hb hs
  | deliver i move =>
    obtain ⟨sub, -, hs⟩ := Option.bind_eq_some_iff.mp hs
    exact h.stepDelivery hs

/-! ### Moves that place nothing -/

/-- The subscription is removed, or a broadcast that has found it full is going to remove it. -/
def CutOff (s : LiveState) (i : Nat) : Prop :=
  i ∉ s.registered ∨ ∃ b ∈ s.broadcasts, i ∈ b.overflowed

/-- A move that places nothing in a queue and reaches no subscription. -/
structure Quiet (s s' : LiveState) : Prop where
  length : s.all.length ≤ s'.all.length
  made : ∀ i sub', s'.all[i]? = some sub' →
    s.all.length ≤ i ∧ sub'.Unreached ∨ ∃ sub, s.all[i]? = some sub ∧ sub.Alike sub'
  cutOff : ∀ i < s.all.length, s.CutOff i → s'.CutOff i
  broadcast : ∀ b' ∈ s'.broadcasts, (∀ i ∈ b'.entered, i ∈ b'.rest) ∨
    ∃ b ∈ s.broadcasts, b'.event = b.event ∧ b'.entered = b.entered ∧ b'.rest = b.rest

theorem Quiet.refl (s : LiveState) : Quiet s s where
  length := le_rfl
  made _ sub hsub := Or.inr ⟨sub, hsub, sub.alike_refl⟩
  cutOff _ _ h := h
  broadcast b hb := Or.inr ⟨b, hb, rfl, rfl, rfl⟩

theorem Quiet.trans {s s' s'' : LiveState} (h : Quiet s s') (h' : Quiet s' s'') : Quiet s s'' where
  length := h.length.trans h'.length
  made i sub'' hsub'' := by
    rcases h'.made i sub'' hsub'' with ⟨hi, hnew⟩ | ⟨sub', hsub', halike'⟩
    · exact Or.inl ⟨h.length.trans hi, hnew⟩
    · rcases h.made i sub' hsub' with ⟨hi, hnew⟩ | ⟨sub, hsub, halike⟩
      · exact Or.inl ⟨hi, hnew.of_alike halike'⟩
      · exact Or.inr ⟨sub, hsub, halike.trans halike'⟩
  cutOff i hi hcut := h'.cutOff i (hi.trans_le h.length) (h.cutOff i hi hcut)
  broadcast b'' hb'' := by
    rcases h'.broadcast b'' hb'' with hnew | ⟨b', hb', hevent', hentered', hrest'⟩
    · exact Or.inl hnew
    · rcases h.broadcast b' hb' with hnew | ⟨b, hb, hevent, hentered, hrest⟩
      · rw [← hentered', ← hrest'] at hnew
        exact Or.inl hnew
      · exact Or.inr ⟨b, hb, hevent'.trans hevent, hentered'.trans hentered, hrest'.trans hrest⟩

theorem quiet_modify (s : LiveState) (i : Nat) {f : Subscription → Subscription}
    (hf : ∀ sub, s.all[i]? = some sub → sub.Alike (f sub)) : Quiet s (s.modify i f) where
  length := (List.length_modify ..).ge
  made j sub' hsub' := by
    rw [getElem?_modify_all, Option.map_eq_some_iff] at hsub'
    obtain ⟨sub, hsub, rfl⟩ := hsub'
    refine Or.inr ⟨sub, hsub, ?_⟩
    split_ifs with hij
    · exact hf sub (hij ▸ hsub)
    · exact sub.alike_refl
  cutOff _ _ h := h
  broadcast b hb := Or.inr ⟨b, hb, rfl, rfl, rfl⟩

theorem quiet_drop (s : LiveState) (i : Nat) : Quiet s (s.drop i) where
  length := (length_all_drop s i).ge
  made j sub' hsub' :=
    (quiet_modify s i (f := fun sub => { sub with closed := true })
      fun _ _ => ⟨rfl, rfl, rfl, rfl, rfl⟩).made j sub' hsub'
  cutOff j _ h := by
    rcases h with hj | hj
    · exact Or.inl fun hmem => hj (List.mem_filter.mp hmem).1
    · exact Or.inr hj
  broadcast b hb := Or.inr ⟨b, hb, rfl, rfl, rfl⟩

theorem quiet_removeSubscription (s : LiveState) (id : Text) (expected : Option Nat) :
    Quiet s (s.removeSubscription id expected) := by
  rcases removeSubscription_cases s id expected with heq | ⟨i, -, heq⟩
  · rw [heq]
    exact Quiet.refl s
  · rw [heq]
    exact quiet_drop s i

theorem quiet_foldl_drop (s : LiveState) (dropped : List Nat) :
    Quiet s (dropped.foldl LiveState.drop s) := by
  induction dropped generalizing s with
  | nil => exact Quiet.refl s
  | cons i dropped ih => exact (quiet_drop s i).trans (ih _)

theorem quiet_register (s : LiveState) (id network : Text) (streams : List Text) (client : Nat) :
    Quiet s (s.register id network streams client) where
  length := by simp [LiveState.register]
  made i sub' hsub' := by
    rcases lt_or_ge i s.all.length with hi | hi
    · rw [LiveState.register, List.getElem?_append_left hi] at hsub'
      exact Or.inr ⟨sub', hsub', sub'.alike_refl⟩
    · rw [LiveState.register, List.getElem?_append_right hi] at hsub'
      have hsub' := List.mem_singleton.mp (List.mem_of_getElem? hsub')
      subst hsub'
      exact Or.inl ⟨hi, rfl, rfl, rfl⟩
  cutOff i hi h := by
    rcases h with hnot | hcut
    · refine Or.inl fun hmem => ?_
      rcases List.mem_append.mp hmem with hmem | hmem
      · exact hnot (List.mem_filter.mp hmem).1
      · exact hi.ne (List.mem_singleton.mp hmem)
    · exact Or.inr hcut
  broadcast b hb := Or.inr ⟨b, hb, rfl, rfl, rfl⟩

/-- A broadcast changes and keeps those that it is going to remove. -/
theorem CutOff.setBroadcast {s : LiveState} {i : Nat} (h : s.CutOff i) {k : Nat} {b b' : Broadcast}
    (hb : s.broadcasts[k]? = some b)
    (hcut : ∀ i ∈ b.overflowed, i ∈ b'.overflowed ∨ i ∉ s.registered) :
    (s.setBroadcast k b').CutOff i := by
  obtain ⟨hk, hbk⟩ := List.getElem?_eq_some_iff.mp hb
  rcases h with hnot | ⟨c, hc, hi⟩
  · exact Or.inl hnot
  · obtain ⟨j, hj, rfl⟩ := List.mem_iff_getElem.mp hc
    by_cases hjk : j = k
    · subst hjk
      rw [hbk] at hi
      rcases hcut i hi with hi | hnot
      · exact Or.inr ⟨b', List.mem_set hk b', hi⟩
      · exact Or.inl hnot
    · refine Or.inr ⟨s.broadcasts[j], ?_, hi⟩
      exact List.mem_of_getElem? ((List.getElem?_set_ne (Ne.symm hjk)).trans
        (List.getElem?_eq_getElem hj))

theorem quiet_setBroadcast {s : LiveState} {k : Nat} {b b' : Broadcast}
    (hb : s.broadcasts[k]? = some b)
    (hcut : ∀ i ∈ b.overflowed, i ∈ b'.overflowed ∨ i ∉ s.registered)
    (hb' : (∀ i ∈ b'.entered, i ∈ b'.rest) ∨
      b'.event = b.event ∧ b'.entered = b.entered ∧ b'.rest = b.rest) :
    Quiet s (s.setBroadcast k b') where
  length := le_rfl
  made _ sub hsub := Or.inr ⟨sub, hsub, sub.alike_refl⟩
  cutOff _ _ h := h.setBroadcast hb hcut
  broadcast c hc := by
    rcases List.mem_or_eq_of_mem_set hc with hc | rfl
    · exact Or.inr ⟨c, hc, rfl, rfl, rfl⟩
    · exact hb'.imp_right fun h => ⟨b, List.mem_of_getElem? hb, h⟩

theorem broadcasts_removeSubscription (s : LiveState) (id : Text) (expected : Option Nat) :
    (s.removeSubscription id expected).broadcasts = s.broadcasts := by
  rcases removeSubscription_cases s id expected with heq | ⟨i, -, heq⟩
  · rw [heq]
  · rw [heq]
    rfl

/-- A broadcast that has nothing to remove ends. -/
theorem quiet_eraseIdx {s : LiveState} {k : Nat} {b : Broadcast} (hb : s.broadcasts[k]? = some b)
    (hoverflowed : b.overflowed = []) :
    Quiet s { s with broadcasts := s.broadcasts.eraseIdx k } where
  length := le_rfl
  made _ sub hsub := Or.inr ⟨sub, hsub, sub.alike_refl⟩
  cutOff i _ h := by
    rcases h with hnot | ⟨c, hc, hi⟩
    · exact Or.inl hnot
    · refine Or.inr ⟨c, ?_, hi⟩
      obtain ⟨j, hj, rfl⟩ := List.mem_iff_getElem.mp hc
      refine List.mem_eraseIdx_iff_getElem.mpr ⟨j, hj, ?_, rfl⟩
      rintro rfl
      obtain ⟨hk, rfl⟩ := List.getElem?_eq_some_iff.mp hb
      rw [hoverflowed] at hi
      cases hi
  broadcast c hc := Or.inr ⟨c, (List.eraseIdx_sublist ..).subset hc, rfl, rfl, rfl⟩

theorem quiet_commit (s : LiveState) (event : ThalwegEvent) (isLocal : Bool) :
    Quiet s { s with broadcasts := s.broadcasts ++ [⟨event, isLocal, .committed, [], []⟩] } where
  length := le_rfl
  made _ sub hsub := Or.inr ⟨sub, hsub, sub.alike_refl⟩
  cutOff _ _ h := h.imp_right fun ⟨c, hc, hi⟩ => ⟨c, List.mem_append_left _ hc, hi⟩
  broadcast c hc := by
    rcases List.mem_append.mp hc with hc | hc
    · exact Or.inr ⟨c, hc, rfl, rfl, rfl⟩
    · obtain rfl := List.mem_singleton.mp hc
      exact Or.inl fun _ hi => hi

/-! ### Gaps -/

/-- What is placed in a queue is what was taken out of it and what is in it. It is what has reached
the subscription, up to an overflow after which the subscription is removed. Every broadcast reaches
the subscriptions that want its event. -/
structure Gapless (s : LiveState) : Prop where
  taken : ∀ (i : Nat) (sub : Subscription), s.all[i]? = some sub →
    sub.placed = sub.taken ++ sub.queue.map StreamMessage.event
  placed : ∀ (i : Nat) (sub : Subscription), s.all[i]? = some sub →
    sub.placed = sub.reached ∨ sub.placed <+: sub.reached ∧ s.CutOff i
  reached : ∀ b ∈ s.broadcasts, ∀ i ∈ b.entered, ∀ sub, s.all[i]? = some sub → sub.Wants b.event →
    i ∈ b.rest ∨ b.event ∈ sub.reached

theorem Gapless.quiet {s s' : LiveState} (hsound : s.Sound) (h : s.Gapless) (hquiet : Quiet s s') :
    s'.Gapless where
  taken i sub' hsub' := by
    rcases hquiet.made i sub' hsub' with ⟨-, htaken, hplaced, -⟩ | ⟨sub, hsub, halike⟩
    · rw [htaken, hplaced]
    · rw [halike.placed, halike.taken]
      exact h.taken i sub hsub
  placed i sub' hsub' := by
    rcases hquiet.made i sub' hsub' with ⟨-, -, hplaced, hreached⟩ | ⟨sub, hsub, halike⟩
    · exact Or.inl (hplaced.trans hreached.symm)
    · rw [halike.placed, halike.reached]
      exact (h.placed i sub hsub).imp_right fun ⟨hbegins, hcut⟩ =>
        ⟨hbegins, hquiet.cutOff i (List.getElem?_eq_some_iff.mp hsub).1 hcut⟩
  reached b' hb' i hi sub' hsub' hwants := by
    rcases hquiet.broadcast b' hb' with hnew | ⟨b, hb, hevent, hentered, hrest⟩
    · exact Or.inl (hnew i hi)
    · rw [hentered] at hi
      rcases hquiet.made i sub' hsub' with ⟨hlen, -⟩ | ⟨sub, hsub, halike⟩
      · exact absurd (hsound.entered b hb i hi) hlen.not_gt
      · rw [hrest, hevent, halike.reached]
        rw [hevent, halike.wants_iff] at hwants
        exact h.reached b hb i hi sub hsub hwants

/-- A broadcast goes on to its next subscription, which changes. -/
theorem Gapless.go_on {s : LiveState} (h : s.Gapless) {k : Nat} {b b' : Broadcast} {i : Nat}
    {rest : List Nat} (hb : s.broadcasts[k]? = some b) (hphase : b.phase = .visiting (i :: rest))
    (hb' : b'.event = b.event ∧ b'.entered = b.entered ∧ b'.rest = rest)
    (hcut : ∀ j ∈ b.overflowed, j ∈ b'.overflowed) {f : Subscription → Subscription}
    (hf : ∀ sub, (f sub).network = sub.network ∧ (f sub).streams = sub.streams ∧
      sub.reached ⊆ (f sub).reached)
    (hreached : ∀ sub, s.all[i]? = some sub → sub.Wants b.event → b.event ∈ (f sub).reached)
    (htaken : ∀ sub, s.all[i]? = some sub →
      (f sub).placed = (f sub).taken ++ (f sub).queue.map StreamMessage.event)
    (hplaced : ∀ sub, s.all[i]? = some sub → (f sub).placed = (f sub).reached ∨
      (f sub).placed <+: (f sub).reached ∧ (s.setBroadcast k b').CutOff i) :
    ((s.modify i f).setBroadcast k b').Gapless := by
  have hall : ∀ (j : Nat) sub', ((s.modify i f).setBroadcast k b').all[j]? = some sub' →
      ∃ sub, s.all[j]? = some sub ∧ sub' = if i = j then f sub else sub := by
    intro j sub' hsub'
    obtain ⟨sub, hsub, heq⟩ := Option.map_eq_some_iff.mp
      ((getElem?_modify_all s i j f).symm.trans hsub')
    exact ⟨sub, hsub, heq.symm⟩
  refine ⟨fun j sub' hsub' => ?_, fun j sub' hsub' => ?_, fun c hc j hj sub' hsub' hwants => ?_⟩
  · obtain ⟨sub, hsub, rfl⟩ := hall j sub' hsub'
    split_ifs with hij
    · exact htaken sub (hij ▸ hsub)
    · exact h.taken j sub hsub
  · obtain ⟨sub, hsub, rfl⟩ := hall j sub' hsub'
    split_ifs with hij
    · subst hij
      exact hplaced sub hsub
    · refine (h.placed j sub hsub).imp_right fun ⟨hbegins, hcutOff⟩ => ⟨hbegins, ?_⟩
      exact CutOff.setBroadcast (s := s) hcutOff hb fun i hi => Or.inl (hcut i hi)
  · obtain ⟨sub, hsub, rfl⟩ := hall j sub' hsub'
    replace hwants : sub.Wants c.event := by
      split_ifs at hwants
      · rwa [Subscription.Wants, (hf sub).1, (hf sub).2.1] at hwants
      · exact hwants
    have hgrows : sub.reached ⊆ (if i = j then f sub else sub).reached := by
      split_ifs
      · exact (hf sub).2.2
      · exact List.Subset.refl _
    rcases List.mem_or_eq_of_mem_set hc with hc | rfl
    · exact (h.reached c hc j hj sub hsub hwants).imp_right fun hmem => hgrows hmem
    · obtain ⟨hevent, hentered, hrest⟩ := hb'
      rw [hentered] at hj
      rw [hevent] at hwants ⊢
      rcases h.reached b (List.mem_of_getElem? hb) j hj sub hsub hwants with hleft | hmem
      · rw [Broadcast.rest, hphase] at hleft
        rcases List.mem_cons.mp hleft with rfl | hleft
        · rw [if_pos rfl]
          exact Or.inr (hreached sub hsub hwants)
        · exact Or.inl (hrest ▸ hleft)
      · exact Or.inr (hgrows hmem)

/-- A queue that a broadcast has found full takes no event before the subscription is removed. -/
def CutsOffFirst (s : LiveState) : LiveAction → Prop
  | .broadcast k .visit => ∀ b ∈ s.broadcasts[k]?, ∀ i ∈ b.rest.head?, ∀ sub ∈ s.all[i]?,
      sub.Wants b.event → sub.queue.length < subscriptionQueueSize →
        ∀ c ∈ s.broadcasts, i ∉ c.overflowed
  | _ => True

instance (s : LiveState) : (a : LiveAction) → Decidable (s.CutsOffFirst a)
  | .broadcast k .visit =>
    inferInstanceAs (Decidable (∀ b ∈ s.broadcasts[k]?, ∀ i ∈ b.rest.head?, ∀ sub ∈ s.all[i]?,
      sub.Wants b.event → sub.queue.length < subscriptionQueueSize →
        ∀ c ∈ s.broadcasts, i ∉ c.overflowed))
  | .broadcast _ (.enter _) => isTrue trivial
  | .broadcast _ .leave => isTrue trivial
  | .broadcast _ .cutOff => isTrue trivial
  | .broadcast _ .finish => isTrue trivial
  | .register .. => isTrue trivial
  | .unregister _ => isTrue trivial
  | .disconnect _ => isTrue trivial
  | .commit .. => isTrue trivial
  | .deliver .. => isTrue trivial

theorem Gapless.visit {s s' : LiveState} (hsound : s.Sound) (h : s.Gapless) {k : Nat}
    {b : Broadcast} (hb : s.broadcasts[k]? = some b) (hcondition : s.CutsOffFirst (.broadcast k .visit))
    (hs : s.stepBroadcast k b .visit = some s') : s'.Gapless := by
  have hmem := List.mem_of_getElem? hb
  simp only [LiveState.stepBroadcast] at hs
  split at hs
  · next i rest hphase =>
    obtain ⟨sub, hsub, rfl⟩ := Option.map_eq_some_iff.mp hs
    have hi : i ∈ s.registered := hsound.rest b hmem i (by simp [Broadcast.rest, hphase])
    obtain ⟨sub', hsub', hopen⟩ := hsound.opened i hi
    obtain rfl := Option.some.inj (hsub'.symm.trans hsub)
    have hroom := hcondition b hb i (by simp [Broadcast.rest, hphase]) sub' hsub
    have hentry : ∀ sub, s.all[i]? = some sub → sub = sub' :=
      fun sub hsub => Option.some.inj (hsub.symm.trans hsub')
    unfold LiveState.offer
    split_ifs with hwants hclosed hlength
    · rw [hopen] at hclosed
      cases hclosed
    · -- no broadcast is going to remove it, so that nothing was lost before
      have hequal : sub'.placed = sub'.reached := by
        rcases h.placed i sub' hsub' with hequal | ⟨-, hnot | ⟨c, hc, hic⟩⟩
        · exact hequal
        · exact absurd hi hnot
        · exact absurd hic (hroom hwants hlength c hc)
      show ((s.modify i (·.place b.event)).setBroadcast k
        { b with phase := .visiting rest }).Gapless
      refine h.go_on hb hphase ?_ (fun _ hj => ?_) ?_ (fun sub _ _ => ?_)
        (fun sub hsub => ?_) fun sub hsub => ?_
      · exact ⟨rfl, rfl, rfl⟩
      · exact hj
      · exact fun sub => ⟨rfl, rfl, List.subset_append_left _ _⟩
      · simp [Subscription.place]
      · simp [Subscription.place, Subscription.message, h.taken i sub hsub]
      · obtain rfl := hentry sub hsub
        exact Or.inl (congrArg (· ++ [b.event]) hequal)
    · have hstate : ((s.setBroadcast k { b with phase := .visiting rest }).modify i
          (·.miss b.event)).setBroadcast k
            { b with phase := .visiting rest, overflowed := b.overflowed ++ [i] } =
          (s.modify i (·.miss b.event)).setBroadcast k
            { b with phase := .visiting rest, overflowed := b.overflowed ++ [i] } := by
        simp [LiveState.setBroadcast, LiveState.modify, List.set_set]
      rw [hstate]
      obtain ⟨hk, -⟩ := List.getElem?_eq_some_iff.mp hb
      refine h.go_on hb hphase ?_ (fun _ hj => ?_) ?_ (fun sub _ _ => ?_)
        (fun sub hsub => ?_) fun sub hsub => ?_
      · exact ⟨rfl, rfl, rfl⟩
      · exact List.mem_append_left _ hj
      · exact fun sub => ⟨rfl, rfl, List.subset_append_left _ _⟩
      · simp [Subscription.miss]
      · exact h.taken i sub hsub
      · have hbegins : sub.placed <+: sub.reached := by
          rcases h.placed i sub hsub with hequal | ⟨hbegins, -⟩
          · exact hequal ▸ List.prefix_rfl
          · exact hbegins
        refine Or.inr ⟨hbegins.trans (List.prefix_append _ _), Or.inr ⟨_, List.mem_set hk _, ?_⟩⟩
        simp
    · have hstate : s.setBroadcast k { b with phase := .visiting rest } =
          (s.modify i id).setBroadcast k { b with phase := .visiting rest } := by
        simp [LiveState.modify, LiveState.setBroadcast]
      rw [hstate]
      refine h.go_on hb hphase ?_ (fun _ hj => ?_) ?_ (fun sub hsub hwants' => ?_)
        (fun sub hsub => ?_) fun sub hsub => ?_
      · exact ⟨rfl, rfl, rfl⟩
      · exact hj
      · exact fun sub => ⟨rfl, rfl, List.Subset.refl _⟩
      · obtain rfl := hentry sub hsub
        exact absurd hwants' hwants
      · exact h.taken i sub hsub
      · refine (h.placed i sub hsub).imp_right fun ⟨hbegins, hcutOff⟩ => ⟨hbegins, ?_⟩
        exact hcutOff.setBroadcast hb fun i hi => Or.inl hi
  · cases hs

theorem Gapless.stepBroadcast {s s' : LiveState} (hsound : s.Sound) (h : s.Gapless) {k : Nat}
    {b : Broadcast} (hb : s.broadcasts[k]? = some b) {move : BroadcastMove}
    (hcondition : s.CutsOffFirst (.broadcast k move))
    (hs : s.stepBroadcast k b move = some s') : s'.Gapless := by
  cases move with
  | enter order =>
    simp only [LiveState.stepBroadcast, Option.ite_none_right_eq_some, Option.some.injEq] at hs
    obtain ⟨-, rfl⟩ := hs
    exact h.quiet hsound (quiet_setBroadcast hb (fun _ hi => Or.inl hi) (Or.inl fun _ hi => hi))
  | visit => exact h.visit hsound hb hcondition hs
  | leave =>
    simp only [LiveState.stepBroadcast, Option.ite_none_right_eq_some, Option.some.injEq] at hs
    obtain ⟨hphase, rfl⟩ := hs
    refine h.quiet hsound (quiet_setBroadcast hb (fun _ hi => Or.inl hi) (Or.inr ⟨rfl, rfl, ?_⟩))
    simp [Broadcast.rest, hphase]
  | cutOff =>
    simp only [LiveState.stepBroadcast] at hs
    split at hs
    · next i overflowed hphase hoverflowed =>
      split_ifs at hs with hreading
      obtain ⟨sub, hsub, rfl⟩ := Option.map_eq_some_iff.mp hs
      have hb' : (s.removeSubscription sub.id (some i)).broadcasts[k]? = some b := by
        rw [broadcasts_removeSubscription, hb]
      have hquiet : Quiet s ((s.removeSubscription sub.id (some i)).setBroadcast k
          { b with overflowed }) := by
        refine (quiet_removeSubscription s sub.id (some i)).trans (quiet_setBroadcast hb' ?_ ?_)
        · intro j hj
          rw [hoverflowed] at hj
          rcases List.mem_cons.mp hj with rfl | hj
          · exact Or.inr (hsound.notMem_removeSubscription hsub)
          · exact Or.inl hj
        · exact Or.inr ⟨rfl, rfl, rfl⟩
      exact h.quiet hsound hquiet
    · cases hs
  | finish =>
    simp only [LiveState.stepBroadcast, Option.ite_none_right_eq_some, Option.some.injEq] at hs
    obtain ⟨⟨-, hoverflowed⟩, rfl⟩ := hs
    exact h.quiet hsound (quiet_eraseIdx hb hoverflowed)

theorem Quiet.stepDelivery {s s' : LiveState} {i : Nat} {sub : Subscription}
    (hsub : s.all[i]? = some sub) {move : DeliveryMove}
    (hs : s.stepDelivery i sub move = some s') : Quiet s s' := by
  cases move with
  | receive =>
    simp only [LiveState.stepDelivery] at hs
    split at hs
    · next message queue _ hqueue =>
      cases hs
      refine quiet_modify s i fun sub' hsub' => ⟨rfl, rfl, rfl, rfl, ?_⟩
      obtain rfl := Option.some.inj (hsub.symm.trans hsub')
      simp [hqueue]
    · split_ifs at hs
      cases hs
      exact quiet_modify s i fun _ _ => ⟨rfl, rfl, rfl, rfl, rfl⟩
    · cases hs
  | encoded ok =>
    simp only [LiveState.stepDelivery] at hs
    split at hs
    · cases hs
      exact quiet_modify s i fun _ _ => ⟨rfl, rfl, rfl, rfl, rfl⟩
    · cases hs
  | abandon =>
    simp only [LiveState.stepDelivery, Option.ite_none_right_eq_some, Option.some.injEq] at hs
    obtain ⟨-, rfl⟩ := hs
    exact (quiet_removeSubscription s sub.id (some i)).trans
      (quiet_modify _ i fun _ _ => ⟨rfl, rfl, rfl, rfl, rfl⟩)

theorem Gapless.step {s s' : LiveState} (hsound : s.Sound) (h : s.Gapless) {a : LiveAction}
    (hcondition : s.CutsOffFirst a) (hs : s.step a = some s') : s'.Gapless := by
  cases a with
  | register id network streams client =>
    simp only [LiveState.step, Option.ite_none_left_eq_some, Option.some.injEq] at hs
    obtain ⟨-, rfl⟩ := hs
    exact h.quiet hsound (quiet_register s id network streams client)
  | unregister id =>
    simp only [LiveState.step, Option.ite_none_left_eq_some, Option.some.injEq] at hs
    obtain ⟨-, rfl⟩ := hs
    exact h.quiet hsound (quiet_removeSubscription s id none)
  | disconnect client =>
    simp only [LiveState.step, Option.ite_none_left_eq_some, Option.some.injEq] at hs
    obtain ⟨-, rfl⟩ := hs
    exact h.quiet hsound (quiet_foldl_drop s _)
  | commit event isLocal =>
    simp only [LiveState.step, Option.ite_none_left_eq_some, Option.some.injEq] at hs
    obtain ⟨-, rfl⟩ := hs
    exact h.quiet hsound (quiet_commit s event isLocal)
  | broadcast k move =>
    obtain ⟨b, hb, hs⟩ := Option.bind_eq_some_iff.mp hs
    exact h.stepBroadcast hsound hb hcondition hs
  | deliver i move =>
    obtain ⟨sub, hsub, hs⟩ := Option.bind_eq_some_iff.mp hs
    exact h.quiet hsound (Quiet.stepDelivery hsub hs)

/-! ### Runs -/

/-- The events that are placed in the queue of a subscription, which are those that were taken out
of it and those in it, are a prefix of the events that have reached the subscription. The event of a
broadcast that has let go of the lock has reached every subscription that wanted it and was
registered when the broadcast took the lock. Nothing was sent on a closed queue. -/
structure NoGaps (s : LiveState) : Prop where
  taken : ∀ sub ∈ s.all, sub.placed = sub.taken ++ sub.queue.map StreamMessage.event
  placed : ∀ sub ∈ s.all, sub.placed <+: sub.reached
  reached : ∀ b ∈ s.broadcasts, b.phase = .cuttingOff → ∀ i ∈ b.entered, ∀ sub ∈ s.all[i]?,
    sub.Wants b.event → b.event ∈ sub.reached
  calm : s.panicked = false

theorem sound_initial : Sound initial := by
  constructor <;> simp [initial]

theorem gapless_initial : Gapless initial := by
  constructor <;> simp [initial]

theorem Gapless.noGaps {s : LiveState} (hsound : s.Sound) (h : s.Gapless) : s.NoGaps where
  taken sub hsub := by
    obtain ⟨i, hi⟩ := List.mem_iff_getElem?.mp hsub
    exact h.taken i sub hi
  placed sub hsub := by
    obtain ⟨i, hi⟩ := List.mem_iff_getElem?.mp hsub
    rcases h.placed i sub hi with hequal | ⟨hbegins, -⟩
    · exact hequal ▸ List.prefix_rfl
    · exact hbegins
  reached b hb hphase i hi sub hsub hwants := by
    refine (h.reached b hb i hi sub hsub hwants).resolve_left fun hleft => ?_
    rw [Broadcast.rest, hphase] at hleft
    cases hleft
  calm := hsound.calm

/-- Nothing is ever sent on a closed queue, and no queue is closed twice. -/
theorem sound_of_run {actions : List LiveAction} {s : LiveState}
    (hrun : Machine.run step initial actions = some s) : s.Sound :=
  Machine.Reaches.invariant (fun _ _ _ h => h.step) sound_initial ⟨actions, hrun⟩

/-- **No gaps.** If no queue takes an event between being found full and being removed,
subscriptions have no gaps. -/
theorem noGaps_of_cutsOffFirst {actions : List LiveAction} {s : LiveState}
    (hmeets : Machine.Meets step CutsOffFirst initial actions)
    (hrun : Machine.run step initial actions = some s) : s.NoGaps := by
  have hstep : ∀ s a s', s.Sound ∧ s.Gapless → CutsOffFirst s a → s.step a = some s' →
      s'.Sound ∧ s'.Gapless := fun s a s' ⟨hsound, h⟩ hcondition hs =>
    ⟨hsound.step hs, h.step hsound hcondition hs⟩
  obtain ⟨hsound, h⟩ := Machine.run_invariant hstep ⟨sound_initial, gapless_initial⟩ hmeets hrun
  exact h.noGaps hsound

/-- The broadcast of an event, from its commit to its end, while nothing else happens. -/
def broadcastAlone (event : ThalwegEvent) : List LiveAction :=
  [.commit event false, .broadcast 0 (.enter [0]), .broadcast 0 .visit, .broadcast 0 .leave,
    .broadcast 0 .finish]

def homeEvent (n : Nat) : ThalwegEvent :=
  { ThalwegEvent.zero with
    id := List.replicate (n + 1) 'e', network := "home".toList, stream := "notes".toList }

/-- A subscription whose client takes nothing, until its queue is full. -/
def fillingRun : List LiveAction :=
  .register "sub".toList "home".toList [] 0 ::
    (List.range subscriptionQueueSize).flatMap fun n => broadcastAlone (homeEvent n)

/-- The broadcast that finds the queue full removes the subscription before the next one comes. -/
def cutOffRun : List LiveAction :=
  fillingRun ++ [.commit (homeEvent 128) false, .commit (homeEvent 129) false,
    .broadcast 0 (.enter [0]), .broadcast 0 .visit, .broadcast 0 .leave, .deliver 0 .receive,
    .broadcast 0 .cutOff, .broadcast 0 .finish, .broadcast 0 (.enter [])]

theorem noGaps_cutOffRun : ∃ s, Machine.run step initial cutOffRun = some s ∧ s.NoGaps := by
  have hsome : (Machine.run step initial cutOffRun).isSome = true := by decide +kernel
  have hmeets : Machine.Meets step CutsOffFirst initial cutOffRun := by decide +kernel
  obtain ⟨s, hs⟩ := Option.isSome_iff_exists.mp hsome
  exact ⟨s, hs, noGaps_of_cutsOffFirst hmeets hs⟩

/-- Two replicated ingests broadcast at the same time. The first one finds the queue full, a message
is taken out, and the second one places its event before the first one removes the subscription. -/
def skippingRun : List LiveAction :=
  fillingRun ++ [.commit (homeEvent 128) false, .commit (homeEvent 129) false,
    .broadcast 0 (.enter [0]), .broadcast 0 .visit, .broadcast 0 .leave, .deliver 0 .receive,
    .broadcast 1 (.enter [0]), .broadcast 1 .visit]

theorem not_noGaps_skippingRun :
    ∃ s, Machine.run step initial skippingRun = some s ∧ ∃ sub ∈ s.all,
      ¬ sub.placed <+: sub.reached := by
  have hgap : (Machine.run step initial skippingRun).any (fun s =>
      decide (∃ sub ∈ s.all, ¬ sub.placed <+: sub.reached)) = true := by decide +kernel
  obtain ⟨s, hs, hgap⟩ := Option.any_eq_true _ _ |>.mp hgap
  exact ⟨s, hs, of_decide_eq_true hgap⟩

end LiveState

end Thalweg
