import Thalweg.SdkPython.Client

/-!
# What the parts of a move leave unchanged

Events that are received, handlers that are registered and subscriptions that end leave the
connections and the pending requests as they are (`Quiet`). When all waiters fail, the futures of
the pending requests are done, and the subscriptions end (`Fails`). `Moves` says by its action what
a move does.
-/

namespace Thalweg.SdkPython

/-- A request that fails does not return data, unless it did so before. -/
theorem Request.future_of_fail {request : Request} {error : SdkError} {data : PyValue}
    (h : (request.fail error).future = some (.returned data)) :
    request.future = some (.returned data) := by
  cases hfuture : request.future with
  | none => simp [Request.fail, hfuture] at h
  | some outcome => simpa [Request.fail, hfuture] using h

theorem Request.fail_fail (error : SdkError) (request : Request) :
    (request.fail error).fail error = request.fail error := by
  cases hfuture : request.future <;> simp [Request.fail, hfuture]

theorem Subscription.fail_fail (error : SdkError) (subscription : Subscription) :
    (subscription.fail error).fail error = subscription.fail error := by
  by_cases hclosed : subscription.closed = true
  · simp [Subscription.fail, hclosed]
  · simp [Subscription.fail, hclosed, Subscription.finish]

namespace Client

@[simp] theorem connections_modifyConnection (c : Client) (k : Nat) (f : Connection → Connection) :
    (c.modifyConnection k f).connections = c.connections.modify k f := rfl

@[simp] theorem requests_modifyRequest (c : Client) (r : Nat) (f : Request → Request) :
    (c.modifyRequest r f).requests = c.requests.modify r f := rfl

/-- Only subscriptions and the tables of events change, and new tasks may give up subscriptions. -/
structure Quiet (c c' : Client) : Prop where
  connections : c'.connections = c.connections
  requests : ∃ new, c'.requests = c.requests ++ new ∧
    ∀ request ∈ new, ∃ action payload, request = Request.new action payload .discard
  writer : c'.writer = c.writer
  connectLock : c'.connectLock = c.connectLock
  writeLock : c'.writeLock = c.writeLock
  nextId : c'.nextId = c.nextId
  pending : c'.pending = c.pending
  closed : c'.closed = c.closed
  settled : c'.settled = c.settled

theorem Quiet.refl (c : Client) : Quiet c c :=
  ⟨rfl, ⟨[], (List.append_nil _).symm, List.forall_mem_nil _⟩, rfl, rfl, rfl, rfl, rfl, rfl, rfl⟩

theorem Quiet.trans {c c' c'' : Client} (h : Quiet c c') (h' : Quiet c' c'') : Quiet c c'' where
  connections := h'.connections.trans h.connections
  requests := by
    obtain ⟨new, hnew, hall⟩ := h.requests
    obtain ⟨more, hmore, hall'⟩ := h'.requests
    exact ⟨new ++ more, by rw [hmore, hnew, List.append_assoc],
      List.forall_mem_append.mpr ⟨hall, hall'⟩⟩
  writer := h'.writer.trans h.writer
  connectLock := h'.connectLock.trans h.connectLock
  writeLock := h'.writeLock.trans h.writeLock
  nextId := h'.nextId.trans h.nextId
  pending := h'.pending.trans h.pending
  closed := h'.closed.trans h.closed
  settled := h'.settled.trans h.settled

/-- Nothing else than subscriptions and the tables of events changes. -/
theorem quiet_of_eq {c : Client} (subscriptions : List Subscription)
    (eventHandlers : AList fun _ : Text => Nat) (orphanEvents : Text → List PyDict)
    (orphanOverflow ignoredSubscriptions : Finset Text) :
    Quiet c
      { c with
        subscriptions, eventHandlers, orphanEvents, orphanOverflow, ignoredSubscriptions } :=
  ⟨rfl, (Quiet.refl c).requests, rfl, rfl, rfl, rfl, rfl, rfl, rfl⟩

theorem quiet_modifySubscription (c : Client) (i : Nat) (f : Subscription → Subscription) :
    Quiet c (c.modifySubscription i f) := quiet_of_eq _ _ _ _ _

theorem quiet_unregisterEventHandler (c : Client) (id : Text) :
    Quiet c (c.unregisterEventHandler id) := quiet_of_eq _ _ _ _ _

theorem quiet_createTask_discard (c : Client) (action : Text) (payload : PyValue) :
    Quiet c (c.createTask action payload .discard) :=
  ⟨rfl, ⟨[_], rfl, List.forall_mem_singleton.mpr ⟨action, payload, rfl⟩⟩, rfl, rfl, rfl, rfl, rfl,
    rfl, rfl⟩

theorem quiet_receiveError (c : Client) (error : SdkError) (i : Nat) :
    Quiet c (c.receiveError error i) := quiet_modifySubscription _ _ _

theorem quiet_overflow (c : Client) (i : Nat) (subscription : Subscription) :
    Quiet c (c.overflow i subscription) := by
  refine Quiet.trans ?_ (quiet_modifySubscription _ _ _)
  cases subscription.subscriptionId with
  | none => exact .refl c
  | some id => exact (quiet_unregisterEventHandler c id).trans (quiet_createTask_discard _ _ _)

theorem quiet_receive (c : Client) (i : Nat) (item : PyDict) : Quiet c (c.receive i item) := by
  unfold receive
  split
  · exact .refl c
  · next subscription _ =>
    by_cases hclosed : subscription.closed = true
    · rw [if_pos hclosed]
      exact .refl c
    · rw [if_neg hclosed]
      cases eventFromData (.dict item) "subscription event".toList with
      | error message => exact quiet_receiveError _ _ _
      | ok event =>
        dsimp only
        split_ifs
        · exact quiet_modifySubscription _ _ _
        · exact quiet_overflow _ _ _

theorem quiet_foldl {α : Type*} {f : Client → α → Client} (h : ∀ c a, Quiet c (f c a))
    (items : List α) (c : Client) : Quiet c (items.foldl f c) := by
  induction items generalizing c with
  | nil => exact .refl c
  | cons a items ih => exact (h c a).trans (ih _)

theorem quiet_registerEventHandler (c : Client) (id : Text) (i : Nat) :
    Quiet c (c.registerEventHandler id i) := by
  have hinstalled : Quiet c (c.installEventHandler id i) := quiet_of_eq _ _ _ _ _
  have hreplayed := hinstalled.trans
    (quiet_foldl (fun c event => quiet_receive c i event) (c.orphanEvents id) _)
  unfold registerEventHandler
  dsimp only
  split_ifs
  · exact hreplayed.trans (quiet_receiveError _ _ _)
  · exact hreplayed

theorem quiet_register (c : Client) (i : Nat) (answered : Option Nat) (data : PyValue) :
    Quiet c (c.register i answered data) := by
  unfold register
  dsimp only
  split
  · exact .refl c
  · exact (quiet_modifySubscription _ _ _).trans (quiet_registerEventHandler _ _ _)

theorem quiet_dispatchEvent (env : Environment) (c : Client) (id : Text) (event : PyDict) :
    Quiet c (c.dispatchEvent env id event) := by
  unfold dispatchEvent
  split
  · exact quiet_receive _ _ _
  · split_ifs
    · exact .refl c
    · exact quiet_of_eq _ _ _ _ _
    · exact quiet_of_eq _ _ _ _ _

/-! ### Waiters that fail -/

/-- Elements of a list are changed one after the other, by a function that does nothing the second
time. -/
theorem getElem?_foldl_modify {α β : Type*} {f : α → α} (hf : ∀ a, f (f a) = f a) (g : β → Nat)
    (items : List β) (xs : List α) (r : Nat) :
    (items.foldl (fun xs b => xs.modify (g b) f) xs)[r]? =
      xs[r]?.map fun a => if ∃ b ∈ items, g b = r then f a else a := by
  induction items generalizing xs with
  | nil => simp
  | cons b items ih =>
    rw [List.foldl_cons, ih]
    by_cases hb : g b = r
    · subst hb
      rw [List.getElem?_modify_eq]
      cases xs[g b]? with
      | none => rfl
      | some a =>
        by_cases hmore : ∃ b' ∈ items, g b' = g b
        · simp [hmore, hf]
        · simp [hmore]
    · rw [List.getElem?_modify_ne _ _ hb]
      congr 1
      funext a
      by_cases hmore : ∃ b' ∈ items, g b' = r
      · simp [hmore]
      · simp [hb, hmore]

theorem foldl_failFuture_eq (entries : List (Sigma fun _ : Text => PendingRequest))
    (error : SdkError) (c : Client) :
    entries.foldl (fun c p => c.failFuture error p.2.request) c =
      { c with
        requests := entries.foldl (fun requests p =>
          requests.modify p.2.request fun request => request.fail error) c.requests } := by
  induction entries generalizing c with
  | nil => rfl
  | cons p entries ih =>
    rw [List.foldl_cons, ih]
    rfl

theorem foldl_receiveError_eq (handlers : List (Sigma fun _ : Text => Nat)) (error : SdkError)
    (c : Client) :
    handlers.foldl (fun c h => c.receiveError error h.2) c =
      { c with
        subscriptions := handlers.foldl (fun subscriptions h =>
          subscriptions.modify h.2 fun subscription => subscription.fail error)
          c.subscriptions } := by
  induction handlers generalizing c with
  | nil => rfl
  | cons h handlers ih =>
    rw [List.foldl_cons, ih]
    rfl

/-- All waiters fail: the futures of the pending requests are done, and the subscriptions that have
a handler end. -/
structure Fails (c c' : Client) (error : SdkError) : Prop where
  connections : c'.connections = c.connections
  requests : ∀ r : Nat, c'.requests[r]? = c.requests[r]?.map fun request =>
    if ∃ p ∈ c.pending.entries, p.2.request = r then request.fail error else request
  subscriptions : ∀ i : Nat, c'.subscriptions[i]? = c.subscriptions[i]?.map fun subscription =>
    if ∃ h ∈ c.eventHandlers.entries, h.2 = i then subscription.fail error else subscription
  writer : c'.writer = c.writer
  nextId : c'.nextId = c.nextId
  pending : c'.pending = ∅
  eventHandlers : c'.eventHandlers = ∅
  ignoredSubscriptions : c'.ignoredSubscriptions = ∅
  closed : c'.closed = c.closed
  settled : c'.settled = c.settled

theorem fails_failWaiters (c : Client) (error : SdkError) :
    Fails c (c.failWaiters error) error := by
  unfold failWaiters
  dsimp only
  rw [foldl_failFuture_eq]
  dsimp only
  rw [foldl_receiveError_eq]
  exact ⟨rfl, getElem?_foldl_modify (Request.fail_fail error) _ _ _,
    getElem?_foldl_modify (Subscription.fail_fail error) _ _ _, rfl, rfl, rfl, rfl, rfl, rfl, rfl⟩

/-- A request stays where it is when a connection is given up. -/
theorem exists_request_abort {c : Client} (error : SdkError) (k : Nat) {r : Nat} {request : Request}
    (hr : c.requests[r]? = some request) : ∃ request',
      (c.abortConnection error k).requests[r]? = some request' ∧ request'.id = request.id ∧
        request'.phase = request.phase ∧ request'.purpose = request.purpose := by
  unfold abortConnection
  split_ifs
  · rw [(fails_failWaiters _ error).requests]
    rw [show (modifyConnection { c with writer := none } k _).requests[r]? = some request from hr]
    exact ⟨_, rfl, by split_ifs <;> rfl, by split_ifs <;> rfl, by split_ifs <;> rfl⟩
  · exact ⟨request, hr, rfl, rfl, rfl⟩

/-! ### One move -/

/-- What a move does, by its action. -/
inductive Moves (env : Environment) (c : Client) : ClientAction → Client → Prop
  | request (action : Text) (payload : PyValue) :
      Moves env c (.request action payload) (c.createTask action payload .call)
  | subscribe (network : Text) (streams : List Text) {queueSize : Nat} (h : 0 < queueSize) :
      Moves env c (.subscribe network streams queueSize)
        { c with subscriptions := c.subscriptions ++ [.new network streams queueSize] }
  | close (h : c.closed = false) : Moves env c .close c.close
  | enter {i : Nat} {subscription : Subscription} (hi : c.subscriptions[i]? = some subscription)
      (hentered : subscription.entered = false) (hclosed : subscription.closed = false) :
      Moves env c (.enter i) (c.enter i subscription)
  | anext {i : Nat} {subscription : Subscription} (hi : c.subscriptions[i]? = some subscription) :
      Moves env c (.anext i) (c.modifySubscription i fun subscription =>
        { subscription with getters := subscription.getters + 1 })
  | getNext {i : Nat} {subscription : Subscription} {item : Item} {rest : List Item}
      (hi : c.subscriptions[i]? = some subscription) (hqueue : subscription.queue = item :: rest) :
      Moves env c (.getNext i)
        (c.modifySubscription i fun subscription => subscription.getNext item rest)
  | cancelNext {i : Nat} {subscription : Subscription}
      (hi : c.subscriptions[i]? = some subscription) :
      Moves env c (.cancelNext i) (c.modifySubscription i fun subscription =>
        { subscription with getters := subscription.getters - 1 })
  | aclose {i : Nat} {subscription : Subscription} (hi : c.subscriptions[i]? = some subscription)
      (hclosed : subscription.closed = false) :
      Moves env c (.aclose i) (c.aclose i subscription)
  | start {r : Nat} {request : Request} (hr : c.requests[r]? = some request)
      (hphase : request.phase = .created) : Moves env c (.start r) (c.start r request)
  | lockConnect {r : Nat} {request : Request} (hr : c.requests[r]? = some request)
      (hphase : request.phase = .connecting) (hlock : c.connectLock = none) :
      Moves env c (.lockConnect r) (c.lockConnect r request)
  | opened {r : Nat} {request : Request} (hr : c.requests[r]? = some request)
      (hphase : request.phase = .opening) : Moves env c (.opened r) (c.opened r)
  | openFailed {r : Nat} {request : Request} (message : Text) (hr : c.requests[r]? = some request)
      (hphase : request.phase = .opening) :
      Moves env c (.openFailed r message) (c.openFailed env r request message)
  | send {r : Nat} {request : Request} (hr : c.requests[r]? = some request)
      (hphase : request.phase = .connected) : Moves env c (.send r) (c.send env r request)
  | write {r : Nat} {request : Request} {encoded : List UInt8}
      (hr : c.requests[r]? = some request) (hphase : request.phase = .writing encoded) :
      Moves env c (.write r) (c.write r request encoded)
  | drained {r k : Nat} {request : Request} (hr : c.requests[r]? = some request)
      (hphase : request.phase = .draining k) :
      Moves env c (.drained r) (setPhase { c with writeLock := none } r .awaiting)
  | drainFailed {r k : Nat} {request : Request} (message : Text)
      (hr : c.requests[r]? = some request) (hphase : request.phase = .draining k) :
      Moves env c (.drainFailed r message) (c.drainFailed r k request message)
  | resume {r : Nat} {request : Request} {outcome : Outcome}
      (hr : c.requests[r]? = some request) (hphase : request.phase = .awaiting)
      (hfuture : request.future = some outcome) :
      Moves env c (.resume r) (c.settle r request outcome)
  | timeout {r : Nat} {request : Request} (hr : c.requests[r]? = some request)
      (hphase : request.phase = .awaiting) :
      Moves env c (.timeout r) (c.giveUp r request (.timeout request.action))
  | cancelEarly {r : Nat} {request : Request} (hr : c.requests[r]? = some request)
      (hphase : request.phase = .created ∨ request.phase = .connecting ∨
        request.phase = .connected) :
      Moves env c (.cancel r) (c.settle r request (.raised .cancelled))
  | cancelOpening {r : Nat} {request : Request} (hr : c.requests[r]? = some request)
      (hphase : request.phase = .opening) :
      Moves env c (.cancel r) (settle { c with connectLock := none } r request (.raised .cancelled))
  | cancelWriting {r : Nat} {request : Request} {encoded : List UInt8}
      (hr : c.requests[r]? = some request) (hphase : request.phase = .writing encoded) :
      Moves env c (.cancel r) (c.failWrite r request .cancelled)
  | cancelDraining {r k : Nat} {request : Request} (hr : c.requests[r]? = some request)
      (hphase : request.phase = .draining k) :
      Moves env c (.cancel r) (failWrite { c with writeLock := none } r request .cancelled)
  | cancelAwaiting {r : Nat} {request : Request} (hr : c.requests[r]? = some request)
      (hphase : request.phase = .awaiting) :
      Moves env c (.cancel r) (c.giveUp r request .cancelled)
  | read {k : Nat} {connection : Connection} (chunk : List UInt8)
      (hk : c.connections[k]? = some connection) (hreading : connection.reader = .reading) :
      Moves env c (.read k chunk) (c.read env k connection chunk)
  | endOfFile {k : Nat} {connection : Connection} (hk : c.connections[k]? = some connection)
      (hreading : connection.reader = .reading) :
      Moves env c (.endOfFile k)
        (c.endReader k (.connection "Thalweg daemon connection closed.".toList))
  | readFailed {k : Nat} {connection : Connection} (message : Text)
      (hk : c.connections[k]? = some connection) (hreading : connection.reader = .reading) :
      Moves env c (.readFailed k message) (c.endReader k (unforeseenError message))
  | lost {k : Nat} {connection : Connection} (hk : c.connections[k]? = some connection) :
      Moves env c (.lost k)
        (c.modifyConnection k fun connection => { connection with closing := true })

theorem moves_of_step {env : Environment} {c c' : Client} {a : ClientAction}
    (h : c.step env a = some c') : Moves env c a c' := by
  cases a with
  | request action payload =>
    obtain rfl := Option.some.inj h
    exact .request action payload
  | subscribe network streams queueSize =>
    simp only [step, Option.ite_none_left_eq_some, Option.some.injEq] at h
    obtain ⟨hsize, rfl⟩ := h
    exact .subscribe network streams (Nat.pos_of_ne_zero hsize)
  | close =>
    simp only [step, Option.ite_none_left_eq_some, Option.some.injEq, Bool.not_eq_true] at h
    obtain ⟨hclosed, rfl⟩ := h
    exact .close hclosed
  | enter i =>
    obtain ⟨subscription, hi, h⟩ := Option.bind_eq_some_iff.mp h
    simp only [stepSubscription, Option.ite_none_left_eq_some, Option.some.injEq, Bool.or_eq_true,
      not_or, Bool.not_eq_true] at h
    obtain ⟨⟨hentered, hclosed⟩, rfl⟩ := h
    exact .enter hi hentered hclosed
  | anext i =>
    obtain ⟨subscription, hi, h⟩ := Option.bind_eq_some_iff.mp h
    simp only [stepSubscription, Option.ite_none_left_eq_some, Option.some.injEq] at h
    obtain ⟨-, rfl⟩ := h
    exact .anext hi
  | aclose i =>
    obtain ⟨subscription, hi, h⟩ := Option.bind_eq_some_iff.mp h
    simp only [stepSubscription, Option.ite_none_left_eq_some, Option.some.injEq,
      Bool.not_eq_true] at h
    obtain ⟨hclosed, rfl⟩ := h
    exact .aclose hi hclosed
  | getNext i =>
    obtain ⟨subscription, hi, h⟩ := Option.bind_eq_some_iff.mp h
    simp only [stepSubscription] at h
    split at h
    · next hqueue =>
      obtain rfl := Option.some.inj h
      exact .getNext hi hqueue
    · cases h
  | cancelNext i =>
    obtain ⟨subscription, hi, h⟩ := Option.bind_eq_some_iff.mp h
    simp only [stepSubscription, Option.ite_none_left_eq_some, Option.some.injEq] at h
    obtain ⟨-, rfl⟩ := h
    exact .cancelNext hi
  | start r =>
    obtain ⟨request, hr, h⟩ := Option.bind_eq_some_iff.mp h
    simp only [stepRequest] at h
    split at h
    · next hphase => exact Option.some.inj h ▸ .start hr hphase
    · cases h
  | lockConnect r =>
    obtain ⟨request, hr, h⟩ := Option.bind_eq_some_iff.mp h
    simp only [stepRequest] at h
    split at h
    · next hphase hlock => exact Option.some.inj h ▸ .lockConnect hr hphase hlock
    · cases h
  | opened r =>
    obtain ⟨request, hr, h⟩ := Option.bind_eq_some_iff.mp h
    simp only [stepRequest] at h
    split at h
    · next hphase => exact Option.some.inj h ▸ .opened hr hphase
    · cases h
  | openFailed r message =>
    obtain ⟨request, hr, h⟩ := Option.bind_eq_some_iff.mp h
    simp only [stepRequest] at h
    split at h
    · next hphase => exact Option.some.inj h ▸ .openFailed message hr hphase
    · cases h
  | send r =>
    obtain ⟨request, hr, h⟩ := Option.bind_eq_some_iff.mp h
    simp only [stepRequest] at h
    split at h
    · next hphase => exact Option.some.inj h ▸ .send hr hphase
    · cases h
  | write r =>
    obtain ⟨request, hr, h⟩ := Option.bind_eq_some_iff.mp h
    simp only [stepRequest] at h
    split at h
    · next hphase _ => exact Option.some.inj h ▸ .write hr hphase
    · cases h
  | drained r =>
    obtain ⟨request, hr, h⟩ := Option.bind_eq_some_iff.mp h
    simp only [stepRequest] at h
    split at h
    · next hphase => exact Option.some.inj h ▸ .drained hr hphase
    · cases h
  | drainFailed r message =>
    obtain ⟨request, hr, h⟩ := Option.bind_eq_some_iff.mp h
    simp only [stepRequest] at h
    split at h
    · next hphase => exact Option.some.inj h ▸ .drainFailed message hr hphase
    · cases h
  | resume r =>
    obtain ⟨request, hr, h⟩ := Option.bind_eq_some_iff.mp h
    simp only [stepRequest] at h
    split at h
    · next hphase hfuture => exact Option.some.inj h ▸ .resume hr hphase hfuture
    · cases h
  | timeout r =>
    obtain ⟨request, hr, h⟩ := Option.bind_eq_some_iff.mp h
    simp only [stepRequest] at h
    split at h
    · next hphase => exact Option.some.inj h ▸ .timeout hr hphase
    · cases h
  | cancel r =>
    obtain ⟨request, hr, h⟩ := Option.bind_eq_some_iff.mp h
    simp only [stepRequest, Client.cancel] at h
    split at h
    · next hphase => exact Option.some.inj h ▸ .cancelEarly hr (Or.inl hphase)
    · next hphase => exact Option.some.inj h ▸ .cancelEarly hr (Or.inr (Or.inl hphase))
    · next hphase => exact Option.some.inj h ▸ .cancelEarly hr (Or.inr (Or.inr hphase))
    · next hphase => exact Option.some.inj h ▸ .cancelOpening hr hphase
    · next hphase => exact Option.some.inj h ▸ .cancelWriting hr hphase
    · next hphase => exact Option.some.inj h ▸ .cancelDraining hr hphase
    · next hphase => exact Option.some.inj h ▸ .cancelAwaiting hr hphase
    · cases h
  | read k chunk =>
    obtain ⟨connection, hk, h⟩ := Option.bind_eq_some_iff.mp h
    simp only [stepConnection, Option.ite_none_right_eq_some] at h
    exact Option.some.inj h.2 ▸ .read chunk hk h.1.1
  | endOfFile k =>
    obtain ⟨connection, hk, h⟩ := Option.bind_eq_some_iff.mp h
    simp only [stepConnection, Option.ite_none_right_eq_some] at h
    exact Option.some.inj h.2 ▸ .endOfFile hk h.1
  | readFailed k message =>
    obtain ⟨connection, hk, h⟩ := Option.bind_eq_some_iff.mp h
    simp only [stepConnection, Option.ite_none_right_eq_some] at h
    exact Option.some.inj h.2 ▸ .readFailed message hk h.1
  | lost k =>
    obtain ⟨connection, hk, h⟩ := Option.bind_eq_some_iff.mp h
    exact Option.some.inj h ▸ .lost hk

end Client

end Thalweg.SdkPython
