import Thalweg.SdkPython.Frames
import Thalweg.SdkPython.Tables

/-!
# Live subscriptions

A subscription is registered by a request. Events that are pushed before its handler is there are
kept; from then on the handler queues them, and the subscription yields them in this order. When its
connection is lost, all handlers are told.

The response to the registration is processed by the reader, and the handler is registered by the
task that made the request, when it runs again. Whatever happens to the connection in between is not
noticed: the handler may be registered after all handlers have been told.

## Main definitions

* `Client.GapFree`: subscriptions yield the events of their connection in order, and they have ended
  if that is not the client's connection.
* `Client.Undisturbed`: handlers are registered while their connection is the client's, no
  connection with an open subscription is replaced, and every ID belongs to one subscription and its
  connection.

## Main results

* `Client.gapFree_of_undisturbed`: in an undisturbed run, subscriptions are free of gaps.
-/

namespace Thalweg.SdkPython

/-- The event that a frame pushes to a subscription. -/
def pushOf (env : Environment) (id : Text) (frame : List UInt8 × Bool) : Option PyDict :=
  match readFrame env frame.1 with
  | .ok (.event id' event) => if id' = id then some event else none
  | _ => none

/-- The subscription ID in the response to a registration. -/
def registeredId (data : PyValue) : Decoded Text :=
  let context := "siphon_register response".toList
  object data context >>= fun result => string result "subscriptionId".toList context

namespace Client

/-- The events that have been pushed to a subscription ID on a connection. -/
def pushes (env : Environment) (c : Client) (k : Nat) (id : Text) : List PyDict :=
  c.connections[k]?.elim [] fun connection => connection.processed.filterMap (pushOf env id)

/-- The subscription `i` may get that ID: no other one has it, and unless it is closed, the response
came on the client's connection and no other connection has pushed an event to that ID. -/
def MayRegister (env : Environment) (c : Client) (i : Nat) (id : Text) (answered : Option Nat) :
    Prop :=
  (∀ subscription ∈ c.subscriptions, subscription.subscriptionId ≠ some id) ∧
  ∀ subscription ∈ c.subscriptions[i]?, subscription.closed = false → c.writer = answered ∧
    ∀ j < c.connections.length, some j ≠ answered → (c.pushes env j id).isEmpty = true

instance (env : Environment) (c : Client) (i : Nat) (id : Text) (answered : Option Nat) :
    Decidable (c.MayRegister env i id answered) := inferInstanceAs (Decidable (_ ∧ _))

/-- Subscriptions that are open have been registered on that connection, if they have the ID that
the frame is pushed to. -/
def MayPush (env : Environment) (c : Client) (k : Nat) (frame : List UInt8) : Prop :=
  match readFrame env frame with
  | .ok (.event id _) => ∀ subscription ∈ c.subscriptions, subscription.subscriptionId = some id →
      subscription.closed = true ∨ subscription.connection = some k
  | _ => True

instance (env : Environment) (c : Client) (k : Nat) (frame : List UInt8) :
    Decidable (c.MayPush env k frame) :=
  match h : readFrame env frame with
  | .ok (.event id _) =>
    decidable_of_iff (∀ subscription ∈ c.subscriptions, subscription.subscriptionId = some id →
      subscription.closed = true ∨ subscription.connection = some k) (by rw [MayPush, h])
  | .ok (.response _ _ _) => .isTrue (by rw [MayPush, h]; trivial)
  | .error _ => .isTrue (by rw [MayPush, h]; trivial)

/-- A task registers its subscription while the connection that brought the response is the
client's; no connection is replaced under an open subscription; and the daemon gives every ID once
and pushes to it on one connection. -/
def Undisturbed (env : Environment) (c : Client) : ClientAction → Prop
  | .resume r =>
    match c.requests[r]? with
    | none => True
    | some request =>
      match request.purpose, request.future with
      | .enter i, some (.returned data) =>
        match registeredId data with
        | .error _ => True
        | .ok id => c.MayRegister env i id request.answered
      | _, _ => True
  | .opened _ => ∀ subscription ∈ c.subscriptions, subscription.subscriptionId.isSome = true →
      subscription.closed = true
  | .read k chunk =>
    match c.connections[k]? with
    | none => True
    | some connection => ∀ frame ∈ pieces (connection.buffer ++ chunk), c.MayPush env k frame
  | _ => True

instance (env : Environment) (c : Client) : (a : ClientAction) → Decidable (Undisturbed env c a)
  | .resume r =>
    match hr : c.requests[r]? with
    | none => .isTrue (by rw [Undisturbed, hr]; trivial)
    | some request =>
      match hpurpose : request.purpose, hfuture : request.future with
      | .enter i, some (.returned data) =>
        match hid : registeredId data with
        | .error _ => .isTrue (by simp [Undisturbed, hr, hpurpose, hfuture, hid])
        | .ok id => decidable_of_iff (c.MayRegister env i id request.answered)
          (by simp [Undisturbed, hr, hpurpose, hfuture, hid])
      | .enter _, some (.raised _) => .isTrue (by simp [Undisturbed, hr, hpurpose, hfuture])
      | .enter _, none => .isTrue (by simp [Undisturbed, hr, hpurpose, hfuture])
      | .call, _ => .isTrue (by simp [Undisturbed, hr, hpurpose])
      | .leave _, _ => .isTrue (by simp [Undisturbed, hr, hpurpose])
      | .discard, _ => .isTrue (by simp [Undisturbed, hr, hpurpose])
  | .opened _ =>
    inferInstanceAs (Decidable (∀ subscription ∈ c.subscriptions,
      subscription.subscriptionId.isSome = true → subscription.closed = true))
  | .read k chunk =>
    match hk : c.connections[k]? with
    | none => .isTrue (by rw [Undisturbed, hk]; trivial)
    | some connection =>
      decidable_of_iff (∀ frame ∈ pieces (connection.buffer ++ chunk), c.MayPush env k frame)
        (by rw [Undisturbed, hk])
  | .request _ _ => .isTrue trivial
  | .subscribe _ _ _ => .isTrue trivial
  | .enter _ => .isTrue trivial
  | .anext _ => .isTrue trivial
  | .aclose _ => .isTrue trivial
  | .close => .isTrue trivial
  | .getNext _ => .isTrue trivial
  | .cancelNext _ => .isTrue trivial
  | .start _ => .isTrue trivial
  | .lockConnect _ => .isTrue trivial
  | .openFailed _ _ => .isTrue trivial
  | .send _ => .isTrue trivial
  | .write _ => .isTrue trivial
  | .drained _ => .isTrue trivial
  | .drainFailed _ _ => .isTrue trivial
  | .timeout _ => .isTrue trivial
  | .cancel _ => .isTrue trivial
  | .endOfFile _ => .isTrue trivial
  | .readFailed _ _ => .isTrue trivial
  | .lost _ => .isTrue trivial

/-! ### The tasks of subscriptions -/

/-- The future returns data only if a response has been processed. -/
def Answers (request : Request) : Prop :=
  ∀ data, request.future = some (.returned data) → request.answered.isSome = true

/-- The tasks of subscriptions: the one that enters a subscription is the only one, and the
subscription has no ID before it has settled; and a subscription that is left is closed. -/
structure Entering (c : Client) : Prop where
  entered : ∀ request ∈ c.requests, ∀ i, request.purpose = .enter i →
    ∃ s, c.subscriptions[i]? = some s ∧ s.entered = true ∧
      (request.phase ≠ .settled → s.subscriptionId = none)
  once : ∀ (r r' : Nat) request request' i, c.requests[r]? = some request →
    c.requests[r']? = some request' → request.purpose = .enter i → request'.purpose = .enter i →
    r = r'
  left : ∀ request ∈ c.requests, ∀ i, request.purpose = .leave i →
    ∃ s, c.subscriptions[i]? = some s ∧ s.closed = true
  registered : ∀ s ∈ c.subscriptions, s.subscriptionId ≠ none → s.entered = true
  answers : ∀ request ∈ c.requests, Answers request

/-- Requests belong to the same tasks as before and do not go back once they have settled; new ones
do not enter or leave a subscription. -/
def Keeps (c c' : Client) : Prop :=
  ∀ (r : Nat) request', c'.requests[r]? = some request' →
    (∃ request, c.requests[r]? = some request ∧ request'.purpose = request.purpose ∧
      (request'.phase ≠ .settled → request.phase ≠ .settled) ∧
      (Answers request → Answers request')) ∨
    ((request'.purpose = .call ∨ request'.purpose = .discard) ∧ Answers request')

variable {env : Environment} {c c' : Client}

theorem keeps_of_eq (h : c'.requests = c.requests) : Keeps c c' := by
  intro r request hr
  rw [h] at hr
  exact Or.inl ⟨request, hr, rfl, id, id⟩

theorem Keeps.trans {c'' : Client} (h : Keeps c c') (h' : Keeps c' c'') : Keeps c c'' := by
  intro r request'' hr
  rcases h' r request'' hr with ⟨request', hr', hpurpose', hphase', hanswers'⟩ | hnew
  · rcases h r request' hr' with ⟨request, hr, hpurpose, hphase, hanswers⟩ | ⟨hpurpose, hanswers⟩
    · exact Or.inl ⟨request, hr, hpurpose'.trans hpurpose, hphase ∘ hphase', hanswers' ∘ hanswers⟩
    · exact Or.inr ⟨by rwa [hpurpose'], hanswers' hanswers⟩
  · exact Or.inr hnew

theorem keeps_modify (r : Nat) {f : Request → Request}
    (hf : ∀ request, c.requests[r]? = some request → (f request).purpose = request.purpose ∧
      ((f request).phase ≠ .settled → request.phase ≠ .settled) ∧
      (Answers request → Answers (f request))) : Keeps c (c.modifyRequest r f) := by
  intro r' request' hr'
  rw [requests_modifyRequest] at hr'
  by_cases hrr : r = r'
  · subst hrr
    rw [List.getElem?_modify_eq] at hr'
    obtain ⟨request, hr, rfl⟩ := Option.map_eq_some_iff.mp hr'
    exact Or.inl ⟨request, hr, hf request hr⟩
  · rw [List.getElem?_modify_ne _ _ hrr] at hr'
    exact Or.inl ⟨request', hr', rfl, id, id⟩

theorem answers_new (action : Text) (payload : PyValue) (purpose : Purpose) :
    Answers (.new action payload purpose) := nofun

theorem keeps_append {new : List Request} (h : c'.requests = c.requests ++ new)
    (hnew : ∀ request ∈ new, (request.purpose = .call ∨ request.purpose = .discard) ∧
      Answers request) : Keeps c c' := by
  intro r request hr
  rw [h, List.getElem?_append] at hr
  split_ifs at hr
  · exact Or.inl ⟨request, hr, rfl, id, id⟩
  · exact Or.inr (hnew request (List.mem_of_getElem? hr))

theorem Quiet.keeps (h : Quiet c c') : Keeps c c' := by
  obtain ⟨new, hnew, hall⟩ := h.requests
  refine keeps_append hnew fun request hrequest => ?_
  obtain ⟨action, payload, rfl⟩ := hall request hrequest
  exact ⟨Or.inr rfl, answers_new _ _ _⟩

theorem answers_fail (request : Request) (error : SdkError) (h : Answers request) :
    Answers (request.fail error) := fun data hdata => h data (Request.future_of_fail hdata)

theorem Fails.keeps {error : SdkError} (h : Fails c c' error) : Keeps c c' := by
  intro r request' hr'
  obtain ⟨request, hr, rfl⟩ := Option.map_eq_some_iff.mp ((h.requests r).symm.trans hr')
  refine Or.inl ⟨request, hr, ?_⟩
  split_ifs
  · exact ⟨rfl, id, answers_fail request error⟩
  · exact ⟨rfl, id, id⟩

theorem Fails.follows {error : SdkError} (h : Fails c c' error) : Follows c c' := by
  refine ⟨fun i s hi => ⟨_, (h.subscriptions i).trans (congrArg _ hi), ?_⟩, fun i s' hi hnone => ?_⟩
  · dsimp only
    split_ifs
    · exact fail_spec s error
    · exact ⟨rfl, rfl, id, id⟩
  · rw [h.subscriptions, hnone] at hi
    cases hi

theorem Entering.keep (h : Entering c) (hfollows : Follows c c') (hkeeps : Keeps c c') :
    Entering c' := by
  have hold : ∀ request' ∈ c'.requests, ∀ i, request'.purpose = .enter i ∨
      request'.purpose = .leave i → ∃ request ∈ c.requests, request.purpose = request'.purpose ∧
        (request'.phase ≠ .settled → request.phase ≠ .settled) := by
    intro request' hrequest' i hpurpose
    obtain ⟨r, hr⟩ := List.mem_iff_getElem?.mp hrequest'
    rcases hkeeps r request' hr with ⟨request, hr, heq, hphase, -⟩ | ⟨hother, -⟩
    · exact ⟨request, List.mem_of_getElem? hr, heq.symm, hphase⟩
    · rcases hpurpose with hpurpose | hpurpose <;> simp [hpurpose] at hother
  have hsame : ∀ (r : Nat) request' i, c'.requests[r]? = some request' →
      request'.purpose = .enter i → ∃ request, c.requests[r]? = some request ∧
        request.purpose = .enter i := by
    intro r request' i hr hpurpose
    rcases hkeeps r request' hr with ⟨request, hr, heq, -⟩ | ⟨hother, -⟩
    · exact ⟨request, hr, heq.symm.trans hpurpose⟩
    · simp [hpurpose] at hother
  refine ⟨fun request' hrequest' i hpurpose => ?_, fun r r' request₁ request₂ i hr hr' hp hp' => ?_,
    fun request' hrequest' i hpurpose => ?_, fun s' hs' hsome => ?_, fun request' hrequest' => ?_⟩
  · obtain ⟨request, hrequest, heq, hphase⟩ := hold request' hrequest' i (Or.inl hpurpose)
    obtain ⟨s, hs, hentered, hnone⟩ := h.entered request hrequest i (heq.trans hpurpose)
    obtain ⟨s', hs', hid, -, hentered', -⟩ := hfollows.old i s hs
    exact ⟨s', hs', hentered' hentered, fun hne => hid.trans (hnone (hphase hne))⟩
  · obtain ⟨request, hr, hp⟩ := hsame r request₁ i hr hp
    obtain ⟨request', hr', hp'⟩ := hsame r' request₂ i hr' hp'
    exact h.once r r' request request' i hr hr' hp hp'
  · obtain ⟨request, hrequest, heq, -⟩ := hold request' hrequest' i (Or.inr hpurpose)
    obtain ⟨s, hs, hclosed⟩ := h.left request hrequest i (heq.trans hpurpose)
    obtain ⟨s', hs', -, -, -, hclosed'⟩ := hfollows.old i s hs
    exact ⟨s', hs', hclosed' hclosed⟩
  · obtain ⟨i, hi⟩ := List.mem_iff_getElem?.mp hs'
    cases hs : c.subscriptions[i]? with
    | none => exact absurd (hfollows.new i s' hi hs) hsome
    | some s =>
      obtain ⟨s₁, hs₁, hid, -, hentered, -⟩ := hfollows.old i s hs
      obtain rfl := Option.some.inj (hi.symm.trans hs₁)
      exact hentered (h.registered s (List.mem_of_getElem? hs) (hid ▸ hsome))
  · obtain ⟨r, hr⟩ := List.mem_iff_getElem?.mp hrequest'
    rcases hkeeps r request' hr with ⟨request, hr, -, -, hanswers⟩ | ⟨-, hanswers⟩
    · exact hanswers (h.answers request (List.mem_of_getElem? hr))
    · exact hanswers

/-- There is a new task: it is the first one to enter its subscription, or the subscription that it
leaves is closed. -/
theorem Entering.createTask (h : Entering c) (action : Text) (payload : PyValue) {purpose : Purpose}
    (henter : ∀ i, purpose = .enter i → (∃ s, c.subscriptions[i]? = some s ∧ s.entered = true ∧
      s.subscriptionId = none) ∧ ∀ request ∈ c.requests, request.purpose ≠ .enter i)
    (hleave : ∀ i, purpose = .leave i → ∃ s, c.subscriptions[i]? = some s ∧ s.closed = true) :
    Entering (c.createTask action payload purpose) := by
  have hcases : ∀ (r : Nat) request,
      (c.createTask action payload purpose).requests[r]? = some request →
      c.requests[r]? = some request ∨
        (r = c.requests.length ∧ request = .new action payload purpose) := by
    intro r request hr
    rw [show (c.createTask action payload purpose).requests = c.requests ++ [_] from rfl,
      List.getElem?_append] at hr
    split_ifs at hr
    · exact Or.inl hr
    · have hlt := (List.getElem?_eq_some_iff.mp hr).1
      rw [List.length_singleton] at hlt
      exact Or.inr ⟨by omega, List.mem_singleton.mp (List.mem_of_getElem? hr)⟩
  have hfirst : ∀ (r : Nat) request i, c.requests[r]? = some request →
      request.purpose = .enter i → purpose ≠ .enter i := fun r request i hr hp hpurpose =>
    (henter i hpurpose).2 request (List.mem_of_getElem? hr) hp
  refine ⟨List.forall_mem_append.mpr
      ⟨h.entered, List.forall_mem_singleton.mpr fun i hpurpose => ?_⟩,
    fun r r' request request' i hr hr' hp hp' => ?_,
    List.forall_mem_append.mpr ⟨h.left, List.forall_mem_singleton.mpr hleave⟩, h.registered,
    List.forall_mem_append.mpr ⟨h.answers, List.forall_mem_singleton.mpr (answers_new _ _ _)⟩⟩
  · obtain ⟨s, hi, hentered, hnone⟩ := (henter i hpurpose).1
    exact ⟨s, hi, hentered, fun _ => hnone⟩
  · rcases hcases r request hr with hold | ⟨rfl, rfl⟩ <;>
      rcases hcases r' request' hr' with hold' | ⟨rfl, rfl⟩
    · exact h.once r r' request request' i hold hold' hp hp'
    · exact absurd hp' (hfirst r request i hold hp)
    · exact absurd hp (hfirst r' request' i hold' hp')
    · rfl

/-- A task enters a subscription. -/
theorem Entering.enter (h : Entering c) {i : Nat} {s : Subscription}
    (hi : c.subscriptions[i]? = some s) (hentered : s.entered = false) :
    Entering (c.enter i s) := by
  have hmarked : Entering (c.modifySubscription i fun s => { s with entered := true }) :=
    h.keep (follows_modify i fun _ _ => ⟨rfl, rfl, fun _ => rfl, id⟩) (keeps_of_eq rfl)
  refine hmarked.createTask _ _ (fun j hj => ?_) nofun
  obtain rfl := Purpose.enter.inj hj
  refine ⟨⟨{ s with entered := true }, ?_, rfl, ?_⟩, fun request hrequest hpurpose => ?_⟩
  · rw [modifySubscription, List.getElem?_modify_eq, hi]
    rfl
  · by_contra hsome
    rw [h.registered s (List.mem_of_getElem? hi) hsome] at hentered
    cases hentered
  · obtain ⟨s', hs', hentered', -⟩ := h.entered request hrequest i hpurpose
    obtain rfl := Option.some.inj (hi.symm.trans hs')
    rw [hentered] at hentered'
    cases hentered'

/-- A subscription gets its ID from the task that has entered it. -/
theorem Entering.assignId (h : Entering c) {i k : Nat} {id : Text} {s : Subscription}
    (hi : c.subscriptions[i]? = some s) (hentered : s.entered = true)
    (hsettled : ∀ request ∈ c.requests, request.purpose = .enter i → request.phase = .settled) :
    Entering (c.assignId i k id) := by
  have hself : (c.assignId i k id).subscriptions[i]? =
      some { s with subscriptionId := some id, connection := some k } := getElem?_assignId hi
  refine ⟨fun request hrequest j hpurpose => ?_, h.once, fun request hrequest j hpurpose => ?_,
    fun s' hs' hsome => ?_, h.answers⟩
  · obtain ⟨s', hs', hentered', hnone⟩ := h.entered request hrequest j hpurpose
    by_cases hji : j = i
    · subst hji
      exact ⟨_, hself, hentered, fun hphase => absurd (hsettled request hrequest hpurpose) hphase⟩
    · exact ⟨s', by rw [getElem?_assignId_of_ne hji, hs'], hentered', hnone⟩
  · obtain ⟨s', hs', hclosed⟩ := h.left request hrequest j hpurpose
    by_cases hji : j = i
    · subst hji
      obtain rfl := Option.some.inj (hi.symm.trans hs')
      exact ⟨_, hself, hclosed⟩
    · exact ⟨s', by rw [getElem?_assignId_of_ne hji, hs'], hclosed⟩
  · obtain ⟨j, hj⟩ := List.mem_iff_getElem?.mp hs'
    by_cases hji : j = i
    · subst hji
      obtain rfl := Option.some.inj (hself.symm.trans hj)
      exact hentered
    · rw [getElem?_assignId_of_ne hji] at hj
      exact h.registered s' (List.mem_of_getElem? hj) hsome

/-! ### What has been pushed -/

theorem pushes_of_eq (env : Environment) (h : c'.connections = c.connections) :
    c'.pushes env = c.pushes env := by
  funext k id
  rw [pushes, pushes, h]

theorem pushes_modifyConnection (env : Environment) (c : Client) (k : Nat)
    {f : Connection → Connection} (hf : ∀ x, (f x).processed = x.processed) :
    (c.modifyConnection k f).pushes env = c.pushes env := by
  funext j id
  rw [pushes, pushes, connections_modifyConnection]
  by_cases hkj : k = j
  · subst hkj
    rw [List.getElem?_modify_eq]
    cases c.connections[k]? with
    | none => rfl
    | some x => exact congrArg (List.filterMap (pushOf env id)) (hf x)
  · rw [List.getElem?_modify_ne _ _ hkj]

/-- A frame has been processed. -/
theorem pushes_note (env : Environment) (c : Client) {k : Nat} (hk : k < c.connections.length)
    (frame : List UInt8) (accepted : Bool) (j : Nat) (id : Text) :
    (c.note k frame accepted).pushes env j id =
      if j = k then c.pushes env k id ++ (pushOf env id (frame, accepted)).toList
      else c.pushes env j id := by
  rw [pushes, pushes, pushes, note, connections_modifyConnection]
  split_ifs with hjk
  · subst hjk
    rw [List.getElem?_modify_eq, List.getElem?_eq_getElem hk, Option.map_eq_map, Option.map_some,
      Option.elim_some, Option.elim_some, List.filterMap_append]
    rfl
  · rw [List.getElem?_modify_ne _ _ (Ne.symm hjk)]

theorem pushes_note_event {k : Nat} (hk : k < c.connections.length) {frame : List UInt8}
    {id : Text} {event : PyDict} (hframe : readFrame env frame = .ok (.event id event))
    (accepted : Bool) :
    (c.note k frame accepted).pushes env = pushedThen (c.pushes env) k id event := by
  funext j id'
  rw [pushes_note env c hk, pushedThen, pushOf]
  dsimp only
  rw [hframe]
  dsimp only
  by_cases hjk : j = k
  · subst hjk
    by_cases hid : id' = id
    · subst hid
      simp
    · simp [hid, Ne.symm hid]
  · simp [hjk]

theorem pushes_note_of_ne {k : Nat} (hk : k < c.connections.length) {frame : List UInt8}
    (hframe : ∀ id event, readFrame env frame ≠ .ok (.event id event)) (accepted : Bool) :
    (c.note k frame accepted).pushes env = c.pushes env := by
  funext j id'
  have hnone : pushOf env id' (frame, accepted) = none := by
    unfold pushOf
    split
    · next id event heq => exact absurd heq (hframe id event)
    · rfl
  rw [pushes_note env c hk, hnone, Option.toList_none, List.append_nil]
  split_ifs with hjk
  · rw [hjk]
  · rfl

/-! ### No gaps -/

/-- The tables hold what has been pushed, and subscriptions are entered and left in order. -/
structure Gapless (env : Environment) (c : Client) : Prop where
  tables : Tables env.orphanEventLimit (c.pushes env) noneLeft c
  entering : Entering c

/-- Nothing changes for subscriptions. -/
theorem Gapless.of_eq (h : Gapless env c) (hkeeps : Keeps c c')
    (hsubscriptions : c'.subscriptions = c.subscriptions) (hwriter : c'.writer = c.writer)
    (hhandlers : c'.eventHandlers = c.eventHandlers) (horphans : c'.orphanEvents = c.orphanEvents)
    (hoverflow : c'.orphanOverflow = c.orphanOverflow)
    (hignored : c'.ignoredSubscriptions = c.ignoredSubscriptions)
    (hpushes : c'.pushes env = c.pushes env) : Gapless env c' := by
  refine ⟨?_, h.entering.keep (follows_of_eq hsubscriptions) hkeeps⟩
  rw [hpushes]
  exact h.tables.of_eq hsubscriptions hwriter hhandlers horphans hoverflow hignored

theorem Gapless.modifyRequest (h : Gapless env c) (r : Nat) {f : Request → Request}
    (hf : ∀ request, c.requests[r]? = some request → (f request).purpose = request.purpose ∧
      ((f request).phase ≠ .settled → request.phase ≠ .settled) ∧
      (Answers request → Answers (f request))) : Gapless env (c.modifyRequest r f) :=
  h.of_eq (keeps_modify r hf) rfl rfl rfl rfl rfl rfl rfl

theorem Gapless.modifyConnection (h : Gapless env c) (k : Nat) {f : Connection → Connection}
    (hf : ∀ x, (f x).processed = x.processed) : Gapless env (c.modifyConnection k f) :=
  h.of_eq (keeps_of_eq rfl) rfl rfl rfl rfl rfl rfl (pushes_modifyConnection env c k hf)

theorem Gapless.cancelFuture (h : Gapless env c) (r : Nat) : Gapless env (c.cancelFuture r) :=
  h.modifyRequest r fun request _ => ⟨rfl, id, answers_fail request _⟩

theorem Gapless.setPhase (h : Gapless env c) {r : Nat} {request : Request}
    (hr : c.requests[r]? = some request) (hphase : request.phase ≠ .settled)
    (phase : RequestPhase) : Gapless env (c.setPhase r phase) := by
  refine h.modifyRequest r fun request' hr' => ⟨rfl, fun _ => ?_, id⟩
  obtain rfl := Option.some.inj (hr.symm.trans hr')
  exact hphase

/-- A task registers its subscription. -/
theorem Gapless.register (h : Gapless env c) {i k : Nat} {id : Text} {s : Subscription}
    (hi : c.subscriptions[i]? = some s) (hnone : s.subscriptionId = none)
    (hentered : s.entered = true)
    (hsettled : ∀ request ∈ c.requests, request.purpose = .enter i → request.phase = .settled)
    (hmay : c.MayRegister env i id (some k)) :
    Gapless env
      (registerEventHandler
        (c.modifySubscription i fun s => { s with subscriptionId := some id, connection := some k })
        id i) := by
  obtain ⟨hfresh, hopen⟩ := hmay
  have hquiet := (quiet_modifySubscription c i fun s =>
    { s with subscriptionId := some id, connection := some k }).trans
      (quiet_registerEventHandler _ id i)
  refine ⟨?_, ?_⟩
  · rw [pushes_of_eq env hquiet.connections]
    refine h.tables.register hi hnone hfresh fun hclosed => ?_
    obtain ⟨hwriter, hempty⟩ := hopen s hi hclosed
    refine ⟨hwriter, fun j hj => ?_⟩
    by_cases hlt : j < c.connections.length
    · exact List.isEmpty_iff.mp (hempty j hlt (by simpa using hj))
    · rw [pushes, List.getElem?_eq_none (Nat.not_lt.mp hlt), Option.elim_none]
  · refine (@Entering.assignId c h.entering i k id s hi hentered hsettled).keep ?_ ?_
    · have hreplayed := follows_foldl_receive (c.assignId i k id) i (c.orphanEvents id)
      unfold registerEventHandler
      dsimp only
      split_ifs
      · exact hreplayed.trans (follows_receiveError _ _ _)
      · exact hreplayed
    · exact Quiet.keeps ⟨hquiet.connections, hquiet.requests, hquiet.writer, hquiet.connectLock,
        hquiet.writeLock, hquiet.nextId, hquiet.pending, hquiet.closed, hquiet.settled⟩

/-- A request settles, and its task does nothing else. -/
theorem Gapless.mark (h : Gapless env c) (r : Nat) (settled : List (Nat × Outcome)) :
    Gapless env { c.modifyRequest r fun request => { request with phase := .settled } with
      settled } :=
  (h.modifyRequest r (f := fun request => { request with phase := .settled })
    fun _ _ => ⟨rfl, fun hne => absurd rfl hne, id⟩).of_eq (keeps_of_eq rfl) rfl rfl rfl rfl rfl rfl
    rfl

theorem Gapless.finish (h : Gapless env c) {i : Nat} {s : Subscription}
    (hi : c.subscriptions[i]? = some s) (hclosed : s.closed = true) :
    Gapless env (c.modifySubscription i fun s => s.finish .finish) :=
  ⟨h.tables.finish hi hclosed,
    h.entering.keep (follows_modify i fun _ _ => ⟨rfl, rfl, id, id⟩) (keeps_of_eq rfl)⟩

/-- A request settles, and its task goes on. If it registers a subscription, it may do so. -/
theorem Gapless.settle (h : Gapless env c) {r : Nat} {request request' : Request}
    {outcome : Outcome} (hr : c.requests[r]? = some request')
    (hsame : request'.purpose = request.purpose)
    (hregister : ∀ i data id, request.purpose = .enter i → outcome = .returned data →
      registeredId data = .ok id → request' = request ∧ request.phase ≠ .settled ∧
        request.future = some outcome ∧ c.MayRegister env i id request.answered) :
    Gapless env (c.settle r request outcome) := by
  have hmarked := h.mark r (c.settled ++ [(r, outcome)])
  have hmem := List.mem_of_getElem? hr
  have hfinish : ∀ i, request.purpose = .leave i → Gapless env
      (Client.modifySubscription
        { c.modifyRequest r fun request => { request with phase := .settled } with
          settled := c.settled ++ [(r, outcome)] } i fun s => s.finish .finish) := by
    intro i hpurpose
    obtain ⟨s, hi, hclosed⟩ := h.entering.left request' hmem i (hsame.trans hpurpose)
    exact hmarked.finish hi hclosed
  unfold Client.settle
  dsimp only
  split
  · next i data hpurpose =>
    unfold Client.register
    dsimp only
    split
    · exact hmarked
    · next id hid =>
      obtain ⟨rfl, hphase, hfuture, hmay⟩ := hregister i data id hpurpose rfl hid
      obtain ⟨s, hi, hentered, hnone⟩ := h.entering.entered request' hmem i hpurpose
      obtain ⟨k, hk⟩ := Option.isSome_iff_exists.mp (h.entering.answers request' hmem data hfuture)
      rw [hk] at hmay ⊢
      refine hmarked.register hi (hnone hphase) hentered (fun other hother hpurpose' => ?_) hmay
      -- the request is the only one that enters this subscription
      obtain ⟨r', hr'⟩ := List.mem_iff_getElem?.mp hother
      by_cases hrr : r = r'
      · subst hrr
        rw [Client.modifyRequest, List.getElem?_modify_eq, hr] at hr'
        obtain rfl := Option.some.inj hr'
        rfl
      · rw [Client.modifyRequest, List.getElem?_modify_ne _ _ hrr] at hr'
        exact absurd (h.entering.once r r' request' other i hr hr' hpurpose hpurpose') hrr
  · next i _ hpurpose => exact hfinish i hpurpose
  · next i _ hpurpose => exact hfinish i hpurpose
  · exact hmarked

/-- A request raises. -/
theorem Gapless.raise (h : Gapless env c) {r : Nat} {request request' : Request}
    (hr : c.requests[r]? = some request') (hsame : request'.purpose = request.purpose)
    (error : SdkError) : Gapless env (c.settle r request (.raised error)) :=
  h.settle hr hsame fun _ _ _ _ hreturned => by cases hreturned

/-- A request is no longer pending, its future is done, and it raises. -/
theorem Gapless.cancelAndRaise (h : Gapless env c) {r r' : Nat} {request request' : Request}
    (hr : c.requests[r]? = some request') (hsame : request'.purpose = request.purpose)
    (pending : AList fun _ : Text => PendingRequest) (error : SdkError) :
    Gapless env
      (Client.settle (Client.cancelFuture { c with pending } r') r request (.raised error)) := by
  have hpopped : Gapless env { c with pending } :=
    h.of_eq (keeps_of_eq rfl) rfl rfl rfl rfl rfl rfl rfl
  by_cases hrr : r' = r
  · subst hrr
    refine @Gapless.raise _ _ (hpopped.cancelFuture r') r' _ (request'.fail .cancelled) ?_ hsame
      error
    rw [Client.cancelFuture, failFuture, requests_modifyRequest, List.getElem?_modify_eq, hr]
    rfl
  · refine @Gapless.raise _ _ (hpopped.cancelFuture r') r _ request' ?_ hsame error
    rw [Client.cancelFuture, failFuture, requests_modifyRequest, List.getElem?_modify_ne _ _ hrr,
      hr]

theorem Gapless.failWrite (h : Gapless env c) {r : Nat} {request request' : Request}
    (hr : c.requests[r]? = some request') (hsame : request'.purpose = request.purpose)
    (error : SdkError) : Gapless env (c.failWrite r request error) := by
  unfold Client.failWrite
  dsimp only
  split
  · exact h.raise hr hsame error
  · split
    · exact h.raise hr hsame error
    · exact h.cancelAndRaise hr hsame _ error

theorem Gapless.giveUp (h : Gapless env c) {r : Nat} {request : Request}
    (hr : c.requests[r]? = some request) (error : SdkError) :
    Gapless env (c.giveUp r request error) := by
  unfold Client.giveUp
  dsimp only
  split
  · exact h.cancelAndRaise hr rfl c.pending error
  · exact h.cancelAndRaise hr rfl _ error

/-! ### The end of a connection -/

/-- All waiters have failed, and the client has no connection. -/
theorem Gapless.fail (h : Gapless env c) {error : SdkError} {c₁ c₂ : Client}
    (hfails : Fails c₁ c₂ error) (hrequests : c₁.requests = c.requests)
    (hsubscriptions : c₁.subscriptions = c.subscriptions)
    (hhandlers : c₁.eventHandlers = c.eventHandlers) (hrequests' : c'.requests = c₂.requests)
    (hsubscriptions' : c'.subscriptions = c₂.subscriptions)
    (hhandlers' : c'.eventHandlers = c₂.eventHandlers)
    (hignored' : c'.ignoredSubscriptions = c₂.ignoredSubscriptions) (hwriter : c'.writer = none)
    (hpushes : c'.pushes env = c.pushes env) : Gapless env c' := by
  refine ⟨?_, h.entering.keep (((follows_of_eq hsubscriptions).trans hfails.follows).trans
    (follows_of_eq hsubscriptions')) (((keeps_of_eq hrequests).trans hfails.keeps).trans
      (keeps_of_eq hrequests'))⟩
  rw [hpushes]
  refine @Tables.fail _ _ _ _ h.tables error (fun i => ?_) hwriter
    (hhandlers'.trans hfails.eventHandlers) (hignored'.trans hfails.ignoredSubscriptions)
  rw [hsubscriptions', hfails.subscriptions, hsubscriptions, hhandlers]

theorem Gapless.abort (h : Gapless env c) (error : SdkError) (k : Nat) :
    Gapless env (c.abortConnection error k) := by
  unfold abortConnection
  split_ifs
  · have hfails := fails_failWaiters
      (Client.modifyConnection { c with writer := none } k fun connection =>
        { connection with closing := true }) error
    refine h.fail hfails rfl rfl rfl rfl rfl rfl rfl hfails.writer ?_
    rw [pushes_of_eq env hfails.connections]
    exact pushes_modifyConnection env { c with writer := none } k fun _ => rfl
  · exact h

theorem Gapless.endReader (h : Gapless env c) (k : Nat) (error : SdkError) :
    Gapless env (c.endReader k error) := by
  have hended : Gapless env
      (c.modifyConnection k fun connection => { connection with reader := .ended }) :=
    h.modifyConnection k fun _ => rfl
  exact hended.abort error k

theorem Gapless.close (h : Gapless env c) : Gapless env c.close := by
  have hfails := fails_failWaiters { c with closed := true } closedError
  have hpushes : (failWaiters { c with closed := true } closedError).pushes env = c.pushes env :=
    pushes_of_eq env hfails.connections
  unfold Client.close
  dsimp only
  split
  · next hnone => exact h.fail hfails rfl rfl rfl rfl rfl rfl rfl hnone hpushes
  · next k _ =>
    refine h.fail hfails rfl rfl rfl rfl rfl rfl rfl rfl (Eq.trans ?_ hpushes)
    exact pushes_modifyConnection env
      { failWaiters { c with closed := true } closedError with writer := none } k fun _ => rfl

/-! ### The reader -/

/-- What an event may be pushed to stays what it is. -/
theorem MayPush.follow {k : Nat} {frame : List UInt8} (h : c.MayPush env k frame)
    (hfollows : Follows c c') : c'.MayPush env k frame := by
  unfold MayPush at h ⊢
  split at h
  · intro s' hs' hid
    obtain ⟨i, hi⟩ := List.mem_iff_getElem?.mp hs'
    cases hs : c.subscriptions[i]? with
    | none =>
      rw [hfollows.new i s' hi hs] at hid
      cases hid
    | some s =>
      obtain ⟨s₁, hs₁, hid₁, hconnection, -, hclosed⟩ := hfollows.old i s hs
      obtain rfl := Option.some.inj (hi.symm.trans hs₁)
      exact (h s (List.mem_of_getElem? hs) (hid₁.symm.trans hid)).imp hclosed hconnection.trans
  · trivial

theorem follows_setFuture (c : Client) (id : Text) (k r : Nat) (outcome : Outcome) :
    Follows c ((c.popPending id).setFuture k r outcome).1 := by
  unfold setFuture
  split_ifs <;> exact follows_of_eq rfl

theorem follows_processFrame (env : Environment) (c : Client) (k : Nat) (frame : List UInt8) :
    Follows c (c.processFrame env k frame).1 := by
  unfold processFrame
  split
  · exact follows_of_eq rfl
  · exact follows_dispatchEvent _ _ _ _
  · split
    · exact follows_of_eq rfl
    · split_ifs
      · exact follows_setFuture _ _ _ _ _
      · split
        · exact follows_of_eq rfl
        · exact follows_setFuture _ _ _ _ _

/-- The future of a request is set by its response. -/
theorem Gapless.setFuture (h : Gapless env c) (id : Text) (k r : Nat) (outcome : Outcome) :
    Gapless env ((c.popPending id).setFuture k r outcome).1 := by
  have hpopped : Gapless env (c.popPending id) :=
    h.of_eq (keeps_of_eq rfl) rfl rfl rfl rfl rfl rfl rfl
  unfold Client.setFuture
  split_ifs
  · exact hpopped
  · exact hpopped.modifyRequest r fun _ _ => ⟨rfl, fun hne => hne, fun _ _ _ => rfl⟩

/-- A frame is processed. -/
theorem Gapless.processFrame (h : Gapless env c) {k : Nat} (hk : k < c.connections.length)
    {frame : List UInt8} (hmay : c.MayPush env k frame) (accepted : Bool) :
    Gapless env ((c.processFrame env k frame).1.note k frame accepted) := by
  have hnote : ∀ {c₁ : Client}, c₁.connections = c.connections →
      (∀ id event, readFrame env frame ≠ .ok (.event id event)) → Gapless env c₁ →
      Gapless env (c₁.note k frame accepted) := fun hconnections hother h₁ =>
    h₁.of_eq (keeps_of_eq rfl) rfl rfl rfl rfl rfl rfl
      (pushes_note_of_ne (hconnections ▸ hk) hother accepted)
  have hconnections := connections_processFrame env c k frame
  unfold Client.processFrame at hconnections ⊢
  unfold MayPush at hmay
  cases hframe : readFrame env frame with
  | error error => exact hnote rfl (by simp [hframe]) h
  | ok message =>
    rw [hframe] at hmay hconnections
    cases message with
    | event id event =>
      dsimp only at hmay hconnections ⊢
      refine ⟨?_, ?_⟩
      · rw [pushes_note_event (hconnections ▸ hk) hframe, pushes_of_eq env hconnections]
        exact (h.tables.push k event hmay).of_eq rfl rfl rfl rfl rfl rfl
      · exact (h.entering.keep (follows_dispatchEvent env c id event)
          (quiet_dispatchEvent env c id event).keeps).keep (follows_of_eq rfl) (keeps_of_eq rfl)
    | response id success message =>
      have hother : ∀ id' event, readFrame env frame ≠ .ok (.event id' event) := by simp [hframe]
      dsimp only at hconnections ⊢
      split
      · exact hnote rfl hother h
      · split_ifs
        · exact hnote (connections_setFuture _ _ _ _) hother (h.setFuture id k _ _)
        · split
          · exact hnote rfl hother h
          · exact hnote (connections_setFuture _ _ _ _) hother (h.setFuture id k _ _)

/-- The frames of a buffer are processed, one after the other. -/
theorem Gapless.readBuffer {k : Nat} (fuel : Nat) {buffer : List UInt8} (h : Gapless env c)
    (hk : k < c.connections.length) (hmay : ∀ frame ∈ pieces buffer, c.MayPush env k frame)
    (hfuel : buffer.length < fuel) : Gapless env (readBuffer env k fuel c buffer).1 := by
  induction fuel generalizing c buffer with
  | zero => omega
  | succ fuel ih =>
    rcases Framing.isFrame_or_exists isNewline buffer with
      hframe | ⟨frame, sep, rest, rfl, hframe, hsep⟩
    · rw [Client.readBuffer, takeFrame_of_isFrame hframe]
      dsimp only
      split_ifs <;> exact h
    · rw [Client.readBuffer, takeFrame_append hframe hsep]
      dsimp only
      have hrest : rest.length < fuel := by
        simp only [List.length_append, List.length_cons] at hfuel
        omega
      rw [(pieces_frame hframe hsep rest).1] at hmay
      obtain ⟨hfirst, hmay⟩ := List.forall_mem_cons.mp hmay
      split_ifs
      · exact h
      · exact ih h hk hmay hrest
      · have hprocessed := fun accepted => h.processFrame hk hfirst accepted
        have hfollows := follows_processFrame env c k frame
        have hconnections := connections_processFrame env c k frame
        cases hprocess : c.processFrame env k frame with
        | mk c' failure =>
          rw [hprocess] at hprocessed hfollows hconnections
          cases failure with
          | none =>
            refine ih (hprocessed true) ?_ (fun piece hpiece => ?_) hrest
            · rw [note, connections_modifyConnection, List.length_modify, hconnections]
              exact hk
            · exact (hmay piece hpiece).follow (hfollows.trans (follows_of_eq rfl))
          | some error => exact hprocessed false

/-- The reader of a connection reads a chunk. -/
theorem Gapless.read (h : Gapless env c) {k : Nat} {connection : Connection} {chunk : List UInt8}
    (hk : c.connections[k]? = some connection)
    (hmay : ∀ frame ∈ pieces (connection.buffer ++ chunk), c.MayPush env k frame) :
    Gapless env (c.read env k connection chunk) := by
  have hextended : Gapless env (c.modifyConnection k fun connection =>
      { connection with stream := connection.stream ++ chunk }) := h.modifyConnection k fun _ => rfl
  have hlt : k < (c.modifyConnection k fun connection =>
      { connection with stream := connection.stream ++ chunk }).connections.length := by
    rw [connections_modifyConnection, List.length_modify]
    exact (List.getElem?_eq_some_iff.mp hk).1
  have hread := hextended.readBuffer ((connection.buffer ++ chunk).length + 1) hlt hmay
    (Nat.lt_succ_self _)
  unfold Client.read
  dsimp only
  split
  · next c' rest heq =>
    rw [heq] at hread
    exact hread.modifyConnection k fun _ => rfl
  · next c' error heq =>
    rw [heq] at hread
    have hfailed : Gapless env
        (c'.modifyConnection k fun connection => { connection with reader := .failed }) :=
      hread.modifyConnection k fun _ => rfl
    exact hfailed.abort error k

/-! ### One move -/

/-- A new connection takes the place of the last one. -/
theorem Gapless.opened (h : Gapless env c) {r : Nat} {request : Request}
    (hr : c.requests[r]? = some request) (hphase : request.phase ≠ .settled)
    (hclosed : ∀ s ∈ c.subscriptions, s.subscriptionId.isSome = true → s.closed = true) :
    Gapless env (c.opened r) := by
  have hpushes : ∀ {c' : Client}, c'.connections = c.connections ++ [Connection.new] →
      c'.pushes env = c.pushes env := by
    intro c' hconnections
    funext k id
    rw [pushes, pushes, hconnections, List.getElem?_append]
    split_ifs with hlt
    · rfl
    · rw [List.getElem?_eq_none (Nat.not_lt.mp hlt), Option.elim_none]
      cases hk : [Connection.new][k - c.connections.length]? with
      | none => rfl
      | some x =>
        obtain rfl := List.mem_singleton.mp (List.mem_of_getElem? hk)
        rfl
  have hconnected : Gapless env { c with
      connections := c.connections ++ [Connection.new]
      writer := some c.connections.length
      connectLock := none
      orphanEvents := fun _ => []
      orphanOverflow := ∅
      ignoredSubscriptions := ∅ } := by
    refine ⟨?_, h.entering.keep (follows_of_eq rfl) (keeps_of_eq rfl)⟩
    rw [hpushes rfl]
    refine h.tables.connect (fun s hs hsome => ?_) (fun id => ?_) rfl rfl rfl rfl rfl rfl
    · exact hclosed s hs (Option.isSome_iff_ne_none.mpr hsome)
    · rw [pushes, List.getElem?_eq_none (le_refl _), Option.elim_none]
  exact hconnected.setPhase hr hphase _

theorem Gapless.write (h : Gapless env c) {r : Nat} {request : Request}
    (hr : c.requests[r]? = some request) (hphase : request.phase ≠ .settled)
    (encoded : List UInt8) : Gapless env (c.write r request encoded) := by
  unfold Client.write
  split
  · next k _ =>
    split_ifs
    · have hwritten : Gapless env (Client.modifyConnection { c with writeLock := some r } k
          fun connection => { connection with written := connection.written ++ [encoded] }) :=
        h.of_eq (keeps_of_eq rfl) rfl rfl rfl rfl rfl rfl
          (pushes_modifyConnection env { c with writeLock := some r } k fun _ => rfl)
      exact hwritten.setPhase hr hphase _
    · exact h.failWrite hr rfl _
  · exact h.failWrite hr rfl _

theorem Gapless.send (h : Gapless env c) {r : Nat} {request : Request}
    (hr : c.requests[r]? = some request) (hphase : request.phase ≠ .settled) :
    Gapless env (c.send env r request) := by
  have hnext : Gapless env { c with nextId := c.nextId + 1 } :=
    h.of_eq (keeps_of_eq rfl) rfl rfl rfl rfl rfl rfl rfl
  unfold Client.send
  dsimp only
  split
  · exact hnext.raise hr rfl _
  · split_ifs
    · exact hnext.raise hr rfl _
    · have hpending : ∀ pending : AList fun _ : Text => PendingRequest,
          Gapless env { c with nextId := c.nextId + 1, pending } := fun _ =>
        h.of_eq (keeps_of_eq rfl) rfl rfl rfl rfl rfl rfl rfl
      refine (hpending _).modifyRequest r fun request' hr' => ⟨rfl, fun _ => ?_, fun h => h⟩
      obtain rfl := Option.some.inj (hr.symm.trans hr')
      exact hphase

theorem Gapless.drainFailed (h : Gapless env c) {r : Nat} {request : Request}
    (hr : c.requests[r]? = some request) (k : Nat) (message : Text) :
    Gapless env (c.drainFailed r k request message) := by
  unfold Client.drainFailed
  dsimp only
  generalize SdkError.connection _ = error
  obtain ⟨request', hr', -, -, hsame⟩ := exists_request_abort error k hr
  have haborted : Gapless env { c.abortConnection error k with writeLock := none } :=
    (h.abort error k).of_eq (keeps_of_eq rfl) rfl rfl rfl rfl rfl rfl rfl
  exact haborted.failWrite hr' hsame error

theorem Gapless.createTask (h : Gapless env c) (action : Text) (payload : PyValue) :
    Gapless env (c.createTask action payload .call) :=
  h.of_eq (keeps_append rfl (List.forall_mem_singleton.mpr ⟨Or.inl rfl, answers_new _ _ _⟩)) rfl rfl
    rfl rfl rfl rfl rfl

theorem Gapless.subscribe (h : Gapless env c) (network : Text) (streams : List Text)
    (queueSize : Nat) : Gapless env { c with
      subscriptions := c.subscriptions ++ [.new network streams queueSize] } := by
  refine ⟨h.tables.subscribe rfl rfl, h.entering.keep ⟨fun i s hi => ⟨s, ?_, rfl, rfl, id, id⟩,
    fun i s hi hnone => ?_⟩ (keeps_of_eq rfl)⟩
  · rw [List.getElem?_append_left (List.getElem?_eq_some_iff.mp hi).1, hi]
  · rw [List.getElem?_append_right (List.getElem?_eq_none_iff.mp hnone)] at hi
    obtain rfl := List.mem_singleton.mp (List.mem_of_getElem? hi)
    rfl

theorem Gapless.modifySubscription (h : Gapless env c) (i : Nat) {f : Subscription → Subscription}
    (hf : ∀ s, c.subscriptions[i]? = some s → Continues s (f s) [] [] ∧
      (s.entered = true → (f s).entered = true) ∧ (s.closed = true → (f s).closed = true)) :
    Gapless env (c.modifySubscription i f) :=
  ⟨h.tables.modify (fun s hi => (hf s hi).1) fun _ _ => rfl,
    h.entering.keep (follows_modify i fun s hi =>
      ⟨(hf s hi).1.subscriptionId, (hf s hi).1.connection, (hf s hi).2⟩) (keeps_of_eq rfl)⟩

theorem Gapless.aclose (h : Gapless env c) {i : Nat} {s : Subscription}
    (hi : c.subscriptions[i]? = some s) : Gapless env (c.aclose i s) := by
  have hclosed : Follows c (c.modifySubscription i fun s => { s with closed := true }) :=
    follows_modify i fun _ _ => ⟨rfl, rfl, id, fun _ => rfl⟩
  have hpushes : (c.aclose i s).pushes env = c.pushes env := by
    refine pushes_of_eq env ?_
    unfold Client.aclose
    dsimp only
    split <;> rfl
  refine ⟨hpushes ▸ h.tables.aclose hi, ?_⟩
  unfold Client.aclose
  dsimp only
  split
  · exact h.entering.keep (hclosed.trans (follows_modify i fun _ _ => ⟨rfl, rfl, id, id⟩))
      (keeps_of_eq rfl)
  · next id _ =>
    have hforgotten : Entering (unregisterEventHandler
        (c.modifySubscription i fun s => { s with closed := true }) id) :=
      h.entering.keep (hclosed.trans (follows_of_eq rfl)) (keeps_of_eq rfl)
    refine hforgotten.createTask _ _ nofun fun j hj => ?_
    obtain rfl := Purpose.leave.inj hj
    refine ⟨{ s with closed := true }, ?_, rfl⟩
    rw [unregisterEventHandler, Client.modifySubscription, List.getElem?_modify_eq, hi]
    rfl

theorem Gapless.enter (h : Gapless env c) {i : Nat} {s : Subscription}
    (hi : c.subscriptions[i]? = some s) (hentered : s.entered = false) :
    Gapless env (c.enter i s) := by
  have hmarked : Tables env.orphanEventLimit (c.pushes env) noneLeft
      (c.modifySubscription i fun s => { s with entered := true }) :=
    h.tables.modify (fun s _ => ⟨rfl, rfl, Or.inl List.prefix_rfl, fun hopen => ⟨hopen, rfl⟩⟩)
      fun _ _ => rfl
  exact ⟨hmarked.of_eq rfl rfl rfl rfl rfl rfl, h.entering.enter hi hentered⟩

/-- **One move.** Subscriptions stay free of gaps in an undisturbed move. -/
theorem Gapless.step {a : ClientAction} (h : Gapless env c) (hundisturbed : Undisturbed env c a)
    (hs : c.step env a = some c') : Gapless env c' := by
  have hlock : ∀ connectLock writeLock, Gapless env { c with connectLock, writeLock } :=
    fun _ _ => h.of_eq (keeps_of_eq rfl) rfl rfl rfl rfl rfl rfl rfl
  cases moves_of_step hs with
  | request action payload => exact h.createTask action payload
  | subscribe network streams => exact h.subscribe network streams _
  | close => exact h.close
  | enter hi hentered => exact h.enter hi hentered
  | anext | cancelNext =>
    exact h.modifySubscription _ fun s _ =>
      ⟨⟨rfl, rfl, Or.inl List.prefix_rfl, fun hopen => ⟨hopen, rfl⟩⟩, id, id⟩
  | @getNext i s item rest hi hqueue =>
    refine h.modifySubscription i fun s' hs' => ?_
    obtain rfl := Option.some.inj (hi.symm.trans hs')
    have hshown := shown_getNext hqueue
    cases item <;>
      exact ⟨⟨rfl, rfl, Or.inl (hshown ▸ List.prefix_rfl), fun hopen => ⟨hopen, by rw [hshown]⟩⟩,
        id, id⟩
  | aclose hi => exact h.aclose hi
  | start hr hphase =>
    unfold Client.start
    split_ifs
    · exact h.raise hr rfl _
    · exact h.raise hr rfl _
    · exact h.setPhase hr (by simp [hphase]) _
    · exact h.setPhase hr (by simp [hphase]) _
  | lockConnect hr hphase =>
    unfold Client.lockConnect
    split_ifs
    · exact h.raise hr rfl _
    · exact h.setPhase hr (by simp [hphase]) _
    · exact (hlock (some _) c.writeLock).setPhase hr (by simp [hphase]) _
  | opened hr hphase => exact h.opened hr (by simp [hphase]) hundisturbed
  | openFailed message hr => exact (hlock none c.writeLock).raise hr rfl _
  | send hr hphase => exact h.send hr (by simp [hphase])
  | write hr hphase => exact h.write hr (by simp [hphase]) _
  | drained hr hphase => exact (hlock c.connectLock none).setPhase hr (by simp [hphase]) _
  | drainFailed message hr => exact h.drainFailed hr _ message
  | @resume r request outcome hr hphase hfuture =>
    refine h.settle hr rfl fun i data id hpurpose hdata hid =>
      ⟨rfl, by simp [hphase], hfuture, ?_⟩
    simp only [Undisturbed, hr, hpurpose, hfuture, hdata, hid] at hundisturbed
    exact hundisturbed
  | timeout hr => exact h.giveUp hr _
  | cancelEarly hr => exact h.raise hr rfl _
  | cancelOpening hr => exact (hlock none c.writeLock).raise hr rfl _
  | cancelWriting hr => exact h.failWrite hr rfl _
  | cancelDraining hr => exact (hlock c.connectLock none).failWrite hr rfl _
  | cancelAwaiting hr => exact h.giveUp hr _
  | read chunk hk =>
    simp only [Undisturbed, hk] at hundisturbed
    exact h.read hk hundisturbed
  | endOfFile => exact h.endReader _ _
  | readFailed => exact h.endReader _ _
  | lost => exact h.modifyConnection _ fun _ => rfl

def registrationFrame : Text :=
  ("\x7b\"id\":\"req_1\",\"protocolVersion\":1,\"success\":true,".toList ++
    "\"data\":\x7b\"subscriptionId\":\"sub_1\"\x7d\x7d".toList)

/-- A subscription has been entered and its registration has been sent. -/
def registrationSent : List ClientAction :=
  [.subscribe "home".toList ["temperature".toList] 16, .enter 0, .start 0, .lockConnect 0,
    .opened 0, .send 0, .write 0, .drained 0]

/-- The connection ends after the response, before the task that made the request goes on. -/
def disturbedRun : List ClientAction :=
  registrationSent ++
    [.read 0 (Text.toBytes registrationFrame ++ [newline]), .endOfFile 0, .resume 0, .anext 0]

end Client

end Thalweg.SdkPython
