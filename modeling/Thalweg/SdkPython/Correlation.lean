import Thalweg.SdkPython.Frames

/-!
# Requests and their responses

Every request gets an ID of its own. It is pending from then on until its response has been
processed, its connection has failed or its task gives it up. A request that returns data returns
the data of a frame that carries its ID.

## Main definitions

* `Client.Answered`: a request has been answered with some data.
* `Client.Correlated`: frames are processed in order, and requests settle once, with their own
  responses.

## Main results

* `Client.correlated_of_run`: a client is always correlated.
-/

namespace Thalweg.SdkPython

/-- The request has no ID yet. -/
def RequestPhase.isEarly : RequestPhase → Bool
  | .created => true
  | .connecting => true
  | .opening => true
  | .connected => true
  | _ => false

/-- The request has an ID and has not settled. -/
def RequestPhase.isWaiting : RequestPhase → Bool
  | .writing _ => true
  | .draining _ => true
  | .awaiting => true
  | _ => false

namespace Client

variable {env : Environment} {c c' : Client}

/-- A successful frame that carries the ID of the request has been processed, with that data. -/
def Answered (env : Environment) (c : Client) (r : Nat) (data : PyValue) : Prop :=
  ∃ (request : Request) (id : Text) (k : Nat) (connection : Connection) (frame : List UInt8)
      (message : PyDict), c.requests[r]? = some request ∧ request.id = some id ∧
    c.connections[k]? = some connection ∧ (frame, true) ∈ connection.processed ∧
    readFrame env frame = .ok (.response id true message) ∧ message.get "data".toList = data

/-- Requests keep their IDs, and connections what they have processed. -/
structure Extends (c c' : Client) : Prop where
  requests : ∀ (r : Nat) (request : Request) (id : Text), c.requests[r]? = some request →
    request.id = some id → ∃ request', c'.requests[r]? = some request' ∧ request'.id = some id
  connections : ∀ (k : Nat) (connection : Connection), c.connections[k]? = some connection →
    ∃ connection', c'.connections[k]? = some connection' ∧
      ∀ x ∈ connection.processed, x ∈ connection'.processed

theorem Answered.mono {r : Nat} {data : PyValue} (h : Answered env c r data)
    (hextends : Extends c c') : Answered env c' r data := by
  obtain ⟨request, id, k, connection, frame, message, hr, hid, hk, hframe, hread, hdata⟩ := h
  obtain ⟨request', hr', hid'⟩ := hextends.requests r request id hr hid
  obtain ⟨connection', hk', hprocessed⟩ := hextends.connections k connection hk
  exact ⟨request', id, k, connection', frame, message, hr', hid', hk', hprocessed _ hframe, hread,
    hdata⟩

/-- What is known of the requests. -/
structure Tracked (env : Environment) (c : Client) : Prop where
  pending : ∀ id p, c.pending.lookup id = some p →
    ∃ request, c.requests[p.request]? = some request ∧
    request.id = some id ∧ request.future = none ∧ request.phase.isWaiting = true
  early : ∀ (r : Nat) request, c.requests[r]? = some request → request.phase.isEarly = true →
    request.id = none ∧ request.future = none
  ids : ∀ (r : Nat) request id, c.requests[r]? = some request → request.id = some id →
    ∃ n ≤ c.nextId, id = requestId n
  distinct : ∀ (r r' : Nat) request request' id, c.requests[r]? = some request →
    c.requests[r']? = some request' → request.id = some id → request'.id = some id → r = r'
  settled : ∀ x ∈ c.settled, ∃ request, c.requests[x.1]? = some request ∧ request.phase = .settled
  nodup : (c.settled.map Prod.fst).Nodup
  future : ∀ (r : Nat) request data, c.requests[r]? = some request →
    request.future = some (.returned data) → Answered env c r data
  returned : ∀ r data, (r, .returned data) ∈ c.settled → Answered env c r data

theorem tracked_new (env : Environment) : Tracked env new := by
  constructor <;> simp [new]

/-! ### Changes of one request -/

theorem getElem?_modify_cases {α : Type*} {l : List α} {r j : Nat} {f : α → α} {a b : α}
    (hr : l[r]? = some a) (hj : (l.modify r f)[j]? = some b) :
    (j = r ∧ b = f a) ∨ (j ≠ r ∧ l[j]? = some b) := by
  by_cases hrj : r = j
  · subst hrj
    rw [List.getElem?_modify_eq, hr] at hj
    exact Or.inl ⟨rfl, (Option.some.inj hj).symm⟩
  · rw [List.getElem?_modify_ne _ _ hrj] at hj
    exact Or.inr ⟨fun h => hrj h.symm, hj⟩

theorem getElem?_modify_self {α : Type*} {l : List α} {r : Nat} {f : α → α} {a : α}
    (hr : l[r]? = some a) : (l.modify r f)[r]? = some (f a) := by
  rw [List.getElem?_modify_eq, hr]
  rfl

theorem extends_modify {r : Nat} {request : Request} {f : Request → Request}
    (hr : c.requests[r]? = some request) (hrequests : c'.requests = c.requests.modify r f)
    (hconnections : c'.connections = c.connections) (hid : (f request).id = request.id) :
    Extends c c' where
  requests j x id hj hx := by
    rw [hrequests]
    by_cases hrj : r = j
    · subst hrj
      obtain rfl := Option.some.inj (hr.symm.trans hj)
      exact ⟨f request, getElem?_modify_self hr, hid.trans hx⟩
    · exact ⟨x, by rw [List.getElem?_modify_ne _ _ hrj, hj], hx⟩
  connections k x hk := ⟨x, by rw [hconnections, hk], fun _ hy => hy⟩

/-- One request changes, and some are pending no more. -/
theorem Tracked.modify (h : Tracked env c) {r : Nat} {request : Request} {f : Request → Request}
    (hr : c.requests[r]? = some request) (hrequests : c'.requests = c.requests.modify r f)
    (hconnections : c'.connections = c.connections) (hnext : c'.nextId = c.nextId)
    (hsettled : c'.settled = c.settled) (hid : (f request).id = request.id)
    (hpending : ∀ id p, c'.pending.lookup id = some p → c.pending.lookup id = some p ∧
      (p.request = r → (f request).future = none ∧ (f request).phase.isWaiting = true))
    (hearly : (f request).phase.isEarly = true →
      request.phase.isEarly = true ∧ (f request).future = request.future)
    (hphase : request.phase = .settled → (f request).phase = .settled)
    (hfuture : ∀ data, (f request).future = some (.returned data) → Answered env c r data) :
    Tracked env c' := by
  have hextends := extends_modify hr hrequests hconnections hid
  refine ⟨fun id p hp => ?_, fun j x hj hx => ?_, fun j x id hj hx => ?_,
    fun j j' x x' id hj hj' hx hx' => ?_, fun x hx => ?_, by rw [hsettled]; exact h.nodup,
    fun j x data hj hx => ?_, fun j data hj => ?_⟩
  · obtain ⟨hold, hchanged⟩ := hpending id p hp
    obtain ⟨x, hx, hxid, hxfuture, hxphase⟩ := h.pending id p hold
    rw [hrequests]
    by_cases hpr : p.request = r
    · rw [hpr] at hx ⊢
      obtain rfl := Option.some.inj (hr.symm.trans hx)
      obtain ⟨hfut, hwait⟩ := hchanged hpr
      exact ⟨_, getElem?_modify_self hr, hid.trans hxid, hfut, hwait⟩
    · exact ⟨x, by rw [List.getElem?_modify_ne _ _ (Ne.symm hpr), hx], hxid, hxfuture, hxphase⟩
  · rw [hrequests] at hj
    rcases getElem?_modify_cases hr hj with ⟨rfl, rfl⟩ | ⟨-, hj⟩
    · obtain ⟨hwas, hsame⟩ := hearly hx
      obtain ⟨hnone, hundone⟩ := h.early _ _ hr hwas
      exact ⟨hid.trans hnone, hsame.trans hundone⟩
    · exact h.early j x hj hx
  · rw [hrequests] at hj
    rw [hnext]
    rcases getElem?_modify_cases hr hj with ⟨rfl, rfl⟩ | ⟨-, hj⟩
    · exact h.ids _ _ id hr (hid.symm.trans hx)
    · exact h.ids j x id hj hx
  · rw [hrequests] at hj hj'
    rcases getElem?_modify_cases hr hj with ⟨hjr, rfl⟩ | ⟨-, hold⟩ <;>
      rcases getElem?_modify_cases hr hj' with ⟨hjr', rfl⟩ | ⟨-, hold'⟩
    · rw [hjr, hjr']
    · exact hjr.trans (h.distinct _ _ _ _ id hr hold' (hid.symm.trans hx) hx')
    · exact (h.distinct _ _ _ _ id hold hr hx (hid.symm.trans hx')).trans hjr'.symm
    · exact h.distinct _ _ _ _ id hold hold' hx hx'
  · obtain ⟨y, hy, hyphase⟩ := h.settled x (hsettled ▸ hx)
    rw [hrequests]
    by_cases hxr : r = x.1
    · subst hxr
      obtain rfl := Option.some.inj (hr.symm.trans hy)
      exact ⟨_, getElem?_modify_self hr, hphase hyphase⟩
    · exact ⟨y, by rw [List.getElem?_modify_ne _ _ hxr, hy], hyphase⟩
  · rw [hrequests] at hj
    rcases getElem?_modify_cases hr hj with ⟨rfl, rfl⟩ | ⟨-, hj⟩
    · exact (hfuture data hx).mono hextends
    · exact (h.future j x data hj hx).mono hextends
  · exact (h.returned j data (hsettled ▸ hj)).mono hextends

/-- Requests are added, and connections process more frames. -/
theorem Tracked.extend (h : Tracked env c) {new : List Request}
    (hrequests : c'.requests = c.requests ++ new)
    (hnew : ∀ request ∈ new, ∃ action payload purpose,
      request = Request.new action payload purpose)
    (hconnections : ∀ (k : Nat) (connection : Connection), c.connections[k]? = some connection →
      ∃ connection', c'.connections[k]? = some connection' ∧
        ∀ x ∈ connection.processed, x ∈ connection'.processed)
    (hpending : c'.pending = c.pending) (hnext : c'.nextId = c.nextId)
    (hsettled : c'.settled = c.settled) : Tracked env c' := by
  have hkept : ∀ (r : Nat) request, c.requests[r]? = some request →
      c'.requests[r]? = some request := fun r request hr => by
    rw [hrequests, List.getElem?_append_left (List.getElem?_eq_some_iff.mp hr).1, hr]
  have hextends : Extends c c' :=
    ⟨fun r request id hr hid => ⟨request, hkept r request hr, hid⟩, hconnections⟩
  -- a request is an old one, or it has no ID and no outcome
  have hcases : ∀ (r : Nat) request, c'.requests[r]? = some request →
      c.requests[r]? = some request ∨ (request.id = none ∧ request.future = none) := by
    intro r request hr
    rw [hrequests] at hr
    rcases Nat.lt_or_ge r c.requests.length with hlt | hge
    · rw [List.getElem?_append_left hlt] at hr
      exact Or.inl hr
    · rw [List.getElem?_append_right hge] at hr
      obtain ⟨action, payload, purpose, rfl⟩ := hnew request (List.mem_of_getElem? hr)
      exact Or.inr ⟨rfl, rfl⟩
  refine ⟨fun id p hp => ?_, fun r request hr hearly => ?_, fun r request id hr hid => ?_,
    fun r r' request request' id hr hr' hid hid' => ?_, fun x hx => ?_,
    by rw [hsettled]; exact h.nodup, fun r request data hr hdata => ?_, fun r data hr => ?_⟩
  · obtain ⟨request, hr, hrest⟩ := h.pending id p (hpending ▸ hp)
    exact ⟨request, hkept _ _ hr, hrest⟩
  · exact (hcases r request hr).elim (fun hold => h.early r request hold hearly) id
  · rw [hnext]
    rcases hcases r request hr with hold | ⟨hnone, -⟩
    · exact h.ids r request id hold hid
    · rw [hnone] at hid
      cases hid
  · rcases hcases r request hr with hold | ⟨hnone, -⟩
    · rcases hcases r' request' hr' with hold' | ⟨hnone, -⟩
      · exact h.distinct r r' request request' id hold hold' hid hid'
      · rw [hnone] at hid'
        cases hid'
    · rw [hnone] at hid
      cases hid
  · obtain ⟨request, hr, hphase⟩ := h.settled x (hsettled ▸ hx)
    exact ⟨request, hkept _ _ hr, hphase⟩
  · rcases hcases r request hr with hold | ⟨-, hnone⟩
    · exact (h.future r request data hold hdata).mono hextends
    · rw [hnone] at hdata
      cases hdata
  · exact (h.returned r data (hsettled ▸ hr)).mono hextends

theorem Tracked.quiet (h : Tracked env c) (hquiet : Quiet c c') : Tracked env c' := by
  obtain ⟨new, hnew, hall⟩ := hquiet.requests
  refine h.extend hnew (fun request hrequest => ?_) (fun k connection hk => ?_) hquiet.pending
    hquiet.nextId hquiet.settled
  · obtain ⟨action, payload, hnew⟩ := hall request hrequest
    exact ⟨action, payload, _, hnew⟩
  · exact ⟨connection, by rw [hquiet.connections, hk], fun _ hx => hx⟩

/-- What is known of the requests depends on them and on the frames alone. -/
theorem Tracked.of_eq (h : Tracked env c) (hrequests : c'.requests = c.requests)
    (hconnections : c'.connections = c.connections) (hpending : c'.pending = c.pending)
    (hnext : c'.nextId = c.nextId) (hsettled : c'.settled = c.settled) : Tracked env c' :=
  h.extend (hrequests.trans (List.append_nil _).symm) (List.forall_mem_nil _)
    (fun k connection hk => ⟨connection, by rw [hconnections, hk], fun _ hx => hx⟩) hpending hnext
    hsettled

theorem Tracked.createTask (h : Tracked env c) (action : Text) (payload : PyValue)
    (purpose : Purpose) : Tracked env (c.createTask action payload purpose) :=
  h.extend rfl (List.forall_mem_singleton.mpr ⟨action, payload, purpose, rfl⟩)
    (fun _ connection hk => ⟨connection, hk, fun _ hx => hx⟩) rfl rfl rfl

theorem Tracked.modifyConnection (h : Tracked env c) {k : Nat} {f : Connection → Connection}
    (hf : ∀ (connection : Connection), ∀ x ∈ connection.processed, x ∈ (f connection).processed) :
    Tracked env (c.modifyConnection k f) := by
  refine h.extend (List.append_nil _).symm (List.forall_mem_nil _) (fun j connection hj => ?_) rfl
    rfl rfl
  rw [connections_modifyConnection]
  by_cases hkj : k = j
  · subst hkj
    exact ⟨_, getElem?_modify_self hj, hf connection⟩
  · exact ⟨connection, by rw [List.getElem?_modify_ne _ _ hkj, hj], fun _ hx => hx⟩

theorem Tracked.note (h : Tracked env c) (k : Nat) (frame : List UInt8) (accepted : Bool) :
    Tracked env (c.note k frame accepted) :=
  h.modifyConnection fun _ _ hx => List.mem_append_left _ hx

/-! ### The pending table -/

theorem lookup_of_lookup_erase {id id' : Text} {s : AList fun _ : Text => PendingRequest}
    {p : PendingRequest} (h : (s.erase id).lookup id' = some p) :
    id' ≠ id ∧ s.lookup id' = some p := by
  by_cases hid : id' = id
  · subst hid
    rw [AList.lookup_erase] at h
    cases h
  · rw [AList.lookup_erase_ne hid] at h
    exact ⟨hid, h⟩

theorem Tracked.popPending (h : Tracked env c) (id : Text) : Tracked env (c.popPending id) := by
  refine ⟨fun id' p hp => h.pending id' p (lookup_of_lookup_erase hp).2, h.early, h.ids, h.distinct,
    h.settled, h.nodup, h.future, h.returned⟩

/-- No pending request is the request `r`. -/
def NotPending (c : Client) (r : Nat) : Prop := ∀ id p, c.pending.lookup id = some p → p.request ≠ r

theorem Tracked.notPending_of_early (h : Tracked env c) {r : Nat} {request : Request}
    (hr : c.requests[r]? = some request) (hphase : request.phase.isWaiting = false) :
    c.NotPending r := by
  rintro id p hp rfl
  obtain ⟨request', hr', -, -, hwaiting⟩ := h.pending id p hp
  obtain rfl := Option.some.inj (hr.symm.trans hr')
  rw [hphase] at hwaiting
  cases hwaiting

/-- The entry of a request is that of its ID. -/
theorem Tracked.id_eq (h : Tracked env c) {r : Nat} {request : Request}
    (hr : c.requests[r]? = some request) {id : Text} {p : PendingRequest}
    (hp : c.pending.lookup id = some p) : p.request = r ↔ request.id = some id := by
  obtain ⟨request', hr', hid', -, -⟩ := h.pending id p hp
  constructor
  · rintro rfl
    obtain rfl := Option.some.inj (hr.symm.trans hr')
    exact hid'
  · exact fun hid => h.distinct _ _ _ _ id hr' hr hid' hid

theorem Tracked.notPending_popPending (h : Tracked env c) {r : Nat} {request : Request}
    (hr : c.requests[r]? = some request) {id : Text} (hid : request.id = some id) :
    (c.popPending id).NotPending r := by
  rintro id' p hp hpr
  obtain ⟨hne, hold⟩ := lookup_of_lookup_erase hp
  have hid' := (h.id_eq hr hold).mp hpr
  exact hne (Option.some.inj (hid'.symm.trans hid))

theorem Tracked.failFuture (h : Tracked env c) {r : Nat} {request : Request}
    (hr : c.requests[r]? = some request) (hearly : request.phase.isEarly = false)
    (hpending : c.NotPending r) (error : SdkError) : Tracked env (c.failFuture error r) := by
  refine h.modify hr rfl rfl rfl rfl rfl
    (fun id p hp => ⟨hp, fun hpr => absurd hpr (hpending id p hp)⟩)
    (fun hphase => ?_) (fun hphase => hphase) (fun data hdata => ?_)
  · rw [show request.phase.isEarly = true from hphase] at hearly
    cases hearly
  · exact h.future r request data hr (Request.future_of_fail hdata)

/-- All waiters fail, and nothing is pending any more. -/
theorem Tracked.fails (h : Tracked env c) {error : SdkError} (hfails : Fails c c' error) :
    Tracked env c' := by
  -- a request keeps its ID and its phase, and its outcome if it has one
  have hcases : ∀ (r : Nat) request', c'.requests[r]? = some request' → ∃ request,
      c.requests[r]? = some request ∧ request'.id = request.id ∧ request'.phase = request.phase ∧
      (request.phase.isEarly = true → request'.future = request.future) ∧
      ∀ data, request'.future = some (.returned data) → request.future = some (.returned data) := by
    intro r request' hr'
    rw [hfails.requests] at hr'
    obtain ⟨request, hr, rfl⟩ := Option.map_eq_some_iff.mp hr'
    refine ⟨request, hr, by split_ifs <;> rfl, by split_ifs <;> rfl, fun hearly => ?_,
      fun data hdata => ?_⟩
    · rw [if_neg]
      rintro ⟨p, hp, rfl⟩
      obtain ⟨request', hr', -, -, hwaiting⟩ := h.pending p.1 p.2 (AList.mem_lookup_iff.mpr hp)
      obtain rfl := Option.some.inj (hr.symm.trans hr')
      cases hphase : request.phase <;> simp [hphase, RequestPhase.isEarly,
        RequestPhase.isWaiting] at hearly hwaiting
    · split_ifs at hdata
      · exact Request.future_of_fail hdata
      · exact hdata
  have hkept : ∀ (r : Nat) request, c.requests[r]? = some request → ∃ request',
      c'.requests[r]? = some request' ∧ request'.id = request.id ∧
      request'.phase = request.phase := by
    intro r request hr
    rw [hfails.requests, hr]
    exact ⟨_, rfl, by split_ifs <;> rfl, by split_ifs <;> rfl⟩
  have hextends : Extends c c' := by
    refine ⟨fun r request id hr hid => ?_, fun k connection hk =>
      ⟨connection, by rw [hfails.connections, hk], fun _ hx => hx⟩⟩
    obtain ⟨request', hr', hid', -⟩ := hkept r request hr
    exact ⟨request', hr', hid'.trans hid⟩
  refine ⟨fun id p hp => ?_, fun r request' hr' hearly => ?_, fun r request' id hr' hid => ?_,
    fun r s request' request'' id hr' hs' hid hid' => ?_, fun x hx => ?_,
    by rw [hfails.settled]; exact h.nodup, fun r request' data hr' hdata => ?_,
    fun r data hr => (h.returned r data (hfails.settled ▸ hr)).mono hextends⟩
  · rw [hfails.pending, AList.lookup_empty] at hp
    cases hp
  · obtain ⟨request, hr, hid, hphase, hsame, -⟩ := hcases r request' hr'
    rw [hphase] at hearly
    obtain ⟨hnone, hundone⟩ := h.early r request hr hearly
    exact ⟨hid.trans hnone, (hsame hearly).trans hundone⟩
  · obtain ⟨request, hr, hsame, -⟩ := hcases r request' hr'
    rw [hfails.nextId]
    exact h.ids r request id hr (hsame.symm.trans hid)
  · obtain ⟨request, hr, hsame, -⟩ := hcases r request' hr'
    obtain ⟨request₁, hs, hsame', -⟩ := hcases s request'' hs'
    exact h.distinct r s request request₁ id hr hs (hsame.symm.trans hid) (hsame'.symm.trans hid')
  · obtain ⟨request, hr, hphase⟩ := h.settled x (hfails.settled ▸ hx)
    obtain ⟨request', hr', -, hsame⟩ := hkept x.1 request hr
    exact ⟨request', hr', hsame.trans hphase⟩
  · obtain ⟨request, hr, -, -, -, hreturned⟩ := hcases r request' hr'
    exact (h.future r request data hr (hreturned data hdata)).mono hextends

theorem Tracked.abort (h : Tracked env c) (error : SdkError) (k : Nat) :
    Tracked env (c.abortConnection error k) := by
  unfold abortConnection
  split_ifs
  · have hcleared : Tracked env { c with writer := none } := h.of_eq rfl rfl rfl rfl rfl
    refine Tracked.fails ?_ (fails_failWaiters _ error)
    exact hcleared.modifyConnection fun _ _ hx => hx
  · exact h

/-! ### Requests settle -/

theorem Tracked.setPhase (h : Tracked env c) {r : Nat} {request : Request}
    (hr : c.requests[r]? = some request) {phase : RequestPhase}
    (hwaiting : request.phase.isWaiting = true → phase.isWaiting = true)
    (hearly : phase.isEarly = true → request.phase.isEarly = true)
    (hsettled : request.phase = .settled → phase = .settled) :
    Tracked env (c.setPhase r phase) := by
  refine h.modify hr rfl rfl rfl rfl rfl (fun id p hp => ⟨hp, fun hpr => ?_⟩)
    (fun hphase => ⟨hearly hphase, rfl⟩) hsettled
    (fun data hdata => h.future r request data hr hdata)
  obtain ⟨request', hr', -, hfuture, hphase⟩ := h.pending id p hp
  rw [hpr] at hr'
  obtain rfl := Option.some.inj (hr.symm.trans hr')
  exact ⟨hfuture, hwaiting hphase⟩

/-- A request that has no ID yet goes on. -/
theorem Tracked.advance (h : Tracked env c) {r : Nat} {request : Request}
    (hr : c.requests[r]? = some request) (hearly : request.phase.isEarly = true)
    (phase : RequestPhase) : Tracked env (c.setPhase r phase) := by
  refine h.setPhase hr (fun hwaiting => ?_) (fun _ => hearly) (fun hsettled => ?_)
  · cases hphase : request.phase <;>
      simp [hphase, RequestPhase.isWaiting, RequestPhase.isEarly] at hwaiting hearly
  · simp [hsettled, RequestPhase.isEarly] at hearly

theorem Tracked.append_settled (h : Tracked env c) {r : Nat} {request : Request}
    (hr : c.requests[r]? = some request) (hphase : request.phase = .settled)
    (hnew : r ∉ c.settled.map Prod.fst) {outcome : Outcome}
    (hdata : ∀ data, outcome = .returned data → Answered env c r data) :
    Tracked env { c with settled := c.settled ++ [(r, outcome)] } := by
  refine ⟨h.pending, h.early, h.ids, h.distinct, fun x hx => ?_, ?_, h.future, fun s data hs => ?_⟩
  · rcases List.mem_append.mp hx with hx | hx
    · exact h.settled x hx
    · obtain rfl := List.mem_singleton.mp hx
      exact ⟨request, hr, hphase⟩
  · rw [List.map_append, List.nodup_append]
    refine ⟨h.nodup, List.nodup_singleton _, ?_⟩
    rintro x hx y hy rfl
    obtain rfl := List.mem_singleton.mp hy
    exact hnew hx
  · rcases List.mem_append.mp hs with hs | hs
    · exact h.returned s data hs
    · obtain ⟨rfl, rfl⟩ := Prod.mk.inj (List.mem_singleton.mp hs)
      exact hdata data rfl

/-- After a request has settled, its task goes on with its subscription alone. -/
theorem quiet_settle (c : Client) (r : Nat) (request : Request) (outcome : Outcome) :
    Quiet
      { c with
        requests := c.requests.modify r fun request => { request with phase := .settled }
        settled := c.settled ++ [(r, outcome)] }
      (c.settle r request outcome) := by
  unfold settle
  dsimp only
  split
  · exact quiet_register _ _ _ _
  · exact quiet_modifySubscription _ _ _
  · exact quiet_modifySubscription _ _ _
  · exact .refl _

theorem Tracked.settle (h : Tracked env c) {r : Nat} {request : Request}
    (hr : c.requests[r]? = some request) (hphase : request.phase ≠ .settled)
    (hpending : c.NotPending r) {outcome : Outcome}
    (hdata : ∀ data, outcome = .returned data → Answered env c r data) (request' : Request) :
    Tracked env (c.settle r request' outcome) := by
  have hnew : r ∉ c.settled.map Prod.fst := by
    intro hmem
    obtain ⟨x, hx, rfl⟩ := List.mem_map.mp hmem
    obtain ⟨y, hy, hyphase⟩ := h.settled x hx
    obtain rfl := Option.some.inj (hr.symm.trans hy)
    exact hphase hyphase
  have hmodified : Tracked env
      (c.modifyRequest r fun request => { request with phase := .settled }) := by
    refine h.modify hr rfl rfl rfl rfl rfl
      (fun id p hp => ⟨hp, fun hpr => absurd hpr (hpending id p hp)⟩)
      (fun hearly => absurd hearly Bool.false_ne_true) (fun _ => rfl)
      (fun data hdata => h.future r request data hr hdata)
  refine (hmodified.append_settled (getElem?_modify_self hr) rfl hnew fun data houtcome => ?_).quiet
    (quiet_settle c r request' outcome)
  exact (hdata data houtcome).mono (extends_modify hr rfl rfl rfl)

theorem Tracked.raise (h : Tracked env c) {r : Nat} {request : Request}
    (hr : c.requests[r]? = some request) (hphase : request.phase ≠ .settled)
    (hpending : c.NotPending r) (error : SdkError) (request' : Request) :
    Tracked env (c.settle r request' (.raised error)) := by
  refine h.settle hr hphase hpending (fun data hdata => ?_) request'
  cases hdata

/-- A request that waits is pending no more, its future is done, and it settles. -/
theorem Tracked.drop (h : Tracked env c) {r : Nat} {request : Request}
    (hr : c.requests[r]? = some request) (hphase : request.phase.isWaiting = true)
    (hpending : c.NotPending r) (error error' : SdkError) (request' : Request) :
    Tracked env ((c.failFuture error r).settle r request' (.raised error')) := by
  have hearly : request.phase.isEarly = false := by
    cases hp : request.phase <;> simp [hp, RequestPhase.isWaiting, RequestPhase.isEarly] at hphase ⊢
  refine (h.failFuture hr hearly hpending error).raise (getElem?_modify_self hr) ?_ hpending error'
    request'
  intro hsettled
  simp [show request.phase = .settled from hsettled, RequestPhase.isWaiting] at hphase

theorem Tracked.giveUp (h : Tracked env c) {r : Nat} {request : Request}
    (hr : c.requests[r]? = some request) (hphase : request.phase.isWaiting = true)
    (error : SdkError) : Tracked env (c.giveUp r request error) := by
  unfold Client.giveUp
  cases hid : request.id with
  | none =>
    refine h.drop hr hphase (fun id p hp hpr => ?_) _ _ _
    have hsome := (h.id_eq hr hp).mp hpr
    rw [hid] at hsome
    cases hsome
  | some id => exact (h.popPending id).drop hr hphase (h.notPending_popPending hr hid) _ _ _

theorem Tracked.failWrite (h : Tracked env c) {r : Nat} {request request' : Request}
    (hr : c.requests[r]? = some request) (hphase : request.phase.isWaiting = true)
    (hsame : request'.id = request.id) (error : SdkError) :
    Tracked env (c.failWrite r request' error) := by
  have hne : request.phase ≠ .settled := fun hsettled => by
    simp [hsettled, RequestPhase.isWaiting] at hphase
  unfold Client.failWrite
  rw [hsame]
  cases hid : request.id with
  | none =>
    refine h.raise hr hne (fun id p hp hpr => ?_) _ _
    have hsome := (h.id_eq hr hp).mp hpr
    rw [hid] at hsome
    cases hsome
  | some id =>
    dsimp only
    split
    · next hnone =>
      refine h.raise hr hne (fun id' p hp hpr => ?_) _ _
      have hsome := (h.id_eq hr hp).mp hpr
      obtain rfl := Option.some.inj (hid.symm.trans hsome)
      rw [hnone] at hp
      cases hp
    · next p hp =>
      obtain rfl := (h.id_eq hr hp).mpr hid
      exact (h.popPending id).drop hr hphase (h.notPending_popPending hr hid) _ _ _

/-! ### Frames -/

theorem Tracked.complete (h : Tracked env c) {r : Nat} {request : Request}
    (hr : c.requests[r]? = some request) (hphase : request.phase.isEarly = false)
    (hpending : c.NotPending r) (k : Nat) {outcome : Outcome}
    (hdata : ∀ data, outcome = .returned data → Answered env c r data) :
    Tracked env (c.modifyRequest r fun request =>
      { request with future := some outcome, answered := some k }) := by
  refine h.modify hr rfl rfl rfl rfl rfl
    (fun id p hp => ⟨hp, fun hpr => absurd hpr (hpending id p hp)⟩) (fun hearly => ?_)
    (fun hsettled => hsettled) (fun data houtcome => hdata data (Option.some.inj houtcome))
  rw [show request.phase.isEarly = true from hearly] at hphase
  cases hphase

/-- The future of a pending request is set; it was not done. -/
theorem Tracked.setFuture (h : Tracked env c) {id : Text} {p : PendingRequest}
    (hp : c.pending.lookup id = some p) (k : Nat) (frame : List UInt8) (outcome : Outcome)
    (hdata : ∀ data, outcome = .returned data → Answered env (c.note k frame true) p.request data) :
    ((c.popPending id).setFuture k p.request outcome).2 = none ∧
      Tracked env (((c.popPending id).setFuture k p.request outcome).1.note k frame true) := by
  obtain ⟨request, hr, hid, hfuture, hwaiting⟩ := h.pending id p hp
  have hundone : ((c.popPending id).requests[p.request]?.any fun request =>
      request.future.isSome) = false := by
    rw [show (c.popPending id).requests = c.requests from rfl, hr]
    simp [hfuture]
  have hearly : request.phase.isEarly = false := by
    cases hphase : request.phase <;>
      simp [hphase, RequestPhase.isWaiting, RequestPhase.isEarly] at hwaiting ⊢
  rw [Client.setFuture, hundone]
  refine ⟨rfl, ?_⟩
  have hnoted : Tracked env ((c.popPending id).note k frame true) :=
    (h.popPending id).note k frame true
  exact hnoted.complete hr hearly (h.notPending_popPending hr hid) k hdata

theorem Tracked.processFrame (h : Tracked env c) {k : Nat} {connection : Connection}
    (hk : c.connections[k]? = some connection) (frame : List UInt8) :
    Tracked env ((c.processFrame env k frame).1.note k frame
      (c.processFrame env k frame).2.isNone) := by
  unfold Client.processFrame
  cases hread : readFrame env frame with
  | error error => exact h.note k frame false
  | ok message =>
    cases message with
    | event id event => exact (h.quiet (quiet_dispatchEvent env c id event)).note k frame true
    | response id success message =>
      dsimp only
      cases hp : c.pending.lookup id with
      | none => exact h.note k frame true
      | some p =>
        dsimp only
        cases success with
        | true =>
          obtain ⟨request, hr, hid, -, -⟩ := h.pending id p hp
          obtain ⟨hnone, htracked⟩ := h.setFuture hp k frame
            (.returned (message.get "data".toList)) fun data hdata =>
              ⟨request, id, k, _, frame, message, hr, hid, getElem?_modify_self hk,
                List.mem_append_right _ List.mem_cons_self, hread, Outcome.returned.inj hdata⟩
          rw [if_pos rfl, hnone]
          exact htracked
        | false =>
          rw [if_neg (by simp)]
          cases hdaemon : daemonError p.action message with
          | error error => exact h.note k frame false
          | ok error =>
            obtain ⟨hnone, htracked⟩ := h.setFuture hp k frame (.raised error) nofun
            dsimp only
            rw [hnone]
            exact htracked

theorem connections_note (c : Client) (k : Nat) (frame : List UInt8) (accepted : Bool) :
    (c.note k frame accepted).connections.length = c.connections.length :=
  List.length_modify ..

theorem Tracked.readBuffer (h : Tracked env c) {k : Nat} (hk : k < c.connections.length)
    (fuel : Nat) (buffer : List UInt8) : Tracked env (readBuffer env k fuel c buffer).1 := by
  induction fuel generalizing c buffer with
  | zero => exact h
  | succ fuel ih =>
    rw [Client.readBuffer]
    split
    · split_ifs <;> exact h
    · next frame rest _ =>
      split_ifs
      · exact h
      · exact ih h hk rest
      · have hprocessed := h.processFrame (List.getElem?_eq_getElem hk) frame
        have hlength := congrArg List.length (connections_processFrame env c k frame)
        cases hresult : c.processFrame env k frame with
        | mk c' failure =>
          rw [hresult] at hprocessed hlength
          cases failure with
          | none => exact ih hprocessed (by rw [connections_note]; omega) rest
          | some error => exact hprocessed

theorem Tracked.read (h : Tracked env c) {k : Nat} {connection : Connection}
    (hk : c.connections[k]? = some connection) (chunk : List UInt8) :
    Tracked env (c.read env k connection chunk) := by
  have hextended : Tracked env (c.modifyConnection k fun connection =>
      { connection with stream := connection.stream ++ chunk }) :=
    h.modifyConnection fun _ _ hx => hx
  have hbuffer := hextended.readBuffer (k := k)
    (by rw [connections_modifyConnection, List.length_modify]
        exact (List.getElem?_eq_some_iff.mp hk).1)
    ((connection.buffer ++ chunk).length + 1) (connection.buffer ++ chunk)
  unfold Client.read
  dsimp only
  split
  · next c' rest heq =>
    rw [heq] at hbuffer
    exact hbuffer.modifyConnection fun _ _ hx => hx
  · next c' error heq =>
    rw [heq] at hbuffer
    refine Tracked.abort ?_ error k
    exact hbuffer.modifyConnection fun _ _ hx => hx

/-! ### Moves -/

theorem Tracked.endReader (h : Tracked env c) (k : Nat) (error : SdkError) :
    Tracked env (c.endReader k error) := by
  refine Tracked.abort ?_ error k
  exact h.modifyConnection fun _ _ hx => hx

theorem Tracked.close (h : Tracked env c) : Tracked env c.close := by
  have hclosed : Tracked env { c with closed := true } := h.of_eq rfl rfl rfl rfl rfl
  have hfailed := hclosed.fails (fails_failWaiters { c with closed := true } closedError)
  unfold Client.close
  dsimp only
  split
  · exact hfailed
  · have hcleared : Tracked env
        { failWaiters { c with closed := true } closedError with writer := none } :=
      hfailed.of_eq rfl rfl rfl rfl rfl
    exact hcleared.modifyConnection fun _ _ hx => hx

theorem requestId_injective : Function.Injective requestId := by
  intro m n h
  exact Text.decimal_injective (List.append_cancel_left h)

/-- A request gets an ID that no other one has. -/
theorem Tracked.assign (h : Tracked env c) {r : Nat} {request : Request}
    (hr : c.requests[r]? = some request) (hphase : request.phase = .connected)
    (encoded : List UInt8) (action : Text) :
    Tracked env
      (modifyRequest
        { c with
          nextId := c.nextId + 1
          pending := c.pending.insert (requestId (c.nextId + 1)) ⟨action, r⟩ }
        r fun request =>
          { request with id := some (requestId (c.nextId + 1)), phase := .writing encoded }) := by
  obtain ⟨hnone, hundone⟩ := h.early r request hr (by rw [hphase]; rfl)
  have hnotPending := h.notPending_of_early hr (by rw [hphase]; rfl)
  -- the new ID is not in use
  have hfresh : ∀ (s : Nat) x id, c.requests[s]? = some x → x.id = some id →
      id ≠ requestId (c.nextId + 1) := by
    rintro s x id hs hx rfl
    obtain ⟨n, hn, heq⟩ := h.ids s x _ hs hx
    have := requestId_injective heq
    omega
  set id₁ := requestId (c.nextId + 1)
  set c₁ := modifyRequest
    { c with nextId := c.nextId + 1, pending := c.pending.insert id₁ ⟨action, r⟩ } r
    fun request => { request with id := some id₁, phase := .writing encoded } with hc₁
  have hrequests : c₁.requests = c.requests.modify r fun request =>
      { request with id := some id₁, phase := .writing encoded } := rfl
  have hextends : Extends c c₁ := by
    refine ⟨fun s x id hs hx => ?_, fun k x hk => ⟨x, hk, fun _ hy => hy⟩⟩
    have hsr : r ≠ s := by
      rintro rfl
      obtain rfl := Option.some.inj (hr.symm.trans hs)
      rw [hnone] at hx
      cases hx
    exact ⟨x, by rw [hrequests, List.getElem?_modify_ne _ _ hsr, hs], hx⟩
  refine ⟨fun id p hp => ?_, fun s x hs hx => ?_, fun s x id hs hx => ?_,
    fun s s' x x' id hs hs' hx hx' => ?_, fun x hx => ?_, h.nodup, fun s x data hs hx => ?_,
    fun s data hs => (h.returned s data hs).mono hextends⟩
  · rw [hrequests]
    by_cases hid : id = id₁
    · subst hid
      obtain rfl : (⟨action, r⟩ : PendingRequest) = p :=
        Option.some.inj ((AList.lookup_insert c.pending).symm.trans hp)
      exact ⟨_, getElem?_modify_self hr, rfl, hundone, rfl⟩
    · have hold : c.pending.lookup id = some p := (AList.lookup_insert_ne hid).symm.trans hp
      obtain ⟨x, hx, hrest⟩ := h.pending id p hold
      exact ⟨x, by rw [List.getElem?_modify_ne _ _ (hnotPending id p hold).symm, hx], hrest⟩
  · rw [hrequests] at hs
    rcases getElem?_modify_cases hr hs with ⟨-, rfl⟩ | ⟨-, hold⟩
    · exact absurd hx Bool.false_ne_true
    · exact h.early s x hold hx
  · rw [hrequests] at hs
    rcases getElem?_modify_cases hr hs with ⟨-, rfl⟩ | ⟨-, hold⟩
    · exact ⟨c.nextId + 1, le_rfl, (Option.some.inj hx).symm⟩
    · obtain ⟨n, hn, heq⟩ := h.ids s x id hold hx
      exact ⟨n, Nat.le_succ_of_le hn, heq⟩
  · rw [hrequests] at hs hs'
    rcases getElem?_modify_cases hr hs with ⟨hsr, rfl⟩ | ⟨-, hold⟩ <;>
      rcases getElem?_modify_cases hr hs' with ⟨hsr', rfl⟩ | ⟨-, hold'⟩
    · rw [hsr, hsr']
    · exact absurd (Option.some.inj hx).symm (hfresh s' x' id hold' hx')
    · exact absurd (Option.some.inj hx').symm (hfresh s x id hold hx)
    · exact h.distinct _ _ _ _ id hold hold' hx hx'
  · obtain ⟨y, hy, hphase'⟩ := h.settled x hx
    have hne : r ≠ x.1 := by
      intro heq
      rw [← heq] at hy
      obtain rfl := Option.some.inj (hr.symm.trans hy)
      rw [hphase] at hphase'
      cases hphase'
    exact ⟨y, by rw [hrequests, List.getElem?_modify_ne _ _ hne, hy], hphase'⟩
  · rw [hrequests] at hs
    rcases getElem?_modify_cases hr hs with ⟨-, rfl⟩ | ⟨-, hold⟩
    · exact absurd (hundone.symm.trans hx) nofun
    · exact (h.future s x data hold hx).mono hextends

theorem Tracked.send (h : Tracked env c) {r : Nat} {request : Request}
    (hr : c.requests[r]? = some request) (hphase : request.phase = .connected) :
    Tracked env (c.send env r request) := by
  have hnext : Tracked env { c with nextId := c.nextId + 1 } := by
    refine ⟨h.pending, h.early, fun s x id hs hx => ?_, h.distinct, h.settled, h.nodup, h.future,
      h.returned⟩
    obtain ⟨n, hn, heq⟩ := h.ids s x id hs hx
    exact ⟨n, Nat.le_succ_of_le hn, heq⟩
  have hraise : ∀ error, Tracked env
      (Client.settle { c with nextId := c.nextId + 1 } r request (.raised error)) := fun error =>
    hnext.raise hr (by simp [hphase]) (h.notPending_of_early hr (by rw [hphase]; rfl)) error request
  unfold Client.send
  dsimp only
  split
  · exact hraise _
  · split_ifs
    · exact hraise _
    · exact h.assign hr hphase _ _

theorem Tracked.write (h : Tracked env c) {r : Nat} {request : Request} {encoded : List UInt8}
    (hr : c.requests[r]? = some request) (hphase : request.phase = .writing encoded) :
    Tracked env (c.write r request encoded) := by
  have hwaiting : request.phase.isWaiting = true := by rw [hphase]; rfl
  unfold Client.write
  split
  · next k _ =>
    split_ifs
    · have hlocked : Tracked env { c with writeLock := some r } := h.of_eq rfl rfl rfl rfl rfl
      have hwritten : Tracked env
          (Client.modifyConnection { c with writeLock := some r } k fun connection =>
            { connection with written := connection.written ++ [encoded] }) :=
        hlocked.modifyConnection fun _ _ hx => hx
      exact hwritten.setPhase hr (fun _ => rfl) (fun hearly => absurd hearly Bool.false_ne_true)
        (by simp [hphase])
    · exact h.failWrite hr hwaiting rfl _
  · exact h.failWrite hr hwaiting rfl _

theorem Tracked.drainFailed (h : Tracked env c) {r k : Nat} {request : Request}
    (hr : c.requests[r]? = some request) (hphase : request.phase = .draining k) (message : Text) :
    Tracked env (c.drainFailed r k request message) := by
  unfold Client.drainFailed
  dsimp only
  generalize SdkError.connection _ = error
  obtain ⟨request', hr', hid', hphase', -⟩ := exists_request_abort error k hr
  have haborted : Tracked env { c.abortConnection error k with writeLock := none } :=
    (h.abort error k).of_eq rfl rfl rfl rfl rfl
  exact haborted.failWrite hr' (by rw [hphase', hphase]; rfl) hid'.symm error

theorem Tracked.start (h : Tracked env c) {r : Nat} {request : Request}
    (hr : c.requests[r]? = some request) (hphase : request.phase = .created) :
    Tracked env (c.start r request) := by
  have hraise := h.raise hr (by simp [hphase]) (h.notPending_of_early hr (by rw [hphase]; rfl))
  unfold Client.start
  split_ifs
  · exact hraise _ request
  · exact hraise _ request
  all_goals exact h.advance hr (by rw [hphase]; rfl) _

theorem Tracked.lockConnect (h : Tracked env c) {r : Nat} {request : Request}
    (hr : c.requests[r]? = some request) (hphase : request.phase = .connecting) :
    Tracked env (c.lockConnect r request) := by
  have hlocked : Tracked env { c with connectLock := some r } := h.of_eq rfl rfl rfl rfl rfl
  have hearly : request.phase.isEarly = true := by rw [hphase]; rfl
  unfold Client.lockConnect
  split_ifs
  · exact h.raise hr (by simp [hphase]) (h.notPending_of_early hr (by rw [hphase]; rfl)) _ request
  · exact h.advance hr hearly _
  · exact hlocked.advance hr hearly _

theorem Tracked.opened (h : Tracked env c) {r : Nat} {request : Request}
    (hr : c.requests[r]? = some request) (hphase : request.phase = .opening) :
    Tracked env (c.opened r) := by
  have hconnected : Tracked env
      { c with
        connections := c.connections ++ [Connection.new]
        writer := some c.connections.length
        connectLock := none
        orphanEvents := fun _ => []
        orphanOverflow := ∅
        ignoredSubscriptions := ∅ } := by
    refine h.extend (List.append_nil _).symm (List.forall_mem_nil _) (fun k connection hk => ?_) rfl
      rfl rfl
    refine ⟨connection, ?_, fun _ hx => hx⟩
    rw [List.getElem?_append_left (List.getElem?_eq_some_iff.mp hk).1, hk]
  exact hconnected.advance hr (by rw [hphase]; rfl) _

/-- What is known of the requests stays true in every move. -/
theorem Tracked.step (h : Tracked env c) {a : ClientAction} (hs : c.step env a = some c') :
    Tracked env c' := by
  cases moves_of_step hs with
  | request action payload => exact h.createTask action payload .call
  | subscribe | anext | getNext | cancelNext => exact h.of_eq rfl rfl rfl rfl rfl
  | close => exact h.close
  | enter hi =>
    exact (h.quiet (quiet_modifySubscription _ _ _)).createTask _ _ _
  | @aclose i subscription hi hclosed =>
    have hclosing := h.quiet (quiet_modifySubscription c i fun subscription =>
      { subscription with closed := true })
    unfold Client.aclose
    cases subscription.subscriptionId with
    | none => exact hclosing.quiet (quiet_modifySubscription _ _ _)
    | some id => exact (hclosing.quiet (quiet_unregisterEventHandler _ id)).createTask _ _ _
  | start hr hphase => exact h.start hr hphase
  | lockConnect hr hphase hlock => exact h.lockConnect hr hphase
  | opened hr hphase => exact h.opened hr hphase
  | openFailed message hr hphase =>
    have hfree : Tracked env { c with connectLock := none } := h.of_eq rfl rfl rfl rfl rfl
    exact hfree.raise hr (by simp [hphase]) (h.notPending_of_early hr (by rw [hphase]; rfl)) _ _
  | send hr hphase => exact h.send hr hphase
  | write hr hphase => exact h.write hr hphase
  | drained hr hphase =>
    have hfree : Tracked env { c with writeLock := none } := h.of_eq rfl rfl rfl rfl rfl
    exact hfree.setPhase hr (fun _ => rfl) (fun hearly => absurd hearly Bool.false_ne_true)
      (by simp [hphase])
  | drainFailed message hr hphase => exact h.drainFailed hr hphase message
  | @resume r request outcome hr hphase hfuture =>
    have hnotPending : c.NotPending r := by
      rintro id p hp rfl
      obtain ⟨request', hr', -, hundone, -⟩ := h.pending id p hp
      obtain rfl := Option.some.inj (hr.symm.trans hr')
      rw [hundone] at hfuture
      cases hfuture
    refine h.settle hr (by simp [hphase]) hnotPending (fun data hdata => ?_) request
    exact h.future r request data hr (by rw [hfuture, hdata])
  | timeout hr hphase => exact h.giveUp hr (by rw [hphase]; rfl) _
  | cancelEarly hr hphase =>
    have hcases : ∀ phase : RequestPhase,
        phase = .created ∨ phase = .connecting ∨ phase = .connected →
        phase.isWaiting = false ∧ phase ≠ .settled := by
      rintro phase (rfl | rfl | rfl) <;> exact ⟨rfl, nofun⟩
    obtain ⟨hwaiting, hne⟩ := hcases _ hphase
    exact h.raise hr hne (h.notPending_of_early hr hwaiting) _ _
  | cancelOpening hr hphase =>
    have hfree : Tracked env { c with connectLock := none } := h.of_eq rfl rfl rfl rfl rfl
    exact hfree.raise hr (by simp [hphase]) (h.notPending_of_early hr (by rw [hphase]; rfl)) _ _
  | cancelWriting hr hphase => exact h.failWrite hr (by rw [hphase]; rfl) rfl _
  | cancelDraining hr hphase =>
    have hfree : Tracked env { c with writeLock := none } := h.of_eq rfl rfl rfl rfl rfl
    exact hfree.failWrite hr (by rw [hphase]; rfl) rfl _
  | cancelAwaiting hr hphase => exact h.giveUp hr (by rw [hphase]; rfl) _
  | read chunk hk hreading => exact h.read hk chunk
  | endOfFile hk hreading => exact h.endReader _ _
  | readFailed message hk hreading => exact h.endReader _ _
  | lost hk => exact h.modifyConnection fun _ _ hx => hx

/-- **Correlation.** On every connection the frames have been processed in order, up to the first
one that is malformed or too long, and so they are the first frames of all that may still come.
Requests settle once; one that returns data has been answered with it under its own ID; and a
pending request has not settled, nor is its future done. -/
structure Correlated (env : Environment) (c : Client) : Prop where
  inOrder : ∀ connection ∈ c.connections, connection.InOrder env.maxResponseBytes
  first : ∀ connection ∈ c.connections, ∀ rest, connection.processed.map Prod.fst <+:
    processable env.maxResponseBytes (connection.stream ++ rest)
  once : (c.settled.map Prod.fst).Nodup
  returned : ∀ r data, (r, .returned data) ∈ c.settled → Answered env c r data
  distinct : ∀ (r r' : Nat) request request' id, c.requests[r]? = some request →
    c.requests[r']? = some request' → request.id = some id → request'.id = some id → r = r'
  pending : ∀ id p, c.pending.lookup id = some p → p.request ∉ c.settled.map Prod.fst ∧
    ∃ request, c.requests[p.request]? = some request ∧ request.id = some id ∧ request.future = none

theorem Tracked.notSettled (h : Tracked env c) {id : Text} {p : PendingRequest}
    (hp : c.pending.lookup id = some p) : p.request ∉ c.settled.map Prod.fst := by
  intro hmem
  obtain ⟨x, hx, heq⟩ := List.mem_map.mp hmem
  obtain ⟨request, hr, hphase⟩ := h.settled x hx
  obtain ⟨request', hr', -, -, hwaiting⟩ := h.pending id p hp
  rw [heq] at hr
  obtain rfl := Option.some.inj (hr.symm.trans hr')
  rw [hphase] at hwaiting
  cases hwaiting

/-- A client is always correlated. -/
theorem correlated_of_run {actions : List ClientAction}
    (hrun : Machine.run (step env) new actions = some c) : c.Correlated env := by
  have hframes : FramesInOrder env.maxResponseBytes c :=
    Machine.run_invariant (fun _ _ _ h _ hs => h.step hs) (framesInOrder_new _)
      (Machine.meets_true _ _) hrun
  have htracked : Tracked env c :=
    Machine.run_invariant (fun _ _ _ h _ hs => h.step hs) (tracked_new env)
      (Machine.meets_true _ _) hrun
  refine ⟨fun x hx => (hframes x hx).inOrder, fun x hx => (hframes x hx).inOrder.first,
    htracked.nodup, htracked.returned, htracked.distinct, fun id p hp => ?_⟩
  obtain ⟨request, hr, hid, hfuture, -⟩ := htracked.pending id p hp
  exact ⟨htracked.notSettled hp, request, hr, hid, hfuture⟩

/-! ### A run -/

def exampleRequest : Text :=
  ("\x7b\"id\":\"req_1\",\"protocolVersion\":1,\"action\":\"network_list\",\"payload\":".toList ++
    "\x7b\x7d\x7d".toList)

def exampleResponse : Text :=
  "\x7b\"id\":\"req_1\",\"protocolVersion\":1,\"success\":true,\"data\":[]\x7d".toList

/-- `json` on the request and the response of the run. -/
def exampleEnvironment : Environment where
  loads frame :=
    if frame = Text.toBytes exampleResponse then
      .ok (.dict [("id".toList, .str "req_1".toList), ("protocolVersion".toList, .int 1),
        ("success".toList, .bool true), ("data".toList, .list [])])
    else .error (.malformed "Expecting value: line 1 column 1 (char 0)".toList)
  dumps _ := some (Text.toBytes exampleRequest)
  repr _ := "'/tmp/thalweg.sock'".toList
  socketPath := "/tmp/thalweg.sock".toList
  maxResponseBytes := 64 * 1024 * 1024
  orphanEventLimit := 128
  maxResponseBytes_pos := by decide
  orphanEventLimit_pos := by decide

/-- The response arrives in two chunks, with a blank line before it. -/
def exampleRun : List ClientAction :=
  [.request "network_list".toList (.dict []), .start 0, .lockConnect 0, .opened 0, .send 0,
    .write 0, .drained 0, .read 0 (newline :: (Text.toBytes exampleResponse).take 20),
    .read 0 ((Text.toBytes exampleResponse).drop 20 ++ [newline]), .resume 0]

theorem correlated_exampleRun :
    ∃ c, Machine.run (step exampleEnvironment) new exampleRun = some c ∧ c.settled.length = 1 ∧
      c.Correlated exampleEnvironment := by
  have hany : (Machine.run (step exampleEnvironment) new exampleRun).any
      (fun c => decide (c.settled.length = 1)) = true := by decide +kernel
  obtain ⟨c, hc, hsettled⟩ := Option.any_eq_true _ _ |>.mp hany
  exact ⟨c, hc, of_decide_eq_true hsettled, correlated_of_run hc⟩

end Client

end Thalweg.SdkPython
