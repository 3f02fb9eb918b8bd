import Thalweg.SdkJs.Chunks

/-!
# Events before the handler

Events of a subscription may be pushed before the response to its registration, or before the
awaiting call has installed the handler. They are kept, up to 128 for each subscription, and
replayed when the handler is installed; those beyond are dropped without notice.

## Main results

* `receivesAll_of_few`: if at most 128 events of a subscription are pushed before its handler is
  installed, the handler is called with every event of the subscription, once and in the order of
  their arrival.
-/

namespace Thalweg.SdkJs

variable {E D : Type}

/-- The call has installed its handler for the subscription. -/
def Call.isSubscribed (call : Call D) (subscriptionId : Text) : Bool :=
  match call.phase with
  | .subscribed id => id == subscriptionId
  | _ => false

theorem Call.isSubscribed_iff {call : Call D} {id : Text} :
    call.isSubscribed id = true ↔ call.phase = .subscribed id := by
  unfold Call.isSubscribed
  split
  · next hphase => simp [hphase]
  · next hother =>
    exact ⟨fun h => absurd h Bool.false_ne_true, fun hphase => absurd hphase (hother id)⟩

namespace DaemonClient

/-- The events of a subscription that have been pushed. -/
def pushedOf (c : DaemonClient E D) (subscriptionId : Text) : List E :=
  (c.pushed.filter fun x => decide (x.1 = subscriptionId)).map Prod.snd

/-- The events that the handler of a call has been called with. -/
def handledBy (c : DaemonClient E D) (i : Nat) : List E :=
  (c.handled.filter fun x => decide (x.1 = i)).map Prod.snd

/-- The events that are still to be replayed to the handler of a call. -/
def remaining (c : DaemonClient E D) (i : Nat) : List E :=
  match c.job with
  | .parts _ _ => []
  | .replay j rest => if j = i then rest else []

/-- A call has subscribed under the ID. -/
def Subscribed (c : DaemonClient E D) (i : Nat) (subscriptionId : Text) : Prop :=
  ∃ call, c.calls[i]? = some call ∧ call.phase = .subscribed subscriptionId

/-- The handler of every subscription that has not been given up is called with its events: each
once and in the order of their arrival, from the first one on. -/
def ReceivesAll (c : DaemonClient E D) : Prop :=
  ∀ i subscriptionId, c.Subscribed i subscriptionId → subscriptionId ∉ c.unsubscribed →
    c.handledBy i ++ c.remaining i = c.pushedOf subscriptionId

/-- Where a handler is installed, at most 128 events of its subscription have been pushed, and no
other call has got the same subscription ID. -/
def FewEarly (decoder : Decoder E D) (c : DaemonClient E D) : ClientAction → Prop
  | .resume i =>
    match c.calls[i]?.map Call.phase with
    | some (.resolved data) =>
      let id := decoder.subscriptionId data
      id ∉ c.unsubscribed →
        (c.pushedOf id).length ≤ queuedEventLimit ∧ ∀ call ∈ c.calls, call.isSubscribed id = false
    | _ => True
  | _ => True

instance (decoder : Decoder E D) (c : DaemonClient E D) :
    (a : ClientAction) → Decidable (FewEarly decoder c a)
  | .resume i => by
    unfold FewEarly
    dsimp only
    split <;> infer_instance
  | .request .. => isTrue trivial
  | .subscribe _ => isTrue trivial
  | .unsubscribe .. => isTrue trivial
  | .close => isTrue trivial
  | .work => isTrue trivial
  | .timeout _ => isTrue trivial
  | .emit .. => isTrue trivial

/-! ### What the tables hold -/

/-- The events of a subscription without a handler are kept, as far as there is room. With its
handler, they are handed on. -/
structure Keeps (c : DaemonClient E D) : Prop where
  waiting : ∀ id, id ∉ c.unsubscribed → (∀ i, ¬ c.Subscribed i id) → c.subscriptions id = none ∧
    c.queuedSubscriptionEvents id = (c.pushedOf id).take queuedEventLimit
  handler : ∀ i id, c.Subscribed i id → id ∉ c.unsubscribed → c.subscriptions id = some i ∧
    c.handledBy i ++ c.remaining i = c.pushedOf id
  silent : ∀ i, (∀ id, ¬ c.Subscribed i id) → c.handledBy i = [] ∧ c.remaining i = []
  subscribed : ∀ id i, c.subscriptions id = some i → c.Subscribed i id

theorem keeps_new : Keeps (new : DaemonClient E D) := by
  have hnone : ∀ i id, ¬ (new : DaemonClient E D).Subscribed i id := by
    rintro i id ⟨call, hcall, -⟩
    simp [new] at hcall
  exact ⟨fun _ _ _ => ⟨rfl, rfl⟩, fun i id h => absurd h (hnone i id), fun _ _ => ⟨rfl, rfl⟩,
    fun _ _ h => nomatch h⟩

/-- Nothing changes for the subscriptions. -/
structure Alike (c c' : DaemonClient E D) : Prop where
  calls : ∀ i id, c'.Subscribed i id ↔ c.Subscribed i id
  subscriptions : c'.subscriptions = c.subscriptions
  queued : c'.queuedSubscriptionEvents = c.queuedSubscriptionEvents
  pushed : c'.pushed = c.pushed
  handled : c'.handled = c.handled
  unsubscribed : c'.unsubscribed = c.unsubscribed
  remaining : ∀ i, c'.remaining i = c.remaining i

theorem Keeps.alike {c c' : DaemonClient E D} (h : c.Keeps) (halike : Alike c c') : c'.Keeps := by
  have hpushed : ∀ id, c'.pushedOf id = c.pushedOf id := fun id => by
    rw [pushedOf, halike.pushed, pushedOf]
  have hhandled : ∀ i, c'.handledBy i = c.handledBy i := fun i => by
    rw [handledBy, halike.handled, handledBy]
  refine ⟨fun id hid hnone => ?_, fun i id hi hid => ?_, fun i hnone => ?_, fun id i hi => ?_⟩
  · rw [halike.subscriptions, halike.queued, hpushed]
    exact h.waiting id (halike.unsubscribed ▸ hid) fun i hi => hnone i ((halike.calls i id).mpr hi)
  · rw [halike.subscriptions, hhandled, halike.remaining, hpushed]
    exact h.handler i id ((halike.calls i id).mp hi) (halike.unsubscribed ▸ hid)
  · rw [hhandled, halike.remaining]
    exact h.silent i fun id hi => hnone id ((halike.calls i id).mpr hi)
  · rw [halike.calls]
    exact h.subscribed id i (halike.subscriptions ▸ hi)

/-- The state of the calls, as far as it matters for subscriptions. -/
theorem subscribed_iff_of_modify {calls : List (Call D)} {i j : Nat} {id : Text}
    {f : Call D → Call D}
    (hf : ∀ call, calls[j]? = some call → ((f call).phase = .subscribed id ↔
      call.phase = .subscribed id)) :
    (∃ call, (calls.modify j f)[i]? = some call ∧ call.phase = .subscribed id) ↔
      ∃ call, calls[i]? = some call ∧ call.phase = .subscribed id := by
  by_cases hij : j = i
  · subst hij
    rw [List.getElem?_modify_eq]
    cases hcall : calls[j]? with
    | none => simp
    | some call => simpa using hf call hcall
  · rw [List.getElem?_modify_ne _ _ hij]

theorem settle_phase (call : Call D) {phase : CallPhase D} {id : Text}
    (h : phase ≠ .subscribed id) :
    (call.settle phase).phase = .subscribed id ↔ call.phase = .subscribed id := by
  unfold Call.settle
  split
  · next hwaiting => simp [hwaiting, h]
  · exact Iff.rfl

theorem alike_rejectAll (c : DaemonClient E D) (error : ClientError) :
    Alike c (c.rejectAll error) := by
  refine ⟨fun i id => ?_, rfl, rfl, rfl, rfl, rfl, fun _ => rfl⟩
  show (∃ call, (c.pending.foldl _ c.calls)[i]? = some call ∧ _) ↔ _
  unfold Subscribed
  generalize c.calls = calls
  induction c.pending generalizing calls with
  | nil => exact Iff.rfl
  | cons p pending ih =>
    rw [List.foldl_cons, ih]
    exact subscribed_iff_of_modify fun call _ => settle_phase call nofun

theorem alike_settle (c : DaemonClient E D) (id : Text) {phase : PendingRequest → CallPhase D}
    (h : ∀ p subscriptionId, phase p ≠ .subscribed subscriptionId) :
    Alike c (c.settle id phase) := by
  unfold settle
  split
  · exact ⟨fun _ _ => Iff.rfl, rfl, rfl, rfl, rfl, rfl, fun _ => rfl⟩
  · refine ⟨fun i subscriptionId => ?_, rfl, rfl, rfl, rfl, rfl, fun _ => rfl⟩
    exact subscribed_iff_of_modify fun call _ => settle_phase call (h _ subscriptionId)

theorem alike_connect (c : DaemonClient E D) (method : Method) (action payload : Text) :
    Alike c (c.connect method action payload) := by
  have happend : ∀ (call : Call D) (i : Nat) (id : Text), call.phase ≠ .subscribed id →
      ((∃ call', (c.calls ++ [call])[i]? = some call' ∧ call'.phase = .subscribed id) ↔
        c.Subscribed i id) := by
    intro call i id hphase
    constructor
    · rintro ⟨call', hcall', hid⟩
      rcases lt_or_ge i c.calls.length with hi | hi
      · exact ⟨call', by rwa [List.getElem?_append_left hi] at hcall', hid⟩
      · rw [List.getElem?_append_right hi] at hcall'
        rw [List.mem_singleton.mp (List.mem_of_getElem? hcall')] at hid
        exact absurd hid hphase
    · rintro ⟨call', hcall', hid⟩
      have hi := (List.getElem?_eq_some_iff.mp hcall').1
      exact ⟨call', by rwa [List.getElem?_append_left hi], hid⟩
  unfold connect
  split
  · exact ⟨fun i id => happend _ i id nofun, rfl, rfl, rfl, rfl, rfl, fun _ => rfl⟩
  · exact ⟨fun i id => happend _ i id nofun, rfl, rfl, rfl, rfl, rfl, fun _ => rfl⟩
  · exact ⟨fun i id => happend _ i id nofun, rfl, rfl, rfl, rfl, rfl, fun _ => rfl⟩

theorem alike_close (c : DaemonClient E D) : Alike c c.close := by
  unfold close
  split
  · exact ⟨fun _ _ => Iff.rfl, rfl, rfl, rfl, rfl, rfl, fun _ => rfl⟩
  · exact ⟨fun _ _ => Iff.rfl, rfl, rfl, rfl, rfl, rfl, fun _ => rfl⟩

theorem alike_send (c : DaemonClient E D) {i : Nat} {call : Call D}
    (hcall : c.calls[i]? = some call) {socket : Option Nat}
    (hphase : call.phase = .connecting socket) : Alike c (c.send i call) := by
  have hmodify : ∀ phase : CallPhase D, (∀ id, phase ≠ .subscribed id) → ∀ j id,
      (∃ call, (c.calls.modify i fun call => { call with phase })[j]? = some call ∧
        call.phase = .subscribed id) ↔ c.Subscribed j id := by
    intro phase hnot j id
    refine subscribed_iff_of_modify fun call' hcall' => ?_
    obtain rfl := Option.some.inj (hcall.symm.trans hcall')
    simp [hphase, hnot id]
  unfold send
  dsimp only
  split
  · exact ⟨hmodify _ nofun, rfl, rfl, rfl, rfl, rfl, fun _ => rfl⟩
  · exact ⟨hmodify _ nofun, rfl, rfl, rfl, rfl, rfl, fun _ => rfl⟩

theorem alike_failConnection (c : DaemonClient E D) {s : Nat} {rest : List Text}
    (hjob : c.job = .parts s rest) (error : ClientError) : Alike c (c.failConnection s error) := by
  have h := alike_rejectAll c error
  refine ⟨h.calls, rfl, rfl, rfl, rfl, rfl, fun i => ?_⟩
  rw [remaining, remaining, hjob]
  rfl

theorem alike_respond (c : DaemonClient E D) (s : Nat) (id : Text)
    {phase : PendingRequest → CallPhase D}
    (h : ∀ p subscriptionId, phase p ≠ .subscribed subscriptionId) :
    Alike c (c.respond s id phase) := by
  have halike := alike_settle c id h
  exact ⟨halike.calls, halike.subscriptions, halike.queued, halike.pushed, halike.handled,
    halike.unsubscribed, halike.remaining⟩

theorem remaining_of_isIdle {c : DaemonClient E D} (h : c.job.isIdle = true) (i : Nat) :
    c.remaining i = [] := by
  unfold remaining
  split
  · rfl
  · next rest hjob =>
    rw [hjob] at h
    rw [List.isEmpty_iff.mp h, ite_self]

theorem alike_receive (c : DaemonClient E D) (hidle : c.job.isIdle = true) (s : Nat)
    (bytes : List UInt8) : Alike c (c.receive s bytes) :=
  ⟨fun _ _ => Iff.rfl, rfl, rfl, rfl, rfl, rfl, fun i => (remaining_of_isIdle hidle i).symm⟩

theorem alike_emit {c c' : DaemonClient E D} (hidle : c.job.isIdle = true) {s : Nat}
    {socket : Socket} {event : SocketEvent} (h : c.emit s socket event = some c') : Alike c c' := by
  cases event with
  | connect =>
    simp only [emit, Option.ite_none_left_eq_some, Option.some.injEq] at h
    obtain ⟨-, rfl⟩ := h
    exact ⟨fun _ _ => Iff.rfl, rfl, rfl, rfl, rfl, rfl, fun _ => rfl⟩
  | error message =>
    simp only [emit, Option.ite_none_left_eq_some, Option.some.injEq] at h
    obtain ⟨-, rfl⟩ := h
    exact ⟨fun _ _ => Iff.rfl, rfl, rfl, rfl, rfl, rfl, fun _ => rfl⟩
  | data bytes =>
    simp only [emit, Option.ite_none_right_eq_some, Option.some.injEq] at h
    obtain ⟨-, rfl⟩ := h
    exact alike_receive c hidle s bytes
  | lost =>
    simp only [emit, Option.ite_none_left_eq_some, Option.some.injEq] at h
    obtain ⟨-, rfl⟩ := h
    exact ⟨fun _ _ => Iff.rfl, rfl, rfl, rfl, rfl, rfl, fun _ => rfl⟩
  | close =>
    simp only [emit, Option.ite_none_left_eq_some, Option.some.injEq] at h
    obtain ⟨-, rfl⟩ := h
    have hreject := alike_rejectAll c .connectionClosed
    exact ⟨hreject.calls, rfl, rfl, rfl, rfl, rfl, fun _ => rfl⟩

/-! ### Moves of the subscriptions -/

theorem Keeps.unsubscribe {c : DaemonClient E D} (h : c.Keeps) (id payload : Text) :
    (c.unsubscribe id payload).Keeps := by
  refine Keeps.alike ?_ (alike_connect _ _ _ _)
  refine ⟨fun id' hid' hnone => ?_, fun i id' hi hid' => ?_, h.silent, fun id' i hi => ?_⟩
  · obtain ⟨hid', hne⟩ : id' ∉ c.unsubscribed ∧ id' ≠ id := by simpa using hid'
    simp only [Function.update_of_ne hne]
    exact h.waiting id' hid' hnone
  · obtain ⟨hid', hne⟩ : id' ∉ c.unsubscribed ∧ id' ≠ id := by simpa using hid'
    simp only [Function.update_of_ne hne]
    exact h.handler i id' hi hid'
  · by_cases hne : id' = id
    · subst hne
      simp at hi
    · simp only [Function.update_of_ne hne] at hi
      exact h.subscribed id' i hi

theorem pushedOf_append {c c' : DaemonClient E D} {id : Text} {event : E}
    (h : c'.pushed = c.pushed ++ [(id, event)]) (id' : Text) :
    c'.pushedOf id' = c.pushedOf id' ++ if id = id' then [event] else [] := by
  rw [pushedOf, h, List.filter_append, List.map_append, pushedOf]
  by_cases hid : id = id' <;> simp [hid]

theorem handledBy_append {c c' : DaemonClient E D} {i : Nat} {event : E}
    (h : c'.handled = c.handled ++ [(i, event)]) (j : Nat) :
    c'.handledBy j = c.handledBy j ++ if i = j then [event] else [] := by
  rw [handledBy, h, List.filter_append, List.map_append, handledBy]
  by_cases hij : i = j <;> simp [hij]

/-- A call has one subscription. -/
theorem Subscribed.eq {c : DaemonClient E D} {i : Nat} {id id' : Text} (h : c.Subscribed i id)
    (h' : c.Subscribed i id') : id = id' := by
  obtain ⟨call, hcall, hphase⟩ := h
  obtain ⟨call', hcall', hphase'⟩ := h'
  obtain rfl := Option.some.inj (hcall.symm.trans hcall')
  exact CallPhase.subscribed.inj (hphase.symm.trans hphase')

/-- An event goes to the handler of its subscription. -/
theorem Keeps.handle {c : DaemonClient E D} (h : c.Keeps) {id : Text} (event : E) {j : Nat}
    (hj : c.subscriptions id = some j) (hremaining : ∀ i, c.remaining i = []) :
    Keeps { c with
      pushed := c.pushed ++ [(id, event)], handled := c.handled ++ [(j, event)] } := by
  have hsubscribed := h.subscribed id j hj
  refine ⟨fun id' hid' hnone => ?_, fun i id' hi hid' => ?_, fun i hnone => ?_, h.subscribed⟩
  · have hne : id ≠ id' := fun heq => hnone j (heq ▸ hsubscribed)
    rw [pushedOf_append rfl, if_neg hne, List.append_nil]
    exact h.waiting id' hid' hnone
  · obtain ⟨hsub, hevents⟩ := h.handler i id' hi hid'
    refine ⟨hsub, ?_⟩
    rw [handledBy_append rfl, pushedOf_append rfl, ← hevents]
    show _ ++ c.remaining i = _
    rw [hremaining, List.append_nil, List.append_nil]
    by_cases hid : id = id'
    · subst hid
      obtain rfl : j = i := Option.some.inj (hj.symm.trans hsub)
      rw [if_pos rfl, if_pos rfl]
    · have hij : j ≠ i := fun hij => hid ((hij ▸ hsubscribed).eq hi)
      rw [if_neg hij, if_neg hid]
  · have hij : j ≠ i := fun hij => hnone id (hij ▸ hsubscribed)
    rw [handledBy_append rfl, if_neg hij, List.append_nil]
    exact h.silent i hnone

/-- An event without a handler is kept if there is room. -/
theorem Keeps.queue {c : DaemonClient E D} (h : c.Keeps) {id : Text} (event : E)
    (hnone : c.subscriptions id = none) {queued : Text → List E}
    (hqueued : queued id = (c.queuedSubscriptionEvents id ++ [event]).take queuedEventLimit ∨
      queuedEventLimit ≤ (c.queuedSubscriptionEvents id).length ∧
        queued id = c.queuedSubscriptionEvents id)
    (hother : ∀ id', id' ≠ id → queued id' = c.queuedSubscriptionEvents id') :
    Keeps { c with pushed := c.pushed ++ [(id, event)], queuedSubscriptionEvents := queued } := by
  refine ⟨fun id' hid' hfree => ?_, fun i id' hi hid' => ?_, h.silent, h.subscribed⟩
  · obtain ⟨hsub, hkept⟩ := h.waiting id' hid' hfree
    refine ⟨hsub, ?_⟩
    rw [pushedOf_append rfl]
    by_cases hid : id = id'
    · subst hid
      rw [if_pos rfl]
      show queued id = _
      rcases hqueued with heq | ⟨hfull, heq⟩
      · rw [heq, hkept, List.take_append, List.take_append, List.take_take, Nat.min_self,
          List.length_take]
        congr 2
        omega
      · rw [heq, hkept]
        rw [hkept, List.length_take] at hfull
        rw [List.take_append_of_le_length (by omega)]
    · rw [if_neg hid, List.append_nil]
      exact (hother id' (Ne.symm hid)).trans hkept
  · obtain ⟨hsub, hevents⟩ := h.handler i id' hi hid'
    have hid : id ≠ id' := by
      rintro rfl
      rw [hnone] at hsub
      cases hsub
    refine ⟨hsub, ?_⟩
    rw [pushedOf_append rfl, if_neg hid, List.append_nil]
    exact hevents

theorem Keeps.push {c : DaemonClient E D} (h : c.Keeps) (id : Text) (event : E)
    (hremaining : ∀ i, c.remaining i = []) : (c.push id event).Keeps := by
  unfold DaemonClient.push
  dsimp only
  split
  · next j hj => exact h.handle event hj hremaining
  · next hnone =>
    split_ifs with hroom
    · refine h.queue event hnone (Or.inl ?_) fun id' hne => Function.update_of_ne hne _ _
      rw [Function.update_self, List.take_of_length_le]
      rw [List.length_append, List.length_singleton]
      exact hroom
    · exact h.queue event hnone (Or.inr ⟨Nat.not_lt.mp hroom, rfl⟩) fun _ _ => rfl

theorem subscribed_install_iff {c : DaemonClient E D} {i : Nat} {call : Call D}
    (hcall : c.calls[i]? = some call) (id : Text) (j : Nat) (id' : Text) :
    (c.install i id).Subscribed j id' ↔ j = i ∧ id' = id ∨ j ≠ i ∧ c.Subscribed j id' := by
  unfold Subscribed install
  dsimp only
  by_cases hij : i = j
  · subst hij
    rw [List.getElem?_modify_eq, hcall]
    simp [eq_comm]
  · rw [List.getElem?_modify_ne _ _ hij]
    simp [Ne.symm hij]

/-- A handler gets the events that were kept for it. -/
theorem Keeps.install {c : DaemonClient E D} (h : c.Keeps) {i : Nat} {call : Call D} {data : D}
    (hcall : c.calls[i]? = some call) (hphase : call.phase = .resolved data)
    (hremaining : ∀ i, c.remaining i = []) {id : Text}
    (hcondition : id ∉ c.unsubscribed → (c.pushedOf id).length ≤ queuedEventLimit ∧
      ∀ j, ¬ c.Subscribed j id) : (c.install i id).Keeps := by
  have hfree : ∀ id', ¬ c.Subscribed i id' := by
    rintro id' ⟨call', hcall', hphase'⟩
    obtain rfl := Option.some.inj (hcall.symm.trans hcall')
    rw [hphase] at hphase'
    cases hphase'
  have hsub := subscribed_install_iff hcall id
  have hrest : ∀ j, j ≠ i → (c.install i id).remaining j = [] := fun j hj => if_neg hj.symm
  refine ⟨fun id' hid' hnone => ?_, fun j id' hj hid' => ?_, fun j hnone => ?_, fun id' j hj => ?_⟩
  · have hne : id' ≠ id := fun heq => hnone i ((hsub i id').mpr (Or.inl ⟨rfl, heq⟩))
    simp only [DaemonClient.install, Function.update_of_ne hne]
    refine h.waiting id' hid' fun j hj => hnone j ((hsub j id').mpr (Or.inr ⟨?_, hj⟩))
    rintro rfl
    exact hfree id' hj
  · rcases (hsub j id').mp hj with ⟨rfl, rfl⟩ | ⟨hji, hold⟩
    · obtain ⟨hfew, hnone⟩ := hcondition hid'
      refine ⟨Function.update_self .., ?_⟩
      have hevents : (c.install j id').remaining j = c.queuedSubscriptionEvents id' := if_pos rfl
      have hsilent : (c.install j id').handledBy j = [] := (h.silent j hfree).1
      rw [hsilent, hevents, (h.waiting id' hid' hnone).2, List.nil_append]
      exact List.take_of_length_le hfew
    · have hne : id' ≠ id := by
        rintro rfl
        exact (hcondition hid').2 j hold
      obtain ⟨hsubscriptions, hevents⟩ := h.handler j id' hold hid'
      refine ⟨(Function.update_of_ne hne _ _).trans hsubscriptions, ?_⟩
      rw [hremaining] at hevents
      rw [hrest j hji]
      exact hevents
  · have hji : j ≠ i := by
      rintro rfl
      exact hnone id ((hsub j id).mpr (Or.inl ⟨rfl, rfl⟩))
    refine ⟨(h.silent j fun id' hj => hnone id' ((hsub j id').mpr (Or.inr ⟨hji, hj⟩))).1,
      hrest j hji⟩
  · rw [hsub]
    by_cases hne : id' = id
    · subst hne
      refine Or.inl ⟨?_, rfl⟩
      simpa [DaemonClient.install, eq_comm] using hj
    · simp only [DaemonClient.install, Function.update_of_ne hne] at hj
      have hj := h.subscribed id' j hj
      refine Or.inr ⟨?_, hj⟩
      rintro rfl
      exact hfree id' hj

/-- A kept event is replayed. -/
theorem Keeps.replay {c : DaemonClient E D} (h : c.Keeps) {i : Nat} {event : E} {rest : List E}
    (hjob : c.job = .replay i (event :: rest)) :
    Keeps { c with job := .replay i rest, handled := c.handled ++ [(i, event)] } := by
  have hbefore : ∀ j, c.remaining j = if i = j then event :: rest else [] := fun j => by
    rw [remaining, hjob]
  refine ⟨h.waiting, fun j id hj hid => ?_, fun j hnone => ?_, h.subscribed⟩
  · obtain ⟨hsub, hevents⟩ := h.handler j id hj hid
    refine ⟨hsub, ?_⟩
    rw [hbefore] at hevents
    rw [handledBy_append rfl]
    show _ ++ (if i = j then rest else []) = c.pushedOf id
    rw [← hevents]
    split_ifs <;> simp
  · obtain ⟨hsilent, hnothing⟩ := h.silent j hnone
    have hij : i ≠ j := by
      rintro rfl
      rw [hbefore, if_pos rfl] at hnothing
      cases hnothing
    refine ⟨?_, if_neg hij⟩
    rw [handledBy_append rfl, if_neg hij, List.append_nil, hsilent]

theorem Keeps.processPart {c : DaemonClient E D} (h : c.Keeps) (decoder : Decoder E D) {s : Nat}
    {rest : List Text} (hjob : c.job = .parts s rest) (part : Text) :
    (processPart decoder c s part).Keeps := by
  unfold DaemonClient.processPart
  split
  · exact h
  · exact h.alike (alike_failConnection c hjob _)
  · refine h.push _ _ fun i => ?_
    rw [remaining, hjob]
  · split
    · exact h
    · exact h
    · refine h.alike (alike_respond c s _ fun p subscriptionId => ?_)
      split_ifs
      · exact nofun
      · exact nofun

theorem Keeps.step {decoder : Decoder E D} {c c' : DaemonClient E D} {a : ClientAction}
    (h : c.Keeps) (hcondition : FewEarly decoder c a) (hs : c.step decoder a = some c') :
    c'.Keeps := by
  cases a with
  | request action payload =>
    cases hs
    exact h.alike (alike_connect _ _ _ _)
  | subscribe payload =>
    cases hs
    exact h.alike (alike_connect _ _ _ _)
  | unsubscribe id payload =>
    cases hs
    exact h.unsubscribe id payload
  | close =>
    cases hs
    exact h.alike (alike_close c)
  | work =>
    simp only [DaemonClient.step, work] at hs
    split at hs
    · next s part rest hjob =>
      cases hs
      have halike : Alike c { c with job := .parts s rest } := by
        refine ⟨fun _ _ => Iff.rfl, rfl, rfl, rfl, rfl, rfl, fun i => ?_⟩
        rw [remaining, remaining, hjob]
      exact (h.alike halike).processPart decoder rfl part
    · next i event rest hjob =>
      cases hs
      exact h.replay hjob
    · cases hs
  | resume i =>
    simp only [DaemonClient.step, Option.ite_none_right_eq_some] at hs
    obtain ⟨hidle, hs⟩ := hs
    obtain ⟨call, hcall, hs⟩ := Option.bind_eq_some_iff.mp hs
    simp only [resume] at hs
    split at hs
    · next socket hphase =>
      split at hs
      · cases hs
      · cases hs
        exact h.alike (alike_send c hcall hphase)
      · cases hs
        refine h.alike ⟨fun j id => ?_, rfl, rfl, rfl, rfl, rfl, fun _ => rfl⟩
        refine subscribed_iff_of_modify fun call' hcall' => ?_
        obtain rfl := Option.some.inj (hcall.symm.trans hcall')
        simp [hphase]
    · next data hphase =>
      split_ifs at hs
      cases hs
      refine h.install hcall hphase (remaining_of_isIdle hidle) fun hid => ?_
      simp only [FewEarly, hcall, Option.map_some, hphase] at hcondition
      refine ⟨(hcondition hid).1, ?_⟩
      rintro j ⟨call', hcall', hphase'⟩
      have hother := (hcondition hid).2 call' (List.mem_of_getElem? hcall')
      rw [Call.isSubscribed_iff.mpr hphase'] at hother
      cases hother
    · cases hs
  | timeout id =>
    simp only [DaemonClient.step, Option.ite_none_right_eq_some, Option.some.injEq] at hs
    obtain ⟨-, rfl⟩ := hs
    exact h.alike (alike_settle c id fun _ _ h => by cases h)
  | emit s event =>
    simp only [DaemonClient.step, Option.ite_none_right_eq_some] at hs
    obtain ⟨hidle, hs⟩ := hs
    obtain ⟨socket, -, hs⟩ := Option.bind_eq_some_iff.mp hs
    exact h.alike (alike_emit hidle hs)

/-- **No silent loss.** If at most 128 events of a subscription are pushed before its handler is
installed, the handler is called with all of them. -/
theorem receivesAll_of_few {decoder : Decoder E D} {actions : List ClientAction}
    {c : DaemonClient E D}
    (hmeets : Machine.Meets (step decoder) (FewEarly decoder) new actions)
    (hrun : Machine.run (step decoder) new actions = some c) : c.ReceivesAll := by
  have hkeeps : c.Keeps := Machine.run_invariant
    (fun _ _ _ h hcondition hs => Keeps.step h hcondition hs) keeps_new hmeets hrun
  exact fun i id hi hid => (hkeeps.handler i id hi hid).2

/-! ### Many early events -/

/-- The response to the registration that makes the subscription `sub_1`. -/
def registeredFrame : Text :=
  "\x7b\"id\":\"req_1\",\"protocolVersion\":1,\"success\":true,".toList ++
    "\"data\":\x7b\"subscriptionId\":\"sub_1\"\x7d\x7d".toList

/-- `JSON.parse` on that response and on the frames of a pushed event. -/
def registrationDecoder : Decoder Text Text where
  parse t :=
    if t = pushFrame ['e'] then some (.event (some 1) "sub_1".toList ['e'])
    else if t = registeredFrame then
      some (.response (some 1) (some "req_1".toList) true "sub_1".toList none none)
    else none
  subscriptionId data := data

/-- The arrival of a frame. -/
def arrival (frame : Text) : List ClientAction :=
  [.emit 0 (.data (Text.toBytes (stream [frame]))), .work]

/-- A call of `subscribe` before whose response so many events arrive. -/
def subscribeRun (early : Nat) : List ClientAction :=
  [.subscribe [], .emit 0 .connect, .resume 0] ++
    (List.replicate early (pushFrame ['e'])).flatMap arrival ++ arrival registeredFrame ++
    [.resume 0]

theorem receivesAll_subscribeRun :
    ∃ c, Machine.run (step registrationDecoder) new (subscribeRun 2) = some c ∧ c.ReceivesAll := by
  have hmeets : Machine.Meets (step registrationDecoder) (FewEarly registrationDecoder) new
      (subscribeRun 2) := by decide +kernel
  have hsome : (Machine.run (step registrationDecoder) new (subscribeRun 2)).isSome = true := by
    decide +kernel
  obtain ⟨c, hc⟩ := Option.isSome_iff_exists.mp hsome
  exact ⟨c, hc, receivesAll_of_few hmeets hc⟩

/-- Of 129 events that arrive before the response, the handler is called with 128. -/
theorem not_receivesAll_subscribeRun :
    ∃ c, Machine.run (step registrationDecoder) new (subscribeRun 129) = some c ∧
      ¬ c.ReceivesAll := by
  have hloss : (Machine.run (step registrationDecoder) new (subscribeRun 129)).any (fun c =>
      c.calls[0]?.any (Call.isSubscribed · "sub_1".toList) && c.unsubscribed.isEmpty &&
        decide ((c.handledBy 0 ++ c.remaining 0).length ≠ (c.pushedOf "sub_1".toList).length)) =
      true := by decide +kernel
  obtain ⟨c, hc, hloss⟩ := Option.any_eq_true _ _ |>.mp hloss
  simp only [Bool.and_eq_true, decide_eq_true_eq, List.isEmpty_iff] at hloss
  obtain ⟨⟨hcall, hnone⟩, hlength⟩ := hloss
  obtain ⟨call, hcall, hsubscribed⟩ := Option.any_eq_true _ _ |>.mp hcall
  refine ⟨c, hc, fun hall => hlength (congrArg List.length (hall 0 "sub_1".toList ?_ ?_))⟩
  · exact ⟨call, hcall, Call.isSubscribed_iff.mp hsubscribed⟩
  · rw [hnone]
    exact List.not_mem_nil

end DaemonClient

end Thalweg.SdkJs
