import Thalweg.Daemon.Approval

/-!
# What the operator and the joiner are told

The call that decides a request reports its decision, and the handler of the request writes a
decision frame. The two agree as long as no decision is sent after the handler has left its `select`
and the handler does not take the case of the timer while a decision is in its channel.

## Main definitions

* `EnrollmentState.Agree`: all frames of decided requests hold the decisions that were reported.
* `EnrollmentState.Timely`: the condition on a step.

## Main results

* `EnrollmentState.agree_of_timely`.
* `EnrollmentState.not_agree_lateRun`: without the condition the two need not agree.
-/

namespace Thalweg

open Machine

/-- The frame answers a request whose timer has fired. -/
def EnrollmentFrame.Expired : EnrollmentFrame → Prop
  | .offers _ => False
  | .decision d => d.accepted = false ∧ d.error = "enrollment request expired".toList

/-- The frame holds the decision. -/
def EnrollmentFrame.Holds (frame : EnrollmentFrame) (decision : EnrollmentDecision) : Prop :=
  ∃ requestID, frame = .decision (decision.frame requestID)

namespace EnrollmentState

/-- An approval that was reported goes out as an accepted decision with the invitation that the call
made, and a denial as a decision that is not accepted; what goes out as expired was not reported as
decided. -/
structure Agree (history : List EnrollmentEvent) : Prop where
  approved : ∀ stream decision, .decided stream decision ∈ history → decision.accepted = true →
    (∃ membership, decision.invitation = encodeNetworkInvitation membership) ∧
      ∀ frame ∈ written history stream, frame.Holds decision
  denied : ∀ stream decision, .decided stream decision ∈ history → decision.accepted = false →
    ∀ frame ∈ written history stream, ¬ frame.Grants
  expired : ∀ stream, ∀ frame ∈ written history stream, frame.Expired → ¬ Decided history stream

/-- The handler has not left its `select`. -/
def IsWaiting : EnrollmentHandler → Prop
  | .waiting _ => True
  | _ => False

instance (handler : EnrollmentHandler) : Decidable (IsWaiting handler) := by
  unfold IsWaiting
  split <;> infer_instance

/-- A decision is sent only while its handler waits for it, and the timer's case is not taken over a
decision in the channel. -/
def Timely (s : EnrollmentState) : Action → Prop
  | .send call =>
    match s.calls call with
    | .sending stream _ => IsWaiting (s.handlers stream)
    | _ => True
  | .expire stream => s.decisions stream = none
  | _ => True

instance (s : EnrollmentState) (a : Action) : Decidable (Timely s a) :=
  decidable_of_iff
    ((match a with
      | .send call =>
        match s.calls call with
        | .sending stream _ => decide (IsWaiting (s.handlers stream))
        | _ => true
      | .expire stream => (s.decisions stream).isNone
      | _ => true) = true) <| by
    unfold Timely
    split
    · split <;> simp
    all_goals simp

/-- The decision is one that a call makes. -/
def Made (decision : EnrollmentDecision) : Prop :=
  decision = ⟨false, [], "enrollment denied".toList⟩ ∨
    ∃ membership, decision = ⟨true, encodeNetworkInvitation membership, []⟩

/-- What has been decided on the request of a stream is what its handler waits for or writes. -/
def HandlerHolds (history : List EnrollmentEvent) (stream : Nat)
    (channel : Option EnrollmentDecision) :
    EnrollmentHandler → Prop
  | .waiting _ => ∀ decision, .decided stream decision ∈ history ↔ channel = some decision
  | .selected _ d => ∀ decision, .decided stream decision ∈ history → decision = d
  | .answering frame => ∀ decision, .decided stream decision ∈ history → frame.Holds decision
  | .closed => ∀ decision, .decided stream decision ∈ history →
    ∀ frame, .wrote stream frame ∈ history → frame.Holds decision
  | _ => True

/-- Handlers hold what has been decided. -/
structure Settled (s : EnrollmentState) : Prop where
  closing : s.closing = false
  call : ∀ call stream decision, s.calls call = .sending stream decision → Made decision
  made : ∀ stream decision, .decided stream decision ∈ s.history → Made decision
  handler : ∀ stream, HandlerHolds s.history stream (s.decisions stream) (s.handlers stream)

theorem initial_settled (memberships : Memberships) : Settled (initial memberships) where
  closing := rfl
  call _ _ _ h := by simp [initial] at h
  made _ _ h := by simp [initial] at h
  handler _ := trivial

/-- What handlers hold is not changed by events that decide nothing and write nothing. -/
theorem HandlerHolds.append {history : List EnrollmentEvent} {e : EnrollmentEvent} {stream : Nat}
    {channel : Option EnrollmentDecision} {handler : EnrollmentHandler}
    (h : HandlerHolds history stream channel handler)
      (hdecided : ∀ decision, e ≠ .decided stream decision)
    (hwrote : ∀ frame, e ≠ .wrote stream frame) :
      HandlerHolds (history ++ [e]) stream channel handler := by
  have hmem : ∀ decision, .decided stream decision ∈ history ++ [e] ↔
    .decided stream decision ∈ history := by
    simp [fun decision => (hdecided decision).symm]
  have hmem' : ∀ frame, .wrote stream frame ∈ history ++ [e] ↔ .wrote stream frame ∈ history := by
    simp [fun frame => (hwrote frame).symm]
  simp only [HandlerHolds, hmem, hmem']
  exact h

/-- On a handler that has no request nothing has been decided. -/
theorem Orderly.not_decided {s : EnrollmentState} (h : Orderly s) {stream : Nat}
    (hearly : Early (s.handlers stream)) : ¬ Decided s.history stream := by
  obtain ⟨hregistered, -⟩ := (h.handler stream).not_registered hearly
  exact fun hdecided => hregistered (h.registered_of_found (h.found_of_decided hdecided))

variable {s : EnrollmentState}

/-! ### Steps -/

/-- Another handler or another call on the way does not matter to what the handlers hold. -/
theorem Settled.setCall (h : Settled s) {call : Nat} {next : EnrollmentCall}
    (hnext : ∀ stream decision, next = .sending stream decision → Made decision) :
    Settled (s.setCall call next) where
  closing := h.closing
  call c stream decision := by
    simp only [EnrollmentState.setCall, Function.update_apply]
    split_ifs
    · exact hnext stream decision
    · exact h.call c stream decision
  made := h.made
  handler := h.handler

theorem Settled.setHandler (h : Settled s) {stream : Nat} {handler : EnrollmentHandler}
    (hholds : HandlerHolds s.history stream (s.decisions stream) handler) :
    Settled (s.setHandler stream handler) where
  closing := h.closing
  call := h.call
  made := h.made
  handler i := by
    simp only [EnrollmentState.setHandler, Function.update_apply]
    split_ifs with hi
    · exact hi ▸ hholds
    · exact h.handler i

/-- An event that decides nothing and writes nothing. -/
theorem Settled.record (h : Settled s) {e : EnrollmentEvent}
    (hdecided : ∀ stream decision, e ≠ .decided stream decision)
    (hwrote : ∀ stream frame, e ≠ .wrote stream frame) : Settled (s.record e) where
  closing := h.closing
  call := h.call
  made stream decision hmem := by
    have hmem' : .decided stream decision ∈ s.history := by
      simpa [EnrollmentState.record, (hdecided stream decision).symm] using hmem
    exact h.made stream decision hmem'
  handler i := (h.handler i).append (hdecided i) (hwrote i)

theorem Settled.send (h : Settled s) {call stream : Nat} {decision : EnrollmentDecision}
    (hcall : s.calls call = .sending stream decision) (hroom : s.decisions stream = none)
    (hwaiting : IsWaiting (s.handlers stream)) :
    Settled (({ s with decisions := Function.update s.decisions stream (some decision) }.setCall
      call
      .idle).record (.decided stream decision)) where
  closing := h.closing
  call c stream' d := by
    simp only [EnrollmentState.record, EnrollmentState.setCall, Function.update_apply]
    split_ifs
    · simp
    · exact h.call c stream' d
  made stream' d hmem := by
    rcases List.mem_append.mp hmem with hmem | hmem
    · exact h.made stream' d hmem
    · cases List.mem_singleton.mp hmem
      exact h.call call stream decision hcall
  handler i := by
    simp only [EnrollmentState.record, EnrollmentState.setCall, Function.update_apply]
    split_ifs with hi
    · subst hi
      obtain ⟨info, hinfo⟩ : ∃ info, s.handlers i = .waiting info := by
        cases hhandler : s.handlers i <;> simp_all [IsWaiting]
      have hholds := h.handler i
      rw [hinfo, hroom] at hholds
      rw [hinfo]
      -- nothing was decided before: the channel was empty
      intro d
      have hnone : .decided i d ∉ s.history := by simpa using hholds d
      simp [hnone, eq_comm]
    · exact (h.handler i).append (by simp [Ne.symm hi]) (by simp)

theorem Settled.take (h : Settled s) {stream : Nat} {info : EnrollmentRequestInfo}
    {decision : EnrollmentDecision} (hhandler : s.handlers stream = .waiting info)
    (hdecision : s.decisions stream = some decision) :
    Settled ({ s with decisions := Function.update s.decisions stream none }.setHandler stream
      (.selected info decision)) where
  closing := h.closing
  call := h.call
  made := h.made
  handler i := by
    simp only [EnrollmentState.setHandler, Function.update_apply]
    split_ifs with hi
    · subst hi
      have hholds := h.handler i
      rw [hhandler, hdecision] at hholds
      exact fun d hd => (Option.some.inj ((hholds d).mp hd)).symm
    · exact h.handler i

theorem Settled.answer (h : Settled s) (horderly : Orderly s) {stream : Nat}
    {frame : EnrollmentFrame}
    (hhandler : s.handlers stream = .answering frame) :
    Settled ((s.setHandler stream .closed).record (.wrote stream frame)) where
  closing := h.closing
  call := h.call
  made stream' d hmem := h.made stream' d
    (by simpa [EnrollmentState.record, EnrollmentState.setHandler] using hmem)
  handler i := by
    simp only [EnrollmentState.record, EnrollmentState.setHandler, Function.update_apply]
    split_ifs with hi
    · subst hi
      have hholds := h.handler i
      have hagrees := horderly.handler i
      rw [hhandler] at hholds hagrees
      intro d hd frame' hwrote
      have hd' : .decided i d ∈ s.history := by simpa using hd
      rcases List.mem_append.mp hwrote with hwrote | hwrote
      · exact absurd ⟨frame', hwrote⟩ hagrees.1
      · cases List.mem_singleton.mp hwrote
        exact hholds d hd'
    · exact (h.handler i).append (by simp) (by simp [Ne.symm hi])

theorem Settled.step (h : Settled s) (horderly : Orderly s) {a : Action} (htimely : Timely s a)
    (hshutdown : a ≠ .shutdown) {s' : EnrollmentState} (hstep : s.step a = some s') :
      Settled s' := by
  cases step_effect hstep with
  | quiet memberships offers => exact ⟨h.closing, h.call, h.made, h.handler⟩
  | shutdown => exact absurd rfl hshutdown
  | list network => exact h.record (by simp) (by simp)
  | found approve hidle hget =>
    have hremoved : ∀ requests, Settled { s with requests } := fun requests =>
      ⟨h.closing, h.call, h.made, h.handler⟩
    refine ((hremoved _).setCall ?_).record (by simp) (by simp)
    intro stream decision hnext
    cases approve with
    | false =>
      cases hnext
      exact Or.inl rfl
    | true => cases hnext
  | refuse hcall => exact h.setCall (by simp)
  | invite hcall hinvite =>
    refine h.setCall fun stream decision hnext => ?_
    cases hnext
    obtain ⟨membership, -, rfl⟩ := Memberships.invite_eq_ok hinvite
    exact Or.inr ⟨membership, rfl⟩
  | send hcall hroom =>
    refine h.send hcall hroom ?_
    simpa only [Timely, hcall] using htimely
  | connect remotePeer hhandler => exact h.setHandler trivial
  | @receive stream remotePeer line now handler offers hhandler hreads =>
    have hoffers : Settled { s with offers } := ⟨h.closing, h.call, h.made, h.handler⟩
    refine (hoffers.setHandler ?_).record (by simp) (by simp)
    have hearly : Early (s.handlers stream) := by
      rw [hhandler]
      trivial
    have hnone : ∀ decision, .decided stream decision ∉ s.history := fun decision hmem =>
      horderly.not_decided hearly ⟨decision, hmem⟩
    cases handler <;> simp only [HandlerHolds, hnone, false_imp_iff, implies_true, false_iff]
    exact hreads.elim
  | @abandon stream offer remotePeer deviceName now hhandler =>
    have hearly : Early (s.handlers stream) := by
      rw [hhandler]
      trivial
    exact h.setHandler fun decision hmem => absurd ⟨decision, hmem⟩ (horderly.not_decided hearly)
  | @register stream offer remotePeer deviceName random now hhandler =>
    have hearly : Early (s.handlers stream) := by
      rw [hhandler]
      trivial
    have hrequests : ∀ requests, Settled { s with requests } := fun requests =>
      ⟨h.closing, h.call, h.made, h.handler⟩
    refine ((hrequests _).setHandler ?_).record (by simp) (by simp)
    intro decision
    have hdecided := horderly.not_decided hearly
    constructor
    · exact fun hmem => absurd ⟨decision, hmem⟩ hdecided
    · exact fun hchannel => absurd (horderly.channel stream decision hchannel).1 hdecided
  | take hhandler hdecision => exact h.take hhandler hdecision
  | @giveUp a stream info error ha hhandler =>
    refine h.setHandler ?_
    rcases ha with rfl | ⟨-, hclosing⟩
    · have hholds := h.handler stream
      rw [hhandler, show s.decisions stream = none from htimely] at hholds
      exact fun d hd => by simpa using (hholds d).mp hd
    · rw [h.closing] at hclosing
      cases hclosing
  | @remove stream info decision hhandler =>
    have hrequests : ∀ requests, Settled { s with requests } := fun requests =>
      ⟨h.closing, h.call, h.made, h.handler⟩
    refine (hrequests _).setHandler ?_
    have hholds := h.handler stream
    rw [hhandler] at hholds
    exact fun d hd => ⟨info.id, by rw [hholds d hd]⟩
  | answer hhandler => exact h.answer horderly hhandler

/-! ### Runs -/

/-- What has been written on the stream of a decided request is the decision. -/
theorem Settled.holds (h : Settled s) (horderly : Orderly s) {stream : Nat}
    {decision : EnrollmentDecision}
    (hdecided : .decided stream decision ∈ s.history) {frame : EnrollmentFrame}
    (hframe : frame ∈ written s.history stream) : frame.Holds decision := by
  have hwrote := mem_written_iff.mp hframe
  have hholds := h.handler stream
  have hagrees := horderly.handler stream
  cases hhandler : s.handlers stream <;> rw [hhandler] at hholds hagrees
  case closed => exact hholds decision hdecided frame hwrote
  case waiting => exact absurd ⟨frame, hwrote⟩ hagrees.2
  case selected => exact absurd ⟨frame, hwrote⟩ hagrees.2.1
  case answering => exact absurd ⟨frame, hwrote⟩ hagrees.1
  all_goals exact absurd ⟨frame, hwrote⟩ hagrees.2.2

theorem Settled.agree (h : Settled s) (horderly : Orderly s) : Agree s.history where
  approved stream decision hdecided haccepted := by
    refine ⟨?_, fun frame hframe => h.holds horderly hdecided hframe⟩
    rcases h.made stream decision hdecided with rfl | ⟨membership, rfl⟩
    · cases haccepted
    · exact ⟨membership, rfl⟩
  denied stream decision hdecided haccepted frame hframe := by
    obtain ⟨requestID, rfl⟩ := h.holds horderly hdecided hframe
    rcases h.made stream decision hdecided with rfl | ⟨membership, rfl⟩
    · simp [EnrollmentFrame.Grants, EnrollmentDecision.frame]
    · cases haccepted
  expired stream frame hframe hexpired := by
    rintro ⟨decision, hdecided⟩
    obtain ⟨requestID, rfl⟩ := h.holds horderly hdecided hframe
    rcases h.made stream decision hdecided with rfl | ⟨membership, rfl⟩
    · simp [EnrollmentFrame.Expired, EnrollmentDecision.frame] at hexpired
    · cases hexpired.1

/-- In every run in which the daemon does not shut down, no decision is sent after its handler has
left the `select`, and no timer's case is taken over a decision in the channel, operator and joiner
agree. -/
theorem agree_of_timely {memberships : Memberships} {actions : List Action} {s : EnrollmentState}
    (hrun : run EnrollmentState.step (initial memberships) actions = some s)
    (hmeets : Meets EnrollmentState.step Timely (initial memberships) actions)
    (hshutdown : .shutdown ∉ actions) : Agree s.history := by
  have hno : ∀ a ∈ actions, a ≠ .shutdown := fun a ha h => hshutdown (h ▸ ha)
  have hboth : Orderly s ∧ Settled s := by
    refine run_invariant (P := fun s => Orderly s ∧ Settled s) ?_
      ⟨initial_orderly memberships, initial_settled memberships⟩
      (hmeets.and (meets_of_forall_mem hno _)) hrun
    rintro t a t' ⟨horderly, hsettled⟩ ⟨htimely, hne⟩ hstep
    exact ⟨horderly.step hstep, hsettled.step horderly htimely hne hstep⟩
  exact hboth.2.agree hboth.1

/-- A request that is approved in time. -/
theorem agree_approvedRun :
    ∃ s, run EnrollmentState.step (initial OrderedStore.empty) approvedRun = some s ∧
      Decided s.history 0 ∧ Agree s.history := by
  have hdecided : (run EnrollmentState.step (initial OrderedStore.empty) approvedRun).any
      (fun s : EnrollmentState => s.history.any fun
        | .decided 0 _ => true
        | _ => false) = true := by
    decide +kernel
  obtain ⟨s, hs, hany⟩ := (Option.any_eq_true _ _).mp hdecided
  refine ⟨s, hs, ?_, agree_of_timely hs (by decide +kernel) (by simp [approvedRun, requestRun])⟩
  obtain ⟨e, hmem, he⟩ := List.any_eq_true.mp hany
  split at he
  · exact ⟨_, hmem⟩
  · cases he

/-- The timer fires after an approval has found the request and before its decision is sent. -/
def lateRun : List Action :=
  requestRun ++
    [.decide 0 (Base64Url.encode requestBytes) true, .invite 0, .expire 0, .send 0, .remove 0,
      .answer 0]

/-- The operator is told that the request was approved, the joiner that it has expired. -/
theorem not_agree_lateRun :
    ∃ s, run EnrollmentState.step (initial OrderedStore.empty) lateRun = some s ∧
      ¬ Agree s.history := by
  have hlate : (run EnrollmentState.step (initial OrderedStore.empty) lateRun).any
      (fun s : EnrollmentState => decide (∃ frame ∈ written s.history 0, ¬ frame.Grants) &&
        s.history.any fun
        | .decided 0 decision => decision.accepted
        | _ => false) = true := by
    decide +kernel
  obtain ⟨s, hs, hboth⟩ := (Option.any_eq_true _ _).mp hlate
  obtain ⟨hframe, hany⟩ := (Bool.and_eq_true _ _).mp hboth
  obtain ⟨frame, hmem, hgrants⟩ := of_decide_eq_true hframe
  obtain ⟨e, he, haccepted⟩ := List.any_eq_true.mp hany
  refine ⟨s, hs, fun hagree => ?_⟩
  split at haccepted
  · next decision =>
    obtain ⟨requestID, rfl⟩ := (hagree.approved 0 decision he haccepted).2 frame hmem
    exact hgrants (Or.inl haccepted)
  · cases haccepted

end EnrollmentState

end Thalweg
