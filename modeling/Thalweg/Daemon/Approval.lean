import Thalweg.Daemon.Enrollment

/-!
# Who is let into a network

In every order of the steps of a daemon, an invitation goes out on a stream only if the request of
that stream was approved while it was pending. A request is decided once and answered once, and what
goes out without an approval does not depend on the secrets of the networks.

## Main definitions

* `Authorized`: what has to come before an event.
* `EnrollmentState.Orderly`: the invariant that ties handlers, calls and the table of requests to
  the history.

## Main results

* `EnrollmentState.enrollment_authorized`.
-/

namespace Thalweg

open Machine

/-! ### Events -/

/-- The frame accepts a request or holds an invitation. -/
def EnrollmentFrame.Grants : EnrollmentFrame → Prop
  | .offers _ => False
  | .decision d => d.accepted = true ∨ d.invitation ≠ []

instance (frame : EnrollmentFrame) : Decidable frame.Grants := by
  unfold EnrollmentFrame.Grants
  split <;> infer_instance

/-- The frames that have been written to a stream. -/
def written (history : List EnrollmentEvent) (stream : Nat) : List EnrollmentFrame :=
  history.filterMap fun
    | .wrote i frame => if i = stream then some frame else none
    | _ => none

theorem mem_written_iff {history : List EnrollmentEvent} {stream : Nat} {frame : EnrollmentFrame} :
    frame ∈ written history stream ↔ .wrote stream frame ∈ history := by
  simp only [written, List.mem_filterMap]
  constructor
  · rintro ⟨e, he, h⟩
    split at h
    · split_ifs at h with hi
      obtain rfl := Option.some.inj h
      exact hi ▸ he
    · cases h
  · exact fun h => ⟨_, h, if_pos rfl⟩

/-- The line of the stream has been read. -/
def Received (history : List EnrollmentEvent) (stream : Nat) (line : EnrollmentLine) : Prop :=
  ∃ bytes, .received stream bytes ∈ history ∧ readEnrollmentLine bytes = some line

/-- A call has found the request of the stream. -/
def Found (history : List EnrollmentEvent) (stream : Nat) : Prop :=
  ∃ requestID approve, .found stream requestID approve ∈ history

/-- A call on the request of the stream has returned. -/
def Decided (history : List EnrollmentEvent) (stream : Nat) : Prop :=
  ∃ decision, .decided stream decision ∈ history

/-- A frame has been written to the stream. -/
def Answered (history : List EnrollmentEvent) (stream : Nat) : Prop :=
  ∃ frame, .wrote stream frame ∈ history

/-- The request of the stream has been registered. -/
def Registered (history : List EnrollmentEvent) (stream : Nat) : Prop :=
  ∃ offer info, .registered stream offer info ∈ history

/-- An approval has found the request of the stream under its ID. -/
def Approved (history : List EnrollmentEvent) (stream : Nat) : Prop :=
  ∃ offer info, .registered stream offer info ∈ history ∧ .found stream info.id true ∈ history

/-- What the events before an event have to say. A stream has one line and at most one request,
which is for the offer that the line names; the request is found at most once, under its ID and
before it is answered; the call that has found it returns at most once; and the stream is answered
at most once, with an invitation only if the request was approved, and with offers only if it has
asked for them. -/
def Authorized (before : List EnrollmentEvent) : EnrollmentEvent → Prop
  | .received stream _ => ∀ bytes, .received stream bytes ∉ before
  | .registered stream offer info =>
    (∃ request, Received before stream (.request request) ∧ offer.id = request.offerID) ∧
      ¬ Registered before stream ∧ info.network = offer.network
  | .found stream requestID _ =>
    (∃ offer info, .registered stream offer info ∈ before ∧ info.id = requestID) ∧
      ¬ Found before stream ∧ ¬ Answered before stream
  | .decided stream decision =>
    (∃ requestID, .found stream requestID decision.accepted ∈ before) ∧ ¬ Decided before stream
  | .listed _ => True
  | .wrote stream frame =>
    ¬ Answered before stream ∧ (frame.Grants → Approved before stream) ∧
      ∀ offers, frame = .offers offers → Received before stream .query

/-! ### Redaction -/

/-- An accepted decision without its invitation. -/
def EnrollmentDecision.redact (decision : EnrollmentDecision) : EnrollmentDecision :=
  if decision.accepted then { decision with invitation := [] } else decision

/-- A frame; the invitation of an accepted decision is left out. -/
def EnrollmentFrame.redact : EnrollmentFrame → EnrollmentFrame
  | .offers os => .offers os
  | .decision d => .decision (if d.accepted then { d with invitation := [] } else d)

/-- A handler without its invitation. -/
def EnrollmentHandler.redact : EnrollmentHandler → EnrollmentHandler
  | .selected info decision => .selected info decision.redact
  | .answering frame => .answering frame.redact
  | handler => handler

/-- A call without its invitation. -/
def EnrollmentCall.redact : EnrollmentCall → EnrollmentCall
  | .sending stream decision => .sending stream decision.redact
  | call => call

/-- An entry of the history without its invitation. -/
def EnrollmentEvent.redact : EnrollmentEvent → EnrollmentEvent
  | .decided stream decision => .decided stream decision.redact
  | .wrote stream frame => .wrote stream frame.redact
  | event => event

/-! ### The history grows -/

section Append

variable {history : List EnrollmentEvent} {e : EnrollmentEvent} {stream : Nat}

theorem Approved.append (h : Approved history stream) : Approved (history ++ [e]) stream := by
  obtain ⟨offer, info, hregistered, hfound⟩ := h
  exact ⟨offer, info, List.mem_append_left _ hregistered, List.mem_append_left _ hfound⟩

theorem Received.append {line : EnrollmentLine} (h : Received history stream line) :
    Received (history ++ [e]) stream line := by
  obtain ⟨bytes, hmem, hread⟩ := h
  exact ⟨bytes, List.mem_append_left _ hmem, hread⟩

theorem registered_append_iff : Registered (history ++ [e]) stream ↔
    Registered history stream ∨ ∃ offer info, e = .registered stream offer info := by
  simp only [Registered, List.mem_append, List.mem_singleton, exists_or, eq_comm]

theorem found_append_iff : Found (history ++ [e]) stream ↔
    Found history stream ∨ ∃ requestID approve, e = .found stream requestID approve := by
  simp only [Found, List.mem_append, List.mem_singleton, exists_or, eq_comm]

theorem decided_append_iff : Decided (history ++ [e]) stream ↔
    Decided history stream ∨ ∃ decision, e = .decided stream decision := by
  simp only [Decided, List.mem_append, List.mem_singleton, exists_or, eq_comm]

theorem answered_append_iff : Answered (history ++ [e]) stream ↔
    Answered history stream ∨ ∃ frame, e = .wrote stream frame := by
  simp only [Answered, List.mem_append, List.mem_singleton, exists_or, eq_comm]

end Append

namespace EnrollmentState

/-! ### The invariant -/

/-- The decision holds an invitation only if the request of the stream was approved. -/
def Sanctioned (history : List EnrollmentEvent) (stream : Nat) (decision : EnrollmentDecision) :
    Prop :=
  decision.accepted = true ∨ decision.invitation ≠ [] → Approved history stream

/-- How far the handler of a stream is in the history of the stream. -/
def HandlerAgrees (history : List EnrollmentEvent) (stream : Nat) : EnrollmentHandler → Prop
  | .unopened | .reading _ =>
    (∀ bytes, .received stream bytes ∉ history) ∧ ¬ Registered history stream ∧
      ¬ Answered history stream
  | .requesting offer _ _ =>
    (∃ request, Received history stream (.request request) ∧ offer.id = request.offerID) ∧
      ¬ Registered history stream ∧ ¬ Answered history stream
  | .waiting info =>
    (∃ offer, .registered stream offer info ∈ history) ∧ ¬ Answered history stream
  | .selected info decision =>
    (∃ offer, .registered stream offer info ∈ history) ∧ ¬ Answered history stream ∧
      Sanctioned history stream decision
  | .answering frame =>
    ¬ Answered history stream ∧ (frame.Grants → Approved history stream) ∧
      ∀ offers, frame = .offers offers → Received history stream .query
  | .closed => True

/-- How far a call is. -/
def CallAgrees (history : List EnrollmentEvent) : EnrollmentCall → Prop
  | .idle => True
  | .approving stream info =>
    (∃ offer, .registered stream offer info ∈ history) ∧ .found stream info.id true ∈ history ∧
      ¬ Decided history stream
  | .sending stream decision =>
    (∃ requestID, .found stream requestID decision.accepted ∈ history) ∧ ¬ Decided history stream ∧
      Sanctioned history stream decision

/-- Handlers, calls, channels and the table of requests agree with the history. -/
structure Orderly (s : EnrollmentState) : Prop where
  authorized : Justified Authorized s.history
  handler : ∀ stream, HandlerAgrees s.history stream (s.handlers stream)
  call : ∀ call, CallAgrees s.history (s.calls call)
  /-- No two calls have taken the request of the same stream. -/
  apart : ∀ call call' stream, (s.calls call).stream = some stream →
    (s.calls call').stream = some stream → call = call'
  /-- A pending request has not been found by a call, and its handler has not answered it. -/
  pending : ∀ requestID stream info, s.requests.get requestID = some (stream, info) →
    info.id = requestID ∧ ¬ Found s.history stream ∧
      (s.handlers stream = .waiting info ∨ ∃ decision, s.handlers stream = .selected info decision)
  channel : ∀ stream decision, s.decisions stream = some decision →
    Decided s.history stream ∧ Sanctioned s.history stream decision

theorem initial_orderly (memberships : Memberships) : Orderly (initial memberships) where
  authorized := justified_nil _
  handler _ := by simp [initial, HandlerAgrees, Registered, Answered]
  call _ := trivial
  apart _ _ _ h := by simp [initial, EnrollmentCall.stream] at h
  pending _ _ _ h := by simp [initial] at h
  channel _ _ h := by simp [initial] at h

section Append

variable {history : List EnrollmentEvent} {e : EnrollmentEvent} {stream : Nat}

theorem Sanctioned.append {decision : EnrollmentDecision} (h : Sanctioned history stream decision) :
    Sanctioned (history ++ [e]) stream decision := fun hgrants => Approved.append (h hgrants)

/-- What a handler has done so far is not changed by an event that is not its own. -/
theorem HandlerAgrees.append {handler : EnrollmentHandler} (h : HandlerAgrees history stream handler)
    (hreceived : ∀ bytes, e ≠ .received stream bytes)
    (hregistered : ∀ offer info, e ≠ .registered stream offer info)
    (hwrote : ∀ frame, e ≠ .wrote stream frame) : HandlerAgrees (history ++ [e]) stream handler := by
  have hunread : (∀ bytes, .received stream bytes ∉ history) →
      ∀ bytes, .received stream bytes ∉ history ++ [e] := by
    intro hno bytes hmem
    rcases List.mem_append.mp hmem with hmem | hmem
    · exact hno bytes hmem
    · exact hreceived bytes (List.mem_singleton.mp hmem).symm
  have hnot : ¬ Registered history stream → ¬ Registered (history ++ [e]) stream := by
    rw [registered_append_iff]
    rintro hno (hyes | ⟨offer, info, he⟩)
    · exact hno hyes
    · exact hregistered offer info he
  have hunanswered : ¬ Answered history stream → ¬ Answered (history ++ [e]) stream := by
    rw [answered_append_iff]
    rintro hno (hyes | ⟨frame, he⟩)
    · exact hno hyes
    · exact hwrote frame he
  cases handler with
  | unopened => exact ⟨hunread h.1, hnot h.2.1, hunanswered h.2.2⟩
  | reading remotePeer => exact ⟨hunread h.1, hnot h.2.1, hunanswered h.2.2⟩
  | requesting offer remotePeer deviceName =>
    obtain ⟨⟨request, hrequest, hid⟩, hno, hno'⟩ := h
    exact ⟨⟨request, hrequest.append, hid⟩, hnot hno, hunanswered hno'⟩
  | waiting info =>
    obtain ⟨⟨offer, hmem⟩, hno⟩ := h
    exact ⟨⟨offer, List.mem_append_left _ hmem⟩, hunanswered hno⟩
  | selected info decision =>
    obtain ⟨⟨offer, hmem⟩, hno, hsanctioned⟩ := h
    exact ⟨⟨offer, List.mem_append_left _ hmem⟩, hunanswered hno, hsanctioned.append⟩
  | answering frame =>
    obtain ⟨hno, hgrants, hoffers⟩ := h
    exact ⟨hunanswered hno, fun hg => Approved.append (hgrants hg),
      fun offers ho => (hoffers offers ho).append⟩
  | closed => trivial

/-- What a call has done so far is not changed until a call on the same stream returns. -/
theorem CallAgrees.append {call : EnrollmentCall} (h : CallAgrees history call)
    (hdecided : ∀ stream decision, call.stream = some stream → e ≠ .decided stream decision) :
    CallAgrees (history ++ [e]) call := by
  have hnot : ∀ stream, call.stream = some stream → ¬ Decided history stream →
      ¬ Decided (history ++ [e]) stream := by
    intro stream hstream hno
    rw [decided_append_iff]
    rintro (hyes | ⟨decision, he⟩)
    · exact hno hyes
    · exact hdecided stream decision hstream he
  cases call with
  | idle => trivial
  | approving stream info =>
    obtain ⟨⟨offer, hmem⟩, hfound, hno⟩ := h
    exact ⟨⟨offer, List.mem_append_left _ hmem⟩, List.mem_append_left _ hfound, hnot stream rfl hno⟩
  | sending stream decision =>
    obtain ⟨⟨requestID, hfound⟩, hno, hsanctioned⟩ := h
    exact ⟨⟨requestID, List.mem_append_left _ hfound⟩, hnot stream rfl hno, hsanctioned.append⟩

end Append

/-- A call has found the request of its stream. -/
theorem CallAgrees.found {history : List EnrollmentEvent} {call : EnrollmentCall}
    (h : CallAgrees history call) {stream : Nat} (hstream : call.stream = some stream) :
    Found history stream := by
  cases call with
  | idle => cases hstream
  | approving stream' info =>
    obtain rfl := Option.some.inj hstream
    exact ⟨info.id, true, h.2.1⟩
  | sending stream' decision =>
    obtain rfl := Option.some.inj hstream
    obtain ⟨requestID, hmem⟩ := h.1
    exact ⟨requestID, decision.accepted, hmem⟩

/-- A handler that has not registered a request has neither registered nor answered one. -/
theorem HandlerAgrees.not_registered {history : List EnrollmentEvent} {stream : Nat}
    {handler : EnrollmentHandler} (h : HandlerAgrees history stream handler) (hearly : Early handler) :
    ¬ Registered history stream ∧ ¬ Answered history stream := by
  cases handler <;> first | exact h.2 | exact hearly.elim

/-- A handler that has read its line agrees with the history in which the line stands. -/
theorem HandlerAgrees.of_reads {history : List EnrollmentEvent} {stream : Nat} {bytes : List UInt8}
    {handler : EnrollmentHandler} (hmem : .received stream bytes ∈ history)
    (hregistered : ¬ Registered history stream) (hanswered : ¬ Answered history stream)
    (hreads : Reads bytes handler) : HandlerAgrees history stream handler := by
  cases handler with
  | answering frame =>
    refine ⟨hanswered, ?_⟩
    cases frame with
    | offers offers => exact ⟨False.elim, fun _ _ => ⟨bytes, hmem, hreads⟩⟩
    | decision decision => simp [EnrollmentFrame.Grants, hreads.2.1, hreads.2.2]
  | requesting offer remotePeer deviceName =>
    obtain ⟨request, hread, hid⟩ := hreads
    exact ⟨⟨request, ⟨bytes, hmem, hread⟩, hid⟩, hregistered, hanswered⟩
  | closed => trivial
  | unopened => exact hreads.elim
  | reading remotePeer => exact hreads.elim
  | waiting info => exact hreads.elim
  | selected info decision => exact hreads.elim

/-! ### Steps keep the invariant -/

section Steps

variable {s : EnrollmentState}

theorem Orderly.registered_of_found (h : Orderly s) {stream : Nat}
    (hfound : Found s.history stream) :
    Registered s.history stream := by
  obtain ⟨requestID, approve, hmem⟩ := hfound
  obtain ⟨before, after, hsplit, ⟨offer, info, hregistered, -⟩, -⟩ :=
    h.authorized.exists_of_mem hmem
  exact ⟨offer, info, hsplit ▸ List.mem_append_left _ hregistered⟩

theorem Orderly.found_of_decided (h : Orderly s) {stream : Nat}
    (hdecided : Decided s.history stream) :
    Found s.history stream := by
  obtain ⟨decision, hmem⟩ := hdecided
  obtain ⟨before, after, hsplit, ⟨requestID, hfound⟩, -⟩ := h.authorized.exists_of_mem hmem
  exact ⟨requestID, decision.accepted, hsplit ▸ List.mem_append_left _ hfound⟩

/-- The request of a pending entry is registered and has not been answered. -/
theorem Orderly.registered_of_pending (h : Orderly s) {requestID : Text} {stream : Nat}
    {info : EnrollmentRequestInfo} (hget : s.requests.get requestID = some (stream, info)) :
    (∃ offer, .registered stream offer info ∈ s.history) ∧ ¬ Answered s.history stream := by
  have hagrees := h.handler stream
  obtain ⟨-, -, hhandler | ⟨decision, hhandler⟩⟩ := h.pending requestID stream info hget
  · rw [hhandler] at hagrees
    exact hagrees
  · rw [hhandler] at hagrees
    exact ⟨hagrees.1, hagrees.2.1⟩

/-- A stream has at most one pending entry. -/
theorem Orderly.pending_unique (h : Orderly s) {requestID requestID' : Text} {stream : Nat}
    {info info' : EnrollmentRequestInfo} (hget : s.requests.get requestID = some (stream, info))
    (hget' : s.requests.get requestID' = some (stream, info')) : requestID = requestID' := by
  obtain ⟨rfl, -, hhandler⟩ := h.pending requestID stream info hget
  obtain ⟨rfl, -, hhandler'⟩ := h.pending requestID' stream info' hget'
  have hinfo : info = info' := by
    rcases hhandler with hw | ⟨decision, hw⟩ <;> rcases hhandler' with hw' | ⟨decision', hw'⟩ <;>
      rw [hw] at hw' <;> cases hw' <;> rfl
  rw [hinfo]

theorem Orderly.quiet (h : Orderly s) (memberships : Memberships)
    (offers : OrderedStore Char EnrollmentOffer) : Orderly { s with memberships, offers } where
  authorized := h.authorized
  handler := h.handler
  call := h.call
  apart := h.apart
  pending := h.pending
  channel := h.channel

theorem Orderly.list (h : Orderly s) (infos : List EnrollmentRequestInfo) :
    Orderly (s.record (.listed infos)) where
  authorized := justified_append_singleton.mpr ⟨h.authorized, trivial⟩
  handler i := (h.handler i).append (by simp) (by simp) (by simp)
  call c := (h.call c).append (by simp)
  apart := h.apart
  pending id i info hget := by
    obtain ⟨hid, hfound, hhandler⟩ := h.pending id i info hget
    exact ⟨hid, by simpa [record, found_append_iff] using hfound, hhandler⟩
  channel i decision hdecision := by
    obtain ⟨hdecided, hsanctioned⟩ := h.channel i decision hdecision
    exact ⟨decided_append_iff.mpr (Or.inl hdecided), hsanctioned.append⟩

theorem Orderly.found (h : Orderly s) {call stream : Nat} {requestID : Text}
    {info : EnrollmentRequestInfo} (approve : Bool)
    (hget : s.requests.get requestID = some (stream, info)) :
    Orderly (({ s with requests := s.requests.delete requestID }.setCall call (if approve then
      .approving stream info else .sending stream ⟨false, [], "enrollment denied".toList⟩)).record
        (.found stream requestID approve)) := by
  obtain ⟨⟨offer, hregistered⟩, hanswered⟩ := h.registered_of_pending hget
  obtain ⟨hid, hfound, hhandler⟩ := h.pending requestID stream info hget
  have hdecided : ¬ Decided s.history stream := mt h.found_of_decided hfound
  have hcall : CallAgrees (s.history ++ [.found stream requestID approve]) (if approve then
      .approving stream info else .sending stream ⟨false, [], "enrollment denied".toList⟩) := by
    have hundecided : ¬ Decided (s.history ++ [.found stream requestID approve]) stream := by
      simpa [decided_append_iff] using hdecided
    cases approve with
    | false => exact ⟨⟨requestID, by simp⟩, hundecided, by simp [Sanctioned]⟩
    | true => exact ⟨⟨offer, by simp [hregistered]⟩, by simp [hid], hundecided⟩
  have hstream : (if approve then EnrollmentCall.approving stream info else
      .sending stream ⟨false, [], "enrollment denied".toList⟩).stream = some stream := by
    cases approve <;> rfl
  generalize (if approve then EnrollmentCall.approving stream info else
    .sending stream ⟨false, [], "enrollment denied".toList⟩) = next at hcall hstream ⊢
  -- no other call has taken a request that is still pending
  have hother : ∀ c, (s.calls c).stream ≠ some stream := fun c hc => hfound ((h.call c).found hc)
  constructor
  case authorized =>
    exact justified_append_singleton.mpr
      ⟨h.authorized, ⟨offer, info, hregistered, hid⟩, hfound, hanswered⟩
  case handler => exact fun i => (h.handler i).append (by simp) (by simp) (by simp)
  case call =>
    intro c
    simp only [record, setCall, Function.update_apply]
    split_ifs
    · exact hcall
    · exact (h.call c).append (by simp)
  case apart =>
    intro c c' i
    simp only [record, setCall, Function.update_apply]
    split_ifs with hc hc' hc'
    · exact fun _ _ => hc.trans hc'.symm
    · rw [hstream]
      exact fun hi hi' => absurd (hi'.trans hi.symm) (hother c')
    · rw [hstream]
      exact fun hi hi' => absurd (hi.trans hi'.symm) (hother c)
    · exact h.apart c c' i
  case pending =>
    intro id i info' hget'
    simp only [record, setCall, OrderedStore.get_delete] at hget' ⊢
    split_ifs at hget' with hne
    obtain ⟨hid', hfound', hhandler'⟩ := h.pending id i info' hget'
    refine ⟨hid', ?_, hhandler'⟩
    rw [found_append_iff]
    rintro (hyes | ⟨_, _, he⟩)
    · exact hfound' hyes
    · obtain rfl : stream = i := by cases he; rfl
      exact hne (h.pending_unique hget' hget)
  case channel =>
    intro i decision hdecision
    obtain ⟨hdecided, hsanctioned⟩ := h.channel i decision hdecision
    exact ⟨decided_append_iff.mpr (Or.inl hdecided), hsanctioned.append⟩

theorem Orderly.setCall (h : Orderly s) {call : Nat} {next : EnrollmentCall}
    (hagrees : CallAgrees s.history next)
    (hstream : ∀ stream, next.stream = some stream → (s.calls call).stream = some stream) :
    Orderly (s.setCall call next) where
  authorized := h.authorized
  handler := h.handler
  call c := by
    simp only [EnrollmentState.setCall, Function.update_apply]
    split_ifs
    · exact hagrees
    · exact h.call c
  apart c c' i := by
    simp only [EnrollmentState.setCall, Function.update_apply]
    split_ifs with hc hc' hc'
    · exact fun _ _ => hc.trans hc'.symm
    · exact fun hi hi' => hc.trans (h.apart call c' i (hstream i hi) hi')
    · exact fun hi hi' => (h.apart c call i hi (hstream i hi')).trans hc'.symm
    · exact h.apart c c' i
  pending := h.pending
  channel := h.channel

theorem Orderly.setHandler (h : Orderly s) {stream : Nat} {handler : EnrollmentHandler}
    (hagrees : HandlerAgrees s.history stream handler)
    (hpending : ∀ requestID info, s.requests.get requestID = some (stream, info) →
      handler = .waiting info ∨ ∃ decision, handler = .selected info decision) :
    Orderly (s.setHandler stream handler) where
  authorized := h.authorized
  handler i := by
    simp only [EnrollmentState.setHandler, Function.update_apply]
    split_ifs with hi
    · exact hi ▸ hagrees
    · exact h.handler i
  call := h.call
  apart := h.apart
  pending id i info hget := by
    obtain ⟨hid, hfound, hhandler⟩ := h.pending id i info hget
    refine ⟨hid, hfound, ?_⟩
    simp only [EnrollmentState.setHandler, Function.update_apply]
    split_ifs with hi
    · exact hpending id info (hi ▸ hget)
    · exact hhandler
  channel := h.channel

theorem Orderly.invite (h : Orderly s) {call stream : Nat} {info : EnrollmentRequestInfo}
    (hcall : s.calls call = .approving stream info) (invitation : Text) :
    Orderly (s.setCall call (.sending stream ⟨true, invitation, []⟩)) := by
  have hagrees := h.call call
  rw [hcall] at hagrees
  obtain ⟨⟨offer, hregistered⟩, hfound, hdecided⟩ := hagrees
  have happroved : Approved s.history stream := ⟨offer, info, hregistered, hfound⟩
  refine h.setCall ⟨⟨info.id, hfound⟩, hdecided, fun _ => happroved⟩ ?_
  rintro i hi
  rw [hcall]
  exact hi

theorem Orderly.send (h : Orderly s) {call stream : Nat} {decision : EnrollmentDecision}
    (hcall : s.calls call = .sending stream decision) :
    Orderly (({ s with decisions := Function.update s.decisions stream (some decision) }.setCall
      call
      .idle).record (.decided stream decision)) := by
  have hagrees := h.call call
  rw [hcall] at hagrees
  obtain ⟨⟨requestID, hfound⟩, hdecided, hsanctioned⟩ := hagrees
  have hquiet : Orderly (s.setCall call .idle) :=
    h.setCall trivial (by simp [EnrollmentCall.stream])
  constructor
  case authorized =>
    exact justified_append_singleton.mpr ⟨h.authorized, ⟨requestID, hfound⟩, hdecided⟩
  case handler => exact fun i => (h.handler i).append (by simp) (by simp) (by simp)
  case call =>
    intro c
    simp only [record, EnrollmentState.setCall, Function.update_apply]
    split_ifs with hc
    · trivial
    · refine (h.call c).append ?_
      rintro i d hi he
      obtain rfl : stream = i := by cases he; rfl
      exact hc (h.apart c call stream hi (by rw [hcall]; rfl))
  case apart => exact hquiet.apart
  case pending =>
    intro id i info hget
    obtain ⟨hid, hnot, hhandler⟩ := h.pending id i info hget
    exact ⟨hid, by simpa [record, EnrollmentState.setCall, found_append_iff] using hnot, hhandler⟩
  case channel =>
    intro i d hd
    simp only [record, EnrollmentState.setCall, Function.update_apply] at hd ⊢
    split_ifs at hd with hi
    · obtain rfl := Option.some.inj hd
      obtain rfl := hi
      exact ⟨decided_append_iff.mpr (Or.inr ⟨_, rfl⟩), hsanctioned.append⟩
    · obtain ⟨hyes, hs⟩ := h.channel i d hd
      exact ⟨decided_append_iff.mpr (Or.inl hyes), hs.append⟩

/-- An early handler has no pending entry. -/
theorem Orderly.not_pending (h : Orderly s) {stream : Nat} (hearly : Early (s.handlers stream))
    (requestID : Text) (info : EnrollmentRequestInfo) :
    s.requests.get requestID ≠ some (stream, info) := by
  intro hget
  obtain ⟨⟨offer, hmem⟩, -⟩ := h.registered_of_pending hget
  exact ((h.handler stream).not_registered hearly).1 ⟨offer, info, hmem⟩

theorem Orderly.receive (h : Orderly s) {stream : Nat} {remotePeer : Text} {line : List UInt8}
    {handler : EnrollmentHandler} (offers : OrderedStore Char EnrollmentOffer)
    (hhandler : s.handlers stream = .reading remotePeer) (hreads : Reads line handler) :
    Orderly (({ s with offers }.setHandler stream handler).record (.received stream line)) := by
  have hagrees := h.handler stream
  rw [hhandler] at hagrees
  obtain ⟨hunread, hregistered, hanswered⟩ := hagrees
  have hearly : Early (s.handlers stream) := by
    rw [hhandler]
    trivial
  constructor
  case authorized => exact justified_append_singleton.mpr ⟨h.authorized, hunread⟩
  case handler =>
    intro i
    simp only [record, EnrollmentState.setHandler, Function.update_apply]
    split_ifs with hi
    · subst hi
      refine .of_reads (by simp) ?_ ?_ hreads
      · simpa [registered_append_iff] using hregistered
      · simpa [answered_append_iff] using hanswered
    · exact (h.handler i).append (by simp [Ne.symm hi]) (by simp) (by simp)
  case call => exact fun c => (h.call c).append (by simp)
  case apart => exact h.apart
  case pending =>
    intro id i info hget
    have hi : i ≠ stream := by
      rintro rfl
      exact h.not_pending hearly id info hget
    obtain ⟨hid, hnot, hold⟩ := h.pending id i info hget
    refine ⟨hid, by simpa [record, EnrollmentState.setHandler, found_append_iff] using hnot, ?_⟩
    simpa [record, EnrollmentState.setHandler, hi] using hold
  case channel =>
    intro i d hd
    obtain ⟨hdecided, hsanctioned⟩ := h.channel i d hd
    exact ⟨decided_append_iff.mpr (Or.inl hdecided), hsanctioned.append⟩

/-- An early handler goes on without an event. -/
theorem Orderly.setEarly (h : Orderly s) {stream : Nat} {handler : EnrollmentHandler}
    (hearly : Early (s.handlers stream)) (hagrees : HandlerAgrees s.history stream handler) :
    Orderly (s.setHandler stream handler) :=
  h.setHandler hagrees fun requestID info hget => absurd hget (h.not_pending hearly requestID info)

theorem Orderly.register (h : Orderly s) {stream : Nat} {offer : EnrollmentOffer}
    {remotePeer deviceName : Text}
      (hhandler : s.handlers stream = .requesting offer remotePeer deviceName)
    (random : List UInt8) (now : Instant) :
    Orderly (s.register stream offer remotePeer deviceName random now) := by
  have hagrees := h.handler stream
  rw [hhandler] at hagrees
  obtain ⟨hrequest, hregistered, hanswered⟩ := hagrees
  have hfound : ¬ Found s.history stream := mt h.registered_of_found hregistered
  constructor
  case authorized =>
    exact justified_append_singleton.mpr ⟨h.authorized, hrequest, hregistered, rfl⟩
  case handler =>
    intro i
    simp only [EnrollmentState.register, record, EnrollmentState.setHandler, Function.update_apply]
    split_ifs with hi
    · subst hi
      exact ⟨⟨offer, by simp⟩, by simpa [answered_append_iff] using hanswered⟩
    · exact (h.handler i).append (by simp) (by simp [Ne.symm hi]) (by simp)
  case call => exact fun c => (h.call c).append (by simp)
  case apart => exact h.apart
  case pending =>
    intro id i info hget
    simp only [EnrollmentState.register, record, EnrollmentState.setHandler, OrderedStore.get_set,
      Function.update_apply] at hget ⊢
    simp only [found_append_iff, reduceCtorEq, exists_false, or_false]
    split_ifs at hget with hid
    · cases hget
      exact ⟨hid.symm, hfound, Or.inl (if_pos rfl)⟩
    · obtain ⟨hid', hnot, hold⟩ := h.pending id i info hget
      have hi : i ≠ stream := by
        rintro rfl
        rw [hhandler] at hold
        simp at hold
      simpa [hi] using ⟨hid', hnot, hold⟩
  case channel =>
    intro i d hd
    obtain ⟨hdecided, hsanctioned⟩ := h.channel i d hd
    exact ⟨decided_append_iff.mpr (Or.inl hdecided), hsanctioned.append⟩

theorem Orderly.take (h : Orderly s) {stream : Nat} {info : EnrollmentRequestInfo}
    {decision : EnrollmentDecision} (hhandler : s.handlers stream = .waiting info)
    (hdecision : s.decisions stream = some decision) :
    Orderly ({ s with decisions := Function.update s.decisions stream none }.setHandler stream
      (.selected info decision)) := by
  have hagrees := h.handler stream
  rw [hhandler] at hagrees
  obtain ⟨hregistered, hanswered⟩ := hagrees
  have hempty : Orderly { s with decisions := Function.update s.decisions stream none } := by
    refine ⟨h.authorized, h.handler, h.call, h.apart, h.pending, ?_⟩
    intro i d hd
    simp only [Function.update_apply] at hd
    split_ifs at hd
    exact h.channel i d hd
  refine hempty.setHandler ⟨hregistered, hanswered, (h.channel stream decision hdecision).2⟩ ?_
  intro requestID info' hget
  obtain ⟨-, -, hold⟩ := h.pending requestID stream info' hget
  rw [hhandler] at hold
  obtain rfl : info = info' := by simpa using hold
  exact Or.inr ⟨decision, rfl⟩

theorem Orderly.giveUp (h : Orderly s) {stream : Nat} {info : EnrollmentRequestInfo}
    (hhandler : s.handlers stream = .waiting info) (error : Text) :
    Orderly (s.setHandler stream (.selected info ⟨false, [], error⟩)) := by
  have hagrees := h.handler stream
  rw [hhandler] at hagrees
  refine h.setHandler ⟨hagrees.1, hagrees.2, by simp [Sanctioned]⟩ ?_
  intro requestID info' hget
  obtain ⟨-, -, hold⟩ := h.pending requestID stream info' hget
  rw [hhandler] at hold
  obtain rfl : info = info' := by simpa using hold
  exact Or.inr ⟨_, rfl⟩

theorem Orderly.remove (h : Orderly s) {stream : Nat} {info : EnrollmentRequestInfo}
    {decision : EnrollmentDecision} (hhandler : s.handlers stream = .selected info decision) :
    Orderly ({ s with requests := s.requests.delete info.id }.setHandler stream
      (.answering (.decision (decision.frame info.id)))) := by
  have hagrees := h.handler stream
  rw [hhandler] at hagrees
  obtain ⟨-, hanswered, hsanctioned⟩ := hagrees
  have hremoved : Orderly { s with requests := s.requests.delete info.id } := by
    refine ⟨h.authorized, h.handler, h.call, h.apart, ?_, h.channel⟩
    intro id i info' hget
    rw [OrderedStore.get_delete] at hget
    split_ifs at hget
    exact h.pending id i info' hget
  refine hremoved.setHandler ⟨hanswered, hsanctioned, by simp⟩ ?_
  intro requestID info' hget
  rw [OrderedStore.get_delete] at hget
  split_ifs at hget with hne
  obtain ⟨hid, -, hold⟩ := h.pending requestID stream info' hget
  rw [hhandler] at hold
  obtain rfl : info = info' := by simpa using hold
  exact absurd hid.symm hne

theorem Orderly.answer (h : Orderly s) {stream : Nat} {frame : EnrollmentFrame}
    (hhandler : s.handlers stream = .answering frame) :
    Orderly ((s.setHandler stream .closed).record (.wrote stream frame)) := by
  have hagrees := h.handler stream
  rw [hhandler] at hagrees
  have hclosed : Orderly (s.setHandler stream .closed) := by
    refine h.setHandler trivial fun requestID info hget => ?_
    obtain ⟨-, -, hold⟩ := h.pending requestID stream info hget
    simp [hhandler] at hold
  constructor
  case authorized => exact justified_append_singleton.mpr ⟨h.authorized, hagrees⟩
  case handler =>
    intro i
    simp only [record, EnrollmentState.setHandler, Function.update_apply]
    split_ifs with hi
    · trivial
    · exact (h.handler i).append (by simp) (by simp) (by simp [Ne.symm hi])
  case call => exact fun c => (h.call c).append (by simp)
  case apart => exact h.apart
  case pending =>
    intro id i info hget
    obtain ⟨hid, hnot, hold⟩ := hclosed.pending id i info hget
    exact ⟨hid, by simpa [record, found_append_iff] using hnot, hold⟩
  case channel =>
    intro i d hd
    obtain ⟨hdecided, hsanctioned⟩ := h.channel i d hd
    exact ⟨decided_append_iff.mpr (Or.inl hdecided), hsanctioned.append⟩

/-- Every step keeps the invariant. -/
theorem Orderly.step (h : Orderly s) {a : Action} {s' : EnrollmentState}
    (hstep : s.step a = some s') :
    Orderly s' := by
  cases step_effect hstep with
  | quiet memberships offers => exact h.quiet memberships offers
  | shutdown => exact ⟨h.authorized, h.handler, h.call, h.apart, h.pending, h.channel⟩
  | list network => exact h.list _
  | found approve hidle hget => exact h.found approve hget
  | refuse hcall => exact h.setCall trivial (by simp [EnrollmentCall.stream])
  | invite hcall hinvite => exact h.invite hcall _
  | send hcall hroom => exact h.send hcall
  | @connect stream remotePeer hhandler =>
    refine h.setEarly (by rw [hhandler]; trivial) ?_
    have hagrees := h.handler stream
    rwa [hhandler] at hagrees
  | receive offers hhandler hreads => exact h.receive offers hhandler hreads
  | abandon hhandler => exact h.setEarly (by rw [hhandler]; trivial) trivial
  | register hhandler => exact h.register hhandler _ _
  | take hhandler hdecision => exact h.take hhandler hdecision
  | giveUp error ha hhandler => exact h.giveUp hhandler error
  | remove hhandler => exact h.remove hhandler
  | answer hhandler => exact h.answer hhandler

end Steps

/-! ### What does not depend on secrets -/

/-- Actions that differ at most in the secrets of networks. -/
inductive Action.Alike : Action → Action → Prop where
  | same (a : Action) : Alike a a
  | create (name : Text) (id secret secret' : List UInt8) :
      Alike (.create name id secret) (.create name id secret')
  | join {invitation invitation' : Text} {membership membership' : NetworkMembership} :
      decodeNetworkInvitation invitation = .ok membership →
      decodeNetworkInvitation invitation' = .ok membership' → membership.info = membership'.info →
      Alike (.join invitation) (.join invitation')

/-- The same networks are mounted, possibly with other secrets. -/
def SameNetworks (memberships memberships' : Memberships) : Prop :=
  ∀ name, (memberships.get name).map NetworkMembership.info =
    (memberships'.get name).map NetworkMembership.info

/-- States that differ at most in secrets and in the invitations of accepted decisions. -/
structure SamePublic (s t : EnrollmentState) : Prop where
  memberships : SameNetworks s.memberships t.memberships
  offers : s.offers = t.offers
  requests : s.requests = t.requests
  handlers : ∀ stream, (s.handlers stream).redact = (t.handlers stream).redact
  decisions : ∀ stream, (s.decisions stream).map EnrollmentDecision.redact =
    (t.decisions stream).map EnrollmentDecision.redact
  calls : ∀ call, (s.calls call).redact = (t.calls call).redact
  closing : s.closing = t.closing
  history : s.history.map EnrollmentEvent.redact = t.history.map EnrollmentEvent.redact

theorem SameNetworks.set {memberships memberships' : Memberships}
    (h : SameNetworks memberships memberships')
    (name : Text) {membership membership' : NetworkMembership}
      (hinfo : membership.info = membership'.info) :
    SameNetworks (OrderedStore.set memberships name membership)
      (OrderedStore.set memberships' name membership') := by
  intro k
  rw [OrderedStore.get_set, OrderedStore.get_set]
  split_ifs
  · simp [hinfo]
  · exact h k

theorem SameNetworks.delete {memberships memberships' : Memberships}
    (h : SameNetworks memberships memberships') (name : Text) :
    SameNetworks (OrderedStore.delete memberships name)
      (OrderedStore.delete memberships' name) := by
  intro k
  rw [OrderedStore.get_delete, OrderedStore.get_delete]
  split_ifs
  · rfl
  · exact h k

/-- Both hold a network of the name, or neither does. -/
theorem SameNetworks.get_cases {memberships memberships' : Memberships}
    (h : SameNetworks memberships memberships') (name : Text) :
    memberships.get name = none ∧ memberships'.get name = none ∨
      ∃ m m', memberships.get name = some m ∧ memberships'.get name = some m' ∧ m.info =
        m'.info := by
  have hname := h name
  cases hm : memberships.get name with
  | none => simpa [hm] using hname
  | some m =>
    obtain ⟨m', hm', hinfo⟩ : ∃ m', memberships'.get name = some m' ∧ m'.info = m.info := by
      simpa [hm, eq_comm] using hname
    exact Or.inr ⟨m, m', rfl, hm', hinfo.symm⟩

section Secrecy

variable {s t : EnrollmentState}

theorem SamePublic.setHandler (h : SamePublic s t) (stream : Nat)
    {handler handler' : EnrollmentHandler}
    (hredact : handler.redact = handler'.redact) :
    SamePublic (s.setHandler stream handler) (t.setHandler stream handler') :=
  { h with
    handlers := fun i => by
      simp only [EnrollmentState.setHandler, Function.update_apply]
      split_ifs
      · exact hredact
      · exact h.handlers i }

theorem SamePublic.setCall (h : SamePublic s t) (call : Nat) {c c' : EnrollmentCall}
    (hredact : c.redact = c'.redact) : SamePublic (s.setCall call c) (t.setCall call c') :=
  { h with
    calls := fun i => by
      simp only [EnrollmentState.setCall, Function.update_apply]
      split_ifs
      · exact hredact
      · exact h.calls i }

theorem SamePublic.record (h : SamePublic s t) {e e' : EnrollmentEvent}
    (hredact : e.redact = e'.redact) :
    SamePublic (s.record e) (t.record e') :=
  { h with history := by simp [EnrollmentState.record, h.history, hredact] }

theorem SamePublic.setDecision (h : SamePublic s t) (stream : Nat)
    {decision decision' : Option EnrollmentDecision}
    (hredact : decision.map EnrollmentDecision.redact = decision'.map EnrollmentDecision.redact) :
    SamePublic { s with decisions := Function.update s.decisions stream decision }
      { t with decisions := Function.update t.decisions stream decision' } :=
  { h with
    decisions := fun i => by
      simp only [Function.update_apply]
      split_ifs
      · exact hredact
      · exact h.decisions i }

theorem SamePublic.setRequests (h : SamePublic s t)
    (requests : OrderedStore Char (Nat × EnrollmentRequestInfo)) :
    SamePublic { s with requests } { t with requests } :=
  { h with requests := rfl }

theorem SamePublic.setOffers (h : SamePublic s t) (offers : OrderedStore Char EnrollmentOffer) :
    SamePublic { s with offers } { t with offers } :=
  { h with offers := rfl }

theorem SamePublic.setMemberships (h : SamePublic s t) {memberships memberships' : Memberships}
    (hsame : SameNetworks memberships memberships') :
    SamePublic { s with memberships } { t with memberships := memberships' } :=
  { h with memberships := hsame }

/-- A handler without a decision stands at the same place in both states. -/
theorem SamePublic.handler_eq (h : SamePublic s t) {stream : Nat}
    (hselected : ∀ info decision, s.handlers stream ≠ .selected info decision)
    (hanswering : ∀ frame, s.handlers stream ≠ .answering frame) :
    t.handlers stream = s.handlers stream := by
  have := h.handlers stream
  cases hs : s.handlers stream <;> cases ht : t.handlers stream <;>
    simp_all [EnrollmentHandler.redact]

theorem SamePublic.selected (h : SamePublic s t) {stream : Nat} {info : EnrollmentRequestInfo}
    {decision : EnrollmentDecision} (hs : s.handlers stream = .selected info decision) :
    ∃ decision', t.handlers stream = .selected info decision' ∧ decision.redact =
      decision'.redact := by
  have := h.handlers stream
  cases ht : t.handlers stream <;> simp_all [EnrollmentHandler.redact]

theorem SamePublic.answering (h : SamePublic s t) {stream : Nat} {frame : EnrollmentFrame}
    (hs : s.handlers stream = .answering frame) :
    ∃ frame', t.handlers stream = .answering frame' ∧ frame.redact = frame'.redact := by
  have := h.handlers stream
  cases ht : t.handlers stream <;> simp_all [EnrollmentHandler.redact]

/-- A call that sends nothing stands at the same place in both states. -/
theorem SamePublic.call_eq (h : SamePublic s t) {call : Nat}
    (hnone : ∀ stream decision, s.calls call ≠ .sending stream decision) :
      t.calls call = s.calls call := by
  have := h.calls call
  cases hs : s.calls call <;> cases ht : t.calls call <;> simp_all [EnrollmentCall.redact]

theorem SamePublic.sending (h : SamePublic s t) {call stream : Nat} {decision : EnrollmentDecision}
    (hs : s.calls call = .sending stream decision) :
    ∃ decision', t.calls call = .sending stream decision' ∧ decision.redact = decision'.redact := by
  have := h.calls call
  cases ht : t.calls call <;> simp_all [EnrollmentCall.redact]

theorem EnrollmentDecision.accepted_of_redact {decision decision' : EnrollmentDecision}
    (h : decision.redact = decision'.redact) : decision.accepted = decision'.accepted := by
  have : decision.redact.accepted = decision'.redact.accepted := by rw [h]
  simpa [EnrollmentDecision.redact, apply_ite EnrollmentDecision.accepted] using this

/-- The frames of decisions that agree but for their invitations agree but for these. -/
theorem EnrollmentDecision.redact_frame {decision decision' : EnrollmentDecision}
    (h : decision.redact = decision'.redact) (requestID : Text) :
    (EnrollmentFrame.decision (decision.frame requestID)).redact =
      (EnrollmentFrame.decision (decision'.frame requestID)).redact := by
  have haccepted := EnrollmentDecision.accepted_of_redact h
  cases ha : decision.accepted <;>
    simp_all [EnrollmentDecision.redact, EnrollmentFrame.redact, EnrollmentDecision.frame]

theorem SamePublic.create (h : SamePublic s t) (name : Text) (id secret secret' : List UInt8)
    {s' : EnrollmentState} (hstep : s.step (.create name id secret) = some s') :
    ∃ t', t.step (.create name id secret') = some t' ∧ SamePublic s' t' := by
  simp only [EnrollmentState.step, Memberships.create] at hstep ⊢
  cases hv : validateNetworkName name with
  | error e =>
    simp only [hv, bind, Except.bind] at hstep ⊢
    cases hstep
    exact ⟨t, rfl, h⟩
  | ok u =>
    simp only [hv, bind, Except.bind] at hstep ⊢
    rcases h.memberships.get_cases name with ⟨hs, ht⟩ | ⟨m, m', hs, ht, -⟩
    · simp only [hs, ht] at hstep ⊢
      cases hstep
      exact ⟨_, rfl, h.setMemberships (h.memberships.set name rfl)⟩
    · simp only [hs, ht] at hstep ⊢
      cases hstep
      exact ⟨t, rfl, h⟩

theorem SamePublic.join (h : SamePublic s t) {invitation invitation' : Text}
    {membership membership' : NetworkMembership}
    (hdecode : decodeNetworkInvitation invitation = .ok membership)
    (hdecode' : decodeNetworkInvitation invitation' = .ok membership')
    (hinfo : membership.info = membership'.info) {s' : EnrollmentState}
    (hstep : s.step (.join invitation) = some s') :
    ∃ t', t.step (.join invitation') = some t' ∧ SamePublic s' t' := by
  have hname : membership'.name = membership.name :=
    (congrArg NetworkMembershipInfo.name hinfo).symm
  simp only [EnrollmentState.step, Memberships.join, hdecode, hdecode', bind,
    Except.bind] at hstep ⊢
  rw [hname]
  rcases h.memberships.get_cases membership.name with ⟨hs, ht⟩ | ⟨m, m', hs, ht, -⟩
  · simp only [hs, ht] at hstep ⊢
    cases hstep
    exact ⟨_, rfl, h.setMemberships (h.memberships.set membership.name hinfo)⟩
  · -- a mounted network is left as it is, whatever the credentials of the invitation are
    simp only [hs, ht] at hstep ⊢
    split_ifs at hstep ⊢ <;> cases hstep <;> exact ⟨_, rfl, h⟩

theorem SamePublic.leave (h : SamePublic s t) (name : Text) {s' : EnrollmentState}
    (hstep : s.step (.leave name) = some s') :
      ∃ t', t.step (.leave name) = some t' ∧ SamePublic s' t' := by
  simp only [EnrollmentState.step, Memberships.leave] at hstep ⊢
  cases hv : validateNetworkName name with
  | error e =>
    simp only [hv, bind, Except.bind] at hstep ⊢
    cases hstep
    exact ⟨t, rfl, h⟩
  | ok u =>
    simp only [hv, bind, Except.bind] at hstep ⊢
    rcases h.memberships.get_cases name with ⟨hs, ht⟩ | ⟨m, m', hs, ht, -⟩
    · simp only [hs, ht] at hstep ⊢
      cases hstep
      exact ⟨t, rfl, h⟩
    · simp only [hs, ht] at hstep ⊢
      cases hstep
      exact ⟨_, rfl, h.setMemberships (h.memberships.delete name)⟩

theorem SamePublic.listen (h : SamePublic s t) (network : Text) (durationSeconds : Int)
    (now : Instant)
    (random : List UInt8) :
    SamePublic (s.listen network durationSeconds now random)
      (t.listen network durationSeconds now random) := by
  unfold EnrollmentState.listen
  split_ifs
  · exact h
  · rcases h.memberships.get_cases network with ⟨hs, ht⟩ | ⟨m, m', hs, ht, hinfo⟩
    · simp only [hs, ht]
      exact h
    · simp only [hs, ht, ← hinfo, ← h.offers]
      exact h.setOffers _

theorem SamePublic.decide (h : SamePublic s t) (call : Nat) (requestID : Text) (approve : Bool) :
    SamePublic (s.decideEnrollment call requestID approve)
      (t.decideEnrollment call requestID approve) := by
  unfold decideEnrollment
  rw [← h.requests]
  split
  · exact h
  · exact ((h.setRequests _).setCall call rfl).record rfl

theorem SamePublic.invite (h : SamePublic s t) (call : Nat) {s' : EnrollmentState}
    (hstep : s.step (.invite call) = some s') :
      ∃ t', t.step (.invite call) = some t' ∧ SamePublic s' t' := by
  cases hc : s.calls call with
  | idle => simp [EnrollmentState.step, hc] at hstep
  | sending stream decision => simp [EnrollmentState.step, hc] at hstep
  | approving stream info =>
    have ht : t.calls call = s.calls call := h.call_eq (by simp [hc])
    simp only [EnrollmentState.step, ht, hc, Memberships.invite] at hstep ⊢
    cases hv : validateNetworkName info.network.name with
    | error e =>
      simp only [hv, bind, Except.bind] at hstep ⊢
      cases hstep
      exact ⟨_, rfl, h.setCall call rfl⟩
    | ok u =>
      simp only [hv, bind, Except.bind] at hstep ⊢
      rcases h.memberships.get_cases info.network.name with ⟨hs, ht⟩ | ⟨m, m', hs, ht, -⟩
      · simp only [hs, ht] at hstep ⊢
        cases hstep
        exact ⟨_, rfl, h.setCall call rfl⟩
      · simp only [hs, ht] at hstep ⊢
        cases hstep
        exact ⟨_, rfl, h.setCall call rfl⟩

theorem SamePublic.send (h : SamePublic s t) (call : Nat) {s' : EnrollmentState}
    (hstep : s.step (.send call) = some s') :
      ∃ t', t.step (.send call) = some t' ∧ SamePublic s' t' := by
  cases hc : s.calls call with
  | idle => simp [EnrollmentState.step, hc] at hstep
  | approving stream info => simp [EnrollmentState.step, hc] at hstep
  | sending stream decision =>
    obtain ⟨decision', hc', hredact⟩ := h.sending hc
    have hroom : (t.decisions stream).isSome = (s.decisions stream).isSome := by
      have := congrArg Option.isSome (h.decisions stream)
      simpa using this.symm
    simp only [EnrollmentState.step, hc, hc', hroom] at hstep ⊢
    split_ifs at hstep ⊢ with hfull
    cases hstep
    refine ⟨_, rfl, ((h.setDecision stream ?_).setCall call rfl).record ?_⟩
    · simp [hredact]
    · simp [EnrollmentEvent.redact, hredact]

theorem SamePublic.receive (h : SamePublic s t) (stream : Nat) (remotePeer : Text)
    (line : List UInt8)
    (now : Instant) :
    SamePublic (s.receive stream remotePeer line now) (t.receive stream remotePeer line now) := by
  unfold EnrollmentState.receive activeEnrollmentOffers
  rw [← h.offers]
  split
  · exact h.setHandler stream rfl
  · exact (h.setOffers _).setHandler stream rfl
  · simp only
    split <;> exact (h.setOffers _).setHandler stream rfl

/-- States that agree but for secrets have the same steps, and they agree after them. -/
theorem SamePublic.step (h : SamePublic s t) {a b : Action} (hab : Action.Alike a b)
    {s' : EnrollmentState} (hstep : s.step a = some s') :
      ∃ t', t.step b = some t' ∧ SamePublic s' t' := by
  cases hab with
  | create name id secret secret' => exact h.create name id secret secret' hstep
  | join hdecode hdecode' hinfo => exact h.join hdecode hdecode' hinfo hstep
  | same =>
    cases a with
    | create name id secret => exact h.create name id secret secret hstep
    | join invitation =>
      cases hdecode : decodeNetworkInvitation invitation with
      | ok membership => exact h.join hdecode hdecode rfl hstep
      | error e =>
        simp only [EnrollmentState.step, Memberships.join, hdecode, bind, Except.bind] at hstep ⊢
        cases hstep
        exact ⟨t, rfl, h⟩
    | leave name => exact h.leave name hstep
    | listen network durationSeconds now random =>
      cases hstep
      exact ⟨_, rfl, h.listen network durationSeconds now random⟩
    | close offerID =>
      cases hstep
      exact ⟨_, rfl, by rw [← h.offers]; exact h.setOffers _⟩
    | list network =>
      cases hstep
      refine ⟨_, rfl, h.record ?_⟩
      simp [pendingEnrollmentInfos, h.requests]
    | decide call requestID approve =>
      cases hc : s.calls call with
      | idle =>
        have ht : t.calls call = s.calls call := h.call_eq (by simp [hc])
        simp only [EnrollmentState.step, ht, hc] at hstep ⊢
        cases hstep
        exact ⟨_, rfl, h.decide call requestID approve⟩
      | approving stream info => simp [EnrollmentState.step, hc] at hstep
      | sending stream decision => simp [EnrollmentState.step, hc] at hstep
    | invite call => exact h.invite call hstep
    | send call => exact h.send call hstep
    | connect stream remotePeer =>
      cases hs : s.handlers stream <;> simp only [EnrollmentState.step, hs, reduceCtorEq] at hstep
      have ht : t.handlers stream = s.handlers stream := h.handler_eq (by simp [hs]) (by simp [hs])
      cases hstep
      exact ⟨_, by simp only [EnrollmentState.step, ht, hs], h.setHandler stream rfl⟩
    | receive stream line now =>
      cases hs : s.handlers stream <;> simp only [EnrollmentState.step, hs, reduceCtorEq] at hstep
      have ht : t.handlers stream = s.handlers stream := h.handler_eq (by simp [hs]) (by simp [hs])
      cases hstep
      exact ⟨_, by simp only [EnrollmentState.step, ht, hs], (h.receive stream _ line now).record rfl⟩
    | register stream random now =>
      cases hs : s.handlers stream <;> simp only [EnrollmentState.step, hs, reduceCtorEq] at hstep
      have ht : t.handlers stream = s.handlers stream := h.handler_eq (by simp [hs]) (by simp [hs])
      cases random with
      | none =>
        cases hstep
        exact ⟨_, by simp only [EnrollmentState.step, ht, hs], h.setHandler stream rfl⟩
      | some random =>
        cases hstep
        simp only [EnrollmentState.step, ht, hs]
        refine ⟨_, rfl, ?_⟩
        unfold EnrollmentState.register
        rw [← h.requests]
        exact ((h.setRequests _).setHandler stream rfl).record rfl
    | take stream =>
      cases hs : s.handlers stream <;> simp only [EnrollmentState.step, hs, reduceCtorEq] at hstep
      have ht : t.handlers stream = s.handlers stream := h.handler_eq (by simp [hs]) (by simp [hs])
      cases hd : s.decisions stream <;> simp only [hd, reduceCtorEq] at hstep
      have hdecision := h.decisions stream
      cases hd' : t.decisions stream <;> simp [hd, hd'] at hdecision
      cases hstep
      simp only [EnrollmentState.step, ht, hs, hd']
      refine ⟨_, rfl, (h.setDecision stream rfl).setHandler stream ?_⟩
      simp [EnrollmentHandler.redact, hdecision]
    | expire stream =>
      cases hs : s.handlers stream <;> simp only [EnrollmentState.step, hs, reduceCtorEq] at hstep
      have ht : t.handlers stream = s.handlers stream := h.handler_eq (by simp [hs]) (by simp [hs])
      cases hstep
      exact ⟨_, by simp only [EnrollmentState.step, ht, hs], h.setHandler stream rfl⟩
    | cancel stream =>
      cases hs : s.handlers stream <;> simp only [EnrollmentState.step, hs, reduceCtorEq] at hstep
      have ht : t.handlers stream = s.handlers stream := h.handler_eq (by simp [hs]) (by simp [hs])
      split_ifs at hstep with hclosing
      cases hstep
      refine ⟨_, ?_, h.setHandler stream rfl⟩
      simp only [EnrollmentState.step, ht, hs, ← h.closing, hclosing, if_true]
    | remove stream =>
      cases hs : s.handlers stream <;> simp only [EnrollmentState.step, hs, reduceCtorEq] at hstep
      obtain ⟨decision', ht, hredact⟩ := h.selected hs
      cases hstep
      simp only [EnrollmentState.step, ht, ← h.requests]
      refine ⟨_, rfl, (h.setRequests _).setHandler stream ?_⟩
      simp only [EnrollmentHandler.redact, EnrollmentDecision.redact_frame hredact]
    | answer stream =>
      cases hs : s.handlers stream <;> simp only [EnrollmentState.step, hs, reduceCtorEq] at hstep
      obtain ⟨frame', ht, hredact⟩ := h.answering hs
      cases hstep
      simp only [EnrollmentState.step, ht]
      refine ⟨_, rfl, (h.setHandler stream rfl).record ?_⟩
      simp [EnrollmentEvent.redact, hredact]
    | shutdown =>
      cases hstep
      exact ⟨_, rfl, { h with closing := rfl }⟩

end Secrecy

/-- Started on memberships that differ at most in secrets, states agree but for secrets. -/
theorem initial_samePublic {memberships memberships' : Memberships}
    (h : SameNetworks memberships memberships') :
    SamePublic (initial memberships) (initial memberships') :=
  ⟨h, rfl, rfl, fun _ => rfl, fun _ => rfl, fun _ => rfl, rfl, rfl⟩

/-- In every run, the events of a daemon are authorized by the events before them; and with other
secrets the same run gives the same events, apart from the invitations of accepted decisions. -/
theorem enrollment_authorized {memberships : Memberships} {actions : List Action} {s : EnrollmentState}
    (hrun : run EnrollmentState.step (initial memberships) actions = some s) :
    Justified Authorized s.history ∧
      ∀ memberships' actions', SameNetworks memberships memberships' →
        List.Forall₂ Action.Alike actions actions' →
        ∃ s', run EnrollmentState.step (initial memberships') actions' = some s' ∧
          s'.history.map EnrollmentEvent.redact = s.history.map EnrollmentEvent.redact := by
  constructor
  · have horderly : Orderly s := by
      refine Reaches.invariant ?_ (initial_orderly memberships) ⟨actions, hrun⟩
      exact fun t a t' h hstep => h.step hstep
    exact horderly.authorized
  · intro memberships' actions' hsame halike
    have hstep : ∀ t u a b t', SamePublic t u → Action.Alike a b →
        EnrollmentState.step t a = some t' → ∃ u', EnrollmentState.step u b = some u' ∧ SamePublic t' u' :=
      fun t u a b t' h hab ht => h.step hab ht
    obtain ⟨s', hs', hpublic⟩ := run_simulates hstep (initial_samePublic hsame) halike hrun
    exact ⟨s', hs', hpublic.history.symm⟩

/-- The ID of an offer. -/
def offerBytes : List UInt8 := List.replicate 16 3

/-- The ID of a request. -/
def requestBytes : List UInt8 := List.replicate 16 4

/-- A network is created and offered, and a request for it is pending. -/
def requestRun : List Action :=
  let now : Instant := ⟨⟨2026, 2, 1, by decide⟩, 8, 0, 0, 0, by decide⟩
  [.create ['n'] (List.replicate 16 1) (List.replicate 32 2), .listen ['n'] 60 now offerBytes,
    .connect 0 ['p'], .receive 0 (enrollmentRequestLine (Base64Url.encode offerBytes) ['d']) now,
    .register 0 (some requestBytes) now]

/-- The request is approved and answered. -/
def approvedRun : List Action :=
  requestRun ++
    [.decide 0 (Base64Url.encode requestBytes) true, .invite 0, .send 0, .take 0, .remove 0,
      .answer 0]

/-- The approved request gets an accepted decision, and all events are authorized. -/
theorem enrollment_authorized_approvedRun :
    ∃ s, run EnrollmentState.step (initial OrderedStore.empty) approvedRun = some s ∧
      (∃ frame ∈ written s.history 0, frame.Grants) ∧ Justified Authorized s.history := by
  have hwritten : (run EnrollmentState.step (initial OrderedStore.empty) approvedRun).any
      (fun s : EnrollmentState => decide (∃ frame ∈ written s.history 0, frame.Grants)) = true := by
    decide +kernel
  obtain ⟨s, hs, hgrants⟩ := (Option.any_eq_true _ _).mp hwritten
  exact ⟨s, hs, of_decide_eq_true hgrants, (enrollment_authorized hs).1⟩

end EnrollmentState

end Thalweg
