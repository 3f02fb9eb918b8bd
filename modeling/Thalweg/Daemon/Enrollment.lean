import Mathlib.Logic.Function.Basic
import Thalweg.Data.Machine
import Thalweg.Daemon.Mesh

/-!
# Enrollment

A daemon opens offers for its networks, collects the requests that other peers make for an offer,
and hands over the invitation to the network when the request is approved. Each stream of a peer has
a handler of its own, and each approval or denial is a call of its own; both take their steps in any
order, and what they leave open (which of its cases a `select` takes, when a timer fires, the clock,
random bytes) is a part of the action.

A line is the content of a frame without its newline. Writing the membership file is taken to
succeed.

## Main definitions

* `EnrollmentOffer`, `EnrollmentRequestInfo`, `EnrollmentDecision` and the frames of the protocol.
* `EnrollmentState.step`: one step of a daemon, of a handler or of a call.
-/

namespace Thalweg

/-! ### Offers, requests and decisions -/

/-- An open enrollment as it is offered to a joiner. -/
structure EnrollmentOffer where
  id : Text
  network : NetworkMembershipInfo
  expiresAt : Text
  deriving DecidableEq

/-- A request as it is listed. -/
structure EnrollmentRequestInfo where
  id : Text
  network : NetworkMembershipInfo
  peerID : Text
  deviceName : Text
  requestedAt : Text
  expiresAt : Text
  deriving DecidableEq

/-- What is decided about a request, with the invitation if it is accepted. -/
structure EnrollmentDecision where
  accepted : Bool
  invitation : Text
  error : Text
  deriving DecidableEq

/-! ### Frames -/

/-- The most bytes of a frame. -/
def enrollmentFrameMax : Nat := 64 * 1024

/-- The version of the enrollment protocol. -/
def enrollmentVersion : Int := 1

/-- The request of a joiner on the wire. -/
structure EnrollmentWireRequest where
  type : Text
  version : Int
  offerID : Text
  deviceName : Text
  deriving DecidableEq

/-- The decision for a joiner on the wire. -/
structure EnrollmentWireDecision where
  type : Text
  version : Int
  requestID : Text
  accepted : Bool
  invitation : Text
  error : Text
  deriving DecidableEq

/-- A frame that a handler writes. -/
inductive EnrollmentFrame where
  | offers (offers : List EnrollmentOffer)
  | decision (decision : EnrollmentWireDecision)
  deriving DecidableEq

/-- A line that a handler accepts. -/
inductive EnrollmentLine where
  | query
  | request (request : EnrollmentWireRequest)
  deriving DecidableEq

/-- The type of the frame that asks for the offers. -/
def queryType : Text := ['q', 'u', 'e', 'r', 'y']

/-- The type of the frame that asks to be enrolled. -/
def requestType : Text := ['r', 'e', 'q', 'u', 'e', 's', 't']

/-- The type of the frame that answers a request. -/
def decisionType : Text := ['d', 'e', 'c', 'i', 's', 'i', 'o', 'n']

/-- The type of a frame. -/
def enrollmentTypeFields : List (Text × Json.Setter Text) :=
  [("type".toList, fun t _ v => Json.decodeText t v)]

/-- The type and the version of a frame. -/
def enrollmentQueryFields : List (Text × Json.Setter (Text × Int)) :=
  [("type".toList, fun q _ v => (Json.decodeText q.1 v).map fun x => (x, q.2)),
    ("version".toList, fun q _ v => (Json.decodeInt q.2 v).map fun x => (q.1, x))]

/-- The fields of a request. -/
def enrollmentRequestFields : List (Text × Json.Setter EnrollmentWireRequest) :=
  [("type".toList, fun r _ v => (Json.decodeText r.type v).map fun x => { r with type := x }),
    ("version".toList, fun r _ v => (Json.decodeInt r.version v).map fun x => { r with version := x }),
    ("offerId".toList, fun r _ v => (Json.decodeText r.offerID v).map fun x => { r with offerID := x }),
    ("deviceName".toList, fun r _ v =>
      (Json.decodeText r.deviceName v).map fun x => { r with deviceName := x })]

/-- The fields of a decision. -/
def enrollmentDecisionFields : List (Text × Json.Setter EnrollmentWireDecision) :=
  [("type".toList, fun d _ v => (Json.decodeText d.type v).map fun x => { d with type := x }),
    ("version".toList, fun d _ v => (Json.decodeInt d.version v).map fun x => { d with version := x }),
    ("requestId".toList, fun d _ v =>
      (Json.decodeText d.requestID v).map fun x => { d with requestID := x }),
    ("accepted".toList, fun d _ v => (decodeBool d.accepted v).map fun x => { d with accepted := x }),
    ("invitation".toList, fun d _ v =>
      (Json.decodeText d.invitation v).map fun x => { d with invitation := x }),
    ("error".toList, fun d _ v => (Json.decodeText d.error v).map fun x => { d with error := x })]

/-- The one value of a line, without unknown fields. -/
def decodeStrictJSON {σ : Type} (fields : List (Text × Json.Setter σ)) (default : σ)
    (line : List UInt8) : Option σ :=
  Json.decodeRecord true fields default (Text.ofBytes line)

/-- The lines that `handleEnrollmentStream` takes up; it resets the stream on all others. -/
def readEnrollmentLine (line : List UInt8) : Option EnrollmentLine :=
  if enrollmentFrameMax < line.length + 1 then none
  else
    match Json.decodeRecord false enrollmentTypeFields [] (Text.ofBytes line) with
    | none => none
    | some type =>
      if type = queryType then
        match decodeStrictJSON enrollmentQueryFields ([], 0) line with
        | some (_, version) => if version = enrollmentVersion then some .query else none
        | none => none
      else if type = requestType then
        match decodeStrictJSON enrollmentRequestFields ⟨[], 0, [], []⟩ line with
        | some request =>
          if request.version = enrollmentVersion then some (.request request) else none
        | none => none
      else none

/-- The JSON text of a request. -/
def marshalEnrollmentRequest (request : EnrollmentWireRequest) : Text :=
  Json.renderRecord [("type".toList, Json.quote request.type),
    ("version".toList, Text.decimalInt request.version),
    ("offerId".toList, Json.quote request.offerID),
    ("deviceName".toList, Json.quote request.deviceName)]

/-- The JSON text of a decision. -/
def marshalEnrollmentDecision (decision : EnrollmentWireDecision) : Text :=
  Json.renderRecord ([("type".toList, Json.quote decision.type),
    ("version".toList, Text.decimalInt decision.version),
    ("requestId".toList, Json.quote decision.requestID),
    ("accepted".toList, Json.render (.bool decision.accepted))] ++
    omitEmpty "invitation" decision.invitation ++ omitEmpty "error" decision.error)

/-- The JSON text of an offer. -/
def marshalEnrollmentOffer (offer : EnrollmentOffer) : Text :=
  Json.renderRecord [("id".toList, Json.quote offer.id),
    ("network".toList, Json.renderRecord [("name".toList, Json.quote offer.network.name),
      ("id".toList, Json.quote offer.network.id)]),
    ("expiresAt".toList, Json.quote offer.expiresAt)]

/-- The JSON text of the offers. -/
def marshalEnrollmentOffers (offers : List EnrollmentOffer) : Text :=
  Json.renderRecord [("type".toList, Json.quote "offers".toList),
    ("version".toList, Text.decimalInt enrollmentVersion),
    ("offers".toList, Json.renderArray (offers.map marshalEnrollmentOffer))]

/-- The line that a handler writes. -/
def EnrollmentFrame.line : EnrollmentFrame → List UInt8
  | .offers os => Text.toBytes (marshalEnrollmentOffers os)
  | .decision d => Text.toBytes (marshalEnrollmentDecision d)

/-- The line of a request. -/
def enrollmentRequestLine (offerID deviceName : Text) : List UInt8 :=
  Text.toBytes (marshalEnrollmentRequest ⟨requestType, enrollmentVersion, offerID, deviceName⟩)

/-- The decision of a line. -/
def readEnrollmentDecision (line : List UInt8) : Result EnrollmentWireDecision :=
  if enrollmentFrameMax + 1 < line.length + 1 then
    .error (.wrap "read enrollment frame: %w" [] (.external "io"))
  else if enrollmentFrameMax < line.length + 1 then
    errorf "enrollment frame exceeds %d bytes" [Text.decimal enrollmentFrameMax]
  else
    match decodeStrictJSON enrollmentDecisionFields ⟨[], 0, [], false, [], []⟩ line with
    | some decision => .ok decision
    | none => .error (.external "encoding/json")

/-- The decision frame that answers a request. -/
def EnrollmentDecision.frame (decision : EnrollmentDecision) (requestID : Text) :
    EnrollmentWireDecision :=
  ⟨decisionType, enrollmentVersion, requestID, decision.accepted, decision.invitation,
    decision.error⟩

/-- The end of `requestEnrollment`: the joiner reads its answer and mounts the network. -/
def requestEnrollment (memberships : Memberships) (answer : List UInt8) :
    Result (NetworkMembershipInfo × Bool × Memberships) := do
  let decision ← readEnrollmentDecision answer
  if ¬ decision.accepted then
    errorf "%s" [if decision.error = [] then "enrollment denied".toList else decision.error]
  else
    match memberships.join decision.invitation with
    | .error e => .error (.wrap "mount approved membership: %w" [] e)
    | .ok mounted => .ok mounted

/-! ### The state of a daemon -/

/-- Where the handler of a stream stands. -/
inductive EnrollmentHandler where
  /-- There is no such stream yet. -/
  | unopened
  /-- The peer has opened the stream; its line has not been read. -/
  | reading (remotePeer : Text)
  /-- The request is for an active offer; it is not yet registered. -/
  | requesting (offer : EnrollmentOffer) (remotePeer deviceName : Text)
  /-- The handler waits in its `select` for the decision, the timer or the end of the daemon. -/
  | waiting (info : EnrollmentRequestInfo)
  /-- The handler has left its `select` with a decision. -/
  | selected (info : EnrollmentRequestInfo) (decision : EnrollmentDecision)
  /-- The frame is to be written. -/
  | answering (frame : EnrollmentFrame)
  | closed
  deriving DecidableEq

/-- Where a call of `decideEnrollment` stands. -/
inductive EnrollmentCall where
  | idle
  /-- The call has taken the request of the stream from the table, to approve it. -/
  | approving (stream : Nat) (info : EnrollmentRequestInfo)
  /-- The decision is to be sent to the handler of the stream. -/
  | sending (stream : Nat) (decision : EnrollmentDecision)
  deriving DecidableEq

/-- The stream whose request a call has taken from the table. -/
def EnrollmentCall.stream : EnrollmentCall → Option Nat
  | .idle => none
  | .approving stream _ | .sending stream _ => some stream

/-- What happens that the outside can see, and which request a call has found. -/
inductive EnrollmentEvent where
  /-- The handler of a stream has read its line. -/
  | received (stream : Nat) (line : List UInt8)
  /-- The request of a stream is pending. -/
  | registered (stream : Nat) (offer : EnrollmentOffer) (info : EnrollmentRequestInfo)
  /-- A call has found the request of a stream under the ID. -/
  | found (stream : Nat) (requestID : Text) (approve : Bool)
  /-- A call on the request of a stream has returned with its decision. -/
  | decided (stream : Nat) (decision : EnrollmentDecision)
  /-- The pending requests have been listed. -/
  | listed (infos : List EnrollmentRequestInfo)
  /-- A frame has been written to a stream. -/
  | wrote (stream : Nat) (frame : EnrollmentFrame)
  deriving DecidableEq

/-- The part of a daemon that enrollment works on. -/
structure EnrollmentState where
  memberships : Memberships
  offers : OrderedStore Char EnrollmentOffer
  /-- The pending requests by ID, each with the stream of its handler. -/
  requests : OrderedStore Char (Nat × EnrollmentRequestInfo)
  handlers : Nat → EnrollmentHandler
  /-- The channel of each handler, which holds one decision. -/
  decisions : Nat → Option EnrollmentDecision
  calls : Nat → EnrollmentCall
  closing : Bool
  history : List EnrollmentEvent

namespace EnrollmentState

/-- A daemon that has just started with the memberships of its file. -/
def initial (memberships : Memberships) : EnrollmentState where
  memberships
  offers := OrderedStore.empty
  requests := OrderedStore.empty
  handlers _ := .unopened
  decisions _ := none
  calls _ := .idle
  closing := false
  history := []

/-- What a daemon, one of its handlers or one of its calls does next. -/
inductive Action where
  | create (name : Text) (id secret : List UInt8)
  | join (invitation : Text)
  | leave (name : Text)
  | listen (network : Text) (durationSeconds : Int) (now : Instant) (random : List UInt8)
  | close (offerID : Text)
  | list (network : Text)
  /-- `decideEnrollment` looks the request up and removes it from the table. -/
  | decide (call : Nat) (requestID : Text) (approve : Bool)
  /-- `decideEnrollment` looks up the membership that it hands over. -/
  | invite (call : Nat)
  /-- `decideEnrollment` sends its decision and returns. -/
  | send (call : Nat)
  | connect (stream : Nat) (remotePeer : Text)
  | receive (stream : Nat) (line : List UInt8) (now : Instant)
  /-- The request gets an ID; without random bytes the handler gives up. -/
  | register (stream : Nat) (random : Option (List UInt8)) (now : Instant)
  | take (stream : Nat)
  | expire (stream : Nat)
  | cancel (stream : Nat)
  | remove (stream : Nat)
  | answer (stream : Nat)
  | shutdown

/-- The offers that have not expired; the others are removed. -/
def activeEnrollmentOffers (s : EnrollmentState) (now : Instant) :
    List EnrollmentOffer × EnrollmentState :=
  let offers := s.offers.filter fun e =>
    match Instant.parse e.2.expiresAt with
    | some expires => decide (now.Before expires)
    | none => false
  (offers.entries.map Prod.snd, { s with offers })

/-- The pending requests for a network. -/
def pendingEnrollmentInfos (s : EnrollmentState) (networkName : Text) : List EnrollmentRequestInfo :=
  (s.requests.entries.map fun e => e.2.2).filter fun info =>
    decide (networkName = [] ∨ info.network.name = networkName)

/-- The state with a handler set. -/
def setHandler (s : EnrollmentState) (stream : Nat) (handler : EnrollmentHandler) : EnrollmentState :=
  { s with handlers := Function.update s.handlers stream handler }

/-- The state with a call set. -/
def setCall (s : EnrollmentState) (call : Nat) (c : EnrollmentCall) : EnrollmentState :=
  { s with calls := Function.update s.calls call c }

/-- The state with one more entry in its history. -/
def record (s : EnrollmentState) (event : EnrollmentEvent) : EnrollmentState :=
  { s with history := s.history ++ [event] }

/-- `enrollment_listen`; whether discovery starts does not matter to the offer. -/
def listen (s : EnrollmentState) (network : Text) (durationSeconds : Int) (now : Instant)
    (random : List UInt8) : EnrollmentState :=
  if durationSeconds ≤ 0 ∨ 3600 < durationSeconds then s
  else
    match s.memberships.get network with
    | none => s
    | some membership =>
      let offer : EnrollmentOffer :=
        ⟨Base64Url.encode random, membership.info, (now.addSeconds durationSeconds.toNat).formatNano⟩
      { s with offers := s.offers.set offer.id offer }

/-- The start of `decideEnrollment`: a pending request is taken from the table. -/
def decideEnrollment (s : EnrollmentState) (call : Nat) (requestID : Text) (approve : Bool) :
    EnrollmentState :=
  match s.requests.get requestID with
  | none => s
  | some (stream, info) =>
    let s := { s with requests := s.requests.delete requestID }
    (s.setCall call (if approve then .approving stream info
      else .sending stream ⟨false, [], "enrollment denied".toList⟩)).record
        (.found stream requestID approve)

/-- A handler reads its line. -/
def receive (s : EnrollmentState) (stream : Nat) (remotePeer : Text) (line : List UInt8)
    (now : Instant) : EnrollmentState :=
  match readEnrollmentLine line with
  | none => s.setHandler stream .closed
  | some .query =>
    let (offers, s) := s.activeEnrollmentOffers now
    s.setHandler stream (.answering (.offers offers))
  | some (.request request) =>
    let (offers, s) := s.activeEnrollmentOffers now
    match offers.find? fun offer => decide (offer.id = request.offerID) with
    | none => s.setHandler stream (.answering (.decision (EnrollmentDecision.frame
        ⟨false, [], "enrollment offer is unavailable or expired".toList⟩ [])))
    | some offer =>
      s.setHandler stream (.requesting offer remotePeer (Text.trimSpace request.deviceName))

/-- A handler enters its request into the table. -/
def register (s : EnrollmentState) (stream : Nat) (offer : EnrollmentOffer)
    (remotePeer deviceName : Text) (random : List UInt8) (now : Instant) : EnrollmentState :=
  let info : EnrollmentRequestInfo :=
    ⟨Base64Url.encode random, offer.network, remotePeer, deviceName, now.formatNano, offer.expiresAt⟩
  let s := { s with requests := s.requests.set info.id (stream, info) }
  (s.setHandler stream (.waiting info)).record (.registered stream offer info)

/-- One step; an action that is not possible in the state leads nowhere. A call that fails leaves
the state. -/
def step (s : EnrollmentState) : Action → Option EnrollmentState
  | .create name id secret =>
    match s.memberships.create name id secret with
    | .error _ => some s
    | .ok (_, _, memberships) => some { s with memberships }
  | .join invitation =>
    match s.memberships.join invitation with
    | .error _ => some s
    | .ok (_, _, memberships) => some { s with memberships }
  | .leave name =>
    match s.memberships.leave name with
    | .error _ => some s
    | .ok (_, memberships) => some { s with memberships }
  | .listen network durationSeconds now random => some (s.listen network durationSeconds now random)
  | .close offerID => some { s with offers := s.offers.delete offerID }
  | .list network => some (s.record (.listed (s.pendingEnrollmentInfos network)))
  | .decide call requestID approve =>
    match s.calls call with
    | .idle => some (s.decideEnrollment call requestID approve)
    | _ => none
  | .invite call =>
    match s.calls call with
    | .approving stream info =>
      match s.memberships.invite info.network.name with
      | .error _ => some (s.setCall call .idle)
      | .ok (_, invitation) => some (s.setCall call (.sending stream ⟨true, invitation, []⟩))
    | _ => none
  | .send call =>
    match s.calls call with
    | .sending stream decision =>
      -- the channel has room for one decision
      if (s.decisions stream).isSome then none
      else
        let s := { s with decisions := Function.update s.decisions stream (some decision) }
        some ((s.setCall call .idle).record (.decided stream decision))
    | _ => none
  | .connect stream remotePeer =>
    match s.handlers stream with
    | .unopened => some (s.setHandler stream (.reading remotePeer))
    | _ => none
  | .receive stream line now =>
    match s.handlers stream with
    | .reading remotePeer =>
      some ((s.receive stream remotePeer line now).record (.received stream line))
    | _ => none
  | .register stream random now =>
    match s.handlers stream, random with
    | .requesting offer remotePeer deviceName, some random =>
      some (s.register stream offer remotePeer deviceName random now)
    | .requesting _ _ _, none => some (s.setHandler stream .closed)
    | _, _ => none
  | .take stream =>
    match s.handlers stream, s.decisions stream with
    | .waiting info, some decision =>
      let s := { s with decisions := Function.update s.decisions stream none }
      some (s.setHandler stream (.selected info decision))
    | _, _ => none
  | .expire stream =>
    match s.handlers stream with
    | .waiting info =>
      some (s.setHandler stream (.selected info ⟨false, [], "enrollment request expired".toList⟩))
    | _ => none
  | .cancel stream =>
    match s.handlers stream with
    | .waiting info =>
      if s.closing then
        some (s.setHandler stream (.selected info ⟨false, [], "daemon is shutting down".toList⟩))
      else none
    | _ => none
  | .remove stream =>
    match s.handlers stream with
    | .selected info decision =>
      let s := { s with requests := s.requests.delete info.id }
      some (s.setHandler stream (.answering (.decision (decision.frame info.id))))
    | _ => none
  | .answer stream =>
    match s.handlers stream with
    | .answering frame => some ((s.setHandler stream .closed).record (.wrote stream frame))
    | _ => none
  | .shutdown => some { s with closing := true }

/-! ### What a step does -/

/-- The handler has not registered a request. -/
def Early : EnrollmentHandler → Prop
  | .unopened | .reading _ | .requesting _ _ _ => True
  | _ => False

/-- Where a handler can be after reading its line. -/
def Reads (line : List UInt8) : EnrollmentHandler → Prop
  | .closed => True
  | .answering (.offers _) => readEnrollmentLine line = some .query
  | .answering (.decision decision) =>
    decision.version = enrollmentVersion ∧ decision.accepted = false ∧ decision.invitation = []
  | .requesting offer _ _ =>
    ∃ request, readEnrollmentLine line = some (.request request) ∧ offer.id = request.offerID
  | _ => False

/-- The effects of steps. -/
inductive Effect (s : EnrollmentState) : Action → EnrollmentState → Prop where
  /-- A step on the memberships or the offers only. -/
  | quiet {a : Action} (memberships : Memberships) (offers : OrderedStore Char EnrollmentOffer) :
      Effect s a { s with memberships, offers }
  | shutdown : Effect s .shutdown { s with closing := true }
  | list (network : Text) : Effect s (.list network) (s.record (.listed (s.pendingEnrollmentInfos network)))
  | found {call stream : Nat} {requestID : Text} {info : EnrollmentRequestInfo} (approve : Bool) :
      s.calls call = .idle → s.requests.get requestID = some (stream, info) →
      Effect s (.decide call requestID approve)
        (({ s with requests := s.requests.delete requestID }.setCall call (if approve then
          .approving stream info else .sending stream ⟨false, [], "enrollment denied".toList⟩)).record
            (.found stream requestID approve))
  | refuse {call stream : Nat} {info : EnrollmentRequestInfo} : s.calls call = .approving stream info →
      Effect s (.invite call) (s.setCall call .idle)
  | invite {call stream : Nat} {info : EnrollmentRequestInfo} {mounted : NetworkMembershipInfo}
      {invitation : Text} : s.calls call = .approving stream info →
      s.memberships.invite info.network.name = .ok (mounted, invitation) →
      Effect s (.invite call) (s.setCall call (.sending stream ⟨true, invitation, []⟩))
  | send {call stream : Nat} {decision : EnrollmentDecision} : s.calls call = .sending stream decision →
      s.decisions stream = none →
      Effect s (.send call)
        (({ s with decisions := Function.update s.decisions stream (some decision) }.setCall call
          .idle).record (.decided stream decision))
  | connect {stream : Nat} (remotePeer : Text) : s.handlers stream = .unopened →
      Effect s (.connect stream remotePeer) (s.setHandler stream (.reading remotePeer))
  | receive {stream : Nat} {remotePeer : Text} {line : List UInt8} {now : Instant}
      {handler : EnrollmentHandler} (offers : OrderedStore Char EnrollmentOffer) :
      s.handlers stream = .reading remotePeer → Reads line handler →
      Effect s (.receive stream line now)
        (({ s with offers }.setHandler stream handler).record (.received stream line))
  /-- A handler ends without a request. -/
  | abandon {stream : Nat} {offer : EnrollmentOffer} {remotePeer deviceName : Text} {now : Instant} :
      s.handlers stream = .requesting offer remotePeer deviceName →
      Effect s (.register stream none now) (s.setHandler stream .closed)
  | register {stream : Nat} {offer : EnrollmentOffer} {remotePeer deviceName : Text}
      {random : List UInt8} {now : Instant} :
      s.handlers stream = .requesting offer remotePeer deviceName →
      Effect s (.register stream (some random) now)
        (s.register stream offer remotePeer deviceName random now)
  | take {stream : Nat} {info : EnrollmentRequestInfo} {decision : EnrollmentDecision} :
      s.handlers stream = .waiting info → s.decisions stream = some decision →
      Effect s (.take stream)
        ({ s with decisions := Function.update s.decisions stream none }.setHandler stream
          (.selected info decision))
  /-- A handler leaves its `select` without a decision of a call. -/
  | giveUp {a : Action} {stream : Nat} {info : EnrollmentRequestInfo} (error : Text) :
      a = .expire stream ∨ a = .cancel stream ∧ s.closing = true → s.handlers stream = .waiting info →
      Effect s a (s.setHandler stream (.selected info ⟨false, [], error⟩))
  | remove {stream : Nat} {info : EnrollmentRequestInfo} {decision : EnrollmentDecision} :
      s.handlers stream = .selected info decision →
      Effect s (.remove stream)
        ({ s with requests := s.requests.delete info.id }.setHandler stream
          (.answering (.decision (decision.frame info.id))))
  | answer {stream : Nat} {frame : EnrollmentFrame} : s.handlers stream = .answering frame →
      Effect s (.answer stream) ((s.setHandler stream .closed).record (.wrote stream frame))

theorem effect_receive {s : EnrollmentState} {stream : Nat} {remotePeer : Text}
    (h : s.handlers stream = .reading remotePeer) (line : List UInt8) (now : Instant) :
    Effect s (.receive stream line now)
      ((s.receive stream remotePeer line now).record (.received stream line)) := by
  unfold receive
  split
  · exact .receive s.offers h trivial
  · next hline => exact .receive _ h hline
  · next request hline =>
    simp only
    split
    · exact .receive _ h ⟨rfl, rfl, rfl⟩
    · next offer hfind =>
      have hid : offer.id = request.offerID := by simpa using List.find?_some hfind
      exact .receive _ h ⟨request, hline, hid⟩

/-- Every step has one of the effects. -/
theorem step_effect {s s' : EnrollmentState} {a : Action} (h : s.step a = some s') : Effect s a s' := by
  cases a with
  | create name id secret =>
    simp only [step] at h
    split at h <;> cases h
    · exact .quiet s.memberships s.offers
    · exact .quiet _ s.offers
  | join invitation =>
    simp only [step] at h
    split at h <;> cases h
    · exact .quiet s.memberships s.offers
    · exact .quiet _ s.offers
  | leave name =>
    simp only [step] at h
    split at h <;> cases h
    · exact .quiet s.memberships s.offers
    · exact .quiet _ s.offers
  | listen network durationSeconds now random =>
    cases h
    unfold listen
    split_ifs
    · exact .quiet s.memberships s.offers
    · split
      · exact .quiet s.memberships s.offers
      · exact .quiet s.memberships _
  | close offerID =>
    cases h
    exact .quiet s.memberships _
  | list network =>
    cases h
    exact .list network
  | decide call requestID approve =>
    simp only [step] at h
    split at h <;> cases h
    next hidle =>
    unfold decideEnrollment
    split
    · exact .quiet s.memberships s.offers
    · next hget => exact .found approve hidle hget
  | invite call =>
    simp only [step] at h
    split at h
    · next hcall =>
      split at h <;> cases h
      · exact .refuse hcall
      · next hinvite => exact .invite hcall hinvite
    · cases h
  | send call =>
    simp only [step] at h
    split at h
    · next hcall =>
      split_ifs at h with hroom
      cases h
      exact .send hcall (by simpa using hroom)
    · cases h
  | connect stream remotePeer =>
    simp only [step] at h
    split at h <;> cases h
    next hhandler => exact .connect remotePeer hhandler
  | receive stream line now =>
    simp only [step] at h
    split at h <;> cases h
    next hhandler => exact effect_receive hhandler line now
  | register stream random now =>
    simp only [step] at h
    split at h <;> cases h
    · next hhandler => exact .register hhandler
    · next hhandler => exact .abandon hhandler
  | take stream =>
    simp only [step] at h
    split at h <;> cases h
    next hhandler hdecision => exact .take hhandler hdecision
  | expire stream =>
    simp only [step] at h
    split at h <;> cases h
    next hhandler => exact .giveUp _ (Or.inl rfl) hhandler
  | cancel stream =>
    simp only [step] at h
    split at h
    · next hhandler =>
      split_ifs at h with hclosing
      cases h
      exact .giveUp _ (Or.inr ⟨rfl, hclosing⟩) hhandler
    · cases h
  | remove stream =>
    simp only [step] at h
    split at h <;> cases h
    next hhandler => exact .remove hhandler
  | answer stream =>
    simp only [step] at h
    split at h <;> cases h
    next hhandler => exact .answer hhandler
  | shutdown =>
    cases h
    exact .shutdown

end EnrollmentState

end Thalweg
