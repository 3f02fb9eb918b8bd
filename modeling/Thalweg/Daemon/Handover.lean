import Thalweg.Daemon.Approval
import Thalweg.Daemon.Invitations

/-!
# Which network an approval hands over

An offer names a network by name and ID. The invitation to it is made when the request is approved,
of the network that is mounted under the name at that moment. Where this is a network of the offered
ID whenever an approval looks it up, the joiner mounts the network that was offered.

## Main definitions

* `EnrollmentState.HandsOver`: what is sent, reported and mounted is for the ID of the offer.
* `EnrollmentState.Unchanged`: the condition on a step.

## Main results

* `EnrollmentState.handsOver_of_unchanged`.
* `EnrollmentState.not_handsOver_recreatedRun`: without the condition the joiner can get another
  network.
-/

namespace Thalweg

open Machine

/-! ### Frames read back -/

/-- The line of a request names its offer. -/
theorem readEnrollmentLine_enrollmentRequestLine {offerID deviceName : Text} {line : EnrollmentLine}
    (h : readEnrollmentLine (enrollmentRequestLine offerID deviceName) = some line) :
    ∃ request, line = .request request ∧ request.offerID = offerID := by
  let members : List (Text × Json) := [("type".toList, .str requestType),
    ("version".toList, .num (Text.decimalInt enrollmentVersion)), ("offerId".toList, .str offerID),
    ("deviceName".toList, .str deviceName)]
  have hwell : Json.MembersWellFormed Json.IsNumber members := by
    simp [members, Json.MembersWellFormed, Json.WellFormed, Json.isNumber_decimalInt]
  have htext : Text.ofBytes (enrollmentRequestLine offerID deviceName) =
    Json.render (.obj members) := by
    rw [enrollmentRequestLine, Text.ofBytes_toBytes, ← Json.renderRecord_map]
    simp only [marshalEnrollmentRequest, members, List.map_cons, List.map_nil, Json.render]
  have hread : ∀ {σ : Type} (strict : Bool) (fields : List (Text × Json.Setter σ)) (default : σ),
      Json.decodeRecord strict fields default (Json.render (.obj members)) =
        (Json.rawMembers members).foldlM (Json.setMember strict fields) default := by
    intro σ strict fields default
    exact Json.decodeRecord_renderRecord _ _ _ (by simp [members]) hwell
      (by simp only [members, Json.membersDepth, Json.depth]; decide)
  have hversion : Json.decodeInt 0 (.num (Text.decimalInt enrollmentVersion)) =
    some enrollmentVersion := by
    decide
  have htype : Json.decodeRecord false enrollmentTypeFields [] (Json.render (.obj members)) =
      some requestType := by
    rw [hread]
    simp [members, Json.rawMembers, Json.setMember, Json.lookupField, enrollmentTypeFields,
      Json.decodeText, Json.foldRune]
  have hrequest : Json.decodeRecord true enrollmentRequestFields ⟨[], 0, [], []⟩
      (Json.render (.obj members)) =
        some ⟨requestType, enrollmentVersion, offerID, deviceName⟩ := by
    rw [hread]
    simp [members, Json.rawMembers, Json.setMember, Json.lookupField, enrollmentRequestFields,
      Json.decodeText, hversion]
  have hne : requestType ≠ queryType := by decide
  simp only [readEnrollmentLine, decodeStrictJSON, htext, htype, hne, hrequest, if_true,
    if_false] at h
  split_ifs at h
  exact ⟨_, (Option.some.inj h).symm, rfl⟩

/-- The line of a decision can only be read as the decision. -/
theorem readEnrollmentDecision_line {d d' : EnrollmentWireDecision}
    (hversion : d.version = enrollmentVersion)
    (h : readEnrollmentDecision (EnrollmentFrame.decision d).line = .ok d') : d' = d := by
  obtain ⟨type, version, requestID, accepted, invitation, error⟩ := d
  obtain rfl : version = enrollmentVersion := hversion
  let optional (name : String) (value : Text) : List (Text × Json) :=
    if value = [] then [] else [(name.toList, .str value)]
  let members : List (Text × Json) := [("type".toList, .str type),
    ("version".toList, .num (Text.decimalInt enrollmentVersion)),
      ("requestId".toList, .str requestID),
    ("accepted".toList, .bool accepted)] ++ optional "invitation" invitation ++ optional "error"
      error
  have hwell : Json.MembersWellFormed Json.IsNumber members := by
    simp only [members, optional]
    split_ifs <;> simp [Json.MembersWellFormed, Json.WellFormed, Json.isNumber_decimalInt]
  have htext : Text.ofBytes (EnrollmentFrame.decision
      ⟨type, enrollmentVersion, requestID, accepted, invitation, error⟩).line =
        Json.render (.obj members) := by
    rw [EnrollmentFrame.line, Text.ofBytes_toBytes, ← Json.renderRecord_map,
      marshalEnrollmentDecision]
    simp only [members, optional, omitEmpty]
    split_ifs <;> simp [Json.render]
  have hdepth : Json.membersDepth members + 1 ≤ Json.maxDepth := by
    simp only [members, optional]
    split_ifs <;> simp [Json.membersDepth, Json.depth, Json.maxDepth]
  have hint : Json.decodeInt 0 (.num (Text.decimalInt enrollmentVersion)) =
    some enrollmentVersion := by
    decide
  have hread : Json.decodeRecord true enrollmentDecisionFields ⟨[], 0, [], false, [], []⟩
      (Json.render (.obj members)) =
        some ⟨type, enrollmentVersion, requestID, accepted, invitation, error⟩ := by
    rw [Json.decodeRecord_renderRecord _ _ _ (by simp [members]) hwell hdepth]
    simp only [members, optional]
    split_ifs with hi he he <;>
      simp [Json.rawMembers, Json.setMember, Json.lookupField, enrollmentDecisionFields,
        Json.decodeText,
        decodeBool, *]
  simp only [readEnrollmentDecision, decodeStrictJSON, htext, hread] at h
  split_ifs at h
  · cases h
  · exact (Except.ok.inj h).symm

namespace EnrollmentState

/-! ### What is handed over -/

/-- The invitation is for a network of the ID that the offer to the stream names. -/
def ForOffer (history : List EnrollmentEvent) (stream : Nat) (invitation : Text) : Prop :=
  ∃ offer info membership, .registered stream offer info ∈ history ∧
    invitation = encodeNetworkInvitation membership ∧ membership.id = offer.network.id

/-- Invitations are for the networks that were offered, whether they are sent or reported as sent,
and a joiner that asks for an offer and mounts a network mounts one of the ID of the offer. -/
structure HandsOver (history : List EnrollmentEvent) : Prop where
  sent : ∀ stream d, .wrote stream (.decision d) ∈ history → d.accepted = true ∨ d.invitation ≠ [] →
    ForOffer history stream d.invitation
  reported : ∀ stream decision, .decided stream decision ∈ history → decision.accepted = true →
    ForOffer history stream decision.invitation
  mounted : ∀ stream offerID deviceName frame memberships mounted joined memberships',
    .received stream (enrollmentRequestLine offerID deviceName) ∈ history →
    .wrote stream frame ∈ history →
    requestEnrollment memberships frame.line = .ok (mounted, joined, memberships') →
    ∃ offer info, .registered stream offer info ∈ history ∧ offer.id = offerID ∧
      mounted.id = offer.network.id ∧
      (memberships'.get mounted.name).map NetworkMembership.info = some mounted

/-- The network that an approval looks up by name has the ID of the offer, if it is mounted. -/
def Unchanged (s : EnrollmentState) : Action → Prop
  | .invite call =>
    match s.calls call with
    | .approving _ info =>
      match s.memberships.get info.network.name with
      | some membership => membership.id = info.network.id
      | none => True
    | _ => True
  | _ => True

instance (s : EnrollmentState) (a : Action) : Decidable (Unchanged s a) := by
  unfold Unchanged
  split
  · split
    · split <;> infer_instance
    · infer_instance
  · infer_instance

/-- An invitation that goes with the decision is for the network that was offered. -/
def Offered (history : List EnrollmentEvent) (stream : Nat) (decision : EnrollmentDecision) :
    Prop :=
  decision.accepted = true ∨ decision.invitation ≠ [] → ForOffer history stream decision.invitation

def FrameOffered (history : List EnrollmentEvent) (stream : Nat) : EnrollmentFrame → Prop
  | .offers _ => True
  | .decision d => d.version = enrollmentVersion ∧
    (d.accepted = true ∨ d.invitation ≠ [] → ForOffer history stream d.invitation)

/-- Decisions are for the network that was offered, wherever they are on their way. -/
structure Sound (s : EnrollmentState) : Prop where
  call : ∀ call stream decision, s.calls call = .sending stream decision →
    Offered s.history stream decision
  decided : ∀ stream decision, .decided stream decision ∈ s.history →
    Offered s.history stream decision
  channel : ∀ stream decision, s.decisions stream = some decision →
    Offered s.history stream decision
  selected : ∀ stream info decision, s.handlers stream = .selected info decision →
    Offered s.history stream decision
  answering : ∀ stream frame, s.handlers stream = .answering frame →
    FrameOffered s.history stream frame
  wrote : ∀ stream frame, .wrote stream frame ∈ s.history → FrameOffered s.history stream frame

theorem initial_sound (memberships : Memberships) : Sound (initial memberships) := by
  constructor <;> simp [initial]

theorem ForOffer.append {history : List EnrollmentEvent} {e : EnrollmentEvent} {stream : Nat}
    {invitation : Text} (h : ForOffer history stream invitation) :
    ForOffer (history ++ [e]) stream invitation := by
  obtain ⟨offer, info, membership, hmem, hrest⟩ := h
  exact ⟨offer, info, membership, List.mem_append_left _ hmem, hrest⟩

theorem Offered.append {history : List EnrollmentEvent} {e : EnrollmentEvent} {stream : Nat}
    {decision : EnrollmentDecision} (h : Offered history stream decision) :
    Offered (history ++ [e]) stream decision := fun hgrants => (h hgrants).append

theorem FrameOffered.append {history : List EnrollmentEvent} {e : EnrollmentEvent} {stream : Nat}
    {frame : EnrollmentFrame} (h : FrameOffered history stream frame) :
    FrameOffered (history ++ [e]) stream frame := by
  cases frame with
  | offers offers => trivial
  | decision d => exact ⟨h.1, fun hgrants => (h.2 hgrants).append⟩

/-- A decision without an invitation is for no network. -/
theorem offered_of_rejected (history : List EnrollmentEvent) (stream : Nat) (error : Text) :
    Offered history stream ⟨false, [], error⟩ := by simp [Offered]

variable {s : EnrollmentState}

/-! ### Steps -/

theorem Sound.record (h : Sound s) {e : EnrollmentEvent}
    (hdecided : ∀ stream decision, e = .decided stream decision → Offered s.history stream decision)
    (hwrote : ∀ stream frame, e = .wrote stream frame → FrameOffered s.history stream frame) :
    Sound (s.record e) where
  call c stream decision hcall := (h.call c stream decision hcall).append
  decided stream decision hmem := by
    rcases List.mem_append.mp hmem with hmem | hmem
    · exact (h.decided stream decision hmem).append
    · exact (hdecided stream decision (List.mem_singleton.mp hmem).symm).append
  channel stream decision hchannel := (h.channel stream decision hchannel).append
  selected stream info decision hhandler := (h.selected stream info decision hhandler).append
  answering stream frame hhandler := (h.answering stream frame hhandler).append
  wrote stream frame hmem := by
    rcases List.mem_append.mp hmem with hmem | hmem
    · exact (h.wrote stream frame hmem).append
    · exact (hwrote stream frame (List.mem_singleton.mp hmem).symm).append

theorem Sound.setCall (h : Sound s) {call : Nat} {next : EnrollmentCall}
    (hnext : ∀ stream decision, next = .sending stream decision →
      Offered s.history stream decision) :
    Sound (s.setCall call next) where
  call c stream decision := by
    simp only [EnrollmentState.setCall, Function.update_apply]
    split_ifs
    · exact hnext stream decision
    · exact h.call c stream decision
  decided := h.decided
  channel := h.channel
  selected := h.selected
  answering := h.answering
  wrote := h.wrote

theorem Sound.setHandler (h : Sound s) {stream : Nat} {handler : EnrollmentHandler}
    (hselected : ∀ info decision, handler = .selected info decision →
      Offered s.history stream decision)
    (hanswering : ∀ frame, handler = .answering frame → FrameOffered s.history stream frame) :
    Sound (s.setHandler stream handler) where
  call := h.call
  decided := h.decided
  channel := h.channel
  selected i info decision := by
    simp only [EnrollmentState.setHandler, Function.update_apply]
    split_ifs with hi
    · exact hi ▸ hselected info decision
    · exact h.selected i info decision
  answering i frame := by
    simp only [EnrollmentState.setHandler, Function.update_apply]
    split_ifs with hi
    · exact hi ▸ hanswering frame
    · exact h.answering i frame
  wrote := h.wrote

theorem Sound.setDecision (h : Sound s) (stream : Nat) {decision : Option EnrollmentDecision}
    (hdecision : ∀ d, decision = some d → Offered s.history stream d) :
    Sound { s with decisions := Function.update s.decisions stream decision } where
  call := h.call
  decided := h.decided
  channel i d := by
    simp only [Function.update_apply]
    split_ifs with hi
    · exact hi ▸ hdecision d
    · exact h.channel i d
  selected := h.selected
  answering := h.answering
  wrote := h.wrote

theorem Sound.quiet (h : Sound s) (memberships : Memberships)
    (offers : OrderedStore Char EnrollmentOffer) : Sound { s with memberships, offers } :=
  ⟨h.call, h.decided, h.channel, h.selected, h.answering, h.wrote⟩

theorem Sound.setRequests (h : Sound s)
    (requests : OrderedStore Char (Nat × EnrollmentRequestInfo)) :
    Sound { s with requests } :=
  ⟨h.call, h.decided, h.channel, h.selected, h.answering, h.wrote⟩

theorem Orderly.network_eq (h : Orderly s) {stream : Nat} {offer : EnrollmentOffer}
    {info : EnrollmentRequestInfo} (hmem : .registered stream offer info ∈ s.history) :
    info.network = offer.network := by
  obtain ⟨before, after, -, -, -, hnetwork⟩ := h.authorized.exists_of_mem hmem
  exact hnetwork

/-- The invitation that an approval makes is for the network that was offered. -/
theorem Sound.invite (h : Sound s) (horderly : Orderly s) {call stream : Nat}
    {info : EnrollmentRequestInfo} {mounted : NetworkMembershipInfo} {invitation : Text}
    (hunchanged : Unchanged s (.invite call)) (hcall : s.calls call = .approving stream info)
    (hinvite : s.memberships.invite info.network.name = .ok (mounted, invitation)) :
    Sound (s.setCall call (.sending stream ⟨true, invitation, []⟩)) := by
  obtain ⟨membership, hget, rfl⟩ := Memberships.invite_eq_ok hinvite
  have hagrees := horderly.call call
  rw [hcall] at hagrees
  obtain ⟨⟨offer, hregistered⟩, -, -⟩ := hagrees
  have hid : membership.id = offer.network.id := by
    rw [← horderly.network_eq hregistered]
    simpa only [Unchanged, hcall, hget] using hunchanged
  refine h.setCall fun i decision hnext => ?_
  cases hnext
  exact fun _ => ⟨offer, info, membership, hregistered, rfl, hid⟩

theorem Sound.send (h : Sound s) {call stream : Nat} {decision : EnrollmentDecision}
    (hcall : s.calls call = .sending stream decision) :
    Sound (({ s with decisions := Function.update s.decisions stream (some decision) }.setCall call
      .idle).record (.decided stream decision)) := by
  have hoffered := h.call call stream decision hcall
  have hchannel := h.setDecision stream fun d (hd : some decision = some d) =>
    Option.some.inj hd ▸ hoffered
  refine (hchannel.setCall (by simp)).record ?_ (by simp)
  rintro i d ⟨⟩
  exact hoffered

theorem Sound.found (h : Sound s) (call stream : Nat) (requestID : Text)
    (info : EnrollmentRequestInfo)
    (approve : Bool) :
    Sound (({ s with requests := s.requests.delete requestID }.setCall call (if approve then
      .approving stream info else .sending stream ⟨false, [], "enrollment denied".toList⟩)).record
        (.found stream requestID approve)) := by
  have hnext : ∀ i decision, (if approve then EnrollmentCall.approving stream info else
      .sending stream ⟨false, [], "enrollment denied".toList⟩) = .sending i decision →
      Offered s.history i decision := by
    intro i decision hi
    cases approve with
    | false =>
      cases hi
      exact offered_of_rejected _ _ _
    | true => cases hi
  refine ((h.setRequests (s.requests.delete requestID)).setCall hnext).record ?_ ?_
  · rintro i decision ⟨⟩
  · rintro i frame ⟨⟩

theorem Sound.step (h : Sound s) (horderly : Orderly s) {a : Action} (hunchanged : Unchanged s a)
    {s' : EnrollmentState} (hstep : s.step a = some s') : Sound s' := by
  cases step_effect hstep with
  | quiet memberships offers => exact h.quiet memberships offers
  | shutdown => exact ⟨h.call, h.decided, h.channel, h.selected, h.answering, h.wrote⟩
  | list network => exact h.record (by simp) (by simp)
  | found approve hidle hget => exact h.found _ _ _ _ approve
  | refuse hcall => exact h.setCall (by simp)
  | invite hcall hinvite => exact h.invite horderly hunchanged hcall hinvite
  | send hcall hroom => exact h.send hcall
  | connect remotePeer hhandler => exact h.setHandler (by simp) (by simp)
  | @receive stream remotePeer line now handler offers hhandler hreads =>
    refine ((h.quiet s.memberships offers).setHandler ?_ ?_).record (by simp) (by simp)
    · rintro info decision rfl
      exact hreads.elim
    · rintro (frame | d) rfl
      · trivial
      · exact ⟨hreads.1, by simp [hreads.2.1, hreads.2.2]⟩
  | abandon hhandler => exact h.setHandler (by simp) (by simp)
  | register hhandler =>
    exact ((h.setRequests _).setHandler (by simp) (by simp)).record (by simp) (by simp)
  | @take stream info decision hhandler hdecision =>
    refine (h.setDecision stream (by simp)).setHandler ?_ (by simp)
    rintro i d ⟨⟩
    exact h.channel stream decision hdecision
  | giveUp error ha hhandler =>
    refine h.setHandler ?_ (by simp)
    rintro i d ⟨⟩
    exact offered_of_rejected _ _ _
  | @remove stream info decision hhandler =>
    refine (h.setRequests (s.requests.delete info.id)).setHandler (by simp) ?_
    rintro frame ⟨⟩
    exact ⟨rfl, h.selected stream info decision hhandler⟩
  | @answer stream frame hhandler =>
    refine (h.setHandler (by simp) (by simp)).record (by simp) ?_
    rintro i f ⟨⟩
    exact h.answering stream frame hhandler

/-! ### Runs -/

/-- The handler of a stream reads one line. -/
theorem Orderly.received_unique (h : Orderly s) {stream : Nat} {bytes bytes' : List UInt8}
    (hmem : .received stream bytes ∈ s.history) (hmem' : .received stream bytes' ∈ s.history) :
    bytes = bytes' := by
  by_contra hne
  have hevents : EnrollmentEvent.received stream bytes ≠ .received stream bytes' := by
    simpa using hne
  rcases h.authorized.exists_of_mem_of_mem hmem hmem' hevents with ⟨before, hold, hno⟩ |
    ⟨before, hold, hno⟩
  · exact hno bytes hold
  · exact hno bytes' hold

/-- What the handler has read from a stream on which a request has come in is the request. -/
theorem Orderly.received_request (h : Orderly s) {stream : Nat} {offerID deviceName : Text}
    (hmem : .received stream (enrollmentRequestLine offerID deviceName) ∈ s.history)
    {line : EnrollmentLine} (hreceived : Received s.history stream line) :
    ∃ request, line = .request request ∧ request.offerID = offerID := by
  obtain ⟨bytes, hbytes, hread⟩ := hreceived
  obtain rfl := h.received_unique hmem hbytes
  exact readEnrollmentLine_enrollmentRequestLine hread

theorem Orderly.received_of_registered (h : Orderly s) {stream : Nat} {offer : EnrollmentOffer}
    {info : EnrollmentRequestInfo} (hmem : .registered stream offer info ∈ s.history) :
    ∃ request, Received s.history stream (.request request) ∧ offer.id = request.offerID := by
  obtain ⟨before, after, hsplit, ⟨request, ⟨bytes, hbytes, hread⟩, hid⟩, -⟩ :=
    h.authorized.exists_of_mem hmem
  exact ⟨request, ⟨bytes, hsplit ▸ List.mem_append_left _ hbytes, hread⟩, hid⟩

/-- Offers are written only to streams that have asked for them. -/
theorem Orderly.received_of_offers (h : Orderly s) {stream : Nat} {offers : List EnrollmentOffer}
    (hmem : .wrote stream (.offers offers) ∈ s.history) : Received s.history stream .query := by
  obtain ⟨before, after, hsplit, -, -, hquery⟩ := h.authorized.exists_of_mem hmem
  obtain ⟨bytes, hbytes, hread⟩ := hquery offers rfl
  exact ⟨bytes, hsplit ▸ List.mem_append_left _ hbytes, hread⟩

/-- The network that an invitation mounts is the one that it was made for. -/
theorem Memberships.join_encode {memberships memberships' : Memberships}
    {membership : NetworkMembership}
    {mounted : NetworkMembershipInfo} {joined : Bool}
    (h : memberships.join (encodeNetworkInvitation membership) =
      .ok (mounted, joined, memberships')) :
    mounted = membership.info ∧ memberships'.get membership.name = some membership := by
  unfold Memberships.join at h
  cases hdecode : decodeNetworkInvitation (encodeNetworkInvitation membership) with
  | error e => simp [hdecode, bind, Except.bind] at h
  | ok membership' =>
    obtain rfl := decodeNetworkInvitation_encode hdecode
    simp only [hdecode, bind, Except.bind] at h
    split at h
    · next other hget =>
      split_ifs at h with hsame
      · cases h
        exact ⟨congrArg NetworkMembership.info hsame, hget.trans (congrArg some hsame)⟩
      · cases h
    · cases h
      exact ⟨rfl, OrderedStore.get_set_self _ _ _⟩

/-- A joiner that mounts a network has got an accepted decision. -/
theorem requestEnrollment_decision {memberships memberships' : Memberships}
    {d : EnrollmentWireDecision} {mounted : NetworkMembershipInfo} {joined : Bool}
    (hversion : d.version = enrollmentVersion)
    (h : requestEnrollment memberships (EnrollmentFrame.decision d).line =
      .ok (mounted, joined, memberships')) :
    d.accepted = true ∧ memberships.join d.invitation = .ok (mounted, joined, memberships') := by
  unfold requestEnrollment at h
  cases hread : readEnrollmentDecision (EnrollmentFrame.decision d).line with
  | error e => simp [hread, bind, Except.bind] at h
  | ok d' =>
    obtain rfl := readEnrollmentDecision_line hversion hread
    simp only [hread, bind, Except.bind] at h
    by_cases haccepted : d'.accepted = true
    · refine ⟨haccepted, ?_⟩
      cases hjoin : memberships.join d'.invitation with
      | error e => simp [haccepted, hjoin] at h
      | ok outcome => simpa [haccepted, hjoin] using h
    · rw [if_pos haccepted] at h
      cases h

theorem Sound.mounted (h : Sound s) (horderly : Orderly s) {stream : Nat}
    {offerID deviceName : Text}
    {d : EnrollmentWireDecision} {memberships memberships' : Memberships}
    {mounted : NetworkMembershipInfo} {joined : Bool}
    (hline : .received stream (enrollmentRequestLine offerID deviceName) ∈ s.history)
    (hwrote : .wrote stream (.decision d) ∈ s.history)
    (hmount : requestEnrollment memberships (EnrollmentFrame.decision d).line =
      .ok (mounted, joined, memberships')) :
    ∃ offer info, .registered stream offer info ∈ s.history ∧ offer.id = offerID ∧
      mounted.id = offer.network.id ∧
      (memberships'.get mounted.name).map NetworkMembership.info = some mounted := by
  obtain ⟨hversion, hoffered⟩ := h.wrote stream (.decision d) hwrote
  obtain ⟨haccepted, hjoin⟩ := requestEnrollment_decision hversion hmount
  obtain ⟨offer, info, membership, hregistered, hinvitation, hid⟩ := hoffered (Or.inl haccepted)
  obtain ⟨request, hreceived, hofferID⟩ := horderly.received_of_registered hregistered
  obtain ⟨request', hrequest, hnamed⟩ := horderly.received_request hline hreceived
  cases hrequest
  rw [hinvitation] at hjoin
  obtain ⟨rfl, hget⟩ := Memberships.join_encode hjoin
  exact ⟨offer, info, hregistered, hofferID.trans hnamed, hid,
    by simp [NetworkMembership.info, hget]⟩

theorem Sound.handsOver (h : Sound s) (horderly : Orderly s) : HandsOver s.history where
  sent stream d hmem hgrants := (h.wrote stream (.decision d) hmem).2 hgrants
  reported stream decision hmem haccepted := h.decided stream decision hmem (Or.inl haccepted)
  mounted stream offerID deviceName frame memberships mounted joined memberships' hline hwrote
      hmount := by
    cases frame with
    | offers offers =>
      obtain ⟨request, hquery, -⟩ :=
        horderly.received_request hline (horderly.received_of_offers hwrote)
      cases hquery
    | decision d => exact h.mounted horderly hline hwrote hmount

/-- In every run in which a network of the offered ID is mounted whenever an approval looks the
network up by its name, or none, approvals hand over the network that was offered. -/
theorem handsOver_of_unchanged {memberships : Memberships} {actions : List Action}
    {s : EnrollmentState}
    (hrun : run EnrollmentState.step (initial memberships) actions = some s)
    (hmeets : Meets EnrollmentState.step Unchanged (initial memberships) actions) :
    HandsOver s.history := by
  have hboth : Orderly s ∧ Sound s := by
    refine run_invariant (P := fun s => Orderly s ∧ Sound s) ?_
      ⟨initial_orderly memberships, initial_sound memberships⟩ hmeets hrun
    rintro t a t' ⟨horderly, hsound⟩ hunchanged hstep
    exact ⟨horderly.step hstep, hsound.step horderly hunchanged hstep⟩
  exact hboth.2.handsOver hboth.1

/-- A request for a network that stays mounted is approved. -/
theorem handsOver_approvedRun :
    ∃ s, run EnrollmentState.step (initial OrderedStore.empty) approvedRun = some s ∧
      (∃ frame ∈ written s.history 0, frame.Grants) ∧ HandsOver s.history := by
  have hwritten : (run EnrollmentState.step (initial OrderedStore.empty) approvedRun).any
      (fun s : EnrollmentState => decide (∃ frame ∈ written s.history 0, frame.Grants)) = true := by
    decide +kernel
  obtain ⟨s, hs, hgrants⟩ := (Option.any_eq_true _ _).mp hwritten
  exact ⟨s, hs, of_decide_eq_true hgrants, handsOver_of_unchanged hs (by decide +kernel)⟩

/-- Between the request and its approval the network is left, and another one created under its
name. -/
def recreatedRun : List Action :=
  requestRun ++
    [.leave ['n'], .create ['n'] (List.replicate 16 7) (List.replicate 32 8),
      .decide 0 (Base64Url.encode requestBytes) true, .invite 0, .send 0, .take 0, .remove 0,
      .answer 0]

/-- The frame holds an invitation to a network of another ID than all offers to the stream. -/
def OtherNetwork (history : List EnrollmentEvent) (stream : Nat) (frame : EnrollmentFrame) : Bool :=
  match frame with
  | .offers _ => false
  | .decision d =>
    match decodeNetworkInvitation d.invitation with
    | .error _ => false
    | .ok membership => d.accepted && history.all fun
      | .registered i offer _ => decide (i = stream → membership.id ≠ offer.network.id)
      | _ => true

/-- The joiner gets an invitation to the new network. -/
theorem not_handsOver_recreatedRun :
    ∃ s, run EnrollmentState.step (initial OrderedStore.empty) recreatedRun = some s ∧
      ¬ HandsOver s.history := by
  have hother : (run EnrollmentState.step (initial OrderedStore.empty) recreatedRun).any
      (fun s : EnrollmentState => (written s.history 0).any (OtherNetwork s.history 0)) = true := by
    decide +kernel
  obtain ⟨s, hs, hany⟩ := (Option.any_eq_true _ _).mp hother
  obtain ⟨frame, hframe, hnetwork⟩ := List.any_eq_true.mp hany
  refine ⟨s, hs, fun hhands => ?_⟩
  cases frame with
  | offers offers => cases hnetwork
  | decision d =>
    simp only [OtherNetwork] at hnetwork
    cases hdecode : decodeNetworkInvitation d.invitation with
    | error e => simp [hdecode] at hnetwork
    | ok membership' =>
      simp only [hdecode, Bool.and_eq_true, List.all_eq_true] at hnetwork
      obtain ⟨haccepted, hall⟩ := hnetwork
      obtain ⟨offer, info, membership, hregistered, hinvitation, hid⟩ :=
        hhands.sent 0 d (mem_written_iff.mp hframe) (Or.inl haccepted)
      rw [hinvitation] at hdecode
      obtain rfl := decodeNetworkInvitation_encode hdecode
      exact of_decide_eq_true (hall _ hregistered) rfl hid

end EnrollmentState

end Thalweg
