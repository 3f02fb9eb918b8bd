import Mathlib.Data.List.TakeWhile
import Thalweg.Daemon.BoundedFrames
import Thalweg.Daemon.Routes
import Thalweg.Ipc.Call

/-!
# Requests on one connection

A client may send requests on a connection without waiting for the responses. The responses come in
the order of the requests, each under the ID of its request, and each is what a call of the handler
gives at its turn. This is of handlers that do not keep the connection: where a subscription has
events written on it, these come between the responses.

## Main definitions

* `Ipc.callAll`: the calls of handlers, one after the other.

## Main results

* `Ipc.handleLines_requests`: the run lemma of a connection.
* `Ipc.handle_pipelined`.
-/

namespace Thalweg.Ipc

open ByteSpace (newline)

/-- The line of a request that can be encoded. -/
def Request.line (request : Request) : List UInt8 :=
  Text.toBytes ((Json.marshal request.marshalable).getD [])

/-- The text of the payload. -/
def Request.text (request : Request) : Text := (Json.marshal request.payload).getD []

/-- A request that a client can send and the daemon can take. -/
structure Sent (request : Request) : Prop where
  version : request.protocolVersion = protocolVersion
  encodes : (Json.marshal request.payload).isSome
  depth_lt : request.payload.value.depth < Json.maxDepth
  length_lt : request.line.length < localMaxRequestBytes

variable {σ : Type}

/-- In the states of a set, which handlers do not leave, what they give can be encoded. -/
structure Encodes (routes : Routes σ) (states : Set σ) : Prop where
  keeps : ∀ action handler, routes action = some handler → ∀ d ∈ states, ∀ payload,
    (handler d payload).2 ∈ states
  encodes : ∀ action handler, routes action = some handler → ∀ d ∈ states, ∀ payload data,
    (handler d payload).1 = .ok (some data) → (Json.marshal data).isSome

/-- Calls of the handlers of actions with the texts of the payloads, one after the other. -/
def callAll (routes : Routes σ) : σ → List Request → List (Except CallError Text) × σ
  | d, [] => ([], d)
  | d, request :: requests =>
    let called := callAction routes d request.action request.text
    let rest := callAll routes called.2 requests
    (called.1 :: rest.1, rest.2)

/-! ### Lines -/

theorem streamLines_terminated {lines : List (List UInt8)} (h : ∀ line ∈ lines, newline ∉ line) :
    streamLines (terminated lines) = lines := by
  have hframes : Framing.frames (· == newline) (terminated lines) = lines ∧
      Framing.remainder (· == newline) (terminated lines) = [] := by
    induction lines with
    | nil => exact ⟨rfl, rfl⟩
    | cons line lines ih =>
      obtain ⟨hline, hlines⟩ := List.forall_mem_cons.mp h
      obtain ⟨hframes, hrest⟩ := ih hlines
      have hframe : Framing.IsFrame (· == newline) line := fun b hb =>
        beq_eq_false_iff_ne.mpr fun heq => hline (heq ▸ hb)
      have happend : terminated (line :: lines) = line ++ newline :: terminated lines := by
        simp [terminated]
      rw [happend, Framing.frames_append_cons hframe (by decide), hframes,
        Framing.remainder_append_cons line (by decide), hrest]
      exact ⟨rfl, rfl⟩
  rw [streamLines, hframes.1, hframes.2]
  simp

namespace Sent

variable {request : Request} (h : Sent request)
include h

theorem exists_marshal : ∃ w, Json.marshal request.marshalable = some w ∧
    request.line = Text.toBytes w := by
  obtain ⟨text, htext⟩ := Option.isSome_iff_exists.mp h.encodes
  obtain ⟨w, hw⟩ := marshal_request htext
  exact ⟨w, hw, by rw [Request.line, hw, Option.getD_some]⟩

theorem isLine : newline ∉ request.line ∧ dropCR request.line = request.line := by
  obtain ⟨w, hw, hline⟩ := h.exists_marshal
  have := Json.isLine_of_marshal _ hw
  rw [hline]
  exact ⟨ByteSpace.notMem_toBytes this.noBreak, dropCR_toBytes this⟩

/-- The daemon reads the message of the request. -/
theorem handleLine_eq (routes : Routes σ) (d : σ) : handleLine routes d request.line =
    handleMessage routes d ⟨request.id, protocolVersion, request.action, request.text⟩ := by
  obtain ⟨w, hw, hline⟩ := h.exists_marshal
  obtain ⟨text, htext⟩ := Option.isSome_iff_exists.mp h.encodes
  rw [hline, handleLine, decodeMessage_request h.version htext hw, if_pos h.depth_lt, Request.text,
    htext, Option.getD_some]

end Sent

/-! ### Responses -/

/-- What a frame of responses is to a request with what its call gives. -/
structure RespondsTo (request : Request) (outcome : Except CallError Text) (frame : List UInt8) :
    Prop where
  id_eq : ∀ response, decodeResponse (frame ++ [newline]) = some response →
    response.id = request.id
  result_eq : readResult request.id request.action (frame ++ [newline]) = outcome

variable {routes : Routes σ} {states : Set σ} {d : σ}

theorem Encodes.callAction_mem (hencodes : Encodes routes states) (hd : d ∈ states)
    (action payload : Text) : (callAction routes d action payload).2 ∈ states := by
  unfold callAction
  split
  · exact hd
  · next handler hroute =>
    have hkeeps := hencodes.keeps action handler hroute d hd payload
    generalize handler d payload = answer at hkeeps ⊢
    obtain ⟨_ | _, _⟩ := answer <;> exact hkeeps

/-- The response to a request is one frame. -/
theorem respondsTo_handleMessage (hencodes : Encodes routes states) (hd : d ∈ states)
    (request : Request) :
    ∃ frame, newline ∉ frame ∧ (handleMessage routes d
        ⟨request.id, protocolVersion, request.action, request.text⟩).1.written =
          frame ++ [newline] ∧
      RespondsTo request (callAction routes d request.action request.text).1 frame := by
  have hresult := congrArg Prod.fst
    (readResult_handleMessage routes d request.id request.action request.text)
  have hresponse : ∀ response, response = (handleMessage routes d
      ⟨request.id, protocolVersion, request.action, request.text⟩).1 →
      response.id = request.id ∧ response.protocolVersion = currentLocalProtocolVersion ∧
        ∀ data, response.data = some data → (Json.marshal data).isSome := by
    rintro response rfl
    unfold handleMessage
    split_ifs
    · exact ⟨rfl, rfl, fun data hdata => by cases hdata⟩
    · split
      · exact ⟨rfl, rfl, fun data hdata => by cases hdata⟩
      · next handler hroute =>
        split
        · exact ⟨rfl, rfl, fun data hdata => by cases hdata⟩
        · next data d' hhandler =>
          refine ⟨rfl, rfl, ?_⟩
          rintro data rfl
          exact hencodes.encodes _ handler hroute d hd _ data (congrArg Prod.fst hhandler)
  generalize handleMessage routes d
    ⟨request.id, protocolVersion, request.action, request.text⟩ = handled at hresult hresponse ⊢
  obtain ⟨hid, hversion, hdata⟩ := hresponse handled.1 rfl
  obtain ⟨w, hw⟩ := Option.isSome_iff_exists.mp (isSome_marshal_response.mpr hdata)
  have hwritten : handled.1.written = Text.toBytes w ++ [newline] := by
    rw [Thalweg.Response.written, hw]
  refine ⟨Text.toBytes w, ?_, hwritten, ?_, ?_⟩
  · exact ByteSpace.notMem_toBytes (Json.isLine_of_marshal _ hw).noBreak
  · intro response hread
    rw [← hwritten] at hread
    obtain ⟨hflat, hdeep⟩ := decodeResponse_written hversion hw
    by_cases h : Flat handled.1
    · rw [hflat h, Option.some.injEq] at hread
      rw [← hread, ← hid]
      rfl
    · rw [hdeep h] at hread
      cases hread
  · rw [← hwritten]
    exact hresult

/-- Only the action that shuts the daemon down ends the connection. -/
theorem open_handleMessage (routes : Routes σ) (d : σ) (id payload : Text) {action : Text}
    (h : action ≠ "daemon_shutdown".toList) :
    (handleMessage routes d ⟨id, protocolVersion, action, payload⟩).2.1 = true := by
  unfold handleMessage
  split_ifs
  · rfl
  · split
    · rfl
    · split
      · rfl
      · exact bne_iff_ne.mpr h

/-- **A connection.** Requests in a row, none of which shuts the daemon down. -/
theorem handleLines_requests (hencodes : Encodes routes states) (hd : d ∈ states)
    {requests : List Request} (hsent : ∀ request ∈ requests, Sent request)
    (hstays : ∀ request ∈ requests, request.action ≠ "daemon_shutdown".toList) :
    ∃ responses frames, handleLines routes d (requests.map Request.line) =
        (responses, true, (callAll routes d requests).2) ∧
      responses.flatMap Thalweg.Response.written = terminated frames ∧
      (∀ frame ∈ frames, newline ∉ frame) ∧
      List.Forall₂ (fun call frame => RespondsTo call.1 call.2 frame)
        (requests.zip (callAll routes d requests).1) frames := by
  induction requests generalizing d with
  | nil => exact ⟨[], [], rfl, rfl, List.forall_mem_nil _, List.Forall₂.nil⟩
  | cons request requests ih =>
    obtain ⟨hrequest, hsent⟩ := List.forall_mem_cons.mp hsent
    obtain ⟨hstay, hstays⟩ := List.forall_mem_cons.mp hstays
    obtain ⟨frame, hframe, hwritten, hresponds⟩ := respondsTo_handleMessage hencodes hd request
    have hstate := congrArg Prod.snd
      (readResult_handleMessage routes d request.id request.action request.text)
    have hopen := open_handleMessage routes d request.id request.text hstay
    have hline := hrequest.handleLine_eq routes d
    generalize handleMessage routes d
      ⟨request.id, protocolVersion, request.action, request.text⟩ = handled
      at hwritten hstate hopen hline
    obtain ⟨response, open', d'⟩ := handled
    obtain rfl : open' = true := hopen
    obtain rfl : d' = (callAction routes d request.action request.text).2 := hstate
    obtain ⟨responses, frames, hlines, hrest, hframes, hforall⟩ :=
      ih (hencodes.callAction_mem hd request.action request.text) hsent hstays
    refine ⟨response :: responses, frame :: frames, ?_, ?_, ?_, ?_⟩
    · rw [List.map_cons, handleLines, hline]
      simp only [hlines, callAll]
    · rw [List.flatMap_cons, hrest, hwritten]
      simp [terminated]
    · exact List.forall_mem_cons.mpr ⟨hframe, hframes⟩
    · exact List.Forall₂.cons hresponds hforall

/-- **Pipelining.** On a connection with requests in a row, none of which shuts the daemon down and
whose handlers do not keep the connection, the daemon comes to the state and the requests to the
responses of the calls of their handlers, one after the other; the responses come in the order of
the requests, and each has the ID of its request. -/
theorem handle_pipelined (hencodes : Encodes routes states) (hd : d ∈ states)
    {requests : List Request} (hsent : ∀ request ∈ requests, Sent request)
    (hstays : ∀ request ∈ requests, request.action ≠ "daemon_shutdown".toList) :
    let handled := handle routes d (terminated (requests.map Request.line)) none
    handled.2 = (callAll routes d requests).2 ∧
      List.Forall₂ (fun call frame => RespondsTo call.1 call.2 frame)
        (requests.zip (callAll routes d requests).1)
        (streamLines (handled.1.flatMap Thalweg.Response.written)) := by
  intro handled
  obtain ⟨responses, frames, hlines, hwritten, hframes, hforall⟩ :=
    handleLines_requests hencodes hd hsent hstays
  have hscan : scanLines localMaxRequestBytes (terminated (requests.map Request.line)) =
      (requests.map Request.line, false) := by
    have hstream := @streamLines_terminated (requests.map Request.line)
      (List.forall_mem_map.mpr fun request hrequest => (hsent request hrequest).isLine.1)
    have hfits : ∀ line ∈ requests.map Request.line,
        (decide (line.length < localMaxRequestBytes)) = true :=
      List.forall_mem_map.mpr fun request hrequest =>
        decide_eq_true (hsent request hrequest).length_lt
    rw [scanLines, hstream, List.takeWhile_eq_self_iff.mpr hfits, List.all_eq_true.mpr hfits,
      List.map_map]
    have hdrop : requests.map (dropCR ∘ Request.line) = requests.map Request.line :=
      List.map_congr_left fun request hrequest => (hsent request hrequest).isLine.2
    rw [hdrop]
    rfl
  have hhandled : handled = (responses, (callAll routes d requests).2) := by
    simp only [handled, handle, hscan, hlines, scanError]
    rfl
  rw [hhandled]
  refine ⟨rfl, ?_⟩
  rw [hwritten, streamLines_terminated hframes]
  exact hforall

/-! ### The networks of a daemon -/

theorem isSome_marshal_info (info : NetworkMembershipInfo) :
    (Json.marshal info.marshalable).isSome := by
  rw [NetworkMembershipInfo.marshalable, isSome_marshal_present]
  simp [NetworkMembershipInfo.fields, Json.marshal]

theorem isSome_marshal_networkList (memberships : Memberships) :
    (Json.marshal (networkList memberships)).isSome := by
  rw [networkList, Json.marshal, Option.isSome_map]
  induction memberships.list with
  | nil => rfl
  | cons info infos ih =>
    obtain ⟨text, htext⟩ := Option.isSome_iff_exists.mp (isSome_marshal_info info)
    obtain ⟨texts, htexts⟩ := Option.isSome_iff_exists.mp ih
    simp [Json.marshalItems, htext, htexts]

theorem networkRoutes_encodes (describe : Failure → LocalError) :
    Encodes (networkRoutes describe) Set.univ where
  keeps := fun _ _ _ _ _ _ => Set.mem_univ _
  encodes := by
    intro action handler hroute memberships _ payload data hdata
    have hanswer : ∀ result : Result (Option Json.Marshalable × Memberships),
        (answerWith describe memberships result).1 = .ok (some data) →
        ∃ memberships', result = .ok (some data, memberships') := by
      rintro (err | ⟨data', memberships'⟩) h
      · cases h
      · obtain rfl := Except.ok.inj h
        exact ⟨memberships', rfl⟩
    unfold networkRoutes at hroute
    split_ifs at hroute
    · obtain rfl := Option.some.inj hroute
      obtain rfl := Option.some.inj (Except.ok.inj hdata)
      exact isSome_marshal_networkList memberships
    · obtain rfl := Option.some.inj hroute
      obtain ⟨memberships', hjoin⟩ := hanswer _ hdata
      obtain ⟨invitation, -, hjoin⟩ := bind_eq_ok_iff.mp hjoin
      obtain ⟨⟨info, joined, joint⟩, -, hjoin⟩ := bind_eq_ok_iff.mp hjoin
      obtain ⟨hdata, -⟩ := Prod.mk.inj (Except.ok.inj hjoin)
      obtain rfl := Option.some.inj hdata
      obtain ⟨text, htext⟩ := Option.isSome_iff_exists.mp (isSome_marshal_info info)
      cases joined <;> simp [Json.marshal, Json.marshalMembers, htext]
    · obtain rfl := Option.some.inj hroute
      obtain ⟨memberships', hinvite⟩ := hanswer _ hdata
      obtain ⟨name, -, hinvite⟩ := bind_eq_ok_iff.mp hinvite
      obtain ⟨⟨info, invitation⟩, -, hinvite⟩ := bind_eq_ok_iff.mp hinvite
      obtain ⟨hdata, -⟩ := Prod.mk.inj (Except.ok.inj hinvite)
      obtain rfl := Option.some.inj hdata
      obtain ⟨text, htext⟩ := Option.isSome_iff_exists.mp (isSome_marshal_info info)
      simp [Json.marshal, Json.marshalMembers, htext]

/-- Two requests for the list of the networks. -/
def listTwice : List Request :=
  [⟨['a'], protocolVersion, "network_list".toList, .obj []⟩,
    ⟨['b'], protocolVersion, "network_list".toList, .obj []⟩]

theorem listTwice_sent : ∀ request ∈ listTwice, Sent request := by
  refine List.forall_mem_cons.mpr ⟨?_, List.forall_mem_singleton.mpr ?_⟩ <;>
    exact ⟨rfl, rfl, by decide, by decide +kernel⟩

theorem listTwice_pipelined :
    let routes := networkRoutes fun _ => ⟨.other, []⟩
    let handled := handle routes OrderedStore.empty (terminated (listTwice.map Request.line)) none
    handled.2 = (callAll routes OrderedStore.empty listTwice).2 ∧
      List.Forall₂ (fun call frame => RespondsTo call.1 call.2 frame)
        (listTwice.zip (callAll routes OrderedStore.empty listTwice).1)
        (streamLines (handled.1.flatMap Thalweg.Response.written)) :=
  handle_pipelined (networkRoutes_encodes _) (Set.mem_univ _) listTwice_sent (by decide)

end Thalweg.Ipc
