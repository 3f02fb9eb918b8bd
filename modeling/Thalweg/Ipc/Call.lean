import Thalweg.Daemon.LocalProtocol

/-!
# Calls of the local daemon

A call sends one request on a connection of its own and reads the response to it. On a connection
that takes whole lines it comes to calling the handler of its action with the payload, and to
handing on what the handler gives, within the bounds of the protocol: the length of the request and
the depth of what is read. A daemon that closes the connection while a long line is still being
sent, so that the call ends with an error of sending, is left out.

## Main definitions

* `Ipc.call`: the call, through the bytes of the request and of the response.
* `Ipc.callHandler`: the call without them.

## Main results

* `Ipc.handle_request`: the responses on the connection of a call.
* `Ipc.call_eq_callHandler`.
-/

namespace Thalweg.Ipc

open Json (Marshalable)
open ByteSpace (newline)

/-! ### Messages -/

/-- The version of the local protocol. -/
def protocolVersion : Int := 1

/-- A request of the client. -/
structure Request where
  id : Text
  protocolVersion : Int
  action : Text
  payload : Marshalable

/-- A request as it is encoded. -/
def Request.marshalable (request : Request) : Marshalable :=
  .obj [("id".toList, .str request.id),
    ("protocolVersion".toList, marshalableInt request.protocolVersion),
    ("action".toList, .str request.action), ("payload".toList, request.payload)]

/-- The details of an error as they are decoded. -/
structure ErrorDetails where
  code : Text
  message : Text
  retryable : Bool

/-- A response, with the raw text of its data. -/
structure Response where
  id : Text
  protocolVersion : Int
  success : Bool
  data : Text
  error : Text
  errorDetails : Option ErrorDetails

/-- The response that a line is decoded into. -/
def Response.zero : Response := ⟨[], 0, false, [], [], none⟩

/-- The fields of the details of an error. -/
def errorDetailsFields : List (Text × Json.Setter ErrorDetails) :=
  [("code".toList, fun e _ v => (Json.decodeText e.code v).map fun x => { e with code := x }),
    ("message".toList, fun e _ v =>
      (Json.decodeText e.message v).map fun x => { e with message := x }),
    ("retryable".toList, fun e _ v =>
      (decodeBool e.retryable v).map fun x => { e with retryable := x })]

/-- A pointer to a record; `null` is a nil one. -/
def decodeErrorDetails (old : Option ErrorDetails) : Json → Option (Option ErrorDetails)
  | .null => some none
  | v => (Json.decodeObject errorDetailsFields (old.getD ⟨[], [], false⟩) v).map some

/-- The fields of a response. -/
def responseFields : List (Text × Json.Setter Response) :=
  [("id".toList, fun r _ v => (Json.decodeText r.id v).map fun x => { r with id := x }),
    ("protocolVersion".toList, fun r _ v =>
      (Json.decodeInt r.protocolVersion v).map fun x => { r with protocolVersion := x }),
    ("success".toList, fun r _ v =>
      (decodeBool r.success v).map fun x => { r with success := x }),
    ("data".toList, fun r raw _ => some { r with data := raw }),
    ("error".toList, fun r _ v => (Json.decodeText r.error v).map fun x => { r with error := x }),
    ("errorDetails".toList, fun r _ v =>
      (decodeErrorDetails r.errorDetails v).map fun x => { r with errorDetails := x })]

/-- The first value of a stream, which may go on after it. -/
def decodeResponse (stream : List UInt8) : Option Response :=
  let text := Json.skipSpace (Text.ofBytes stream)
  (Json.parseFirst text).bind fun first =>
    Json.decodeRecord false responseFields .zero (Json.before text first.2)

/-! ### Calls -/

/-- The error that the daemon has answered with. -/
structure DaemonError where
  action : Text
  code : Text
  message : Text
  retryable : Bool

/-- The errors of a call. -/
inductive CallError where
  | send (action : Text)
  | read (action : Text)
  | otherID (id requestID : Text)
  | incompatible (version : Int)
  | daemon (err : DaemonError)

/-- The error of a response that is no success. -/
def daemonError (action : Text) (response : Response) : DaemonError :=
  let message :=
    match response.errorDetails with
    | some details => if details.message ≠ [] then details.message else response.error
    | none => response.error
  { action
    code := (response.errorDetails.map ErrorDetails.code).getD "action_failed".toList
    message := if message = [] then "unknown daemon error".toList else message
    retryable := (response.errorDetails.map ErrorDetails.retryable).getD false }

/-- What a call gives for a response. -/
def result (requestID action : Text) (response : Response) : Except CallError Text :=
  if response.id ≠ requestID then .error (.otherID response.id requestID)
  else if response.protocolVersion ≠ protocolVersion then
    .error (.incompatible response.protocolVersion)
  else if response.success = false then .error (.daemon (daemonError action response))
  else if response.data = [] then .ok "null".toList
  else .ok response.data

/-- What a call gives for the stream that comes back. -/
def readResult (requestID action : Text) (stream : List UInt8) : Except CallError Text :=
  match decodeResponse stream with
  | none => .error (.read action)
  | some response => result requestID action response

/-- The ID of a request. -/
def requestID (requestPrefix : Text) (unixNano : Int) : Text :=
  requestPrefix ++ '-' :: Text.decimalInt unixNano

variable {σ : Type}

/-- A call over a connection that takes all that is written and ends when both sides are done. The
raw text of the data is given. -/
def call (routes : Routes σ) (d : σ) (requestPrefix : Text) (unixNano : Int) (action : Text)
    (payload : Marshalable) : Except CallError Text × σ :=
  let id := requestID requestPrefix unixNano
  match Json.marshal (Request.marshalable ⟨id, protocolVersion, action, payload⟩) with
  | none => (.error (.send action), d)
  | some text =>
    let handled := handle routes d (Text.toBytes text ++ [newline]) none
    (readResult id action (handled.1.flatMap Thalweg.Response.written), handled.2)

/-! ### Calls without a connection -/

/-- An error as the caller gets it. -/
def callError (action code message : Text) (retryable : Bool) : CallError :=
  .daemon ⟨action, code, if message = [] then "unknown daemon error".toList else message, retryable⟩

/-- What the caller gets of the data of a handler: their text, if they can be encoded and do not
nest too deep to be read. -/
def callData (action : Text) : Option Marshalable → Except CallError Text
  | none => .ok "null".toList
  | some data =>
    match Json.marshal data with
    | none => .error (.read action)
    | some text => if data.value.depth < Json.maxDepth then .ok text else .error (.read action)

/-- A call of the handler of an action with the text of the payload. -/
def callAction (routes : Routes σ) (d : σ) (action payload : Text) : Except CallError Text × σ :=
  match routes action with
  | none =>
    (.error (callError action "unknown_action".toList ("unknown action: ".toList ++ action) false),
      d)
  | some handler =>
    match handler d payload with
    | (.error err, d) =>
      (.error (callError action (classifyLocalError err).1 err.message (classifyLocalError err).2),
        d)
    | (.ok data, d) => (callData action data, d)

/-- A call without the connection: a request that the daemon cannot take, since its line is too long
or it nests too deep, is answered under no ID. -/
def callHandler (routes : Routes σ) (d : σ) (requestPrefix : Text) (unixNano : Int) (action : Text)
    (payload : Marshalable) : Except CallError Text × σ :=
  let id := requestID requestPrefix unixNano
  match Json.marshal payload,
    Json.marshal (Request.marshalable ⟨id, protocolVersion, action, payload⟩) with
  | some text, some line =>
    if (Text.toBytes line).length < localMaxRequestBytes ∧
        payload.value.depth < Json.maxDepth then
      callAction routes d action text
    else (.error (.otherID [] id), d)
  | _, _ => (.error (.send action), d)

/-! ### The request -/

theorem marshal_request {request : Request} {text : Text}
    (h : Json.marshal request.payload = some text) :
    ∃ w, Json.marshal request.marshalable = some w := by
  simp [Request.marshalable, Json.marshal, Json.marshalMembers, marshalableInt, h,
    Json.isNumber_decimalInt]

/-- The daemon reads a request as it was made, if it can read it. -/
theorem decodeMessage_request {request : Request} {text w : Text}
    (hversion : request.protocolVersion = protocolVersion)
    (hpayload : Json.marshal request.payload = some text)
    (h : Json.marshal request.marshalable = some w) :
    decodeMessage (Text.toBytes w) =
      if request.payload.value.depth < Json.maxDepth then
        some ⟨request.id, protocolVersion, request.action, text⟩
      else none := by
  rw [decodeMessage, Text.ofBytes_toBytes]
  have hdepth : request.marshalable.value.depth = request.payload.value.depth + 1 := by
    simp [Request.marshalable, Json.Marshalable.value, Json.memberValues, Json.depth,
      Json.membersDepth, marshalableInt]
  split_ifs with hflat
  · have hread := Json.parseRecord_marshal (List.cons_ne_nil _ _) h ?_
    · rw [Json.decodeRecord, hread]
      have hone : Json.decodeInt 0 (.num (Text.decimalInt protocolVersion)) =
          some protocolVersion := by decide
      simp [Json.encodedMembers, Json.marshal, Json.Marshalable.value, marshalableInt, hversion,
        hpayload, Json.setMember, Json.lookupField, messageFields, Json.decodeText, hone]
    · have hmembers : request.marshalable.value.depth = Json.membersDepth (Json.memberValues
          [("id".toList, .str request.id),
            ("protocolVersion".toList, marshalableInt request.protocolVersion),
            ("action".toList, .str request.action), ("payload".toList, request.payload)]) + 1 := rfl
      omega
  · refine (Json.spells_marshal _ h).decodeRecord_eq_none ?_
    omega

/-! ### The response -/

theorem decodeErrorDetails_marshalable (details : ResponseError) :
    decodeErrorDetails none details.marshalable.value =
      some (some ⟨details.code, details.message, details.retryable⟩) := by
  simp [decodeErrorDetails, ResponseError.marshalable, marshalableRecord, present,
    Json.Marshalable.value, Json.memberValues, Json.decodeObject, Json.rawMembers, Json.setMember,
    Json.lookupField, errorDetailsFields, Json.decodeText, decodeBool]

/-- Set the field that is named, if it has a value. -/
def setPresent {τ : Type*} (setters : List (Text × Json.Setter τ)) (s : τ)
    (field : Text × Option Marshalable) : Option τ :=
  match field.2 with
  | none => some s
  | some value => Json.setMember false setters s
      (field.1, (Json.marshal value).getD [], value.value)

theorem foldlM_present {τ : Type*} (setters : List (Text × Json.Setter τ)) (s : τ)
    (fields : Fields) :
    (Json.encodedMembers (present fields)).foldlM (Json.setMember false setters) s =
      fields.foldlM (setPresent setters) s := by
  induction fields generalizing s with
  | nil => rfl
  | cons field fields ih =>
    obtain ⟨name, value⟩ := field
    cases value with
    | none => exact ih s
    | some value =>
      rw [present, Json.encodedMembers, List.map_cons, List.foldlM_cons, List.foldlM_cons]
      exact bind_congr fun s => ih s

theorem membersDepth_present_lt {fields : Fields} {n : Nat} (hn : 0 < n)
    (h : ∀ field ∈ fields, ∀ value, field.2 = some value → value.value.depth < n) :
    Json.membersDepth (Json.memberValues (present fields)) < n := by
  induction fields with
  | nil => exact hn
  | cons field fields ih =>
    obtain ⟨name, value⟩ := field
    obtain ⟨hfield, hfields⟩ := List.forall_mem_cons.mp h
    cases value with
    | none => exact ih hfields
    | some value => exact max_lt (hfield value rfl) (ih hfields)

section Fields

theorem setPresent_some {τ : Type*} {setters : List (Text × Json.Setter τ)} {name : Text}
    {set : Json.Setter τ} (h : Json.lookupField setters name = some set) (s : τ)
    (value : Marshalable) : setPresent setters s (name, some value) =
      set s ((Json.marshal value).getD []) value.value := by
  simp only [setPresent, Json.setMember, h]

variable (r : Response)

theorem setPresent_id (hr : r.id = []) (id : Text) :
    setPresent responseFields r ("id".toList, omitempty id) = some { r with id } := by
  by_cases hnil : id = []
  · rw [omitempty, if_pos hnil, hnil, ← hr]
    rfl
  · rw [omitempty, if_neg hnil]
    exact (setPresent_some (by rfl) r (.str id)).trans rfl

theorem setPresent_protocolVersion :
    setPresent responseFields r ("protocolVersion".toList,
      some (marshalableInt currentLocalProtocolVersion)) = some { r with protocolVersion } := by
  have hone : (marshalableInt currentLocalProtocolVersion).value = .num ['1'] :=
    congrArg Json.num (by decide : Text.decimalInt currentLocalProtocolVersion = ['1'])
  refine (setPresent_some (by rfl) r _).trans ?_
  rw [hone]
  rfl

theorem setPresent_success (success : Bool) :
    setPresent responseFields r ("success".toList, some (.bool success)) =
      some { r with success } :=
  (setPresent_some (by rfl) r (.bool success)).trans rfl

theorem setPresent_data (hr : r.data = []) (data : Option Marshalable) :
    setPresent responseFields r ("data".toList, data) =
      some { r with data := (data.bind Json.marshal).getD [] } := by
  cases data with
  | none =>
    rw [Option.bind_none, Option.getD_none, ← hr]
    rfl
  | some data => exact (setPresent_some (by rfl) r data).trans rfl

theorem setPresent_error (hr : r.error = []) (error : Text) :
    setPresent responseFields r ("error".toList, omitempty error) = some { r with error } := by
  by_cases hnil : error = []
  · rw [omitempty, if_pos hnil, hnil, ← hr]
    rfl
  · rw [omitempty, if_neg hnil]
    exact (setPresent_some (by rfl) r (.str error)).trans rfl

theorem setPresent_errorDetails (hr : r.errorDetails = none) (details : Option ResponseError) :
    setPresent responseFields r ("errorDetails".toList, details.map ResponseError.marshalable) =
      some { r with errorDetails := details.map fun details =>
        ⟨details.code, details.message, details.retryable⟩ } := by
  cases details with
  | none =>
    rw [Option.map_none, Option.map_none, ← hr]
    rfl
  | some details =>
    refine (setPresent_some (by rfl) r details.marshalable).trans ?_
    simp only [hr, decodeErrorDetails_marshalable, Option.map_some]

end Fields

/-- The response as the client has it, with the raw text of its data. -/
def received (response : Thalweg.Response) : Response where
  id := response.id
  protocolVersion := protocolVersion
  success := response.success
  data := (response.data.bind Json.marshal).getD []
  error := response.error
  errorDetails := response.errorDetails.map fun details =>
    ⟨details.code, details.message, details.retryable⟩

/-- What the data of a response nests no deeper than to be read. -/
def Flat (response : Thalweg.Response) : Prop :=
  ∀ data, response.data = some data → data.value.depth < Json.maxDepth

theorem depth_fields_lt {response : Thalweg.Response} (hflat : Flat response) :
    ∀ field ∈ response.fields, ∀ value, field.2 = some value →
      value.value.depth < Json.maxDepth := by
  have hzero : 0 < Json.maxDepth := by decide
  have hone : 1 < Json.maxDepth := by decide
  have htext : ∀ text value, omitempty text = some value → value.value.depth < Json.maxDepth := by
    intro text value hvalue
    unfold omitempty at hvalue
    split_ifs at hvalue
    obtain rfl := Option.some.inj hvalue
    exact hzero
  simp only [Thalweg.Response.fields, List.forall_mem_cons, List.not_mem_nil, false_implies,
    implies_true, and_true, Option.some.injEq, forall_eq']
  refine ⟨htext _, hzero, hzero, hflat, htext _, ?_⟩
  intro value hvalue
  obtain ⟨details, -, rfl⟩ := Option.map_eq_some_iff.mp hvalue
  exact hone

theorem decodeRecord_response {response : Thalweg.Response} {w : Text}
    (hversion : response.protocolVersion = currentLocalProtocolVersion)
    (h : Json.marshal response.marshalable = some w) (hflat : Flat response) :
    Json.decodeRecord false responseFields .zero w = some (received response) := by
  have hne : present response.fields ≠ [] := by
    unfold Thalweg.Response.fields omitempty
    split_ifs <;> exact List.cons_ne_nil _ _
  have hdepth := membersDepth_present_lt (by decide) (depth_fields_lt hflat)
  rw [Json.decodeRecord, Json.parseRecord_marshal hne h hdepth]
  simp only [foldlM_present, Thalweg.Response.fields, hversion, List.foldlM_cons, List.foldlM_nil,
    Option.bind_eq_bind]
  rw [setPresent_id _ rfl, Option.bind_some, setPresent_protocolVersion, Option.bind_some,
    setPresent_success, Option.bind_some, setPresent_data _ rfl, Option.bind_some,
    setPresent_error _ rfl, Option.bind_some, setPresent_errorDetails _ rfl]
  rfl

theorem depth_le_membersDepth_present {fields : Fields} {field : Text × Option Marshalable}
    (hfield : field ∈ fields) {value : Marshalable} (hvalue : field.2 = some value) :
    value.value.depth ≤ Json.membersDepth (Json.memberValues (present fields)) := by
  induction fields with
  | nil => cases hfield
  | cons head fields ih =>
    obtain ⟨name, content⟩ := head
    rcases List.mem_cons.mp hfield with rfl | hrest
    · obtain rfl : content = some value := hvalue
      exact le_max_left _ _
    · cases content with
      | none => exact ih hrest
      | some content => exact (ih hrest).trans (le_max_right _ _)

/-- What is written of a response is read if its data are flat enough, and cannot be read
otherwise. -/
theorem decodeResponse_written {response : Thalweg.Response} {w : Text}
    (hversion : response.protocolVersion = currentLocalProtocolVersion)
    (h : Json.marshal response.marshalable = some w) :
    (Flat response → decodeResponse response.written = some (received response)) ∧
      (¬ Flat response → decodeResponse response.written = none) := by
  have hspells := Json.spells_marshal _ h
  have hnewline : Json.Stops ['\n'] := Json.stops_cons (by decide) []
  have htext : Json.skipSpace (Text.ofBytes response.written) = w ++ ['\n'] := by
    have hbytes : Text.toBytes w ++ [newline] = Text.toBytes (w ++ ['\n']) := by
      rw [Text.toBytes_append]
      rfl
    rw [Thalweg.Response.written, h]
    dsimp only
    rw [hbytes, Text.ofBytes_toBytes]
    exact hspells.skipSpace_append Json.isSpace_nil ['\n']
  have hdepth : response.marshalable.value.depth =
      Json.membersDepth (Json.memberValues (present response.fields)) + 1 := rfl
  unfold decodeResponse
  rw [htext]
  dsimp only
  rw [hspells.parseFirst_append hnewline]
  constructor
  · intro hflat
    have hlt := membersDepth_present_lt (by decide) (depth_fields_lt hflat)
    have hbefore : Json.before (w ++ ['\n']) ['\n'] = w := by simp [Json.before]
    rw [if_pos (by omega), Option.bind_some, hbefore]
    exact decodeRecord_response hversion h hflat
  · intro hdeep
    unfold Flat at hdeep
    push Not at hdeep
    obtain ⟨data, hdata, hle⟩ := hdeep
    have hmem : ("data".toList, response.data) ∈ response.fields := by
      simp [Thalweg.Response.fields]
    have := depth_le_membersDepth_present hmem hdata
    rw [if_neg (by omega), Option.bind_none]

/-! ### The connection of a call -/

variable {routes : Routes σ} {d : σ} {request : Request} {w : Text}

/-- **The connection of a call.** The response to a request, and the daemon after it. -/
theorem handle_request (h : Json.marshal request.marshalable = some w) :
    handle routes d (Text.toBytes w ++ [newline]) none =
      if (Text.toBytes w).length < localMaxRequestBytes then
        ([(handleLine routes d (Text.toBytes w)).1], (handleLine routes d (Text.toBytes w)).2.2)
      else ([requestTooLarge "bufio.Scanner: token too long".toList], d) :=
  handle_line (Json.isLine_of_marshal _ h) routes d

theorem readResult_writeLocalError (id requestID action code message : Text) (retryable : Bool) :
    readResult requestID action (writeLocalError id code message retryable).written =
      if id ≠ requestID then .error (.otherID id requestID)
      else .error (callError action code message retryable) := by
  have hsome : (Json.marshal (writeLocalError id code message retryable).marshalable).isSome :=
    isSome_marshal_response.mpr fun data hdata => by cases hdata
  obtain ⟨w, hw⟩ := Option.isSome_iff_exists.mp hsome
  have hflat : Flat (writeLocalError id code message retryable) := fun data hdata => by
    cases hdata
  rw [readResult, (decodeResponse_written rfl hw).1 hflat]
  by_cases hmessage : message = []
  · simp [result, received, writeLocalError, daemonError, callError, protocolVersion, hmessage]
  · simp [result, received, writeLocalError, daemonError, callError, protocolVersion, hmessage]

theorem readResult_data (requestID action : Text) (data : Option Marshalable) :
    readResult requestID action (Thalweg.Response.written
        ⟨requestID, currentLocalProtocolVersion, true, data, [], none⟩) =
      callData action data := by
  set response : Thalweg.Response :=
    ⟨requestID, currentLocalProtocolVersion, true, data, [], none⟩ with hresponse
  have hok : ∀ text, (data.bind Json.marshal).getD [] = text →
      result requestID action (received response) =
        if text = [] then .ok "null".toList else .ok text := by
    rintro text rfl
    simp [result, received, hresponse, protocolVersion]
  unfold readResult
  cases data with
  | none =>
    have hsome : (Json.marshal response.marshalable).isSome :=
      isSome_marshal_response.mpr fun data hdata => by cases hdata
    obtain ⟨w, hw⟩ := Option.isSome_iff_exists.mp hsome
    rw [(decodeResponse_written rfl hw).1 fun data hdata => by cases hdata]
    exact hok [] rfl
  | some data =>
    cases htext : Json.marshal data with
    | none =>
      have hnone : Json.marshal response.marshalable = none := by
        rw [← Option.not_isSome_iff_eq_none, isSome_marshal_response]
        intro hall
        have := hall data rfl
        rw [htext] at this
        cases this
      have hempty : decodeResponse [] = none := by decide +kernel
      rw [Thalweg.Response.written, hnone]
      simp [hempty, callData, htext]
    | some text =>
      have hsome : (Json.marshal response.marshalable).isSome :=
        isSome_marshal_response.mpr fun other hother => by
          obtain rfl := Option.some.inj hother
          rw [htext]
          rfl
      obtain ⟨w, hw⟩ := Option.isSome_iff_exists.mp hsome
      have hflat : Flat response ↔ data.value.depth < Json.maxDepth :=
        ⟨fun h => h data rfl, fun h other hother => Option.some.inj hother ▸ h⟩
      have hne : text ≠ [] := by
        obtain ⟨c, u, rfl, -⟩ := (Json.spells_marshal data htext).head
        exact List.cons_ne_nil c u
      rw [callData, htext]
      dsimp only
      split_ifs with hdepth
      · rw [(decodeResponse_written rfl hw).1 (hflat.mpr hdepth)]
        dsimp only
        rw [hok text (by simp [htext]), if_neg hne]
      · rw [(decodeResponse_written rfl hw).2 fun h => hdepth (hflat.mp h)]

/-- The response to a message of the version of the protocol. -/
theorem readResult_handleMessage (routes : Routes σ) (d : σ) (requestID action payload : Text) :
    (readResult requestID action
        (handleMessage routes d ⟨requestID, protocolVersion, action, payload⟩).1.written,
      (handleMessage routes d ⟨requestID, protocolVersion, action, payload⟩).2.2) =
      callAction routes d action payload := by
  have hversion : ¬ (protocolVersion ≠ 0 ∧ protocolVersion ≠ currentLocalProtocolVersion) :=
    fun h => h.2 rfl
  rw [handleMessage, if_neg hversion, callAction]
  dsimp only
  cases routes action with
  | none => simp [readResult_writeLocalError]
  | some handler =>
    dsimp only
    obtain ⟨answer, d'⟩ := handler d payload
    cases answer with
    | error err => simp [readResult_writeLocalError]
    | ok data => simp [readResult_data]

theorem marshal_request_eq_none {request : Request} (h : Json.marshal request.payload = none) :
    Json.marshal request.marshalable = none := by
  simp [Request.marshalable, Json.marshal, Json.marshalMembers, marshalableInt, h,
    Json.isNumber_decimalInt]

/-- The error under no ID is not taken for the response to the request. -/
theorem readResult_writeLocalError_nil (requestPrefix : Text) (unixNano : Int)
    (action code message : Text) :
    readResult (requestID requestPrefix unixNano) action
        (writeLocalError [] code message false).written =
      .error (.otherID [] (requestID requestPrefix unixNano)) := by
  have hne : [] ≠ requestID requestPrefix unixNano := by simp [requestID]
  rw [readResult_writeLocalError, if_pos hne]

/-- **Calls.** A call over a connection that takes the whole line does to the daemon and gives to the
caller what calling the handler of the action with the text of the payload does and gives. The daemon
is that at the response: after it, `daemon_shutdown` closes the daemon, and the subscriptions of the
connection are removed. -/
theorem call_eq_callHandler (routes : Routes σ) (d : σ) (requestPrefix : Text) (unixNano : Int)
    (action : Text) (payload : Marshalable) :
    call routes d requestPrefix unixNano action payload =
      callHandler routes d requestPrefix unixNano action payload := by
  simp only [call, callHandler]
  cases hpayload : Json.marshal payload with
  | none => rw [marshal_request_eq_none hpayload]
  | some text =>
    obtain ⟨w, hw⟩ := @marshal_request
      ⟨requestID requestPrefix unixNano, protocolVersion, action, payload⟩ text hpayload
    simp only [hw, handle_request hw]
    by_cases hfits : (Text.toBytes w).length < localMaxRequestBytes
    · by_cases hdepth : payload.value.depth < Json.maxDepth
      · rw [if_pos hfits, if_pos ⟨hfits, hdepth⟩, handleLine,
          decodeMessage_request rfl hpayload hw, if_pos hdepth,
          ← readResult_handleMessage routes d (requestID requestPrefix unixNano)]
        simp
      · rw [if_pos hfits, if_neg fun h => hdepth h.2, handleLine,
          decodeMessage_request rfl hpayload hw, if_neg hdepth]
        simp [invalidRequest, readResult_writeLocalError_nil]
    · rw [if_neg hfits, if_neg fun h => hfits h.1]
      simp [requestTooLarge, readResult_writeLocalError_nil]

end Thalweg.Ipc
