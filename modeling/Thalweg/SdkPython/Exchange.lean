import Thalweg.SdkPython.Requests
import Thalweg.SdkPython.Responses

/-!
# Exchanges

A method of the Python SDK exchanges its request for the response of the daemon, both as bytes on a
connection. What the method returns or raises is what the daemon answers when it is asked for the
request directly, within the bounds of both sides: the lengths of the two lines, the depth that the
daemon reads and what the reader of JSON refuses.

## Main definitions

* `exchange`: a request and its response over a connection.
* `ask`: the same without the connection.
* `MethodCall.run`: a call of a method, on either of them.

## Main results

* `exchange_eq_ask`.
* `MethodCall.run_overSocket`: the method returns or raises the same.
-/

namespace Thalweg.SdkPython

variable {σ : Type}

/-! ### Exchanges -/

/-- A client with a request that awaits its response on a new connection. -/
def Client.awaiting (id action : Text) : Client :=
  { Client.new with
    connections := [Connection.new]
    requests := [{ Request.new action .none .call with phase := .awaiting, id := some id }]
    writer := some 0
    pending := AList.insert id ⟨action, 0⟩ ∅ }

/-- The outcome of the request when the reader has read a stream; none while it awaits its
response. -/
def outcome (env : Environment) (id action : Text) (stream : List UInt8) : Option Outcome :=
  ((Client.awaiting id action).read env 0 Connection.new stream).requests[0]?.bind Request.future

/-- The outcome of a request that is over the limit. -/
def requestTooLong (env : Environment) (action : Text) : Outcome :=
  .raised (.value ("Encoded request for ".toList ++ env.repr (.str action) ++
    " exceeds the 1 MiB daemon limit.".toList))

/-- A request on a connection that does not fail, and the daemon after it. -/
def exchange (env : Environment) (routes : Routes σ) (s : σ) (n : Nat) (action : Text)
    (payload : List (Text × Json)) : Option Outcome × σ :=
  let id := Client.requestId n
  let encoded := Text.toBytes (Json.dumps (message id action payload)) ++ [newline]
  if maxRequestBytes < encoded.length then (some (requestTooLong env action), s)
  else
    let handled := handle routes s encoded none
    (outcome env id action (handled.1.flatMap Response.written), handled.2)

/-! ### Exchanges without a connection -/

/-- The values that the reader of JSON refuses, since they exceed limits of the interpreter. It
reads what is encoded for any other value. -/
def LoadsJson (env : Environment) (refusal : Json → Option LoadsError) : Prop :=
  ∀ {m : Json.Marshalable} {w : Text}, Json.marshal m = some w → env.loads (Text.toBytes w) =
    match refusal m.value with
    | some err => .error err
    | none => .ok (PyValue.ofJson m.value)

/-- The error of a frame that is refused. -/
def refused : LoadsError → SdkError
  | .malformed message => .protocol ("Thalweg daemon sent malformed JSON: ".toList ++ message)
  | .other message => unforeseenError message

/-- What a request comes to by a response, unless this cannot be written or read. -/
def received (env : Environment) (refusal : Json → Option LoadsError) (response : Response)
    (outcome : Outcome) : Option Outcome :=
  (Json.marshal response.marshalable).map fun text =>
    if env.maxResponseBytes < (Text.toBytes text).length then .raised tooLongError
    else
      match refusal response.marshalable.value with
      | some err => .raised (refused err)
      | none => outcome

/-- A request that the daemon cannot read is answered under no ID. -/
def malformedResponse : SdkError := .protocol "Malformed daemon response frame.".toList

/-- What a request comes to that is served. -/
def answered (env : Environment) (refusal : Json → Option LoadsError)
    (describe : Failure → LocalError) (id action : Text) :
    Result ClientAnswer → Option Outcome
  | .ok answer =>
    received env refusal ⟨id, currentLocalProtocolVersion, true, some answer.marshalable, [], none⟩
      (.returned (PyValue.ofJson answer.marshalable.value))
  | .error failure =>
    let err := describe failure
    received env refusal
      (writeLocalError id (classifyLocalError err).1 err.message (classifyLocalError err).2)
      (.raised (.daemon action (classifyLocalError err).1 err.message (classifyLocalError err).2))

/-- The request of a call, served without a connection. -/
def ask (env : Environment) (refusal : Json → Option LoadsError) (describe : Failure → LocalError)
    (circumstances : σ → Circumstances) (serve : σ → ClientRequest → Result ClientAnswer × σ)
    (network : Text) (call : MethodCall) (s : σ) (n : Nat) : Option Outcome × σ :=
  let payload := call.payload network
  if localMaxRequestBytes ≤
      (Text.toBytes (Json.dumps (message (Client.requestId n) call.action payload))).length then
    (some (requestTooLong env call.action), s)
  else if Json.maxDepth ≤ (Json.obj payload).depth then
    (received env refusal invalidRequest (.raised malformedResponse), s)
  else
    match call.request (circumstances s) network with
    | .error err => (answered env refusal describe (Client.requestId n) call.action (.error err), s)
    | .ok request =>
      let served := serve s request
      (answered env refusal describe (Client.requestId n) call.action served.1, served.2)

/-! ### Reading a frame -/

theorem takeFrame_line {line : List UInt8} (h : newline ∉ line) :
    Client.takeFrame (line ++ [newline]) = some (line, []) := by
  have hall : ∀ b ∈ line, (!isNewline b) = true := fun b hb => by
    rw [isNewline, Bool.not_eq_true', beq_eq_false_iff_ne]
    rintro rfl
    exact h hb
  have hdrop : (line ++ [newline]).dropWhile (fun b => !isNewline b) = [newline] := by
    rw [List.dropWhile_append_of_pos hall]
    rfl
  have htake : (line ++ [newline]).takeWhile (fun b => !isNewline b) = line := by
    rw [List.takeWhile_append_of_pos hall]
    exact List.append_nil line
  rw [Client.takeFrame, hdrop, htake]

theorem takeFrame_nil : Client.takeFrame [] = none := rfl

/-- A line that begins with no space is not blank. -/
theorem isBlank_toBytes {text : Text} (h : Json.IsLine text) :
    isBlank (Text.toBytes text) = false := by
  obtain ⟨c, u, rfl, hascii, hspace⟩ := h.first
  have hbytes : Text.toBytes (c :: u) = UInt8.ofNat c.toNat :: Text.toBytes u := by
    simp [Text.toBytes, Text.encodeRune, hascii]
  have hcode : isSpace (UInt8.ofNat c.toNat) = false := by
    have hnat : (UInt8.ofNat c.toNat).toNat = c.toNat := by
      rw [UInt8.toNat_ofNat']
      omega
    simp only [Text.isSpace, Bool.or_eq_false_iff] at hspace
    rw [isSpace, hnat]
    simp only [Bool.or_eq_false_iff]
    exact hspace.1.1.1.1.1.1.1.1.1
  rw [isBlank, hbytes, List.all_cons, hcode, Bool.false_and]

section Frame

variable {env : Environment} {id action : Text} {line : List UInt8}

theorem lookup_singleton (id : Text) (p : PendingRequest) :
    (AList.singleton id p : AList fun _ : Text => PendingRequest).lookup id = some p :=
  List.dlookup_cons_eq _ _ _

/-- When the connection is given up, the only request fails. -/
theorem future_abortConnection {c : Client} {k : Nat} {request : Request}
    (hwriter : c.writer = some k) (hpending : c.pending = AList.insert id ⟨action, 0⟩ ∅)
    (hhandlers : c.eventHandlers = ∅) (hrequests : c.requests = [request])
    (hfuture : request.future = none) (error : SdkError) :
    (c.abortConnection error k).requests[0]?.bind Request.future = some (.raised error) := by
  have hentries : c.pending.entries = [⟨id, ⟨action, 0⟩⟩] := by
    rw [hpending]
    rfl
  have hnone : c.eventHandlers.entries = [] := by
    rw [hhandlers]
    rfl
  simp [Client.abortConnection, hwriter, Client.failWaiters, Client.modifyConnection, hentries,
    Client.failFuture, Client.modifyRequest, hnone, hrequests, Request.fail, hfuture]

theorem outcome_nil : outcome env id action [] = none := by
  simp [outcome, Client.read, Client.readBuffer, Client.takeFrame, Connection.new, Client.awaiting,
    Client.modifyConnection, Request.new]

theorem outcome_tooLong (hline : newline ∉ line) (hlong : env.maxResponseBytes < line.length) :
    outcome env id action (line ++ [newline]) = some (.raised tooLongError) := by
  simp only [outcome, Client.read, Client.readBuffer, takeFrame_line hline, hlong, Connection.new,
    List.nil_append, if_true]
  exact future_abortConnection rfl rfl rfl rfl rfl tooLongError

theorem outcome_error (hline : newline ∉ line) (hshort : ¬ env.maxResponseBytes < line.length)
    (hblank : isBlank line = false) {error : SdkError} (hread : readFrame env line = .error error) :
    outcome env id action (line ++ [newline]) = some (.raised error) := by
  simp only [outcome, Client.read, Client.readBuffer, takeFrame_line hline, hshort, Connection.new,
    List.nil_append, if_false, hblank, Client.processFrame, hread, Bool.false_eq_true]
  exact future_abortConnection rfl rfl rfl rfl rfl error

theorem outcome_returned (hline : newline ∉ line) (hshort : ¬ env.maxResponseBytes < line.length)
    (hblank : isBlank line = false) {data : PyDict}
    (hread : readFrame env line = .ok (.response id true data)) :
    outcome env id action (line ++ [newline]) =
      some (.returned (data.get "data".toList)) := by
  simp [outcome, Client.read, Client.readBuffer, takeFrame_line hline, hshort, Connection.new,
    hblank, Client.processFrame, hread, Client.awaiting, Client.setFuture, Client.popPending,
    Client.modifyConnection, Client.modifyRequest, Client.note, Request.new, takeFrame_nil,
    lookup_singleton]

theorem outcome_raised (hline : newline ∉ line) (hshort : ¬ env.maxResponseBytes < line.length)
    (hblank : isBlank line = false) {data : PyDict}
    (hread : readFrame env line = .ok (.response id false data)) {error : SdkError}
    (herror : daemonError action data = .ok error) :
    outcome env id action (line ++ [newline]) = some (.raised error) := by
  simp [outcome, Client.read, Client.readBuffer, takeFrame_line hline, hshort, Connection.new,
    hblank, Client.processFrame, hread, Client.awaiting, Client.setFuture, Client.popPending,
    Client.modifyConnection, Client.modifyRequest, Client.note, Request.new, takeFrame_nil,
    lookup_singleton, herror]

end Frame

/-! ### Reading a response -/

section Response

variable {env : Environment} {refusal : Json → Option LoadsError}

theorem readMessage_response {response : Response}
    (hversion : response.protocolVersion = currentLocalProtocolVersion) :
    readMessage env (dictOf response.fields) =
      if response.id = [] then .error malformedResponse
      else .ok (.response response.id response.success (dictOf response.fields)) := by
  have hprotocol : (dictOf response.fields).get "protocolVersion".toList =
      .int protocolVersion := by
    have hholds : Holds response.fields "protocolVersion".toList
      (some (marshalableInt response.protocolVersion)) := rfl
    rw [hholds.get_eq, hversion]
    exact ofNumber_decimalInt protocolVersion
  have htype : (dictOf response.fields).get "type".toList = .none := by
    have hnone : ∀ f ∈ response.fields, f.1 ≠ "type".toList := by simp [Response.fields]
    rw [PyDict.get, dictOf, find?_ofJson_obj, lastMember_present_eq_none hnone]
    rfl
  have hid : (dictOf response.fields).get "id".toList =
      if response.id = [] then .none else .str response.id := by
    have hholds : Holds response.fields "id".toList (omitempty response.id) := rfl
    rw [hholds.get_eq, omitempty]
    split_ifs <;> rfl
  have hsuccess : (dictOf response.fields).get "success".toList = .bool response.success := by
    have hholds : Holds response.fields "success".toList (some (.bool response.success)) := rfl
    rw [hholds.get_eq]
    rfl
  have hsupported : (PyValue.int protocolVersion).isProtocolVersion = true := by decide
  have hevent : PyValue.none.isEvent = false := rfl
  rw [readMessage, hprotocol, htype, hid, hsuccess]
  simp only [hsupported, hevent, Bool.not_true, Bool.false_eq_true, if_false]
  split_ifs <;> rfl

theorem readFrame_response (henv : LoadsJson env refusal) {response : Response} {w : Text}
    (hversion : response.protocolVersion = currentLocalProtocolVersion)
    (h : Json.marshal response.marshalable = some w) :
    readFrame env (Text.toBytes w) =
      match refusal response.marshalable.value with
      | some err => .error (refused err)
      | none =>
        if response.id = [] then .error malformedResponse
        else .ok (.response response.id response.success (dictOf response.fields)) := by
  rw [readFrame, henv h]
  cases refusal response.marshalable.value with
  | some err => cases err <;> rfl
  | none => exact readMessage_response hversion

theorem get_data (response : Response) :
    (dictOf response.fields).get "data".toList =
      (response.data.map fun data => PyValue.ofJson data.value).getD .none := by
  have hholds : Holds response.fields "data".toList response.data := rfl
  exact hholds.get_eq

theorem daemonError_writeLocalError (action id code message : Text) (retryable : Bool) :
    daemonError action (dictOf (writeLocalError id code message retryable).fields) =
      .ok (.daemon action code message retryable) := by
  set response := writeLocalError id code message retryable with hresponse
  set details : Fields := [("code".toList, some (.str code)),
    ("message".toList, some (.str message)),
    ("retryable".toList, some (.bool retryable))] with hdetails
  have hholds : Holds response.fields "errorDetails".toList
    (some (ResponseError.marshalable ⟨code, message, retryable⟩)) := rfl
  have hget : (dictOf response.fields).get "errorDetails".toList = .dict (dictOf details) := by
    rw [hholds.get_eq]
    rfl
  have hcode : Holds details "code".toList (some (.str code)) := rfl
  have hmessage : Holds details "message".toList (some (.str message)) := rfl
  have hretryable : Holds details "retryable".toList (some (.bool retryable)) := rfl
  rw [daemonError]
  simp only [hget, hcode.find?_eq, hmessage.find?_eq, hretryable.find?_eq]
  rfl

/-- What comes of the response to a request. -/
theorem outcome_written (henv : LoadsJson env refusal) {id action : Text} {response : Response}
    (hversion : response.protocolVersion = currentLocalProtocolVersion) {result : Outcome}
    (hresult : ∀ line, newline ∉ line → ¬ env.maxResponseBytes < line.length →
      isBlank line = false →
      readFrame env line = (if response.id = [] then .error malformedResponse
        else .ok (.response response.id response.success (dictOf response.fields))) →
      outcome env id action (line ++ [newline]) = some result) :
    outcome env id action response.written = received env refusal response result := by
  rw [Response.written, received]
  cases hw : Json.marshal response.marshalable with
  | none => exact outcome_nil
  | some w =>
    have hline := Json.isLine_of_marshal _ hw
    have hbreak : newline ∉ Text.toBytes w := ByteSpace.notMem_toBytes hline.noBreak
    have hread := readFrame_response henv hversion hw
    dsimp only [Option.map_some]
    split_ifs with hlong
    · exact outcome_tooLong hbreak hlong
    · cases hrefusal : refusal response.marshalable.value with
      | some err =>
        rw [hrefusal] at hread
        exact outcome_error hbreak hlong (isBlank_toBytes hline) hread
      | none =>
        rw [hrefusal] at hread
        exact hresult _ hbreak hlong (isBlank_toBytes hline) hread

/-- The response to a request that is served. -/
theorem outcome_answered (henv : LoadsJson env refusal) (describe : Failure → LocalError)
    {id : Text} (hid : id ≠ []) (action : Text) (answer : Result ClientAnswer) :
    outcome env id action (match answer with
      | .error failure =>
        (writeLocalError id (classifyLocalError (describe failure)).1 (describe failure).message
          (classifyLocalError (describe failure)).2).written
      | .ok answer => Response.written
        ⟨id, currentLocalProtocolVersion, true, some answer.marshalable, [], none⟩) =
      answered env refusal describe id action answer := by
  cases answer with
  | error failure =>
    refine outcome_written henv rfl fun line hline hshort hblank hread => ?_
    exact outcome_raised hline hshort hblank (hread.trans (if_neg hid))
      (daemonError_writeLocalError action id _ _ _)
  | ok answer =>
    refine outcome_written henv rfl fun line hline hshort hblank hread => ?_
    rw [outcome_returned hline hshort hblank (hread.trans (if_neg hid)), get_data]
    rfl

end Response

/-! ### Requests -/

section Request

variable {env : Environment} {refusal : Json → Option LoadsError}

theorem requestId_ne_nil (n : Nat) : Client.requestId n ≠ [] := List.cons_ne_nil _ _

/-- **Exchanges.** A request over a connection comes to what the daemon answers when it is asked. -/
theorem exchange_eq_ask (henv : LoadsJson env refusal) (describe : Failure → LocalError)
    (circumstances : σ → Circumstances) (serve : σ → ClientRequest → Result ClientAnswer × σ)
    (network : Text) {call : MethodCall} (hcheck : call.check = none) (s : σ) (n : Nat) :
    exchange env (clientRoutes describe circumstances serve) s n call.action
        (call.payload network) =
      ask env refusal describe circumstances serve network call s n := by
  have hwell := call.wellFormed_payload network
  have hline := Json.isLine_dumps (wellFormed_message (Client.requestId n) call.action hwell)
  have hhandle := handle_line hline (clientRoutes describe circumstances serve) s
  have hread := decodeMessage_dumps (Client.requestId n) call.action hwell
  simp only [exchange, ask]
  set encoded := Text.toBytes
    (Json.dumps (message (Client.requestId n) call.action (call.payload network))) with hencoded
  have hlength : (encoded ++ [newline]).length = encoded.length + 1 := List.length_append
  by_cases hlong : localMaxRequestBytes ≤ encoded.length
  · have hmax : maxRequestBytes < (encoded ++ [newline]).length := by
      rw [hlength]
      exact Nat.lt_succ_of_le hlong
    rw [if_pos hmax, if_pos hlong]
  have hmax : ¬ maxRequestBytes < (encoded ++ [newline]).length := by
    rw [hlength]
    exact fun h => hlong (Nat.le_of_lt_succ h)
  have hnewline : newline = ByteSpace.newline := rfl
  rw [if_neg hmax, if_neg hlong, hnewline, hhandle, if_pos (Nat.lt_of_not_le hlong)]
  by_cases hdeep : Json.maxDepth ≤ (Json.obj (call.payload network)).depth
  · rw [if_neg (Nat.not_lt.mpr hdeep)] at hread
    rw [if_pos hdeep, handleLine, hread]
    simp only [List.flatMap_cons, List.flatMap_nil, List.append_nil, Prod.mk.injEq, and_true]
    refine outcome_written henv rfl fun line hline hshort hblank hread => ?_
    exact outcome_error hline hshort hblank hread
  · have hflat := Nat.lt_of_not_le hdeep
    obtain ⟨decode, hroute, hdecode⟩ := call.exists_decoder network hcheck hflat
    have hversion : ¬ (currentLocalProtocolVersion ≠ 0 ∧
      currentLocalProtocolVersion ≠ currentLocalProtocolVersion) := fun h => h.2 rfl
    rw [if_pos hflat] at hread
    rw [if_neg hdeep, handleLine, hread]
    simp only [handleMessage, if_neg hversion, clientRoutes, hroute, Option.map_some, hdecode,
      List.flatMap_cons, List.flatMap_nil, List.append_nil]
    have hanswered := outcome_answered henv describe (requestId_ne_nil n) call.action
    cases call.request (circumstances s) network with
    | error err => exact Prod.ext (hanswered (.error err)) rfl
    | ok request =>
      dsimp only
      obtain ⟨answer, s'⟩ := serve s request
      cases answer with
      | error err => exact Prod.ext (hanswered (.error err)) rfl
      | ok answer => exact Prod.ext (hanswered (.ok answer)) rfl

end Request

/-! ### Methods -/

/-- The models of the data of a response. -/
def MethodCall.decode (repr : Text → Text) (value : PyValue) : MethodCall → Decoded ResponseModel
  | .ingest .. => (eventFromData value "event_ingest response".toList).map .event
  | .query .. => do
    let items ← list value "event_query response".toList
    let events ← eventsFromData "event_query response".toList 0 items
    return .events events
  | .createDurableSiphon .. | .acknowledgeDurableSiphon .. =>
    (durableSiphonFromData value).map .durableSiphon
  | .listDurableSiphons _ =>
    (decodeList durableSiphonFromData "durable_siphon_list response".toList value).map
      .durableSiphons
  | .pollDurableSiphon .. => (durableDeliveryFromData value).map .durableDelivery
  | .syncMeshPeer .. => (meshSyncFromData value "mesh sync".toList).map .sync
  | .listMeshPeers _ =>
    (decodeList meshPeerFromData "mesh_peer_list response".toList value).map .meshPeers
  | .listConflicts _ =>
    (decodeList conflictFromData "event_conflict_list response".toList value).map .conflicts
  | .resolveConflict .. => (conflictResolutionFromData repr value).map .resolution

/-- What a method makes of the outcome of its request. -/
def MethodCall.finish (repr : Text → Text) (call : MethodCall) :
    Outcome → Except SdkError ResponseModel
  | .raised error => .error error
  | .returned value =>
    match call.decode repr value with
    | .error message => .error (.protocol message)
    | .ok model => .ok model

/-- An event that may have been committed, or not, is sent once more under its ID. -/
def MethodCall.retries : MethodCall → Outcome → Bool
  | .ingest .., .raised (.daemon _ _ _ retryable) => retryable
  | .ingest .., .raised (.connection _) => true
  | .ingest .., .raised (.timeout _) => true
  | _, _ => false

/-- A call of a method that makes its requests in this way, after `n` requests of the client. -/
def MethodCall.run (repr : Text → Text) (call : MethodCall)
    (request : σ → Nat → Option Outcome × σ) (s : σ) (n : Nat) :
    Option (Except SdkError ResponseModel) × σ :=
  match call.check with
  | some message => (some (.error (.value message)), s)
  | none =>
    let first := request s (n + 1)
    let last := if first.1.any call.retries then request first.2 (n + 2) else first
    (last.1.map (call.finish repr), last.2)

/-- **Methods.** A method over a connection returns or raises what it does when the daemon is asked
directly, and leaves the daemon in the same state. -/
theorem MethodCall.run_overSocket {env : Environment} {refusal : Json → Option LoadsError}
    (henv : LoadsJson env refusal) (describe : Failure → LocalError)
    (circumstances : σ → Circumstances) (serve : σ → ClientRequest → Result ClientAnswer × σ)
    (repr : Text → Text) (network : Text) (call : MethodCall) (s : σ) (n : Nat) :
    call.run repr (fun s n => exchange env (clientRoutes describe circumstances serve) s n
        call.action (call.payload network)) s n =
      call.run repr (ask env refusal describe circumstances serve network call) s n := by
  rw [MethodCall.run, MethodCall.run]
  cases hcheck : call.check with
  | some message => rfl
  | none => simp only [exchange_eq_ask henv describe circumstances serve network hcheck]

theorem parsingResponseBytes_pos : 0 < 64 * 1024 * 1024 := by decide

theorem parsingEventLimit_pos : 0 < 128 := by decide

/-- A reader of JSON whose only limit is one on the depth. -/
def parsingEnvironment : Environment where
  loads bytes := match Json.parse (Text.ofBytes bytes) with
    | some v => .ok (PyValue.ofJson v)
    | none => .error (.malformed "Expecting value".toList)
  dumps _ := none
  repr _ := []
  socketPath := "/tmp/thalweg.sock".toList
  maxResponseBytes := 64 * 1024 * 1024
  orphanEventLimit := 128
  maxResponseBytes_pos := parsingResponseBytes_pos
  orphanEventLimit_pos := parsingEventLimit_pos

/-- A value that nests too deep is refused. -/
def depthRefusal (v : Json) : Option LoadsError :=
  if v.depth ≤ Json.maxDepth then none else some (.malformed "Expecting value".toList)

theorem loadsJson_parsingEnvironment : LoadsJson parsingEnvironment depthRefusal := by
  intro m w h
  have hspells := Json.spells_marshal m h
  have hparse : Json.parse w = if m.value.depth ≤ Json.maxDepth then some m.value else none := by
    split_ifs with hdepth
    · exact hspells.parse_eq_some_iff.mpr ⟨rfl, hdepth⟩
    · exact Option.eq_none_iff_forall_ne_some.mpr fun u hu =>
        absurd (hspells.parse_eq_some_iff.mp hu).2 hdepth
  simp only [parsingEnvironment, Text.ofBytes_toBytes, hparse, depthRefusal]
  split_ifs <;> rfl

/-- The daemon as it serves durable siphons. -/
def serveSiphons (d : Daemon) : ClientRequest → Result ClientAnswer × Daemon
  | .durableSiphon request =>
    ((d.handlePublicSiphon request).1.map .durableSiphon, (d.handlePublicSiphon request).2)
  | _ => (.error (.external "badger"), d)

theorem createStreamA_run_overSocket :
    let call : MethodCall := .createDurableSiphon ['s'] [['a']] "earliest".toList
    call.run id (fun d n => exchange parsingEnvironment (clientRoutes (fun _ => ⟨.other, []⟩)
        (fun _ => ⟨[], false, []⟩) serveSiphons) d n call.action (call.payload ['h']))
        Daemon.emptyNetwork 0 =
      call.run id (ask parsingEnvironment depthRefusal (fun _ => ⟨.other, []⟩)
        (fun _ => ⟨[], false, []⟩) serveSiphons ['h'] call) Daemon.emptyNetwork 0 :=
  MethodCall.run_overSocket loadsJson_parsingEnvironment _ _ _ _ _ _ _ _

end Thalweg.SdkPython
