import Mathlib.Data.Finset.Basic
import Mathlib.Data.List.AList
import Mathlib.Logic.Function.Basic
import Thalweg.Data.Framing
import Thalweg.Data.Machine
import Thalweg.SdkPython.Models

/-!
# The client of the Python SDK

A client sends the requests of many tasks over one connection, which is made anew when the last one
is gone. A task for each connection reads its frames, settles the futures of the requests and hands
pushed events to the subscriptions.

All tasks run in one event loop. A task is interrupted only where it awaits something, so that one
move of the model is what a task does from one `await` to the next. Any task may move next; an
`await` that need not wait is a move that follows at once.

## Main definitions

* `Environment`: the settings of a client and what it takes from the standard library.
* `readFrame`: what a frame says.
* `Client`: the client with its connections, requests and subscriptions.
* `Client.step`: one move of the application, of a task or of a connection.
-/

namespace Thalweg.SdkPython

/-- The version of the protocol that the SDK speaks. -/
def protocolVersion : Int := 1

/-- The most that an encoded request may take, its newline included. -/
def maxRequestBytes : Nat := 1024 * 1024

/-- The most that the reader takes at once. -/
def readSize : Nat := 64 * 1024

/-- The byte that ends a frame. -/
def newline : UInt8 := 10

/-- The white space that `strip` removes from bytes. -/
def isSpace (b : UInt8) : Bool := (9 ≤ b.toNat && b.toNat ≤ 13) || b.toNat == 32

/-- The byte ends a frame. -/
def isNewline (b : UInt8) : Bool := b == newline

/-- Nothing is left of the frame when it is stripped. -/
def isBlank (frame : List UInt8) : Bool := frame.all isSpace

/-- The frame is not JSON in UTF-8, or it cannot be read for another reason. -/
inductive LoadsError where
  | malformed (message : Text)
  | other (message : Text)

/-- The settings of a client, and `json.loads` after decoding, `json.dumps` and `repr`. -/
structure Environment where
  loads : List UInt8 → Except LoadsError PyValue
  dumps : PyValue → Option (List UInt8)
  repr : PyValue → Text
  socketPath : Text
  maxResponseBytes : Nat
  orphanEventLimit : Nat
  maxResponseBytes_pos : 0 < maxResponseBytes
  orphanEventLimit_pos : 0 < orphanEventLimit

/-! ### Errors -/

/-- The errors that calls raise; `cancelled` is that of a cancelled task. -/
inductive SdkError where
  | connection (message : Text)
  | protocol (message : Text)
  | daemon (action code message : Text) (retryable : Bool)
  | timeout (action : Text)
  | backpressure (message : Text)
  | value (message : Text)
  | cancelled

/-- How a call ends. -/
inductive Outcome where
  | returned (data : PyValue)
  | raised (error : SdkError)

/-- Calls of a closed client raise it. -/
def closedError : SdkError := .connection "Thalweg client is closed.".toList

/-- A write without a connection raises it. -/
def notConnectedError : SdkError := .connection "Thalweg daemon is not connected.".toList

/-- The reader fails with it at a frame that is too long, ended or not. -/
def tooLongError : SdkError :=
  .protocol "Thalweg daemon frame exceeds max_response_bytes.".toList

/-- An error that the reader has not foreseen. -/
def unforeseenError (message : Text) : SdkError :=
  .protocol ("Failed to process daemon frame: ".toList ++ message)

/-! ### Frames -/

/-- What a frame says: a pushed event or the response to a request. -/
inductive Frame where
  | event (subscriptionId : Text) (event : PyDict)
  | response (id : Text) (success : Bool) (message : PyDict)

/-- The value is a number equal to the version of the protocol. -/
def PyValue.isProtocolVersion : PyValue → Bool
  | .int n => n == protocolVersion
  | .float (some x) => x == protocolVersion
  | _ => false

/-- A frame of another version, or of none, is refused. -/
def unsupportedError (env : Environment) (version : PyValue) : SdkError :=
  let received :=
    match version with
    | .none => "missing".toList
    | version => env.repr version
  .protocol ("Unsupported Thalweg protocol version ".toList ++ received ++ "; SDK supports ".toList
    ++ Text.decimalInt protocolVersion ++ ".".toList)

/-- The message is a pushed event. -/
def PyValue.isEvent : PyValue → Bool
  | .str type => type == "event".toList
  | _ => false

/-- The version is looked at first, then whether the message is a pushed event. -/
def readMessage (env : Environment) (message : PyDict) : Except SdkError Frame :=
  let version := message.get "protocolVersion".toList
  if !version.isProtocolVersion then .error (unsupportedError env version)
  else if (message.get "type".toList).isEvent then
    match message.get "subscriptionId".toList, message.get "event".toList with
    | .str id, .dict event => .ok (.event id event)
    | _, _ => .error (.protocol "Malformed subscription event frame.".toList)
  else
    match message.get "id".toList, message.get "success".toList with
    | .str id, .bool success => .ok (.response id success message)
    | _, _ => .error (.protocol "Malformed daemon response frame.".toList)

/-- A frame must be JSON and an object. -/
def readFrame (env : Environment) (frame : List UInt8) : Except SdkError Frame :=
  match env.loads frame with
  | .error (.malformed message) =>
    .error (.protocol ("Thalweg daemon sent malformed JSON: ".toList ++ message))
  | .error (.other message) => .error (unforeseenError message)
  | .ok (.dict message) => readMessage env message
  | .ok _ => .error (.protocol "Thalweg daemon message must be an object.".toList)

/-- The error of a response without success, if the response is well formed. -/
def daemonError (action : Text) (message : PyDict) : Except SdkError SdkError :=
  let read (details : PyDict) : Except SdkError SdkError :=
    let code := (details.find? "code".toList).getD (.str "action_failed".toList)
    let text := (details.find? "message".toList).getD (message.get "error".toList)
    let retryable := (details.find? "retryable".toList).getD (.bool false)
    match code, text with
    | .str code, .str text =>
      match retryable with
      | .bool retryable => .ok (.daemon action code text retryable)
      | _ => .error (.protocol "response.errorDetails.retryable must be boolean.".toList)
    | _, _ => .error (.protocol "Malformed daemon error response.".toList)
  match message.get "errorDetails".toList with
  | .none => read []
  | .dict details => read details
  | _ => .error (.protocol "response.errorDetails must be an object.".toList)

/-! ### Connections, requests and subscriptions -/

/-- Where the reader of a connection is. -/
inductive Reader where
  | reading
  /-- A frame was malformed or too long. -/
  | failed
  /-- The connection has ended. -/
  | ended
  | cancelled
  deriving DecidableEq

/-- A connection with its reader. Beside them are kept what has been read, the frames that have been
processed (and whether the reader could go on after them) and what has been written. -/
structure Connection where
  buffer : List UInt8
  reader : Reader
  /-- `writer.is_closing()` -/
  closing : Bool
  stream : List UInt8
  processed : List (List UInt8 × Bool)
  written : List (List UInt8)

/-- A connection on which nothing has come yet. -/
def Connection.new : Connection := ⟨[], .reading, false, [], [], []⟩

/-- The task that a request belongs to. -/
inductive Purpose where
  | call
  /-- A subscription is entered, closed, or given up because its queue is full. -/
  | enter (subscription : Nat)
  | leave (subscription : Nat)
  | discard

/-- Where the task of a request is. -/
inductive RequestPhase where
  | created
  /-- It waits for the lock of connections, or it holds it and makes a connection. -/
  | connecting
  | opening
  | connected
  /-- It waits for the lock of writes, or it holds it and has written to that connection. -/
  | writing (encoded : List UInt8)
  | draining (connection : Nat)
  | awaiting
  | settled

/-- A request with its future; `answered` is the connection on which its response was processed. -/
structure Request where
  action : Text
  payload : PyValue
  purpose : Purpose
  phase : RequestPhase
  id : Option Text
  future : Option Outcome
  answered : Option Nat

/-- A request whose task has not run yet. -/
def Request.new (action : Text) (payload : PyValue) (purpose : Purpose) : Request :=
  ⟨action, payload, purpose, .created, none, none, none⟩

/-- The future of a request fails, unless it is done. -/
def Request.fail (request : Request) (error : SdkError) : Request :=
  { request with future := request.future.or (some (.raised error)) }

/-- The entry of a request that waits for its response. -/
structure PendingRequest where
  action : Text
  request : Nat

/-- An item in the queue of a subscription; the last two end it. -/
inductive Item where
  | event (event : Event)
  | error (error : SdkError)
  | finish

/-- A subscription. `getters` counts the tasks that wait for an item; beside it are kept the
connection that it was registered on and the events that it has yielded. -/
structure Subscription where
  network : Text
  streams : List Text
  queueSize : Nat
  queue : List Item
  subscriptionId : Option Text
  entered : Bool
  closed : Bool
  terminalDelivered : Bool
  getters : Nat
  connection : Option Nat
  yielded : List Event

/-- A subscription that has not been entered. -/
def Subscription.new (network : Text) (streams : List Text) (queueSize : Nat) : Subscription :=
  ⟨network, streams, queueSize, [], none, false, false, false, 0, none, []⟩

/-- What is queued gives way to the last item. -/
def Subscription.finish (subscription : Subscription) (item : Item) : Subscription :=
  { subscription with queue := [item] }

/-- A subscription that is not closed ends with an error. -/
def Subscription.fail (subscription : Subscription) (error : SdkError) : Subscription :=
  if subscription.closed then subscription
  else { subscription with closed := true }.finish (.error error)

/-- A task takes the first item of the queue. -/
def Subscription.getNext (subscription : Subscription) (item : Item) (rest : List Item) :
    Subscription :=
  let taken := { subscription with queue := rest, getters := subscription.getters - 1 }
  match item with
  | .event event => { taken with yielded := taken.yielded ++ [event] }
  | _ => { taken with terminalDelivered := true }

/-- The writer, its reader and the reader's task are set and cleared together: `writer` is the
connection of all three. An event that came before its handler is kept in `orphanEvents`; the empty
list stands for no entry. The outcomes of requests are kept in the order in which they settled. -/
structure Client where
  connections : List Connection
  requests : List Request
  subscriptions : List Subscription
  writer : Option Nat
  connectLock : Option Nat
  writeLock : Option Nat
  nextId : Nat
  pending : AList fun _ : Text => PendingRequest
  eventHandlers : AList fun _ : Text => Nat
  orphanEvents : Text → List PyDict
  orphanOverflow : Finset Text
  ignoredSubscriptions : Finset Text
  closed : Bool
  settled : List (Nat × Outcome)

/-- What happens next: a call of the application, the next move of a task or something on a
connection. -/
inductive ClientAction where
  | request (action : Text) (payload : PyValue)
  | subscribe (network : Text) (streams : List Text) (queueSize : Nat)
  | enter (subscription : Nat)
  | anext (subscription : Nat)
  | aclose (subscription : Nat)
  | close
  /-- A task that waits for an item takes it or is cancelled. -/
  | getNext (subscription : Nat)
  | cancelNext (subscription : Nat)
  | start (request : Nat)
  | lockConnect (request : Nat)
  | opened (request : Nat)
  | openFailed (request : Nat) (message : Text)
  | send (request : Nat)
  | write (request : Nat)
  | drained (request : Nat)
  | drainFailed (request : Nat) (message : Text)
  | resume (request : Nat)
  | timeout (request : Nat)
  | cancel (request : Nat)
  | read (connection : Nat) (chunk : List UInt8)
  | endOfFile (connection : Nat)
  | readFailed (connection : Nat) (message : Text)
  | lost (connection : Nat)

namespace Client

/-- A client that has done nothing yet. -/
def new : Client :=
  ⟨[], [], [], none, none, none, 0, ∅, ∅, fun _ => [], ∅, ∅, false, []⟩

/-- The client with one of its connections changed. -/
def modifyConnection (c : Client) (k : Nat) (f : Connection → Connection) : Client :=
  { c with connections := c.connections.modify k f }

/-- The client with one of its requests changed. -/
def modifyRequest (c : Client) (r : Nat) (f : Request → Request) : Client :=
  { c with requests := c.requests.modify r f }

/-- The client with one of its subscriptions changed. -/
def modifySubscription (c : Client) (i : Nat) (f : Subscription → Subscription) : Client :=
  { c with subscriptions := c.subscriptions.modify i f }

/-- A new task makes a request. -/
def createTask (c : Client) (action : Text) (payload : PyValue) (purpose : Purpose) : Client :=
  { c with requests := c.requests ++ [Request.new action payload purpose] }

/-! ### Handlers of events -/

/-- The events of the subscription are ignored from now on. -/
def unregisterEventHandler (c : Client) (id : Text) : Client :=
  { c with
    eventHandlers := c.eventHandlers.erase id
    orphanEvents := Function.update c.orphanEvents id []
    orphanOverflow := c.orphanOverflow.erase id
    ignoredSubscriptions := insert id c.ignoredSubscriptions }

/-- The payload of a request to end a subscription. -/
def unregisterPayload (id : Text) : PyValue := .dict [("subscriptionId".toList, .str id)]

/-- A subscription receives an error. -/
def receiveError (c : Client) (error : SdkError) (i : Nat) : Client :=
  c.modifySubscription i fun subscription => subscription.fail error

/-- A subscription whose queue is full ends with it. -/
def queueFullError : SdkError :=
  .backpressure "Live subscription queue filled; no events were dropped silently.".toList

/-- A subscription whose queue is full gives up. -/
def overflow (c : Client) (i : Nat) (subscription : Subscription) : Client :=
  let given := match subscription.subscriptionId with
    | none => c
    | some id =>
      (c.unregisterEventHandler id).createTask "siphon_unregister".toList (unregisterPayload id)
        .discard
  given.modifySubscription i fun subscription =>
    { subscription with closed := true }.finish (.error queueFullError)

/-- A subscription receives a pushed event. -/
def receive (c : Client) (i : Nat) (item : PyDict) : Client :=
  match c.subscriptions[i]? with
  | none => c
  | some subscription =>
    if subscription.closed then c
    else
      match eventFromData (.dict item) "subscription event".toList with
      | .error message => c.receiveError (.protocol message) i
      | .ok event =>
        if subscription.queue.length < subscription.queueSize then
          c.modifySubscription i fun subscription =>
            { subscription with queue := subscription.queue ++ [.event event] }
        else c.overflow i subscription

/-- A subscription whose early events were too many ends with it. -/
def orphanOverflowError : SdkError :=
  .backpressure "Live events exceeded the pre-registration queue.".toList

/-- A handler takes the place of what has been kept for it. -/
def installEventHandler (c : Client) (id : Text) (i : Nat) : Client :=
  { c with
    ignoredSubscriptions := c.ignoredSubscriptions.erase id
    eventHandlers := c.eventHandlers.insert id i
    orphanEvents := Function.update c.orphanEvents id []
    orphanOverflow := c.orphanOverflow.erase id }

/-- The handler gets the events that came before it, and an error if there were too many. -/
def registerEventHandler (c : Client) (id : Text) (i : Nat) : Client :=
  let replayed := (c.orphanEvents id).foldl (fun c event => c.receive i event)
    (c.installEventHandler id i)
  if id ∈ c.orphanOverflow then replayed.receiveError orphanOverflowError i else replayed

/-- A pushed event goes to its handler, is kept for it, or is ignored. -/
def dispatchEvent (env : Environment) (c : Client) (id : Text) (event : PyDict) : Client :=
  match c.eventHandlers.lookup id with
  | some i => c.receive i event
  | none =>
    if id ∈ c.ignoredSubscriptions then c
    else if env.orphanEventLimit ≤ (c.orphanEvents id).length then
      { c with orphanOverflow := insert id c.orphanOverflow }
    else
      { c with orphanEvents := Function.update c.orphanEvents id (c.orphanEvents id ++ [event]) }

/-! ### Futures -/

/-- `if not future.done(): future.set_exception(error)` -/
def failFuture (c : Client) (error : SdkError) (r : Nat) : Client :=
  c.modifyRequest r fun request => request.fail error

/-- `if not future.done(): future.cancel()` -/
def cancelFuture (c : Client) (r : Nat) : Client := c.failFuture .cancelled r

/-- A request is not pending any more. -/
def popPending (c : Client) (id : Text) : Client := { c with pending := c.pending.erase id }

/-- The future of a pending request is set by its response. It raises if the future is done. -/
def setFuture (c : Client) (k r : Nat) (outcome : Outcome) : Client × Option SdkError :=
  if c.requests[r]?.any fun request => request.future.isSome then
    (c, some (unforeseenError "invalid state".toList))
  else
    (c.modifyRequest r fun request =>
      { request with future := some outcome, answered := some k }, none)

/-- All pending requests and all subscriptions fail. -/
def failWaiters (c : Client) (error : SdkError) : Client :=
  let failed := c.pending.entries.foldl (fun c p => c.failFuture error p.2.request) c
  let told := failed.eventHandlers.entries.foldl (fun c h => c.receiveError error h.2)
    { failed with pending := ∅ }
  { told with
    eventHandlers := ∅
    orphanEvents := fun _ => []
    orphanOverflow := ∅
    ignoredSubscriptions := ∅ }

/-- A connection is given up, unless another one has taken its place. -/
def abortConnection (c : Client) (error : SdkError) (k : Nat) : Client :=
  if c.writer = some k then
    failWaiters
      (modifyConnection { c with writer := none } k fun connection =>
        { connection with closing := true })
      error
  else c

/-! ### The reader -/

/-- A frame of the connection `k` is processed; an error ends the reader. -/
def processFrame (env : Environment) (c : Client) (k : Nat) (frame : List UInt8) :
    Client × Option SdkError :=
  match readFrame env frame with
  | .error error => (c, some error)
  | .ok (.event id event) => (c.dispatchEvent env id event, none)
  | .ok (.response id success message) =>
    match c.pending.lookup id with
    | none => (c, none)
    | some p =>
      if success then
        (c.popPending id).setFuture k p.request (.returned (message.get "data".toList))
      else
        match daemonError p.action message with
        | .error error => (c, some error)
        | .ok error => (c.popPending id).setFuture k p.request (.raised error)

/-- The frame was processed on the connection. -/
def note (c : Client) (k : Nat) (frame : List UInt8) (accepted : Bool) : Client :=
  c.modifyConnection k fun connection =>
    { connection with processed := connection.processed ++ [(frame, accepted)] }

/-- The frame that the buffer begins with, and what follows its newline. -/
def takeFrame (buffer : List UInt8) : Option (List UInt8 × List UInt8) :=
  match buffer.dropWhile fun b => !isNewline b with
  | [] => none
  | _ :: rest => some (buffer.takeWhile fun b => !isNewline b, rest)

/-- The frames of the buffer, one after the other, and what is left of it or the error that ends the
reader. Every round takes a byte at least, so that `fuel` rounds are enough for a shorter buffer. -/
def readBuffer (env : Environment) (k : Nat) :
    Nat → Client → List UInt8 → Client × Except SdkError (List UInt8)
  | 0, c, buffer => (c, .ok buffer)
  | fuel + 1, c, buffer =>
    match takeFrame buffer with
    | none =>
      if env.maxResponseBytes < buffer.length then (c, .error tooLongError) else (c, .ok buffer)
    | some (frame, rest) =>
      if env.maxResponseBytes < frame.length then (c, .error tooLongError)
      else if isBlank frame then readBuffer env k fuel c rest
      else
        match c.processFrame env k frame with
        | (c, none) => readBuffer env k fuel (c.note k frame true) rest
        | (c, some error) => (c.note k frame false, .error error)

/-- The reader of a connection has read a chunk. -/
def read (env : Environment) (c : Client) (k : Nat) (connection : Connection)
    (chunk : List UInt8) : Client :=
  let buffer := connection.buffer ++ chunk
  let extended := c.modifyConnection k fun connection =>
    { connection with stream := connection.stream ++ chunk }
  match readBuffer env k (buffer.length + 1) extended buffer with
  | (c, .ok rest) => c.modifyConnection k fun connection => { connection with buffer := rest }
  | (c, .error error) =>
    (c.modifyConnection k fun connection => { connection with reader := .failed }).abortConnection
      error k

/-- The reader of a connection ends. -/
def endReader (c : Client) (k : Nat) (error : SdkError) : Client :=
  (c.modifyConnection k fun connection => { connection with reader := .ended }).abortConnection
    error k

/-! ### Requests -/

/-- The task that has entered a subscription registers it. -/
def register (c : Client) (i : Nat) (answered : Option Nat) (data : PyValue) : Client :=
  let context := "siphon_register response".toList
  match object data context >>= fun result => string result "subscriptionId".toList context with
  | .error _ => c
  | .ok id =>
    registerEventHandler
      (c.modifySubscription i fun subscription =>
        { subscription with subscriptionId := some id, connection := answered })
      id i

/-- A request returns or raises, and its task goes on. -/
def settle (c : Client) (r : Nat) (request : Request) (outcome : Outcome) : Client :=
  let c := { c with
    requests := c.requests.modify r fun request => { request with phase := .settled }
    settled := c.settled ++ [(r, outcome)] }
  match request.purpose, outcome with
  | .enter i, .returned data => c.register i request.answered data
  | .leave i, .returned _ => c.modifySubscription i fun subscription => subscription.finish .finish
  | .leave i, .raised (.connection _) =>
    c.modifySubscription i fun subscription => subscription.finish .finish
  | _, _ => c

/-- The task of a request is somewhere else. -/
def setPhase (c : Client) (r : Nat) (phase : RequestPhase) : Client :=
  c.modifyRequest r fun request => { request with phase }

/-- The writer is there and not closing. -/
def isConnected (c : Client) : Bool :=
  match c.writer with
  | none => false
  | some k => c.connections[k]?.any fun connection => !connection.closing

/-- The task of a request starts: it needs an open client and a connection. -/
def start (c : Client) (r : Nat) (request : Request) : Client :=
  if request.action = [] then
    c.settle r request (.raised (.value "action must not be empty.".toList))
  else if c.closed then c.settle r request (.raised closedError)
  else c.setPhase r (if c.isConnected then .connected else .connecting)

/-- A request gets the lock of connections. It gives it back if there is a connection. -/
def lockConnect (c : Client) (r : Nat) (request : Request) : Client :=
  if c.closed then c.settle r request (.raised closedError)
  else if c.isConnected then c.setPhase r .connected
  else setPhase { c with connectLock := some r } r .opening

/-- A connection is there, with a reader. -/
def opened (c : Client) (r : Nat) : Client :=
  setPhase
    { c with
      connections := c.connections ++ [Connection.new]
      writer := some c.connections.length
      connectLock := none
      orphanEvents := fun _ => []
      orphanOverflow := ∅
      ignoredSubscriptions := ∅ }
    r .connected

/-- No connection could be made. -/
def openFailed (env : Environment) (c : Client) (r : Nat) (request : Request) (message : Text) :
    Client :=
  settle { c with connectLock := none } r request
    (.raised (.connection ("Could not connect to Thalweg daemon at ".toList ++
      env.repr (.str env.socketPath) ++ ": ".toList ++ message)))

/-- The IDs of requests are numbered. -/
def requestId (n : Nat) : Text := "req_".toList ++ Text.decimal n

/-- What is encoded for a request. -/
def requestMessage (id : Text) (request : Request) : PyValue :=
  .dict [("id".toList, .str id), ("protocolVersion".toList, .int protocolVersion),
    ("action".toList, .str request.action), ("payload".toList, request.payload)]

/-- A request gets its ID and becomes pending. -/
def send (env : Environment) (c : Client) (r : Nat) (request : Request) : Client :=
  let id := requestId (c.nextId + 1)
  let c := { c with nextId := c.nextId + 1 }
  match env.dumps (requestMessage id request) with
  | none =>
    c.settle r request (.raised (.value ("Request payload for ".toList ++
      env.repr (.str request.action) ++ " is not valid JSON.".toList)))
  | some bytes =>
    let encoded := bytes ++ [newline]
    if maxRequestBytes < encoded.length then
      c.settle r request (.raised (.value ("Encoded request for ".toList ++
        env.repr (.str request.action) ++ " exceeds the 1 MiB daemon limit.".toList)))
    else
      modifyRequest { c with pending := c.pending.insert id ⟨request.action, r⟩ } r
        fun request => { request with id := some id, phase := .writing encoded }

/-- A request is given up before it has been written. -/
def failWrite (c : Client) (r : Nat) (request : Request) (error : SdkError) : Client :=
  let c :=
    match request.id with
    | none => c
    | some id =>
      match c.pending.lookup id with
      | none => c
      | some p => (c.popPending id).cancelFuture p.request
  c.settle r request (.raised error)

/-- A request gets the lock of writes and writes. -/
def write (c : Client) (r : Nat) (request : Request) (encoded : List UInt8) : Client :=
  match c.writer with
  | some k =>
    if c.isConnected then
      setPhase
        (modifyConnection { c with writeLock := some r } k fun connection =>
          { connection with written := connection.written ++ [encoded] })
        r (.draining k)
    else c.failWrite r request notConnectedError
  | none => c.failWrite r request notConnectedError

/-- A write that fails takes its connection down. -/
def drainFailed (c : Client) (r k : Nat) (request : Request) (message : Text) : Client :=
  let error := .connection ("Failed to write to Thalweg daemon: ".toList ++ message)
  failWrite { c.abortConnection error k with writeLock := none } r request error

/-- A request is given up while it awaits its response. -/
def giveUp (c : Client) (r : Nat) (request : Request) (error : SdkError) : Client :=
  let c := match request.id with
    | none => c
    | some id => c.popPending id
  (c.cancelFuture r).settle r request (.raised error)

/-- The task of a request is cancelled. -/
def cancel (c : Client) (r : Nat) (request : Request) : Option Client :=
  match request.phase with
  | .created | .connecting | .connected => some (c.settle r request (.raised .cancelled))
  | .opening => some (settle { c with connectLock := none } r request (.raised .cancelled))
  | .writing _ => some (c.failWrite r request .cancelled)
  | .draining _ => some (failWrite { c with writeLock := none } r request .cancelled)
  | .awaiting => some (c.giveUp r request .cancelled)
  | .settled => none

/-! ### Subscriptions -/

/-- The payload of a request for a subscription. -/
def registerPayload (subscription : Subscription) : PyValue :=
  .dict [("network".toList, .str subscription.network),
    ("streams".toList, .list (subscription.streams.map PyValue.str))]

/-- A subscription is entered: a task registers it. -/
def enter (c : Client) (i : Nat) (subscription : Subscription) : Client :=
  createTask (c.modifySubscription i fun subscription => { subscription with entered := true })
    "siphon_register".toList (registerPayload subscription) (.enter i)

/-- A subscription is closed: one that was registered is given up by a task. -/
def aclose (c : Client) (i : Nat) (subscription : Subscription) : Client :=
  let c := c.modifySubscription i fun subscription => { subscription with closed := true }
  match subscription.subscriptionId with
  | none => c.modifySubscription i fun subscription => subscription.finish .finish
  | some id =>
    (c.unregisterEventHandler id).createTask "siphon_unregister".toList (unregisterPayload id)
      (.leave i)

/-- The client is closed: all waiters fail and the reader's task is cancelled. -/
def close (c : Client) : Client :=
  let failed := failWaiters { c with closed := true } closedError
  match failed.writer with
  | none => failed
  | some k =>
    modifyConnection { failed with writer := none } k fun connection =>
      { connection with
        reader := if connection.reader = .reading then .cancelled else connection.reader
        closing := true }

/-! ### Moves -/

/-- The next move of the task of a request. -/
def stepRequest (env : Environment) (c : Client) (r : Nat) (request : Request) :
    ClientAction → Option Client
  | .start _ => match request.phase with
    | .created => some (c.start r request)
    | _ => none
  | .lockConnect _ => match request.phase, c.connectLock with
    | .connecting, none => some (c.lockConnect r request)
    | _, _ => none
  | .opened _ => match request.phase with
    | .opening => some (c.opened r)
    | _ => none
  | .openFailed _ message => match request.phase with
    | .opening => some (c.openFailed env r request message)
    | _ => none
  | .send _ => match request.phase with
    | .connected => some (c.send env r request)
    | _ => none
  | .write _ => match request.phase, c.writeLock with
    | .writing encoded, none => some (c.write r request encoded)
    | _, _ => none
  | .drained _ => match request.phase with
    | .draining _ => some (setPhase { c with writeLock := none } r .awaiting)
    | _ => none
  | .drainFailed _ message => match request.phase with
    | .draining k => some (c.drainFailed r k request message)
    | _ => none
  | .resume _ => match request.phase, request.future with
    | .awaiting, some outcome => some (c.settle r request outcome)
    | _, _ => none
  | .timeout _ => match request.phase with
    | .awaiting => some (c.giveUp r request (.timeout request.action))
    | _ => none
  | .cancel _ => c.cancel r request
  | _ => none

/-- The next move on a subscription. A call that raises at once is no move. -/
def stepSubscription (c : Client) (i : Nat) (subscription : Subscription) :
    ClientAction → Option Client
  | .enter _ =>
    if subscription.entered || subscription.closed then none else some (c.enter i subscription)
  | .anext _ =>
    if !subscription.entered || subscription.terminalDelivered then none
    else some (c.modifySubscription i fun subscription =>
      { subscription with getters := subscription.getters + 1 })
  | .getNext _ =>
    match subscription.getters, subscription.queue with
    | _ + 1, item :: rest =>
      some (c.modifySubscription i fun subscription => subscription.getNext item rest)
    | _, _ => none
  | .cancelNext _ =>
    if subscription.getters = 0 then none
    else some (c.modifySubscription i fun subscription =>
      { subscription with getters := subscription.getters - 1 })
  | .aclose _ => if subscription.closed then none else some (c.aclose i subscription)
  | _ => none

/-- What happens on a connection. -/
def stepConnection (env : Environment) (c : Client) (k : Nat) (connection : Connection) :
    ClientAction → Option Client
  | .read _ chunk =>
    if connection.reader = .reading ∧ chunk ≠ [] ∧ chunk.length ≤ readSize then
      some (c.read env k connection chunk)
    else none
  | .endOfFile _ =>
    if connection.reader = .reading then
      some (c.endReader k (.connection "Thalweg daemon connection closed.".toList))
    else none
  | .readFailed _ message =>
    if connection.reader = .reading then some (c.endReader k (unforeseenError message)) else none
  | .lost _ =>
    some (c.modifyConnection k fun connection => { connection with closing := true })
  | _ => none

/-- One move. It is undefined where the move cannot happen. -/
def step (env : Environment) (c : Client) (a : ClientAction) : Option Client :=
  match a with
  | .request action payload => some (c.createTask action payload .call)
  | .subscribe network streams queueSize =>
    if queueSize = 0 then none
    else some { c with
      subscriptions := c.subscriptions ++ [Subscription.new network streams queueSize] }
  | .close => if c.closed then none else some c.close
  | .enter i | .anext i | .aclose i | .getNext i | .cancelNext i =>
    c.subscriptions[i]?.bind fun subscription => c.stepSubscription i subscription a
  | .start r | .lockConnect r | .opened r | .openFailed r _ | .send r | .write r | .drained r
  | .drainFailed r _ | .resume r | .timeout r | .cancel r =>
    c.requests[r]?.bind fun request => c.stepRequest env r request a
  | .read k _ | .endOfFile k | .readFailed k _ | .lost k =>
    c.connections[k]?.bind fun connection => c.stepConnection env k connection a

end Client

end Thalweg.SdkPython
