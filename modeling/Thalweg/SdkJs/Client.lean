import Mathlib.Logic.Function.Basic
import Thalweg.Data.Framing
import Thalweg.Data.Machine
import Thalweg.Data.Utf8Decoder

/-!
# The client of the JavaScript SDK

A client sends requests over one socket, which is made anew when the last one is gone, and hands the
events that the daemon pushes to the handlers of its subscriptions. All sockets share the buffer,
the table of pending requests and the tables of subscriptions.

The client runs to completion: a callback of a socket or a continuation of an awaiting call is not
interrupted by another one. Between the pieces of such a job only the application's own code runs,
in its handlers, and makes further calls.

## Main definitions

* `Message`, `Decoder`: the messages of the protocol and what the client reads of them.
* `DaemonClient`: the state of the client, its sockets and its calls.
* `DaemonClient.step`: one move of the application, of a socket or of a waiting call.
-/

namespace Thalweg.SdkJs

/-- The version of the local protocol. -/
def thalwegProtocolVersion : Int := 1

/-- The events that are kept for a subscription without a handler. -/
def queuedEventLimit : Nat := 128

/-- The details of an error in a response. -/
structure ErrorDetails where
  code : Text
  message : Text
  retryable : Bool
  deriving DecidableEq

/-- A message of the daemon, `event` for a pushed event and `response` for all others, with its
fields as far as they are there. -/
inductive Message (E D : Type) where
  | event (protocolVersion : Option Int) (subscriptionId : Text) (event : E)
  | response (protocolVersion : Option Int) (id : Option Text) (success : Bool) (data : D)
      (error : Option Text) (errorDetails : Option ErrorDetails)
  deriving DecidableEq

variable {E D : Type}

/-- The version that a message names. -/
def Message.protocolVersion : Message E D → Option Int
  | .event protocolVersion _ _ => protocolVersion
  | .response protocolVersion _ _ _ _ _ => protocolVersion

/-- How a text is read as a message (`JSON.parse`), and the subscription ID in the data of a
response to a registration. -/
structure Decoder (E D : Type) where
  parse : Text → Option (Message E D)
  subscriptionId : D → Text

/-! ### Errors -/

/-- The errors that a call is rejected with. -/
inductive ClientError where
  | daemon (action code message : Text) (retryable : Bool)
  | timedOut (action : Text)
  | connectionClosed
  | malformed
  | unsupported (received : Option Int)
  | notConnected
  /-- The error of a socket. -/
  | system (message : Text)

/-- The text of an error. -/
def ClientError.message : ClientError → Text
  | .daemon _ _ message _ => message
  | .timedOut action => "Thalweg daemon request ".toList ++ action ++ " timed out.".toList
  | .connectionClosed => "Thalweg daemon connection closed.".toList
  | .malformed => "Thalweg daemon sent malformed JSON.".toList
  | .unsupported received =>
    "Unsupported Thalweg protocol version ".toList ++
      (received.elim "missing".toList Text.decimalInt) ++ "; SDK supports ".toList ++
        Text.decimalInt thalwegProtocolVersion ++ ".".toList
  | .notConnected => "Thalweg daemon is not connected.".toList
  | .system message => message

/-- The error of a response without success. -/
def daemonError (action : Text) (error : Option Text) (details : Option ErrorDetails) :
    ClientError :=
  .daemon action (details.elim "action_failed".toList ErrorDetails.code)
    (details.elim (error.getD "Thalweg daemon request failed.".toList) ErrorDetails.message)
    (details.elim false ErrorDetails.retryable)

/-! ### Parts of the buffer -/

/-- The end of a frame. -/
def isNewline (c : Char) : Bool := c == '\n'

/-- White space and the ends of lines, as `trim` takes them. -/
def isWhiteSpace (c : Char) : Bool :=
  let n := c.toNat
  (9 ≤ n && n ≤ 13) || n == 0x20 || n == 0xA0 || n == 0x1680 || (0x2000 ≤ n && n ≤ 0x200A) ||
    n == 0x2028 || n == 0x2029 || n == 0x202F || n == 0x205F || n == 0x3000 || n == 0xFEFF

/-- Nothing is left of the part when it is trimmed. -/
def isBlank (part : Text) : Bool := part.all isWhiteSpace

/-- A part of the buffer: nothing, a message, or the end of the connection. -/
inductive Part (E D : Type) where
  | blank
  | failed (error : ClientError)
  | message (message : Message E D)

/-- What a part between newlines is to the client. -/
def readPart (decoder : Decoder E D) (part : Text) : Part E D :=
  if isBlank part then .blank
  else
    match decoder.parse part with
    | none => .failed .malformed
    | some message =>
      if message.protocolVersion = some thalwegProtocolVersion then .message message
      else .failed (.unsupported message.protocolVersion)

/-! ### Sockets and calls -/

/-- A request as it is written. -/
structure RequestMessage where
  id : Text
  protocolVersion : Int
  action : Text
  payload : Text

/-- The promise of a connection. -/
inductive Connecting where
  | pending
  | resolved
  | rejected (message : Text)

/-- The first of two settlements holds. -/
def Connecting.settle : Connecting → Connecting → Connecting
  | .pending, outcome => outcome
  | settled, _ => settled

/-- A socket of the client. -/
structure Socket where
  connecting : Connecting
  connected : Bool
  /-- The client has ended its half. -/
  ended : Bool
  /-- Neither half works any more. -/
  destroyed : Bool
  /-- The socket has emitted its last event. -/
  closed : Bool
  written : List RequestMessage

/-- A socket that has been created and is not connected yet. -/
def Socket.create : Socket := ⟨.pending, false, false, false, false, []⟩

/-- `readyState` is `open`. -/
def Socket.isOpen (socket : Socket) : Bool :=
  socket.connected && !socket.ended && !socket.destroyed && !socket.closed

/-- The method of the client that is called. -/
inductive Method where
  | request
  | subscribe
  | unsubscribe
  deriving DecidableEq

/-- Where a call is. -/
inductive CallPhase (D : Type) where
  /-- It awaits the promise of a socket, or one that is resolved. -/
  | connecting (socket : Option Nat)
  /-- Its request is written. -/
  | waiting (id : Text)
  | rejected (error : ClientError)
  | resolved (data : D)
  /-- Its handler is installed. -/
  | subscribed (subscriptionId : Text)

/-- A call of a method. -/
structure Call (D : Type) where
  method : Method
  action : Text
  payload : Text
  phase : CallPhase D

/-- The call's promise settles, once. -/
def Call.settle (call : Call D) (phase : CallPhase D) : Call D :=
  match call.phase with
  | .waiting _ => { call with phase }
  | _ => call

/-- A pending request, with the call that made it. The socket that it was written to is kept beside
it. -/
structure PendingRequest where
  id : Text
  action : Text
  call : Nat
  socket : Nat

/-- The job that the client is at. -/
inductive Job (E : Type) where
  /-- The parts of the buffer, in an event of that socket. -/
  | parts (socket : Nat) (rest : List Text)
  /-- The events that were kept for the handler of a call. -/
  | replay (call : Nat) (rest : List E)

/-- Nothing of the job is left. -/
def Job.isIdle : Job E → Bool
  | .parts _ rest => rest.isEmpty
  | .replay _ rest => rest.isEmpty

/-- What happened in an event of a socket. -/
inductive Happening where
  /-- A frame was completed; its characters were received on these sockets. -/
  | framed (socket : Nat) (origins : List Nat)
  /-- A request that was written to the socket `written` was settled. -/
  | settled (socket written : Nat)
  /-- The client's socket was destroyed or is the client's no more. -/
  | cleared (socket current : Nat)
  deriving DecidableEq

/-- The client with its sockets and calls. Beside them are kept the events that have been pushed,
those that handlers have been called with, the subscriptions that have been given up and what has
happened. A character of the buffer is kept with the socket that it was received on; a handler is
the call that it was passed to. -/
structure DaemonClient (E D : Type) where
  sockets : List Socket
  calls : List (Call D)
  job : Job E
  socket : Option Nat
  buffer : List (Nat × Char)
  nextId : Nat
  pending : List PendingRequest
  subscriptions : Text → Option Nat
  queuedSubscriptionEvents : Text → List E
  connecting : Option Nat
  pushed : List (Text × E)
  handled : List (Nat × E)
  unsubscribed : List Text
  history : List Happening

/-- What a socket emits; `lost` is the loss of the connection before that. -/
inductive SocketEvent where
  | connect
  | error (message : Text)
  | data (bytes : List UInt8)
  | lost
  | close

/-- What happens next: a call of the application, a move of the job or of an awaiting call, the end
of a timer or an event of a socket. -/
inductive ClientAction where
  | request (action payload : Text)
  | subscribe (payload : Text)
  | unsubscribe (subscriptionId payload : Text)
  | close
  | work
  | resume (call : Nat)
  | timeout (id : Text)
  | emit (socket : Nat) (event : SocketEvent)

namespace DaemonClient

/-- A client that has done nothing yet. -/
def new : DaemonClient E D :=
  ⟨[], [], .parts 0 [], none, [], 0, [], fun _ => none, fun _ => [], none, [], [], [], []⟩

/-- The client's socket is open. -/
def openSocket (c : DaemonClient E D) : Option Nat :=
  c.socket.filter fun s => c.sockets[s]?.any Socket.isOpen

/-- A call waits for the connection, which is made if there is none. -/
def connect (c : DaemonClient E D) (method : Method) (action payload : Text) : DaemonClient E D :=
  match c.openSocket, c.connecting with
  | some _, _ => { c with calls := c.calls ++ [⟨method, action, payload, .connecting none⟩] }
  | none, some s => { c with calls := c.calls ++ [⟨method, action, payload, .connecting (some s)⟩] }
  | none, none =>
    let s := c.sockets.length
    { c with
      sockets := c.sockets ++ [Socket.create]
      socket := some s
      connecting := some s
      calls := c.calls ++ [⟨method, action, payload, .connecting (some s)⟩] }

/-- The handler and the kept events of a subscription are given up before the daemon is told. -/
def unsubscribe (c : DaemonClient E D) (subscriptionId payload : Text) : DaemonClient E D :=
  connect
    { c with
      subscriptions := Function.update c.subscriptions subscriptionId none
      queuedSubscriptionEvents := Function.update c.queuedSubscriptionEvents subscriptionId []
      unsubscribed := c.unsubscribed ++ [subscriptionId] }
    .unsubscribe "siphon_unregister".toList payload

/-- `close`: the socket is ended and forgotten. -/
def close (c : DaemonClient E D) : DaemonClient E D :=
  match c.socket with
  | none => c
  | some s =>
    { c with
      sockets := c.sockets.modify s fun socket => { socket with ended := true }
      socket := none
      connecting := none }

/-- The call goes on once the connection is there: its request is written. -/
def send (c : DaemonClient E D) (i : Nat) (call : Call D) : DaemonClient E D :=
  let id := "req_".toList ++ Text.decimal (c.nextId + 1)
  match c.openSocket with
  | some s =>
    { c with
      nextId := c.nextId + 1
      pending := c.pending ++ [⟨id, call.action, i, s⟩]
      sockets := c.sockets.modify s fun socket =>
        { socket with
          written := socket.written ++
            [⟨id, thalwegProtocolVersion, call.action, call.payload⟩] }
      calls := c.calls.modify i fun call => { call with phase := .waiting id } }
  | none =>
    { c with
      nextId := c.nextId + 1
      calls := c.calls.modify i fun call => { call with phase := .rejected .notConnected } }

/-- The handler of a subscription is installed, and the events that were kept for it are
replayed. -/
def install (c : DaemonClient E D) (i : Nat) (subscriptionId : Text) : DaemonClient E D :=
  { c with
    calls := c.calls.modify i fun call => { call with phase := .subscribed subscriptionId }
    subscriptions := Function.update c.subscriptions subscriptionId (some i)
    queuedSubscriptionEvents := Function.update c.queuedSubscriptionEvents subscriptionId []
    job := .replay i (c.queuedSubscriptionEvents subscriptionId) }

/-- The promise that an awaiting call awaits. -/
def awaited (c : DaemonClient E D) : Option Nat → Connecting
  | none => .resolved
  | some s => c.sockets[s]?.elim .pending Socket.connecting

/-- An awaiting call goes on. -/
def resume (decoder : Decoder E D) (c : DaemonClient E D) (i : Nat) (call : Call D) :
    Option (DaemonClient E D) :=
  match call.phase with
  | .connecting socket =>
    match c.awaited socket with
    | .pending => none
    | .resolved => some (c.send i call)
    | .rejected message =>
      some { c with
        calls := c.calls.modify i fun call => { call with phase := .rejected (.system message) } }
  | .resolved data =>
    if call.method = .subscribe then some (c.install i (decoder.subscriptionId data)) else none
  | _ => none

/-- A pending request is settled. -/
def settle (c : DaemonClient E D) (id : Text) (phase : PendingRequest → CallPhase D) :
    DaemonClient E D :=
  match c.pending.find? fun p => decide (p.id = id) with
  | none => c
  | some p =>
    { c with
      pending := c.pending.filter fun p => decide (p.id ≠ id)
      calls := c.calls.modify p.call fun call => call.settle (phase p) }

/-- All pending requests are rejected. -/
def rejectAll (c : DaemonClient E D) (error : ClientError) : DaemonClient E D :=
  { c with
    pending := []
    calls := c.pending.foldl
      (fun calls p => calls.modify p.call fun call => call.settle (.rejected error)) c.calls }

/-! ### The buffer -/

/-- The text of a chunk is appended to the buffer, which is split into parts. -/
def receive (c : DaemonClient E D) (s : Nat) (bytes : List UInt8) : DaemonClient E D :=
  let buffer := c.buffer ++ (Utf8Decoder.decode bytes).map (Prod.mk s)
  let parts := Framing.frames (fun x => isNewline x.2) buffer
  { c with
    buffer := Framing.remainder (fun x => isNewline x.2) buffer
    job := .parts s (parts.map (List.map Prod.snd))
    history := c.history ++ parts.map fun part => .framed s (part.map Prod.fst) }

/-- In an event of the socket `s`, the pending requests are settled and the client's socket goes. -/
def loses (c : DaemonClient E D) (s : Nat) : List Happening :=
  c.pending.map (fun p => .settled s p.socket) ++ c.socket.toList.map (.cleared s)

/-- All calls fail, and the socket of the client is destroyed. -/
def failConnection (c : DaemonClient E D) (s : Nat) (error : ClientError) : DaemonClient E D :=
  let rejected := c.rejectAll error
  { rejected with
    job := .parts s []
    sockets := match c.socket with
      | none => c.sockets
      | some t => c.sockets.modify t fun socket => { socket with destroyed := true }
    history := c.history ++ c.loses s }

/-- A pushed event goes to the handler of its subscription or is kept. -/
def push (c : DaemonClient E D) (subscriptionId : Text) (event : E) : DaemonClient E D :=
  let c := { c with pushed := c.pushed ++ [(subscriptionId, event)] }
  match c.subscriptions subscriptionId with
  | some handler => { c with handled := c.handled ++ [(handler, event)] }
  | none =>
    let queued := c.queuedSubscriptionEvents subscriptionId
    if queued.length < queuedEventLimit then
      { c with
        queuedSubscriptionEvents :=
          Function.update c.queuedSubscriptionEvents subscriptionId (queued ++ [event]) }
    else c

/-- A response settles the request of its ID. -/
def respond (c : DaemonClient E D) (s : Nat) (id : Text) (phase : PendingRequest → CallPhase D) :
    DaemonClient E D :=
  { c.settle id phase with
    history := c.history ++
      (c.pending.filter fun p => decide (p.id = id)).map fun p => .settled s p.socket }

/-- One part of the buffer, in an event of the socket `s`. -/
def processPart (decoder : Decoder E D) (c : DaemonClient E D) (s : Nat) (part : Text) :
    DaemonClient E D :=
  match readPart decoder part with
  | .blank => c
  | .failed error => c.failConnection s error
  | .message (.event _ subscriptionId event) => c.push subscriptionId event
  | .message (.response _ id success data error errorDetails) =>
    match id with
    | none | some [] => c
    | some id =>
      c.respond s id fun p =>
        if success then .resolved data else .rejected (daemonError p.action error errorDetails)

/-- The next piece of the job. -/
def work (decoder : Decoder E D) (c : DaemonClient E D) : Option (DaemonClient E D) :=
  match c.job with
  | .parts s (part :: rest) => some (processPart decoder { c with job := .parts s rest } s part)
  | .replay i (event :: rest) =>
    some { c with job := .replay i rest, handled := c.handled ++ [(i, event)] }
  | _ => none

/-! ### Moves -/

/-- The connection of a socket has ended. -/
def closed (c : DaemonClient E D) (s : Nat) : DaemonClient E D :=
  let rejected := c.rejectAll .connectionClosed
  { rejected with
    sockets := c.sockets.modify s fun socket => { socket with closed := true, destroyed := true }
    socket := none
    connecting := none
    history := c.history ++ c.loses s }

/-- A socket emits an event. -/
def emit (c : DaemonClient E D) (s : Nat) (socket : Socket) :
    SocketEvent → Option (DaemonClient E D)
  | .connect =>
    if socket.connected || socket.destroyed || socket.closed then none
    else some { c with
      sockets := c.sockets.modify s fun socket =>
        { socket with connected := true, connecting := socket.connecting.settle .resolved } }
  | .error message =>
    if socket.closed then none
    else some { c with
      sockets := c.sockets.modify s fun socket =>
        { socket with
          destroyed := true, connecting := socket.connecting.settle (.rejected message) } }
  | .data bytes =>
    if socket.connected && !socket.destroyed && !socket.closed then some (c.receive s bytes)
    else none
  | .lost =>
    if socket.closed then none
    else some { c with
      sockets := c.sockets.modify s fun socket => { socket with destroyed := true } }
  | .close => if socket.closed then none else some (c.closed s)

/-- One move. The application may call the client at any time; everything else waits for the end of
the job. -/
def step (decoder : Decoder E D) (c : DaemonClient E D) : ClientAction → Option (DaemonClient E D)
  | .request action payload => some (c.connect .request action payload)
  | .subscribe payload => some (c.connect .subscribe "siphon_register".toList payload)
  | .unsubscribe subscriptionId payload => some (c.unsubscribe subscriptionId payload)
  | .close => some c.close
  | .work => c.work decoder
  | .resume i =>
    if c.job.isIdle then c.calls[i]?.bind fun call => c.resume decoder i call else none
  | .timeout id =>
    if c.job.isIdle ∧ id ∈ c.pending.map PendingRequest.id then
      some (c.settle id fun p => .rejected (.timedOut p.action))
    else none
  | .emit s event =>
    if c.job.isIdle then c.sockets[s]?.bind fun socket => c.emit s socket event else none

end DaemonClient

end Thalweg.SdkJs
