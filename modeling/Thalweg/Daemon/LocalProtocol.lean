import Thalweg.Data.ByteSpace
import Thalweg.Data.Framing
import Thalweg.Data.Json.Encoded
import Thalweg.Daemon.Answers
import Thalweg.Daemon.Subscriptions

/-!
# The local protocol

A client on the local socket sends requests, one on a line, and gets a response to each on the same
connection. The daemon scans the lines with a buffer of a fixed size; a line that does not fit ends
the connection. The handlers of the actions are given as a table; they do not keep the connection
that they are called on, so only responses are written on it.

## Main definitions

* `scanLines`: the lines that a scanner gives.
* `handleLine`: the response to a line.
* `handle`, `Response.written`: the responses on a connection, and what is written for them.

## Main results

* `handle_line`: the connection on which one line is sent.
* `isSome_marshal_response`: the data decide whether a response can be encoded.
-/

namespace Thalweg

open Json (Marshalable)
open ByteSpace (newline)

/-! ### Lines -/

/-- The carriage return. -/
def carriageReturn : UInt8 := 13

/-- A line without the carriage return at its end. -/
def dropCR (line : List UInt8) : List UInt8 :=
  if line.getLast? = some carriageReturn then line.dropLast else line

/-- The lines of a stream that has ended. What follows the last newline is a line unless it is
empty. -/
def streamLines (stream : List UInt8) : List (List UInt8) :=
  let rest := Framing.remainder (· == newline) stream
  Framing.frames (· == newline) stream ++ if rest = [] then [] else [rest]

/-- The lines that a scanner gives before the first one that does not fit into a buffer of the size,
and whether there is one. -/
def scanLines (size : Nat) (stream : List UInt8) : List (List UInt8) × Bool :=
  let fits (line : List UInt8) : Bool := line.length < size
  (((streamLines stream).takeWhile fits).map dropCR, !(streamLines stream).all fits)

/-- The most bytes of a request. -/
def localMaxRequestBytes : Nat := 1024 * 1024

/-! ### Messages -/

/-- A request as the daemon decodes it, with the text of its payload. -/
structure Message where
  id : Text
  protocolVersion : Int
  action : Text
  payload : Text

/-- The fields of a request. -/
def messageFields : List (Text × Json.Setter Message) :=
  [("id".toList, fun m _ v => (Json.decodeText m.id v).map fun x => { m with id := x }),
    ("protocolVersion".toList, fun m _ v =>
      (Json.decodeInt m.protocolVersion v).map fun x => { m with protocolVersion := x }),
    ("action".toList, fun m _ v =>
      (Json.decodeText m.action v).map fun x => { m with action := x }),
    ("payload".toList, fun m raw _ => some { m with payload := raw })]

/-- The request of a line. -/
def decodeMessage (line : List UInt8) : Option Message :=
  Json.decodeRecord false messageFields ⟨[], 0, [], []⟩ (Text.ofBytes line)

/-- The details of an error. -/
structure ResponseError where
  code : Text
  message : Text
  retryable : Bool

/-- The response to a request. -/
structure Response where
  id : Text
  protocolVersion : Int
  success : Bool
  data : Option Marshalable
  error : Text
  errorDetails : Option ResponseError

/-- The details as they are encoded. -/
def ResponseError.marshalable (err : ResponseError) : Marshalable :=
  marshalableRecord [("code".toList, some (.str err.code)),
    ("message".toList, some (.str err.message)),
    ("retryable".toList, some (.bool err.retryable))]

/-- The members of a response, empty ones left out. -/
def Response.fields (response : Response) : Fields :=
  [("id".toList, omitempty response.id),
    ("protocolVersion".toList, some (marshalableInt response.protocolVersion)),
    ("success".toList, some (.bool response.success)), ("data".toList, response.data),
    ("error".toList, omitempty response.error),
    ("errorDetails".toList, response.errorDetails.map ResponseError.marshalable)]

/-- A response as it is encoded. -/
def Response.marshalable (response : Response) : Marshalable := marshalableRecord response.fields

/-- What the encoder of a connection writes: nothing for a response that has no encoding. -/
def Response.written (response : Response) : List UInt8 :=
  match Json.marshal response.marshalable with
  | some text => Text.toBytes text ++ [newline]
  | none => []

/-! ### Errors -/

/-- What an error of a handler comes from, as far as clients are told. -/
inductive LocalCause where
  | deadlineExceeded
  | canceled
  | network
  | other

/-- The error of a handler, with its cause. -/
structure LocalError where
  cause : LocalCause
  message : Text

/-- The code of an error, and whether the request may be tried again. -/
def classifyLocalError (err : LocalError) : Text × Bool :=
  match err.cause with
  | .deadlineExceeded => ("deadline_exceeded".toList, true)
  | .canceled => ("canceled".toList, true)
  | .network => ("unavailable".toList, true)
  | .other => ("action_failed".toList, false)

/-- The response with which an error is written. -/
def writeLocalError (id code message : Text) (retryable : Bool) : Response where
  id
  protocolVersion := currentLocalProtocolVersion
  success := false
  data := none
  error := message
  errorDetails := some ⟨code, message, retryable⟩

/-! ### Handlers -/

/-- A handler gets the raw text of the payload, an empty one if the request has none. It gives an
error or data, which may be nil. The connection is not among its arguments: the one handler that
keeps it, that of `siphon_register`, which has the lines of events written on it, is left out. -/
abbrev HandlerFunc (σ : Type) := σ → Text → Except LocalError (Option Marshalable) × σ

/-- The handlers by action. -/
abbrev Routes (σ : Type) := Text → Option (HandlerFunc σ)

variable {σ : Type}

/-- The response to a message, and whether the connection goes on after it. -/
def handleMessage (routes : Routes σ) (d : σ) (msg : Message) : Response × Bool × σ :=
  if msg.protocolVersion ≠ 0 ∧ msg.protocolVersion ≠ currentLocalProtocolVersion then
    (writeLocalError msg.id "protocol_mismatch".toList
      ("unsupported protocol version ".toList ++ Text.decimalInt msg.protocolVersion ++
        " (daemon supports ".toList ++ Text.decimalInt currentLocalProtocolVersion ++ [')'])
      false, true, d)
  else
    match routes msg.action with
    | none =>
      (writeLocalError msg.id "unknown_action".toList ("unknown action: ".toList ++ msg.action)
        false, true, d)
    | some handler =>
      match handler d msg.payload with
      | (.error err, d) =>
        (writeLocalError msg.id (classifyLocalError err).1 err.message (classifyLocalError err).2,
          true, d)
      | (.ok data, d) =>
        (⟨msg.id, currentLocalProtocolVersion, true, data, [], none⟩,
          msg.action != "daemon_shutdown".toList, d)

/-- The response to a line that is no message. -/
def invalidRequest : Response :=
  writeLocalError [] "invalid_request".toList "invalid JSON structure".toList false

/-- The response to a line. -/
def handleLine (routes : Routes σ) (d : σ) (line : List UInt8) : Response × Bool × σ :=
  match decodeMessage line with
  | none => (invalidRequest, true, d)
  | some msg => handleMessage routes d msg

/-- The responses to lines, up to one that ends the connection. -/
def handleLines (routes : Routes σ) : σ → List (List UInt8) → List Response × Bool × σ
  | d, [] => ([], true, d)
  | d, line :: lines =>
    match handleLine routes d line with
    | (response, false, d) => ([response], false, d)
    | (response, true, d) =>
      let rest := handleLines routes d lines
      (response :: rest.1, rest.2)

/-- What the scanner stops with, other than the end of the stream. -/
def scanError (tooLong : Bool) (readError : Option Text) : Option Text :=
  if tooLong then some "bufio.Scanner: token too long".toList else readError

/-- The response when no more lines can be read. -/
def requestTooLarge (err : Text) : Response :=
  writeLocalError [] "request_too_large".toList
    ("read local request (maximum ".toList ++ Text.decimal localMaxRequestBytes ++
      " bytes): ".toList ++ err) false

/-- The responses on a connection whose stream ends, or cannot be read further, and the daemon at the
last of them. What comes after it is left out: the subscriptions of the connection, of which there
are none, are removed, and after `daemon_shutdown` the daemon is closed. -/
def handle (routes : Routes σ) (d : σ) (stream : List UInt8) (readError : Option Text) :
    List Response × σ :=
  let scanned := scanLines localMaxRequestBytes stream
  match handleLines routes d scanned.1, scanError scanned.2 readError with
  | (responses, true, d), some err =>
    (responses ++ [requestTooLarge err], d)
  | (responses, _, d), _ => (responses, d)

/-! ### The stream of one line -/

section Stream

variable {line : List UInt8}

theorem streamLines_line (hline : newline ∉ line) : streamLines (line ++ [newline]) = [line] := by
  have hframe : Framing.IsFrame (· == newline) line := fun b hb =>
    beq_eq_false_iff_ne.mpr fun heq => hline (heq ▸ hb)
  have hframes : Framing.frames (· == newline) (line ++ [newline]) = [line] :=
    Framing.frames_append_cons hframe (by decide) []
  have hrest : Framing.remainder (· == newline) (line ++ [newline]) = [] :=
    Framing.remainder_append_cons line (by decide) []
  rw [streamLines, hframes, hrest]
  rfl

theorem scanLines_line (hline : newline ∉ line) (size : Nat) :
    scanLines size (line ++ [newline]) =
      if line.length < size then ([dropCR line], false) else ([], true) := by
  rw [scanLines, streamLines_line hline]
  split_ifs with hfits <;> simp [hfits]

end Stream

/-- An encoded text has no carriage return at its end. -/
theorem dropCR_toBytes {text : Text} (h : Json.IsLine text) :
    dropCR (Text.toBytes text) = Text.toBytes text := by
  obtain ⟨u, c, rfl, hascii, hspace⟩ := h.last
  have hbyte : Text.toBytes [c] = [UInt8.ofNat c.toNat] := by
    simp [Text.toBytes, Text.encodeRune, hascii]
  refine if_neg fun hlast => ?_
  rw [Text.toBytes_append, hbyte, List.getLast?_append, List.getLast?_singleton, Option.some_or,
    Option.some.injEq] at hlast
  have hcode : c.toNat = 13 := by
    have := congrArg UInt8.toNat hlast
    simp only [carriageReturn, UInt8.toNat_ofNat', UInt8.toNat_ofNat] at this
    omega
  simp [Text.isSpace, hcode] at hspace

/-- The connection on which one line is sent: the response to it, and the daemon after it. -/
theorem handle_line {text : Text} (h : Json.IsLine text) (routes : Routes σ) (d : σ) :
    handle routes d (Text.toBytes text ++ [newline]) none =
      if (Text.toBytes text).length < localMaxRequestBytes then
        ([(handleLine routes d (Text.toBytes text)).1],
          (handleLine routes d (Text.toBytes text)).2.2)
      else ([requestTooLarge "bufio.Scanner: token too long".toList], d) := by
  unfold handle
  rw [scanLines_line (ByteSpace.notMem_toBytes h.noBreak)]
  split_ifs with hfits
  · simp only [dropCR_toBytes h, handleLines]
    generalize handleLine routes d (Text.toBytes text) = handled
    obtain ⟨response, open', d'⟩ := handled
    cases open' <;> rfl
  · rfl

/-! ### The encoding of a response -/

theorem isSome_marshal_present {fields : Fields} :
    (Json.marshal (marshalableRecord fields)).isSome ↔
      ∀ field ∈ fields, ∀ value, field.2 = some value → (Json.marshal value).isSome := by
  rw [marshalableRecord, Json.marshal, Option.isSome_map]
  induction fields with
  | nil => simp [present, Json.marshalMembers]
  | cons field fields ih =>
    obtain ⟨name, content⟩ := field
    rw [List.forall_mem_cons, ← ih]
    cases content with
    | none => simp [present]
    | some content =>
      cases hcontent : Json.marshal content <;>
        cases hfields : Json.marshalMembers (present fields) <;>
          simp [present, Json.marshalMembers, hcontent, hfields]

/-- The data decide whether a response can be encoded. -/
theorem isSome_marshal_response {response : Response} :
    (Json.marshal response.marshalable).isSome ↔
      ∀ data, response.data = some data → (Json.marshal data).isSome := by
  rw [Response.marshalable, isSome_marshal_present]
  have htext : ∀ text value, omitempty text = some value → (Json.marshal value).isSome := by
    intro text value hvalue
    unfold omitempty at hvalue
    split_ifs at hvalue
    obtain rfl := Option.some.inj hvalue
    rfl
  have hstr : ∀ s, (Json.marshal (.str s)).isSome := fun _ => rfl
  have hbool : ∀ b, (Json.marshal (.bool b)).isSome := by
    rintro (_ | _) <;> rfl
  have hversion : (Json.marshal (marshalableInt response.protocolVersion)).isSome := by
    simp [marshalableInt, Json.marshal, Json.isNumber_decimalInt]
  have hdetails : ∀ details : ResponseError, (Json.marshal details.marshalable).isSome := by
    intro details
    rw [ResponseError.marshalable, isSome_marshal_present]
    simp [hstr, hbool]
  simp only [Response.fields, List.forall_mem_cons, List.not_mem_nil, false_implies,
    implies_true, and_true, Option.some.injEq, forall_eq']
  constructor
  · exact fun h => h.2.2.2.1
  · refine fun h => ⟨htext _, hversion, hbool _, h, htext _, ?_⟩
    intro value hvalue
    obtain ⟨details, -, rfl⟩ := Option.map_eq_some_iff.mp hvalue
    exact hdetails details

end Thalweg
